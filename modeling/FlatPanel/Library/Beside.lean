import FlatPanel.Library.Projection

/-! Two states side by side, and programs that use one of them. Such a program does what it
does alone, and leaves the other state as it was. -/
namespace Program

variable {V W α σ : Type}

def onFst (m : Program V α) : Program (V × W) α := fun s =>
  (m.run s.1).map fun r => (r.1, (r.2, s.2))

def onSnd (m : Program W α) : Program (V × W) α := fun s =>
  (m.run s.2).map fun r => (r.1, (s.1, r.2))

/-- What is returned may be noted on the other state. -/
def noting (note : V → α → V) (m : Program W α) : Program (V × W) α := fun s =>
  (m.run s.2).map fun r => (r.1, (note s.1 r.1, r.2))

theorem noting_follows (note : V → α → V) (m : Program W α) :
    Follows Prod.snd (noting note m) m := follows_within (fun _ => rfl) fun _ _ => rfl

theorem noting_ensures (note : V → α → V) (m : Program W α) (s : V × W) :
    (noting note m).Ensures s (fun a s' => s'.1 = note s.1 a) :=
  ensures_within rfl (ensures_true m s.2) fun _ _ _ => rfl

theorem onSnd_within (m : Program W α) : Follows (Prod.snd : V × W → W) (onSnd m) m :=
  noting_follows (fun v _ => v) m

theorem onSnd_ensures (m : Program W α) (s : V × W) :
    (onSnd m).Ensures s (fun _ s' => s'.1 = s.1) := noting_ensures (fun v _ => v) m s

/-- A watching automaton, which each result moves. It is stuck (`none`) after one it does not
permit. -/
def watched (next : σ → α → Option σ) (m : Program W α) : Program (Option σ × W) α :=
  noting (fun q a => q.bind fun s => next s a) m

theorem watched_follows (next : σ → α → Option σ) (m : Program W α) :
    Follows Prod.snd (watched next m) m := noting_follows _ m

theorem watched_ensures (next : σ → α → Option σ) (m : Program W α) {s : σ} {t : Option σ × W}
    (here : t.1 = some s) : (watched next m).Ensures t (fun a t' => t'.1 = next s a) := by
  refine (noting_ensures (fun q a => q.bind fun s => next s a) m t).mono ?_
  intro a t' moved
  rw [moved, here]
  rfl

/-- Seen from one state, the other is what the larger state has besides. -/
theorem onFst_follows (w : W) (m : Program V α) :
    Follows (fun v => (v, w)) m (onFst m) := fun _ => rfl

theorem onSnd_follows (v : V) (m : Program W α) :
    Follows (fun w => (v, w)) m (onSnd m) := fun _ => rfl

theorem Follows.of_fst {k : Program V α} {m : Program (V × W) α} {w : W}
    (h : Follows (fun v => (v, w)) k m) (v : V) :
    m.Ensures (v, w) (fun a s => k.run v = some (a, s.1) ∧ s.2 = w) :=
  h.ensures_iff.mp fun _ _ hk => ⟨hk, rfl⟩

theorem Follows.of_snd {k : Program W α} {m : Program (V × W) α} {v : V}
    (h : Follows (fun w => (v, w)) k m) (w : W) :
    m.Ensures (v, w) (fun a s => k.run w = some (a, s.2) ∧ s.1 = v) :=
  h.ensures_iff.mp fun _ _ hk => ⟨hk, rfl⟩

/-- The invariant rule for a loop that is stopped after so many trips. -/
theorem ensures_trips {body : σ → Program W (σ ⊕ α)} {I : Nat → σ → W → Prop}
    {Q : α → W → Prop} (trip : ∀ k s w, I k s w → (body s).Ensures w (Trip (I (k + 1)) Q))
    (n : Nat) {k : Nat} {s : σ} {w : W} (start : I k s w) :
    (trips body n s).Ensures w (Trip (I (k + n)) Q) := by
  induction n generalizing k s w with
  | zero => exact ensures_pure start
  | succ n ih =>
    apply ensures_bind
    refine (trip k s w start).mono ?_
    intro r w₁ hr
    cases r with
    | inl s' =>
      have later := ih hr
      rwa [Nat.add_assoc, Nat.add_comm 1 n] at later
    | inr a => exact ensures_pure hr

end Program
