import FlatPanel.Library.Runs

/-! Programs on a state `V` that do to a part of it what other programs do to the whole of a
state `W`, and return the same. What `V` has besides may be recorded on the way and is never
looked at, so each of the two runs exactly as the other. -/
namespace Program

variable {V W α β σ : Type} {part : V → W}

/-- `k` returns what `m` returns from the part, and changes the part as `m` does. -/
def Follows (part : V → W) (k : Program V α) (m : Program W α) : Prop :=
  ∀ v, (k.run v).map (fun r => (r.1, part r.2)) = m.run (part v)

theorem Follows.run_eq {k : Program V α} {m : Program W α} (h : Follows part k m) {v v' : V}
    {a : α} (hk : k.run v = some (a, v')) : m.run (part v) = some (a, part v') := by
  rw [← h v, hk]
  rfl

theorem Follows.exists_run {k : Program V α} {m : Program W α} (h : Follows part k m) {v : V}
    {a : α} {w' : W} (hm : m.run (part v) = some (a, w')) :
    ∃ v', k.run v = some (a, v') ∧ part v' = w' := by
  rw [← h v] at hm
  obtain ⟨⟨b, v'⟩, hk, same⟩ := Option.map_eq_some_iff.mp hm
  obtain ⟨rfl, rfl⟩ := Prod.mk.inj same
  exact ⟨v', hk, rfl⟩

theorem follows_iff {k : Program V α} {m : Program W α} : Follows part k m ↔
    ∀ v a w', m.run (part v) = some (a, w') ↔ ∃ v', k.run v = some (a, v') ∧ part v' = w' := by
  constructor
  · intro h v a w'
    constructor
    · exact h.exists_run
    · rintro ⟨v', hk, rfl⟩
      exact h.run_eq hk
  · intro h v
    apply Option.ext
    rintro ⟨a, w'⟩
    rw [h v a w', Option.map_eq_some_iff]
    constructor
    · rintro ⟨⟨b, v'⟩, hk, same⟩
      obtain ⟨rfl, rfl⟩ := Prod.mk.inj same
      exact ⟨v', hk, rfl⟩
    · rintro ⟨v', hk, rfl⟩
      exact ⟨(a, v'), hk, rfl⟩

/-- A program that is `m` run on the part, with its result put back. -/
theorem follows_within {k : Program V α} {m : Program W α} {put : V → α × W → α × V}
    (runs : ∀ v, k.run v = (m.run (part v)).map (put v))
    (kept : ∀ v r, ((put v r).1, part (put v r).2) = r) : Follows part k m := by
  intro v
  rw [runs, Option.map_map]
  have same : (fun r => (r.1, part r.2)) ∘ put v = id := funext (kept v)
  rw [same, Option.map_id]
  rfl

theorem follows_pure (a : α) : Follows part (pure a) (pure a) := fun _ => rfl

theorem Follows.bind {k : Program V α} {m : Program W α} {f : α → Program V β}
    {g : α → Program W β} (first : Follows part k m) (later : ∀ a, Follows part (f a) (g a)) :
    Follows part (k >>= f) (m >>= g) := by
  rw [follows_iff]
  intro v b w'
  rw [run_bind_eq]
  constructor
  · rintro ⟨a, w₁, hm, hg⟩
    obtain ⟨v₁, hk, rfl⟩ := first.exists_run hm
    obtain ⟨v', hf, rfl⟩ := (later a).exists_run hg
    exact ⟨v', (run_bind_eq _ _ _ _ _).mpr ⟨a, v₁, hk, hf⟩, rfl⟩
  · rintro ⟨v', hs, rfl⟩
    obtain ⟨a, v₁, hk, hf⟩ := (run_bind_eq _ _ _ _ _).mp hs
    exact ⟨a, part v₁, first.run_eq hk, (later a).run_eq hf⟩

theorem Follows.ite {c : Prop} [Decidable c] {k k' : Program V α} {m m' : Program W α}
    (yes : Follows part k m) (no : Follows part k' m') :
    Follows part (if c then k else k') (if c then m else m') := by
  by_cases h : c
  · rw [if_pos h, if_pos h]
    exact yes
  · rw [if_neg h, if_neg h]
    exact no

theorem Follows.loop {f : σ → Program V (σ ⊕ α)} {g : σ → Program W (σ ⊕ α)}
    (trip : ∀ s, Follows part (f s) (g s)) (n : Nat) (s : σ) :
    Follows part (Program.loop f n s) (Program.loop g n s) := by
  induction n generalizing s with
  | zero => exact fun _ => rfl
  | succ n ih =>
    apply (trip s).bind
    intro r
    cases r with
    | inl s' => exact ih s'
    | inr a => exact follows_pure a

theorem Follows.trips {f : σ → Program V (σ ⊕ α)} {g : σ → Program W (σ ⊕ α)}
    (trip : ∀ s, Follows part (f s) (g s)) (n : Nat) (s : σ) :
    Follows part (Program.trips f n s) (Program.trips g n s) := by
  induction n generalizing s with
  | zero => exact follows_pure _
  | succ n ih =>
    apply (trip s).bind
    intro r
    cases r with
    | inl s' => exact ih s'
    | inr a => exact follows_pure _

/-- What is so of every result of one is so of every result of the other. -/
theorem Follows.ensures_iff {k : Program V α} {m : Program W α} (h : Follows part k m) {v : V}
    {Q : α → W → Prop} : k.Ensures v (fun a v' => Q a (part v')) ↔ m.Ensures (part v) Q := by
  constructor
  · intro ensures a w' hm
    obtain ⟨v', hk, rfl⟩ := h.exists_run hm
    exact ensures a v' hk
  · exact fun ensures a v' hk => ensures a (part v') (h.run_eq hk)

theorem Follows.returns_iff {k : Program V α} {m : Program W α} (h : Follows part k m) {v : V}
    {Q : α → W → Prop} : k.Returns v (fun a v' => Q a (part v')) ↔ m.Returns (part v) Q := by
  constructor
  · rintro ⟨a, v', hk, hq⟩
    exact ⟨a, part v', h.run_eq hk, hq⟩
  · rintro ⟨a, w', hm, hq⟩
    obtain ⟨v', hk, rfl⟩ := h.exists_run hm
    exact ⟨a, v', hk, hq⟩

theorem Follows.ends_iff {k : Program V α} {m : Program W α} (h : Follows part k m) {v : V} :
    k.Returns v (fun _ _ => True) ↔ m.Returns (part v) (fun _ _ => True) :=
  h.returns_iff (Q := fun _ _ => True)

end Program

namespace Runs

open Program

variable {V W S A : Type} {part : V → W} {big : S → A → Program V S} {step : S → A → Program W S}

theorem follows_run (steps : ∀ s a, Follows part (big s a) (step s a)) (as : List A) (s : S) :
    Follows part (run big s as) (run step s as) := by
  induction as generalizing s with
  | nil => exact follows_pure s
  | cons a rest ih => exact (steps s a).bind fun s' => ih s'

end Runs
