import Mathlib.Tactic

/-! Programs on a state that may fail to return. `none` means that a loop was
still going when its trip bound ran out, so a statement about every result says
nothing about a program that never returns, and `Returns` says that it does.
Nothing here depends on what the state is. -/

abbrev Program (W α : Type) := StateT W Option α

namespace Program

variable {W α β σ : Type}

/-- Every result the program can return from `w` satisfies `Q`. -/
def Ensures (m : Program W α) (w : W) (Q : α → W → Prop) : Prop :=
  ∀ a w', m.run w = some (a, w') → Q a w'

/-- The program returns from `w`, with a result that satisfies `Q`. -/
def Returns (m : Program W α) (w : W) (Q : α → W → Prop) : Prop :=
  ∃ a w', m.run w = some (a, w') ∧ Q a w'

theorem run_pure_eq (a b : α) (w w' : W) :
    (pure a : Program W α).run w = some (b, w') ↔ a = b ∧ w = w' := by
  simp [StateT.run_pure]

theorem run_bind_eq (m : Program W α) (f : α → Program W β) (w w' : W) (b : β) :
    (m >>= f).run w = some (b, w') ↔
      ∃ a w₁, m.run w = some (a, w₁) ∧ (f a).run w₁ = some (b, w') := by
  simp only [StateT.run_bind, Option.bind_eq_bind, Option.bind_eq_some_iff, Prod.exists]

theorem run_bind_of_run {m : Program W α} {f : α → Program W β} {w w₁ : W} {a : α}
    (h : m.run w = some (a, w₁)) : (m >>= f).run w = (f a).run w₁ := by
  simp [StateT.run_bind, h]

theorem run_map_eq (m : Program W α) (f : α → β) (w w' : W) (b : β) :
    (f <$> m).run w = some (b, w') ↔ ∃ a, m.run w = some (a, w') ∧ f a = b := by
  simp [StateT.run_map]

theorem run_unique {m : Program W α} {w w₁ w₂ : W} {a b : α} (h : m.run w = some (a, w₁))
    (h' : m.run w = some (b, w₂)) : a = b ∧ w₁ = w₂ :=
  Prod.mk.inj (Option.some.inj (h.symm.trans h'))

/-- A program returns at most one result, so a result it returns is the only one. -/
theorem Returns.ensures {m : Program W α} {w : W} {Q : α → W → Prop}
    (h : m.Returns w Q) : m.Ensures w Q := by
  obtain ⟨a, w', hm, hq⟩ := h
  intro b w'' hb
  obtain ⟨rfl, rfl⟩ := run_unique hm hb
  exact hq

theorem Ensures.mono {m : Program W α} {w : W} {Q R : α → W → Prop}
    (h : m.Ensures w Q) (imp : ∀ a w', Q a w' → R a w') : m.Ensures w R :=
  fun a w' hm => imp a w' (h a w' hm)

theorem Returns.mono {m : Program W α} {w : W} {Q R : α → W → Prop}
    (h : m.Returns w Q) (imp : ∀ a w', Q a w' → R a w') : m.Returns w R := by
  obtain ⟨a, w', hm, hq⟩ := h
  exact ⟨a, w', hm, imp a w' hq⟩

/-- What is so of every result, and that there is one. -/
theorem Ensures.returns {m : Program W α} {w : W} {Q : α → W → Prop} (h : m.Ensures w Q)
    (ends : m.Returns w (fun _ _ => True)) : m.Returns w Q := by
  obtain ⟨a, w', hm, _⟩ := ends
  exact ⟨a, w', hm, h a w' hm⟩

theorem Returns.holds_iff {m : Program W α} {w : W} {Q : α → W → Prop} {c : Prop}
    (h : m.Returns w (fun a w' => Q a w' ↔ c)) : m.Returns w Q ↔ c := by
  obtain ⟨a, w', hm, decided⟩ := h
  constructor
  · exact fun holds => decided.mp (holds.ensures a w' hm)
  · exact fun hc => ⟨a, w', hm, decided.mpr hc⟩

theorem ensures_true (m : Program W α) (w : W) : m.Ensures w (fun _ _ => True) :=
  fun _ _ _ => trivial

theorem ensures_pure {a : α} {w : W} {Q : α → W → Prop} (h : Q a w) :
    (pure a : Program W α).Ensures w Q := by
  intro b w' hb
  obtain ⟨rfl, rfl⟩ := (run_pure_eq a b w w').mp hb
  exact h

theorem ensures_bind {m : Program W α} {f : α → Program W β} {w : W} {Q : β → W → Prop}
    (h : m.Ensures w (fun a w₁ => (f a).Ensures w₁ Q)) : (m >>= f).Ensures w Q := by
  intro b w' hb
  obtain ⟨a, w₁, hm, hf⟩ := (run_bind_eq m f w w' b).mp hb
  exact h a w₁ hm b w' hf

theorem ensures_ite {c : Prop} [Decidable c] {m k : Program W α} {w : W} {Q : α → W → Prop}
    (yes : c → m.Ensures w Q) (no : ¬ c → k.Ensures w Q) :
    (if c then m else k).Ensures w Q := by
  by_cases h : c
  · rw [if_pos h]; exact yes h
  · rw [if_neg h]; exact no h

/-- A program `k` on a larger state `V` that runs `m` on a part of it. -/
theorem ensures_within {V : Type} {m : Program W α} {k : Program V β} {w : W} {v : V}
    {put : α × W → β × V} {P : α → W → Prop} {Q : β → V → Prop}
    (runs : k.run v = (m.run w).map put) (h : m.Ensures w P)
    (gives : ∀ a w', P a w' → Q (put (a, w')).1 (put (a, w')).2) : k.Ensures v Q := by
  intro b v' hk
  rw [runs] at hk
  obtain ⟨⟨a, w'⟩, hm, same⟩ := Option.map_eq_some_iff.mp hk
  have given := gives a w' (h a w' hm)
  rwa [same] at given

theorem returns_pure {a : α} {w : W} {Q : α → W → Prop} (h : Q a w) :
    (pure a : Program W α).Returns w Q :=
  ⟨a, w, (run_pure_eq a a w w).mpr ⟨rfl, rfl⟩, h⟩

theorem returns_bind {m : Program W α} {f : α → Program W β} {w : W} {Q : β → W → Prop}
    (h : m.Returns w (fun a w₁ => (f a).Returns w₁ Q)) : (m >>= f).Returns w Q := by
  obtain ⟨a, w₁, hm, b, w', hf, hq⟩ := h
  exact ⟨b, w', (run_bind_eq m f w w' b).mpr ⟨a, w₁, hm, hf⟩, hq⟩

theorem returns_map {m : Program W α} {f : α → β} {w : W} {Q : β → W → Prop}
    (h : m.Returns w (fun a w' => Q (f a) w')) : (f <$> m).Returns w Q := by
  obtain ⟨a, w', hm, hq⟩ := h
  exact ⟨f a, w', (run_map_eq m f w w' (f a)).mpr ⟨a, hm, rfl⟩, hq⟩

theorem returns_ite {c : Prop} [Decidable c] {m k : Program W α} {w : W} {Q : α → W → Prop}
    (yes : c → m.Returns w Q) (no : ¬ c → k.Returns w Q) :
    (if c then m else k).Returns w Q := by
  by_cases h : c
  · rw [if_pos h]; exact yes h
  · rw [if_neg h]; exact no h

/-- `while (true)` with the loop's own variables `σ`: a trip goes round again
(`inl`) or leaves the loop (`inr`). The bound on trips is the only fuel. -/
def loop (body : σ → Program W (σ ⊕ α)) : Nat → σ → Program W α
  | 0, _ => fun _ => none
  | n + 1, s => do
    match ← body s with
    | .inl s' => loop body n s'
    | .inr a => pure a

theorem loop_zero (body : σ → Program W (σ ⊕ α)) (s : σ) (w : W) :
    (loop body 0 s).run w = none := rfl

/-- The invariant rule: what each trip keeps, and each way out establishes. -/
theorem ensures_loop {body : σ → Program W (σ ⊕ α)} {Q : α → W → Prop} (I : σ → W → Prop)
    (trip : ∀ s w, I s w → (body s).Ensures w (fun r w' =>
      match r with
      | .inl s' => I s' w'
      | .inr a => Q a w'))
    (n : Nat) {s : σ} {w : W} (start : I s w) : (loop body n s).Ensures w Q := by
  induction n generalizing s w with
  | zero => intro a w' h; simp [loop_zero] at h
  | succ n ih =>
    apply ensures_bind
    refine (trip s w start).mono ?_
    intro r w₁ hr
    cases r with
    | inl s' => exact ih hr
    | inr a => exact ensures_pure hr

/-- The variant rule: each trip lowers `μ` or leaves, and the bound exceeds `μ`. -/
theorem returns_loop {body : σ → Program W (σ ⊕ α)} {Q : α → W → Prop} (I : σ → W → Prop)
    (μ : σ → W → Nat)
    (trip : ∀ s w, I s w → (body s).Returns w (fun r w' =>
      match r with
      | .inl s' => I s' w' ∧ μ s' w' < μ s w
      | .inr a => Q a w'))
    (n : Nat) {s : σ} {w : W} (start : I s w) (enough : μ s w < n) :
    (loop body n s).Returns w Q := by
  induction n generalizing s w with
  | zero => omega
  | succ n ih =>
    apply returns_bind
    refine (trip s w start).mono ?_
    intro r w₁ hr
    cases r with
    | inl s' => exact ih hr.1 (by omega)
    | inr a => exact returns_pure hr

/-- The loop stopped after so many trips, which leaves it with its variables (`inl`) unless
it was over before. -/
def trips (body : σ → Program W (σ ⊕ α)) : Nat → σ → Program W (σ ⊕ α)
  | 0, s => pure (.inl s)
  | n + 1, s => do
    match ← body s with
    | .inl s' => trips body n s'
    | .inr a => pure (.inr a)

theorem loop_eq_trips (body : σ → Program W (σ ⊕ α)) (n : Nat) (s : σ) :
    loop body n s = trips body n s >>= fun r =>
      match r with
      | .inl _ => fun _ => none
      | .inr a => pure a := by
  induction n generalizing s with
  | zero => simp only [trips, pure_bind]; rfl
  | succ n ih =>
    simp only [loop, trips, bind_assoc]
    congr 1
    funext r
    cases r with
    | inl s' => exact ih s'
    | inr a => simp only [pure_bind]

/-- After a trip: the loop goes round with `I`, or it is left with `Q`. -/
def Trip (I : σ → W → Prop) (Q : α → W → Prop) : σ ⊕ α → W → Prop
  | .inl s, w => I s w
  | .inr a, w => Q a w

/-- The invariant rule where the trips are counted: what trip number `k` keeps, and what a way
out in that trip establishes. -/
theorem returns_trips {body : σ → Program W (σ ⊕ α)} {I : Nat → σ → W → Prop}
    {Q : Nat → α → W → Prop}
    (trip : ∀ k s w, I k s w → (body s).Returns w (Trip (I (k + 1)) (Q k)))
    (n : Nat) {k : Nat} {s : σ} {w : W} (start : I k s w) :
    (trips body n s).Returns w (Trip (I (k + n)) (fun a w' => ∃ j < k + n, Q j a w')) := by
  induction n generalizing k s w with
  | zero => exact returns_pure start
  | succ n ih =>
    apply returns_bind
    refine (trip k s w start).mono ?_
    intro r w₁ hr
    cases r with
    | inl s' =>
      have later := ih hr
      rwa [Nat.add_assoc, Nat.add_comm 1 n] at later
    | inr a => exact returns_pure ⟨k, by omega, hr⟩

end Program
