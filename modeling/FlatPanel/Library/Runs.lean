import FlatPanel.Library.Program

/-! Runs of a state machine whose steps are programs: the machine's own state `S`
is passed along, the state `W` of its surroundings is threaded by the programs.
A run that contains a step which never returns has no last state. -/
namespace Runs

variable {W S A V T B : Type}

def run (step : S → A → Program W S) (s : S) : List A → Program W S
  | [] => pure s
  | a :: rest => do
    let s' ← step s a
    run step s' rest

/-- Every step of the run that returns satisfies `R`. -/
def EachStep (step : S → A → Program W S) (R : S → W → A → S → W → Prop) :
    S → W → List A → Prop
  | _, _, [] => True
  | s, w, a :: rest =>
    ∀ s' w', (step s a).run w = some (s', w') → R s w a s' w' ∧ EachStep step R s' w' rest

/-- Every state of the run, the first and the last included, satisfies `P`. -/
def Always (step : S → A → Program W S) (P : S → W → Prop) : S → W → List A → Prop
  | s, w, [] => P s w
  | s, w, a :: rest =>
    P s w ∧ ∀ s' w', (step s a).run w = some (s', w') → Always step P s' w' rest

variable {step : S → A → Program W S}

theorem run_cons_eq (s : S) (a : A) (rest : List A) (w : W) (t : S) (w' : W) :
    (run step s (a :: rest)).run w = some (t, w') ↔
      ∃ s₁ w₁, (step s a).run w = some (s₁, w₁) ∧ (run step s₁ rest).run w₁ = some (t, w') :=
  Program.run_bind_eq _ _ w w' t

theorem run_append (s : S) (as bs : List A) :
    run step s (as ++ bs) = run step s as >>= fun t => run step t bs := by
  induction as generalizing s with
  | nil => simp [run]
  | cons a rest ih => simp [run, ih]

theorem run_append_of_run {s t : S} {w v : W} {as : List A}
    (h : (run step s as).run w = some (t, v)) (bs : List A) :
    (run step s (as ++ bs)).run w = (run step t bs).run v := by
  rw [run_append]
  exact Program.run_bind_of_run h

theorem ensures_run {I : S → W → Prop}
    (keeps : ∀ s w a, I s w → (step s a).Ensures w I)
    (as : List A) {s : S} {w : W} (start : I s w) : (run step s as).Ensures w I := by
  induction as generalizing s w with
  | nil => exact Program.ensures_pure start
  | cons a rest ih =>
    apply Program.ensures_bind
    exact (keeps s w a start).mono (fun s' w' h => ih h)

theorem returns_run {I : S → W → Prop}
    (keeps : ∀ s w a, I s w → (step s a).Returns w I)
    (as : List A) {s : S} {w : W} (start : I s w) : (run step s as).Returns w I := by
  induction as generalizing s w with
  | nil => exact Program.returns_pure start
  | cons a rest ih =>
    apply Program.returns_bind
    exact (keeps s w a start).mono (fun s' w' h => ih h)

theorem Always.head {P : S → W → Prop} {s : S} {w : W} {as : List A}
    (h : Always step P s w as) : P s w := by
  cases as with
  | nil => exact h
  | cons a rest => exact h.1

/-- `Always` read through the prefixes of the run. -/
theorem always_iff_prefix {P : S → W → Prop} (as : List A) (s : S) (w : W) :
    Always step P s w as ↔
      ∀ pre, pre <+: as → (run step s pre).Ensures w P := by
  induction as generalizing s w with
  | nil =>
    constructor
    · intro h pre hp
      obtain rfl := List.prefix_nil.mp hp
      exact Program.ensures_pure h
    · intro h
      exact h [] List.prefix_rfl s w ((Program.run_pure_eq s s w w).mpr ⟨rfl, rfl⟩)
  | cons a rest ih =>
    constructor
    · intro h pre hp
      cases pre with
      | nil => exact Program.ensures_pure h.1
      | cons b pre =>
        obtain ⟨rfl, tail⟩ := List.cons_prefix_cons.mp hp
        apply Program.ensures_bind
        intro s₁ w₁ h₁
        exact (ih s₁ w₁).mp (h.2 s₁ w₁ h₁) pre tail
    · intro h
      refine ⟨h [] (List.nil_prefix) s w ((Program.run_pure_eq s s w w).mpr ⟨rfl, rfl⟩), ?_⟩
      intro s₁ w₁ h₁
      refine (ih s₁ w₁).mpr fun pre hp t w' ht => ?_
      exact h (a :: pre) (List.cons_prefix_cons.mpr ⟨rfl, hp⟩) t w'
        ((run_cons_eq s a pre w t w').mpr ⟨s₁, w₁, h₁, ht⟩)

theorem always_of_keeps {I : S → W → Prop}
    (keeps : ∀ s w a, I s w → (step s a).Ensures w I)
    (as : List A) {s : S} {w : W} (start : I s w) : Always step I s w as := by
  induction as generalizing s w with
  | nil => exact start
  | cons a rest ih => exact ⟨start, fun s' w' h => ih (keeps s w a start s' w' h)⟩

theorem Always.mono {P Q : S → W → Prop} (imp : ∀ s w, P s w → Q s w) {s : S} {w : W}
    {as : List A} (h : Always step P s w as) : Always step Q s w as := by
  induction as generalizing s w with
  | nil => exact imp s w h
  | cons a rest ih => exact ⟨imp s w h.1, fun s' w' hs => ih (h.2 s' w' hs)⟩

theorem EachStep.mono {R Q : S → W → A → S → W → Prop}
    (imp : ∀ s w a s' w', (step s a).run w = some (s', w') → R s w a s' w' → Q s w a s' w')
    {s : S} {w : W} {as : List A} (h : EachStep step R s w as) : EachStep step Q s w as := by
  induction as generalizing s w with
  | nil => trivial
  | cons a rest ih =>
    intro s' w' hs
    exact ⟨imp _ _ _ _ _ hs (h s' w' hs).1, ih (h s' w' hs).2⟩

theorem eachStep_of_keeps {I : S → W → Prop} {R : S → W → A → S → W → Prop}
    (keeps : ∀ s w a, I s w → (step s a).Ensures w I)
    (gives : ∀ s w a s' w', I s w → (step s a).run w = some (s', w') → R s w a s' w')
    (as : List A) {s : S} {w : W} (start : I s w) : EachStep step R s w as := by
  induction as generalizing s w with
  | nil => trivial
  | cons a rest ih =>
    exact fun s' w' h => ⟨gives s w a s' w' start h, ih (keeps s w a start s' w' h)⟩

/-- The exact condition for a property of every step: a step that meets `Q` has it and
keeps the invariant, and a step that has it meets `Q`. -/
theorem eachStep_iff {I : S → W → Prop} {R Q : S → W → A → S → W → Prop}
    (keeps : ∀ s w a s' w', I s w → (step s a).run w = some (s', w') →
      Q s w a s' w' → I s' w' ∧ R s w a s' w')
    (sharp : ∀ s w a s' w', I s w → (step s a).run w = some (s', w') →
      R s w a s' w' → Q s w a s' w')
    (as : List A) {s : S} {w : W} (start : I s w) :
    EachStep step R s w as ↔ EachStep step Q s w as := by
  induction as generalizing s w with
  | nil => exact Iff.rfl
  | cons a rest ih =>
    constructor
    · intro h s' w' hs
      obtain ⟨here, later⟩ := h s' w' hs
      have met := sharp s w a s' w' start hs here
      exact ⟨met, (ih (keeps s w a s' w' start hs met).1).mp later⟩
    · intro h s' w' hs
      obtain ⟨met, later⟩ := h s' w' hs
      obtain ⟨kept, here⟩ := keeps s w a s' w' start hs met
      exact ⟨here, (ih kept).mpr later⟩

/-- The exact condition for a property of every state: steps that meet `C` keep the
invariant `I`, which gives `P`, and a step that does not meet `C` leaves `P` false. -/
theorem always_iff_eachStep {I P : S → W → Prop} {C : S → W → A → Prop}
    (gives : ∀ s w, I s w → P s w)
    (keeps : ∀ s w a, I s w → C s w a → (step s a).Ensures w I)
    (sharp : ∀ s w a, I s w → ¬ C s w a → (step s a).Ensures w (fun s' w' => ¬ P s' w'))
    (as : List A) {s : S} {w : W} (start : I s w) :
    Always step P s w as ↔ EachStep step (fun s w a _ _ => C s w a) s w as := by
  induction as generalizing s w with
  | nil => exact iff_of_true (gives s w start) trivial
  | cons a rest ih =>
    constructor
    · intro h s' w' hs
      have met : C s w a := by
        by_contra unmet
        exact sharp s w a start unmet s' w' hs (h.2 s' w' hs).head
      exact ⟨met, (ih (keeps s w a start met s' w' hs)).mp (h.2 s' w' hs)⟩
    · intro h
      refine ⟨gives s w start, fun s' w' hs => ?_⟩
      exact (ih (keeps s w a start (h s' w' hs).1 s' w' hs)).mpr (h s' w' hs).2

/-- A run whose steps all meet `C` keeps an invariant that such steps keep, and each of them
gives what it gives under the invariant. -/
theorem always_of_met {I : S → W → Prop} {C R : S → W → A → S → W → Prop}
    (keeps : ∀ s w a s' w', I s w → (step s a).run w = some (s', w') → C s w a s' w' →
      I s' w' ∧ R s w a s' w')
    (as : List A) {s : S} {w : W} (start : I s w) (met : EachStep step C s w as) :
    Always step I s w as ∧ EachStep step R s w as := by
  induction as generalizing s w with
  | nil => exact ⟨start, trivial⟩
  | cons a rest ih =>
    have here (s' : S) (w' : W) (hs : (step s a).run w = some (s', w')) :=
      keeps s w a s' w' start hs (met s' w' hs).1
    have later (s' : S) (w' : W) (hs : (step s a).run w = some (s', w')) :=
      ih (here s' w' hs).1 (met s' w' hs).2
    exact ⟨⟨start, fun s' w' hs => (later s' w' hs).1⟩,
      fun s' w' hs => ⟨(here s' w' hs).2, (later s' w' hs).2⟩⟩

/-- A property of one step that can be decided can be decided of a run, by running it. -/
instance EachStep.decidable {R : S → W → A → S → W → Prop}
    [dec : ∀ s w a s' w', Decidable (R s w a s' w')] :
    ∀ s w as, Decidable (EachStep step R s w as)
  | _, _, [] => isTrue trivial
  | s, w, a :: rest =>
    match h : (step s a).run w with
    | none => isTrue fun s' w' hs => absurd (h.symm.trans hs) (by simp)
    | some (s', w') =>
      match dec s w a s' w', EachStep.decidable s' w' rest with
      | isTrue here, isTrue later => isTrue fun t v hs => by
          obtain ⟨rfl, rfl⟩ := Prod.mk.inj (Option.some.inj (h.symm.trans hs))
          exact ⟨here, later⟩
      | isFalse here, _ => isFalse fun all => here (all s' w' h).1
      | _, isFalse later => isFalse fun all => later (all s' w' h).2

theorem eachStep_append {R : S → W → A → S → W → Prop} {s : S} {w : W} {as bs : List A} :
    EachStep step R s w (as ++ bs) ↔ EachStep step R s w as ∧
      (run step s as).Ensures w (fun t v => EachStep step R t v bs) := by
  induction as generalizing s w with
  | nil =>
    constructor
    · exact fun h => ⟨trivial, Program.ensures_pure h⟩
    · exact fun h => h.2 s w ((Program.run_pure_eq s s w w).mpr ⟨rfl, rfl⟩)
  | cons a rest ih =>
    constructor
    · intro h
      refine ⟨fun s' w' hs => ⟨(h s' w' hs).1, (ih.mp (h s' w' hs).2).1⟩, ?_⟩
      apply Program.ensures_bind
      exact fun s' w' hs => (ih.mp (h s' w' hs).2).2
    · rintro ⟨first, later⟩ s' w' hs
      obtain ⟨here, others⟩ := first s' w' hs
      refine ⟨here, ih.mpr ⟨others, fun t v ht => ?_⟩⟩
      exact later t v ((run_cons_eq s a rest w t v).mpr ⟨s', w', hs, ht⟩)

/-- An invariant that speaks of the inputs still to come. -/
theorem eachStep_of_ahead {I : List A → S → W → Prop} {R : S → W → A → S → W → Prop}
    (keeps : ∀ a rest s w s' w', I (a :: rest) s w → (step s a).run w = some (s', w') →
      R s w a s' w' ∧ I rest s' w')
    (as : List A) {s : S} {w : W} (start : I as s w) :
    EachStep step R s w as ∧ (run step s as).Ensures w (I []) := by
  induction as generalizing s w with
  | nil => exact ⟨trivial, Program.ensures_pure start⟩
  | cons a rest ih =>
    constructor
    · intro s' w' hs
      obtain ⟨here, kept⟩ := keeps a rest s w s' w' start hs
      exact ⟨here, (ih kept).1⟩
    · apply Program.ensures_bind
      exact fun s' w' hs => (ih (keeps a rest s w s' w' start hs).2).2

/-- Two machines, the second of which follows the first: to each input `a` of the first it
is given the inputs `f a`, and the relation between the two is kept by every step that
meets `C`. -/
theorem run_relation {other : T → B → Program V T} {Rel : S → W → T → V → Prop}
    {C : S → W → A → S → W → Prop} (f : A → List B)
    (keeps : ∀ s w t v a s' w', Rel s w t v → (step s a).run w = some (s', w') →
      C s w a s' w' → (run other t (f a)).Returns v (fun t' v' => Rel s' w' t' v'))
    (as : List A) {s s' : S} {w w' : W} {t : T} {v : V} (start : Rel s w t v)
    (met : EachStep step C s w as) (h : (run step s as).run w = some (s', w')) :
    (run other t (as.flatMap f)).Returns v (fun t' v' => Rel s' w' t' v') := by
  induction as generalizing s w t v with
  | nil =>
    obtain ⟨rfl, rfl⟩ := (Program.run_pure_eq s s' w w').mp h
    exact Program.returns_pure start
  | cons a rest ih =>
    obtain ⟨s₁, w₁, first, later⟩ := (run_cons_eq s a rest w s' w').mp h
    obtain ⟨here, others⟩ := met s₁ w₁ first
    rw [List.flatMap_cons, run_append]
    apply Program.returns_bind
    exact (keeps s w t v a s₁ w₁ start first here).mono fun t₁ v₁ kept => ih kept others later

end Runs
