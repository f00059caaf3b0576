import Mathlib.Data.List.Basic

/-! Lines in a stream that is read from the front. `cur` is what has been read of the line that
is not over yet; what comes after the last separator is no line. -/
namespace Framing

variable {α : Type}

/-- A list up to its first element that is the last of its kind, that one included. -/
def upTo (last : α → Bool) : List α → List α
  | [] => []
  | a :: rest => if last a then [a] else a :: upTo last rest

theorem upTo_subset (last : α → Bool) (l : List α) : upTo last l ⊆ l := by
  induction l with
  | nil => exact List.Subset.refl _
  | cons a rest ih =>
    rw [upTo]
    split
    · exact List.cons_subset_cons a (List.nil_subset rest)
    · exact List.cons_subset_cons a ih

theorem upTo_last {last : α → Bool} {l : List α} (ends : ∃ a ∈ l, last a = true) :
    ∃ a ∈ upTo last l, last a = true := by
  induction l with
  | nil => simp at ends
  | cons a rest ih =>
    rw [upTo]
    cases here : last a with
    | true => exact ⟨a, by simp, here⟩
    | false =>
      obtain ⟨k, mem, quit⟩ := ends
      rcases List.mem_cons.mp mem with rfl | later
      · exact absurd (here.symm.trans quit) Bool.false_ne_true
      · obtain ⟨m, inside, quit⟩ := ih ⟨k, later, quit⟩
        exact ⟨m, by simp [inside], quit⟩

/-- Each element as often as its count tells, and once more. -/
def repeated (ps : List (α × Nat)) : List α := ps.flatMap fun p => List.replicate (p.2 + 1) p.1

theorem mem_repeated {ps : List (α × Nat)} {a : α} : a ∈ repeated ps ↔ a ∈ ps.map Prod.fst := by
  simp [repeated, List.mem_flatMap, List.mem_replicate, eq_comm]

theorem map_repeated {β : Type} (f : α → β) (ps : List (α × Nat)) :
    (repeated ps).map f = repeated (ps.map (Prod.map f id)) := by
  simp [repeated, List.map_flatMap, List.flatMap_map]

theorem upTo_replicate {last : α → Bool} {a : α} (more : last a = false) (n : Nat) (l : List α) :
    upTo last (List.replicate n a ++ l) = List.replicate n a ++ upTo last l := by
  induction n with
  | zero => rfl
  | succ n ih => rw [List.replicate_succ, List.cons_append, upTo, more, if_neg (by simp), ih]; rfl

/-- Nothing is repeated after the last. -/
theorem upTo_repeated (last : α → Bool) (ps : List (α × Nat)) :
    ∃ qs, upTo last (ps.map Prod.fst) = qs.map Prod.fst ∧
      upTo last (repeated ps) = repeated qs := by
  induction ps with
  | nil => exact ⟨[], rfl, rfl⟩
  | cons p ps ih =>
    obtain ⟨a, n⟩ := p
    cases ends : last a with
    | true =>
      refine ⟨[(a, 0)], ?_, ?_⟩
      · simp [upTo, ends]
      · simp [repeated, List.replicate_succ, upTo, ends]
    | false =>
      obtain ⟨qs, once, more⟩ := ih
      refine ⟨(a, n) :: qs, ?_, ?_⟩
      · simp [upTo, ends, once]
      · rw [repeated, List.flatMap_cons, upTo_replicate ends]
        exact congrArg _ more

variable [DecidableEq α]

def frames (sep : α) (cur : List α) : List α → List (List α)
  | [] => []
  | a :: rest => if a = sep then cur :: frames sep [] rest else frames sep (cur ++ [a]) rest

/-- Neither a line nor what comes after the last one is longer than `max`. -/
def Fits (sep : α) (max : Nat) (cur : List α) : List α → Prop
  | [] => cur.length ≤ max
  | a :: rest =>
    cur.length ≤ max ∧ if a = sep then Fits sep max [] rest else Fits sep max (cur ++ [a]) rest

/-- Lines, each with the separator after it. -/
def join (sep : α) : List (List α) → List α
  | [] => []
  | l :: ls => l ++ sep :: join sep ls

theorem frames_line {sep : α} {cur body : List α} (plain : sep ∉ body) (rest : List α) :
    frames sep cur (body ++ sep :: rest) = (cur ++ body) :: frames sep [] rest := by
  induction body generalizing cur with
  | nil => simp [frames]
  | cons a body ih =>
    have other : a ≠ sep := fun same => plain (by simp [same])
    have later : sep ∉ body := fun mem => plain (List.mem_cons_of_mem a mem)
    rw [List.cons_append, frames, if_neg other, ih later, List.append_assoc]
    rfl

theorem frames_join {sep : α} {ls : List (List α)} (plain : ∀ l ∈ ls, sep ∉ l) :
    frames sep [] (join sep ls) = ls := by
  induction ls with
  | nil => rfl
  | cons l ls ih =>
    rw [join, frames_line (plain l (by simp)), ih fun k mem => plain k (List.mem_cons_of_mem l mem)]
    rfl

theorem fits_line {sep : α} {max : Nat} {cur body rest : List α} (plain : sep ∉ body)
    (short : (cur ++ body).length ≤ max) (later : Fits sep max [] rest) :
    Fits sep max cur (body ++ sep :: rest) := by
  induction body generalizing cur with
  | nil => exact ⟨by simpa using short, by simpa using later⟩
  | cons a body ih =>
    have other : a ≠ sep := fun same => plain (by simp [same])
    refine ⟨by simp at short; omega, ?_⟩
    rw [if_neg other]
    apply ih (fun mem => plain (List.mem_cons_of_mem a mem))
    simpa using short

theorem fits_join {sep : α} {max : Nat} {ls : List (List α)} (plain : ∀ l ∈ ls, sep ∉ l)
    (short : ∀ l ∈ ls, l.length ≤ max) : Fits sep max [] (join sep ls) := by
  induction ls with
  | nil => exact Nat.zero_le max
  | cons l ls ih =>
    apply fits_line (plain l (by simp)) (short l (by simp))
    exact ih (fun k mem => plain k (List.mem_cons_of_mem l mem))
      (fun k mem => short k (List.mem_cons_of_mem l mem))

theorem Fits.length {sep : α} {max : Nat} {cur : List α} {rest : List α}
    (h : Fits sep max cur rest) : cur.length ≤ max := by
  cases rest with
  | nil => exact h
  | cons a rest => exact h.1

end Framing
