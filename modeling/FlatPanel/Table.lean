import FlatPanel.Library.Cells
import FlatPanel.Levels

/-! The level table as the array it is declared to be. The same code as in `Levels`, here
with the index of every access to `map` recorded: what it computes is what it computes
there, and which of its accesses leave the array is exactly known. -/
namespace FlatPanel

open Program Cells

/-- The table that readers of `map` find. -/
def IntenMap.ofCells (c : Cells Nat) : IntenMap := ⟨fun i => c.words i⟩

namespace Table

/-- One trip of the constructor's loop, whose guard is `i <= 255`. -/
def iteration (i : Nat) : Program (Cells Nat) (Nat ⊕ Unit) := do
  if i ≤ 255 then
    set i (IntenMap._usbdVal i)
    return .inl (i + 1)
  else
    return .inr ()

def construct : Program (Cells Nat) Unit := loop iteration 257 0

def usbdVal (blvl : Nat) : Program (Cells Nat) Nat := get (min blvl 255 : Nat)

/-- One trip of the search. The word in the middle is read once for each comparison. -/
def halve (inten : Nat) (ab : Int × Int) : Program (Cells Nat) ((Int × Int) ⊕ Int) := do
  if ab.1 < ab.2 then
    let mid := (ab.1 + ab.2).tdiv 2
    if (← get mid) = inten then
      return .inr mid
    else if (← get mid) < inten then
      return .inl (mid + 1, ab.2)
    else
      return .inl (ab.1, mid - 1)
  else
    return .inr ab.1

def alnitakVal (inten : Nat) : Program (Cells Nat) UInt8 := do
  let r ← loop (halve inten) 256 (0, 255)
  return UInt8.ofInt r

/-- The uses the program makes of the table. -/
inductive Use where
  | iteration (i : Nat)
  | usbdVal (blvl : Nat)
  | alnitakVal (inten : Nat)

def step (_ : Unit) : Use → Program (Cells Nat) Unit
  | .iteration i => do let _ ← iteration i
  | .usbdVal blvl => do let _ ← usbdVal blvl
  | .alnitakVal inten => do let _ ← alnitakVal inten

/-- A use that stays inside the declared array. -/
def Use.Fits : Use → Prop
  | .iteration i => i ≠ 255
  | .usbdVal blvl => blvl < 255
  | .alnitakVal _ => True

theorem inside_iff (i : Nat) : (0 ≤ (i : Int) ∧ (i : Int) < IntenMap.mapLength) ↔ i < 255 := by
  simp only [IntenMap.mapLength]
  omega

/-- What a trip of the constructor's loop leaves. -/
def Fills (i : Nat) (c : Cells Nat) : Nat ⊕ Unit → Cells Nat → Prop
  | .inl i', c' => i ≤ 255 ∧ i' = i + 1 ∧
      c'.words = Function.update c.words i (IntenMap._usbdVal i)
  | .inr _, c' => 255 < i ∧ c' = c

theorem iteration_returns (i : Nat) (c : Cells Nat) :
    (iteration i).Returns c (fun r c' => Fills i c r c' ∧
      Kept IntenMap.mapLength (i ≠ 255) c c') := by
  apply returns_ite
  · intro inRange
    apply returns_bind
    refine (set_returns IntenMap.mapLength i _ c).mono ?_
    rintro _ c' ⟨stored, kept⟩
    exact returns_pure ⟨⟨inRange, rfl, stored⟩, kept.congr ((inside_iff i).trans (by omega))⟩
  · intro past
    exact returns_pure ⟨⟨by omega, rfl⟩, Kept.rfl.congr (iff_of_true trivial (by omega))⟩

/-- The table was read, inside the array, and not changed. -/
structure Reads (c c' : Cells Nat) : Prop where
  same : c'.words = c.words
  kept : Kept IntenMap.mapLength True c c'

theorem Reads.refl (c : Cells Nat) : Reads c c := ⟨rfl, Kept.rfl⟩

theorem Reads.trans {c c₁ c₂ : Cells Nat} (h : Reads c c₁) (h' : Reads c₁ c₂) : Reads c c₂ :=
  ⟨h'.same.trans h.same, (h.kept.trans h'.kept).congr (and_self_iff)⟩

theorem Reads.ofCells {c c' : Cells Nat} (h : Reads c c') :
    IntenMap.ofCells c' = IntenMap.ofCells c := by
  simp only [IntenMap.ofCells, h.same]

theorem get_reads {i : Nat} (inside : i < 255) (c : Cells Nat) :
    (get (i : Int)).Returns c (fun v c' => v = (IntenMap.ofCells c).map i ∧ Reads c c') := by
  refine (get_returns IntenMap.mapLength i c).mono ?_
  rintro v c' ⟨rfl, same, kept⟩
  exact ⟨rfl, same, kept.congr (iff_true_intro ((inside_iff i).mpr inside))⟩

theorem usbdVal_returns (blvl : Nat) (c : Cells Nat) :
    (usbdVal blvl).Returns c (fun v c' => v = (IntenMap.ofCells c).usbdVal blvl ∧
      c'.words = c.words ∧ Kept IntenMap.mapLength (blvl < 255) c c') := by
  refine (get_returns IntenMap.mapLength (min blvl 255 : Nat) c).mono ?_
  rintro v c' ⟨rfl, same, kept⟩
  exact ⟨rfl, same, kept.congr ((inside_iff _).trans (by omega))⟩

/-- A trip of the search as `IntenMap.search` takes it: it goes on with a smaller part of the
table, or it has the answer. -/
def Narrows (map : Nat → Nat) (inten : Nat) (ab : Int × Int) : (Int × Int) ⊕ Int → Prop
  | .inl ab' => ab.1 < ab.2 ∧ 0 ≤ ab'.1 ∧ ab'.2 ≤ 255 ∧ ab'.2 - ab'.1 < ab.2 - ab.1 ∧
      ∀ trips, IntenMap.search map inten (trips + 1) ab.1 ab.2 =
        IntenMap.search map inten trips ab'.1 ab'.2
  | .inr r => ∀ trips, IntenMap.search map inten (trips + 1) ab.1 ab.2 = some r

theorem halve_narrows (inten : Nat) {a b : Int} (lo : 0 ≤ a) (hi : b ≤ 255) (c : Cells Nat) :
    (halve inten (a, b)).Returns c (fun r c' =>
      Narrows (IntenMap.ofCells c).map inten (a, b) r ∧ Reads c c') := by
  apply returns_ite
  · intro (more : a < b)
    obtain ⟨mid, hmid, left, right⟩ := IntenMap.mid_between lo more
    simp only [hmid]
    have inside : mid < 255 := by omega
    apply returns_bind
    refine (get_reads inside c).mono ?_
    rintro v c₁ ⟨rfl, reads₁⟩
    apply returns_ite
    · intro hit
      refine returns_pure ⟨fun trips => ?_, reads₁⟩
      simp only [IntenMap.search, if_pos more, hmid, Int.toNat_natCast, if_pos hit]
    · intro miss
      apply returns_bind
      refine (get_reads inside c₁).mono ?_
      rintro v c₂ ⟨rfl, reads₂⟩
      rw [reads₁.ofCells]
      have reads := reads₁.trans reads₂
      apply returns_ite
      · intro small
        refine returns_pure ⟨⟨more, ?_, hi, ?_, fun trips => ?_⟩, reads⟩
        · simp only
          omega
        · simp only
          omega
        · simp only [IntenMap.search, if_pos more, hmid, Int.toNat_natCast, if_neg miss,
            if_pos small]
      · intro large
        refine returns_pure ⟨⟨more, lo, ?_, ?_, fun trips => ?_⟩, reads⟩
        · simp only
          omega
        · simp only
          omega
        · simp only [IntenMap.search, if_pos more, hmid, Int.toNat_natCast, if_neg miss,
            if_neg large]
  · intro (done : ¬ a < b)
    refine returns_pure ⟨fun trips => ?_, Reads.refl c⟩
    simp only [IntenMap.search, if_neg done]

/-- Whatever the table holds, each trip leaves less of it, so the search ends. -/
theorem search_returns (inten trips : Nat) {a b : Int} (lo : 0 ≤ a) (hi : b ≤ 255)
    (enough : b - a < trips) (some_trip : 0 < trips) (c : Cells Nat) :
    (loop (halve inten) trips (a, b)).Returns c (fun r c' =>
      IntenMap.search (IntenMap.ofCells c).map inten trips a b = some r ∧ Reads c c') := by
  induction trips generalizing a b c with
  | zero => omega
  | succ trips ih =>
    apply returns_bind
    refine (halve_narrows inten lo hi c).mono ?_
    rintro (⟨a', b'⟩ | r) c₁ ⟨narrows, reads⟩
    · obtain ⟨more, lo', hi', less, same⟩ := narrows
      refine (ih lo' hi' (by omega) (by omega) c₁).mono ?_
      rintro r c₂ ⟨found, reads'⟩
      rw [reads.ofCells, ← same] at found
      exact ⟨found, reads.trans reads'⟩
    · exact returns_pure ⟨narrows trips, reads⟩

theorem alnitakVal_returns (inten : Nat) (c : Cells Nat) :
    (alnitakVal inten).Returns c (fun v c' =>
      v = (IntenMap.ofCells c).alnitakVal inten ∧ Reads c c') := by
  apply returns_bind
  refine (search_returns inten 256 (by decide) (by decide) (by decide) (by decide) c).mono ?_
  rintro r c' ⟨found, reads⟩
  refine returns_pure ⟨?_, reads⟩
  rw [IntenMap.alnitakVal, found, Option.getD_some]

theorem step_kept (u : Use) (c : Cells Nat) :
    (step () u).Returns c (fun _ c' => Kept IntenMap.mapLength u.Fits c c') := by
  cases u with
  | iteration i =>
    apply returns_bind
    exact (iteration_returns i c).mono fun _ c' h => returns_pure h.2
  | usbdVal blvl =>
    apply returns_bind
    exact (usbdVal_returns blvl c).mono fun _ c' h => returns_pure h.2.2
  | alnitakVal inten =>
    apply returns_bind
    exact (alnitakVal_returns inten c).mono fun _ c' h => returns_pure h.2.kept

theorem ofCells_update {c c' : Cells Nat} {i v : Nat}
    (stored : c'.words = Function.update c.words i v) :
    IntenMap.ofCells c' = ⟨Function.update (IntenMap.ofCells c).map i v⟩ := by
  simp only [IntenMap.ofCells, stored]
  congr 1
  funext j
  by_cases here : j = i
  · subst here; simp
  · simp [here]

/-- The table after the first `k` trips of the constructor's loop. -/
def filled (m : IntenMap) (k : Nat) : IntenMap :=
  (List.range k).foldl (fun m i => ⟨Function.update m.map i (IntenMap._usbdVal i)⟩) m

theorem filled_succ (m : IntenMap) (k : Nat) :
    filled m (k + 1) = ⟨Function.update (filled m k).map k (IntenMap._usbdVal k)⟩ := by
  simp only [filled, List.range_succ, List.foldl_append, List.foldl_cons, List.foldl_nil]

theorem construct_builds (c : Cells Nat) :
    construct.Returns c (fun _ c' =>
      IntenMap.ofCells c' = IntenMap.build (IntenMap.ofCells c).map) := by
  apply returns_loop (fun i c' => i ≤ 256 ∧ IntenMap.ofCells c' = filled (IntenMap.ofCells c) i)
    (fun i _ => 256 - i) _ 257 ⟨by decide, rfl⟩ (by decide)
  rintro i c₁ ⟨bound, soFar⟩
  refine (iteration_returns i c₁).mono ?_
  rintro (i' | _) c₂ ⟨fills, -⟩
  · obtain ⟨inRange, rfl, stored⟩ := fills
    refine ⟨⟨by omega, ?_⟩, by omega⟩
    rw [ofCells_update stored, soFar, filled_succ]
  · obtain ⟨past, rfl⟩ := fills
    obtain rfl : i = 256 := by omega
    exact soFar

theorem search_congr {map map' : Nat → Nat} (same : ∀ i ≤ 255, map i = map' i)
    (inten trips : Nat) {a b : Int} (lo : 0 ≤ a) (hi : b ≤ 255) :
    IntenMap.search map inten trips a b = IntenMap.search map' inten trips a b := by
  induction trips generalizing a b with
  | zero => rfl
  | succ trips ih =>
    simp only [IntenMap.search]
    by_cases more : a < b
    · obtain ⟨mid, hmid, left, right⟩ := IntenMap.mid_between lo more
      have upper := ih (show 0 ≤ (mid : Int) + 1 by omega) hi
      have lower := ih lo (show (mid : Int) - 1 ≤ 255 by omega)
      simp only [hmid, Int.toNat_natCast, same mid (by omega), upper, lower]
    · rw [if_neg more, if_neg more]

/-- As long as nothing else writes to the word past the end, the look-ups find in the array what
they find in the table of `Levels`. -/
theorem construct_lookups (c : Cells Nat) :
    construct.Returns c (fun _ c' =>
      (∀ blvl, (usbdVal blvl).Returns c' (fun v _ => v = sMap.usbdVal blvl)) ∧
      ∀ inten, (alnitakVal inten).Returns c' (fun v _ => v = sMap.alnitakVal inten)) := by
  refine (construct_builds c).mono fun _ c' built => ?_
  have same (i : Nat) (le : i ≤ 255) : (IntenMap.ofCells c').map i = sMap.map i := by
    rw [built, IntenMap.build_map _ le]
    exact (IntenMap.build_map _ le).symm
  refine ⟨fun blvl => ?_, fun inten => ?_⟩
  · refine (usbdVal_returns blvl c').mono ?_
    rintro v _ ⟨rfl, -⟩
    exact same _ (Nat.min_le_right _ _)
  · refine (alnitakVal_returns inten c').mono ?_
    rintro v _ ⟨rfl, -⟩
    rw [IntenMap.alnitakVal, search_congr same inten 256 (by decide) (by decide)]
    rfl

/-- The constructor stopped after `k` trips of its loop. -/
theorem trips_within (words : Int → Nat) (k : Nat) :
    (trips iteration k 0).Returns ⟨words, []⟩
      (fun _ c => c.Within IntenMap.mapLength ↔ k ≤ 255) := by
  have start : Within IntenMap.mapLength ⟨words, []⟩ := within_untouched _ words
  refine (returns_trips (I := fun j i c => i = j ∧ (c.Within IntenMap.mapLength ↔ j ≤ 255))
    (Q := fun j _ c => 255 < j ∧ (c.Within IntenMap.mapLength ↔ j ≤ 255)) ?_ k
    ⟨rfl, iff_of_true start (Nat.zero_le _)⟩).mono ?_
  · rintro j i c ⟨rfl, soFar⟩
    refine (iteration_returns i c).mono ?_
    rintro (i' | _) c₁ ⟨fills, kept⟩
    · obtain ⟨inRange, rfl, -⟩ := fills
      refine ⟨rfl, Iff.trans kept ?_⟩
      rw [soFar]
      omega
    · obtain ⟨past, rfl⟩ := fills
      exact ⟨past, soFar⟩
  · rintro (i | _) c ended
    · obtain ⟨-, within⟩ := ended
      rwa [Nat.zero_add] at within
    · obtain ⟨j, before, late, within⟩ := ended
      rw [within]
      omega

/-- From any contents of memory, and in any order of its uses, the table is accessed inside
its declared length exactly if no use is the constructor's last iteration or a look-up of
level 255 or more. The search never leaves the array, and the constructor always does, in
its last trip. -/
theorem run_within_iff (words : Int → Nat) :
    (∀ uses, (Runs.run step () uses).Returns ⟨words, []⟩
      (fun _ c => c.Within IntenMap.mapLength) ↔ ∀ u ∈ uses, u.Fits) ∧
    ∀ k, (trips iteration k 0).Returns ⟨words, []⟩
      (fun _ c => c.Within IntenMap.mapLength) ↔ k ≤ 255 := by
  constructor
  · intro uses
    apply Returns.holds_iff
    refine (run_kept step_kept uses ⟨words, []⟩).mono ?_
    intro _ c kept
    exact Iff.trans kept (and_iff_right (within_untouched _ words))
  · intro k
    exact (trips_within words k).holds_iff

theorem iteration_leaves_map :
    ¬ ∀ i ≤ 255, (iteration i).Returns ⟨fun _ => 0, []⟩
      (fun _ c => c.Within IntenMap.mapLength) := by
  intro inside
  obtain ⟨_, c, ran, within⟩ := inside 255 le_rfl
  obtain ⟨-, rfl⟩ := Prod.mk.inj (Option.some.inj ran)
  exact absurd (within 255 (by simp)).2 (by decide)

end Table
end FlatPanel
