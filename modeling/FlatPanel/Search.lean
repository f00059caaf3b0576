import Mathlib.Algebra.Order.Floor.Semifield
import Mathlib.Data.Rat.Floor
import FlatPanel.Levels

/-! The inverse of the level table. The loop of `alnitak_val` is taken here on any
strictly increasing table of any length, and the program's table is one of them:
double precision loses nothing against the polynomial over the rationals. The sums `a + b`
stay below `2 n`, so for tables of up to 2^30 entries the integers here are the code's `int`. -/
namespace FlatPanel
namespace IntenMap

def Increasing (map : Nat → Nat) (n : Nat) : Prop := ∀ i j, i < j → j < n → map i < map j

/-- The loop on a table of `n` entries, from `a = 0` and `b = n - 1`, ends with `r`.
It needs no more than `n` trips. -/
def Searched (map : Nat → Nat) (n inten r : Nat) : Prop :=
  ∀ trips, n ≤ trips → search map inten trips 0 ((n : Int) - 1) = some (r : Int)

/-- What an inverse answers: the level of a value that is in the table, and a level
next to the gap that a missing value falls into. -/
structure Inverts (map : Nat → Nat) (n inten r : Nat) : Prop where
  exact : ∀ k, k < n → map k = inten → r = k
  gap : ∀ k, k + 1 < n → map k < inten → inten < map (k + 1) → r = k ∨ r = k + 1
  first : inten < map 0 → r = 0
  last : map (n - 1) < inten → r = n - 1

theorem Brackets.inverts {map : Nat → Nat} {n inten r : Nat} (h : Brackets map n inten r) :
    Inverts map n inten r := by
  have inside := h.inside
  refine ⟨fun k hk hit => h.exact hk hit, fun k hk below above => ?_, fun small => ?_,
    fun large => ?_⟩
  · have atLeast : k ≤ r := by
      by_contra before
      have := h.above k (by omega) (by omega)
      omega
    have atMost : r ≤ k + 1 := by
      by_contra past
      have := h.below (k + 1) (by omega)
      omega
    omega
  · by_contra later
    have := h.below 0 (by omega)
    omega
  · by_contra earlier
    have := h.above (n - 1) (by omega) (by omega)
    omega

/-- An entry that is not above the value keeps the answer from lying before it. -/
theorem Brackets.le_of_le {map : Nat → Nat} {n inten r k : Nat} (h : Brackets map n inten r)
    (inside : k < n) (le : map k ≤ inten) : k ≤ r := by
  by_contra before
  have := h.above k (by omega) inside
  omega

theorem Brackets.ge_of_ge {map : Nat → Nat} {n inten r k : Nat} (h : Brackets map n inten r)
    (ge : inten ≤ map k) : r ≤ k := by
  by_contra past
  have := h.below k (by omega)
  omega

/-- A search that has ended is not changed by being allowed more trips. -/
theorem search_more {map : Nat → Nat} {inten : Nat} {r : Int} {trips : Nat} {a b : Int}
    (ended : search map inten trips a b = some r) {more : Nat} (le : trips ≤ more) :
    search map inten more a b = some r := by
  induction trips generalizing more a b with
  | zero => simp [search] at ended
  | succ trips ih =>
    obtain ⟨more, rfl⟩ : ∃ k, more = k + 1 := ⟨more - 1, by omega⟩
    simp only [search] at ended ⊢
    split_ifs at ended ⊢ with go hit small
    · exact ended
    · exact ih ended (by omega)
    · exact ih ended (by omega)
    · exact ended

theorem search_ends {map : Nat → Nat} {n : Nat} (some_entry : 0 < n)
    (increasing : Increasing map n) (inten : Nat) :
    ∃ r, Searched map n inten r ∧ Brackets map n inten r := by
  obtain ⟨r, ended, brackets⟩ := search_brackets increasing inten n 0 ((n : Int) - 1) le_rfl
    (by omega) (by omega) (by omega) (fun i before => by omega) (fun i after inside => by omega)
    (by omega) some_entry
  exact ⟨r, fun trips enough => search_more ended enough, brackets⟩

theorem Searched.unique {map : Nat → Nat} {n inten r r' : Nat} (h : Searched map n inten r)
    (h' : Searched map n inten r') : r = r' := by
  have same := (h n le_rfl).symm.trans (h' n le_rfl)
  exact Int.ofNat_inj.mp (Option.some.inj same)

/-- The loop sees a value only through its comparisons with the entries. -/
theorem search_congr {map : Nat → Nat} {n inten₁ inten₂ : Nat}
    (same : ∀ k, k < n → (map k = inten₁ ↔ map k = inten₂) ∧ (map k < inten₁ ↔ map k < inten₂))
    (trips : Nat) (a b : Int) (lo : 0 ≤ a) (hi : b < n) :
    search map inten₁ trips a b = search map inten₂ trips a b := by
  induction trips generalizing a b with
  | zero => rfl
  | succ trips ih =>
    simp only [search]
    by_cases more : a < b
    · obtain ⟨mid, hmid, left, right⟩ := mid_between lo more
      have inside : mid < n := by omega
      obtain ⟨hit, small⟩ := same mid inside
      have after := ih (mid + 1) b (by omega) hi
      have before := ih a (mid - 1) lo (by omega)
      simp only [hmid, Int.toNat_natCast, hit, small, after, before]
    · rw [if_neg more, if_neg more]

/-- Two values with an entry between them are kept apart by that entry; two values without
one are searched alike. -/
theorem searched_mono {map : Nat → Nat} {n : Nat} (some_entry : 0 < n)
    (increasing : Increasing map n) {inten₁ inten₂ r₁ r₂ : Nat} (le : inten₁ ≤ inten₂)
    (h₁ : Searched map n inten₁ r₁) (h₂ : Searched map n inten₂ r₂) : r₁ ≤ r₂ := by
  by_cases parted : ∃ k, k < n ∧ inten₁ ≤ map k ∧ map k ≤ inten₂
  · obtain ⟨k, inside, ge, le⟩ := parted
    obtain ⟨s₁, found₁, brackets₁⟩ := search_ends some_entry increasing inten₁
    obtain ⟨s₂, found₂, brackets₂⟩ := search_ends some_entry increasing inten₂
    obtain rfl := h₁.unique found₁
    obtain rfl := h₂.unique found₂
    exact le_trans (brackets₁.ge_of_ge ge) (brackets₂.le_of_le inside le)
  · have apart : ∀ k, k < n → map k < inten₁ ∨ inten₂ < map k := by
      intro k inside
      by_contra between
      exact parted ⟨k, inside, by omega, by omega⟩
    have same : search map inten₁ n 0 ((n : Int) - 1) = search map inten₂ n 0 ((n : Int) - 1) := by
      apply search_congr (n := n) _ n _ _ le_rfl (by omega)
      intro k inside
      have := apart k inside
      exact ⟨by omega, by omega⟩
    have found := (h₁ n le_rfl).symm.trans (same.trans (h₂ n le_rfl))
    exact Nat.le_of_eq (Int.ofNat_inj.mp (Option.some.inj found))

/-- `_usbd_val` with its doubles read as the rationals they stand for. -/
def exactVal (blvl : Nat) : Nat :=
  let x : Rat := blvl
  let k4 : Rat := 256 / 1409416875
  min ⌊x * (1 + k4 * x * x * x)⌋₊ 1023

theorem exactVal_eq_level {blvl : Nat} (byte : blvl ≤ 255) : exactVal blvl = level blvl := by
  have poly : (blvl : Rat) * (1 + 256 / 1409416875 * blvl * blvl * blvl) =
      ((256 * blvl ^ 4 : Nat) : Rat) / (1409416875 : Nat) + blvl := by
    push_cast
    ring
  have whole : ⌊(blvl : Rat) * (1 + 256 / 1409416875 * blvl * blvl * blvl)⌋₊ = level blvl := by
    rw [poly, Nat.floor_add_natCast (by positivity), Nat.floor_div_eq_div, level, Nat.add_comm]
  rw [exactVal, whole, Nat.min_eq_left (level_byte blvl byte)]

theorem exactVal_increasing : Increasing exactVal 256 := by
  intro i j lt hj
  rw [exactVal_eq_level (by omega), exactVal_eq_level (by omega)]
  exact level_lt lt

theorem build_map_exact (memory : Nat → Nat) {i : Nat} (byte : i ≤ 255) :
    (build memory).map i = exactVal i := by
  rw [build_map memory byte, exactVal_eq_level byte]

/-- The search is the inverse of any strictly increasing table, and it keeps the order of
the values; the table of the program is one such. -/
theorem search_is_monotone_inverse :
    (∀ (map : Nat → Nat) (n : Nat), 0 < n → Increasing map n →
      (∀ inten, ∃ r, Searched map n inten r ∧ Brackets map n inten r ∧ Inverts map n inten r) ∧
      ∀ inten₁ inten₂ r₁ r₂, inten₁ ≤ inten₂ → Searched map n inten₁ r₁ →
        Searched map n inten₂ r₂ → r₁ ≤ r₂) ∧
    Increasing exactVal 256 ∧ ∀ memory i, i ≤ 255 → (build memory).map i = exactVal i := by
  refine ⟨fun map n some_entry increasing => ⟨fun inten => ?_, ?_⟩, exactVal_increasing,
    fun memory i byte => build_map_exact memory byte⟩
  · obtain ⟨r, found, brackets⟩ := search_ends some_entry increasing inten
    exact ⟨r, found, brackets, brackets.inverts⟩
  · intro inten₁ inten₂ r₁ r₂ le h₁ h₂
    exact searched_mono some_entry increasing le h₁ h₂

theorem search_is_monotone_inverse_level :
    Searched sMap.map 256 (level 200) 200 ∧ ∀ r, Searched sMap.map 256 900 r → 200 ≤ r := by
  obtain ⟨inverse, mono⟩ := search_is_monotone_inverse.1 sMap.map 256 (by decide) sMap_increasing
  obtain ⟨r, found, -, inverts⟩ := inverse (level 200)
  have hit : sMap.map 200 = level 200 := build_map _ (by decide)
  obtain rfl := inverts.exact 200 (by decide) hit
  exact ⟨found, fun r larger => mono _ _ _ _ (by decide) found larger⟩

end IntenMap
end FlatPanel
