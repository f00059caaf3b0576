import Mathlib.Tactic

/-! The brightness table of alnitak_emu.cpp. Its entries are computed in double
precision; the arithmetic is done here on exact binary fractions, rounded to 53
bits after each operation as the code's is, and shown to give the integer part of
the polynomial itself. -/
namespace FlatPanel

/-- A positive double: `sig * 2 ^ exp`. -/
structure Double where
  sig : Nat
  exp : Int

namespace Double

def ofNat (n : Nat) : Double := ⟨n, 0⟩

/-- `n / d` rounded to the nearest integer, ties to even. -/
def nearestEven (n d : Nat) : Nat :=
  let q := n / d
  let r := n % d
  if 2 * r < d then q else if d < 2 * r then q + 1 else q + q % 2

def round (x : Double) : Double :=
  let extra := x.sig.log2 + 1 - 53
  ⟨nearestEven x.sig (2 ^ extra), x.exp + extra⟩

def mul (x y : Double) : Double := round ⟨x.sig * y.sig, x.exp + y.exp⟩

def add (x y : Double) : Double :=
  let e := min x.exp y.exp
  round ⟨x.sig * 2 ^ (x.exp - e).toNat + y.sig * 2 ^ (y.exp - e).toNat, e⟩

/-- The last bit of the quotient records a remainder, so that no tie is invented. -/
def div (x y : Double) : Double :=
  let s := y.sig.log2 + 55
  let n := x.sig * 2 ^ s
  let rest := if n % y.sig = 0 then 0 else 1
  round ⟨2 * (n / y.sig) + rest, x.exp - y.exp - s - 1⟩

/-- Conversion to an unsigned integer drops the fraction. -/
def toUnsigned (x : Double) : Nat :=
  if 0 ≤ x.exp then x.sig * 2 ^ x.exp.toNat else x.sig / 2 ^ (-x.exp).toNat

end Double

/-- The words from `map[0]` on. The array is declared with 255 of them. -/
structure IntenMap where
  map : Nat → Nat

namespace IntenMap

def mapLength : Nat := 255

def k4 : Double := (Double.ofNat 256).div (Double.ofNat 1409416875)

def _usbdVal (blvl : Nat) : Nat :=
  let x := Double.ofNat blvl
  let y := x.mul ((Double.ofNat 1).add (((k4.mul x).mul x).mul x))
  min y.toUnsigned 1023

/-- The constructor's loop runs to 255 inclusive, one word past the declared array.
The readers below find that word where the constructor put it. -/
def build (memory : Nat → Nat) : IntenMap :=
  (List.range 256).foldl (fun m i => ⟨Function.update m.map i (_usbdVal i)⟩) ⟨memory⟩

def usbdVal (m : IntenMap) (blvl : Nat) : Nat := m.map (min blvl 255)

/-- The search loop; the fuel bounds its trips. -/
def search (map : Nat → Nat) (inten : Nat) : Nat → Int → Int → Option Int
  | 0, _, _ => none
  | fuel + 1, a, b =>
    if a < b then
      let mid := (a + b).tdiv 2
      if map mid.toNat = inten then some mid
      else if map mid.toNat < inten then search map inten fuel (mid + 1) b
      else search map inten fuel a (mid - 1)
    else some a

/-- `search_brackets` shows that 256 trips are enough, so the default is never used. -/
def alnitakVal (m : IntenMap) (inten : Nat) : UInt8 :=
  UInt8.ofInt ((search m.map inten 256 0 255).getD 0)

end IntenMap

def sMap : IntenMap := IntenMap.build fun _ => 0

namespace IntenMap

def level (blvl : Nat) : Nat := blvl + 256 * blvl ^ 4 / 1409416875

theorem _usbdVal_eq_level : ∀ blvl < 256, _usbdVal blvl = level blvl := by decide +kernel

theorem level_lt {i j : Nat} (h : i < j) : level i < level j := by
  have pow : i ^ 4 ≤ j ^ 4 := Nat.pow_le_pow_left (Nat.le_of_lt h) 4
  have div : 256 * i ^ 4 / 1409416875 ≤ 256 * j ^ 4 / 1409416875 :=
    Nat.div_le_div_right (Nat.mul_le_mul_left 256 pow)
  exact Nat.add_lt_add_of_lt_of_le h div

theorem level_mono {i j : Nat} (h : i ≤ j) : level i ≤ level j := by
  rcases Nat.eq_or_lt_of_le h with rfl | lt
  · exact le_rfl
  · exact Nat.le_of_lt (level_lt lt)

theorem level_byte (blvl : Nat) (h : blvl ≤ 255) : level blvl ≤ 1023 :=
  le_trans (level_mono h) (by decide)

theorem level_eq_zero (blvl : Nat) : level blvl = 0 ↔ blvl = 0 := by
  constructor
  · intro h
    exact (Nat.add_eq_zero_iff.mp h).1
  · rintro rfl
    rfl

theorem fold_update (f : Nat → Nat) (l : List Nat) (m : IntenMap) (i : Nat) :
    (l.foldl (fun m i => ⟨Function.update m.map i (f i)⟩) m : IntenMap).map i =
      if i ∈ l then f i else m.map i := by
  induction l generalizing m with
  | nil => simp
  | cons j rest ih =>
    simp only [List.foldl_cons, ih, List.mem_cons]
    by_cases here : i = j
    · subst here; simp
    · simp [here]

theorem build_map (memory : Nat → Nat) {i : Nat} (h : i ≤ 255) :
    (build memory).map i = level i := by
  rw [build, fold_update, if_pos (List.mem_range.mpr (by omega)),
    _usbdVal_eq_level i (by omega)]

@[simp] theorem usbdVal_eq (blvl : Nat) : sMap.usbdVal blvl = level (min blvl 255) :=
  build_map _ (Nat.min_le_right _ _)

/-- Everything before `r` is too small and everything after it too large. -/
structure Brackets (map : Nat → Nat) (n inten r : Nat) : Prop where
  inside : r < n
  below : ∀ i, i < r → map i < inten
  above : ∀ i, r < i → i < n → inten < map i

/-- While the loop runs, the word it looks at lies from `a` on and before `b`. -/
theorem mid_between {a b : Int} (lo : 0 ≤ a) (more : a < b) :
    ∃ mid : Nat, (a + b).tdiv 2 = mid ∧ a ≤ mid ∧ (mid : Int) < b := by
  have half : (a + b).tdiv 2 = (a + b) / 2 := Int.tdiv_eq_ediv_of_nonneg (by omega)
  refine ⟨((a + b) / 2).toNat, ?_, ?_, ?_⟩
  · rw [half, Int.toNat_of_nonneg (by omega)]
  · omega
  · omega

/-- The invariant is that the answer lies between `a` and `b`, or has been passed by
`b`; the second case leaves with `b = a - 1`. -/
theorem search_brackets {map : Nat → Nat} {n : Nat}
    (increasing : ∀ i j, i < j → j < n → map i < map j) (inten fuel : Nat) (a b : Int)
    (lo : 0 ≤ a) (an : a < n) (bn : b < n) (close : a ≤ b + 1)
    (below : ∀ i : Nat, (i : Int) < a → map i < inten)
    (above : ∀ i : Nat, b < i → i < n → inten < map i)
    (enough : b - a < fuel) (some_fuel : 0 < fuel) :
    ∃ r : Nat, search map inten fuel a b = some (r : Int) ∧ Brackets map n inten r := by
  induction fuel generalizing a b with
  | zero => omega
  | succ fuel ih =>
    simp only [search]
    by_cases more : a < b
    · rw [if_pos more]
      obtain ⟨mid, hmid, left, right⟩ := mid_between lo more
      simp only [hmid, Int.toNat_natCast]
      by_cases hit : map mid = inten
      · rw [if_pos hit]
        refine ⟨mid, rfl, by omega, fun i hi => ?_, fun i hi hn => ?_⟩
        · exact hit ▸ increasing i mid hi (by omega)
        · exact hit ▸ increasing mid i hi hn
      · rw [if_neg hit]
        by_cases small : map mid < inten
        · rw [if_pos small]
          apply ih (mid + 1) b (by omega) (by omega) bn (by omega) _ above (by omega) (by omega)
          intro i hi
          rcases Nat.lt_or_ge i mid with lt | ge
          · exact lt_trans (increasing i mid lt (by omega)) small
          · obtain rfl : i = mid := by omega
            exact small
        · rw [if_neg small]
          apply ih a (mid - 1) lo an (by omega) (by omega) below _ (by omega) (by omega)
          intro i hi hn
          have large : inten < map mid := by omega
          rcases Nat.lt_or_ge mid i with lt | ge
          · exact lt_trans large (increasing mid i lt hn)
          · obtain rfl : i = mid := by omega
            exact large
    · rw [if_neg more]
      refine ⟨a.toNat, by rw [Int.toNat_of_nonneg lo], by omega, fun i hi => ?_, fun i hi hn => ?_⟩
      · exact below i (by omega)
      · exact above i (by omega) hn

theorem Brackets.exact {map : Nat → Nat} {n inten r k : Nat} (h : Brackets map n inten r)
    (inside : k < n) (hit : map k = inten) : r = k := by
  rcases Nat.lt_trichotomy r k with lt | eq | gt
  · have := h.above k lt inside; omega
  · exact eq
  · have := h.below k gt; omega

theorem sMap_increasing : ∀ i j, i < j → j < 256 → sMap.map i < sMap.map j := by
  intro i j lt hj
  simp only [sMap, build_map _ (show i ≤ 255 by omega), build_map _ (show j ≤ 255 by omega)]
  exact level_lt lt

theorem ofInt_toNat {r : Nat} (byte : r < 256) : (UInt8.ofInt (r : Int)).toNat = r := by
  simp [UInt8.ofInt]
  omega

theorem alnitakVal_brackets (inten : Nat) :
    Brackets sMap.map 256 inten (sMap.alnitakVal inten).toNat := by
  obtain ⟨r, hr, br⟩ := search_brackets sMap_increasing inten 256 0 255 (by decide) (by decide)
    (by decide) (by decide) (fun i hi => by omega) (fun i hi hn => by omega) (by decide) (by decide)
  rw [alnitakVal, hr, Option.getD_some, ofInt_toNat br.inside]
  exact br

theorem alnitakVal_level (blvl : UInt8) : sMap.alnitakVal (level blvl.toNat) = blvl := by
  have small := blvl.toNat_lt
  have hit : sMap.map blvl.toNat = level blvl.toNat := build_map _ (by omega)
  exact UInt8.toNat_inj.mp ((alnitakVal_brackets _).exact (by omega) hit)

end IntenMap
end FlatPanel
