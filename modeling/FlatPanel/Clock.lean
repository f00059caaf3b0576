import Mathlib.Tactic

/-! dbg.cpp: the millisecond clock, as the Windows build computes it from the 100 ns units
of a file time. A `long` has 32 bits there, and the seconds are cast to one. -/
namespace FlatPanel

structure FileTime where
  dwLowDateTime : BitVec 32
  dwHighDateTime : BitVec 32

structure TimeVal where
  tvSec : BitVec 32
  tvUsec : BitVec 32

def deltaEpochInMicrosecs : BitVec 64 := 11644473600000000

/-- `time64` passes no time zone. -/
def gettimeofday (ft : FileTime) : TimeVal :=
  let tmpres : BitVec 64 := ft.dwHighDateTime.setWidth 64
  let tmpres := tmpres <<< 32
  let tmpres := tmpres ||| ft.dwLowDateTime.setWidth 64
  let tmpres := tmpres.sdiv 10
  let tmpres := tmpres - deltaEpochInMicrosecs
  { tvSec := (tmpres.sdiv 1000000).setWidth 32
    tvUsec := (tmpres.srem 1000000).setWidth 32 }

/-- The product and the sum are unsigned, and the result is read as signed again. -/
def time64 (ft : FileTime) : Int :=
  let tv := gettimeofday ft
  (tv.tvSec.signExtend 64 * 1000 + (tv.tvUsec.sdiv 1000).signExtend 64).toInt

namespace FileTime

def value (ft : FileTime) : Nat := ft.dwHighDateTime.toNat * 2 ^ 32 + ft.dwLowDateTime.toNat

/-- Not before 1970, and not negative as a signed number. -/
structure Valid (ft : FileTime) : Prop where
  epoch : 11644473600000000 ≤ ft.value / 10
  signed : ft.value < 2 ^ 63

def micros (ft : FileTime) : Nat := ft.value / 10 - 11644473600000000

def ticks (ft : FileTime) : BitVec 64 :=
  ft.dwHighDateTime.setWidth 64 <<< 32 ||| ft.dwLowDateTime.setWidth 64

theorem ticks_toNat (ft : FileTime) : ft.ticks.toNat = ft.value := by
  have low := ft.dwLowDateTime.isLt
  have high := ft.dwHighDateTime.isLt
  have wide : ft.dwHighDateTime.toNat <<< 32 < 2 ^ 64 := by
    rw [Nat.shiftLeft_eq]
    omega
  have halves : ft.dwHighDateTime.toNat <<< 32 ||| ft.dwLowDateTime.toNat =
      ft.dwHighDateTime.toNat <<< 32 + ft.dwLowDateTime.toNat :=
    (Nat.shiftLeft_add_eq_or_of_lt low _).symm
  simp only [ticks, BitVec.toNat_or, BitVec.toNat_shiftLeft, BitVec.toNat_setWidth, value]
  rw [Nat.mod_eq_of_lt (by omega : ft.dwHighDateTime.toNat < 2 ^ 64),
    Nat.mod_eq_of_lt (by omega : ft.dwLowDateTime.toNat < 2 ^ 64), Nat.mod_eq_of_lt wide, halves,
    Nat.shiftLeft_eq]

end FileTime

theorem bmod_of_fits {i : Int} {m : Nat} (low : -(m : Int) ≤ i * 2) (high : i * 2 < m) :
    i.bmod m = i :=
  Int.bmod_eq_of_le_mul_two low high

section
variable {w n d : Nat} {x y : BitVec w}

theorem toNat_of_toInt (hx : x.toInt = n) : x.toNat = n := by
  have bound := x.isLt
  rw [BitVec.toInt_eq_toNat_cond] at hx
  split at hx <;> omega

theorem toInt_of_toNat (hx : x.toNat = n) (fits : n * 2 < 2 ^ w) : x.toInt = n := by
  rw [BitVec.toInt_eq_toNat_of_lt (by omega), hx]

theorem sdiv_toInt (hx : x.toInt = n) (hy : y.toInt = d) (fits : n * 2 < 2 ^ w) :
    (x.sdiv y).toInt = (n / d : Nat) := by
  have less : n / d ≤ n := Nat.div_le_self n d
  rw [BitVec.toInt_sdiv, hx, hy, Int.tdiv_eq_ediv_of_nonneg (Int.natCast_nonneg n),
    ← Int.natCast_ediv]
  generalize n / d = q at less
  generalize 2 ^ w = m at fits ⊢
  exact bmod_of_fits (by omega) (by omega)

theorem srem_toInt (hx : x.toInt = n) (hy : y.toInt = d) : (x.srem y).toInt = (n % d : Nat) := by
  rw [BitVec.toInt_srem, hx, hy, Int.tmod_eq_emod_of_nonneg (Int.natCast_nonneg n),
    Int.natCast_emod]

theorem setWidth_toInt (v : Nat) (hx : x.toInt = n) :
    (x.setWidth v).toInt = (n : Int).bmod (2 ^ v) := by
  rw [BitVec.toInt_setWidth, toNat_of_toInt hx]

end

namespace FileTime

/-- `tmpres` once it counts from 1970. -/
def sinceEpoch (ft : FileTime) : BitVec 64 := ft.ticks.sdiv 10 - deltaEpochInMicrosecs

theorem sinceEpoch_toInt {ft : FileTime} (h : ft.Valid) : ft.sinceEpoch.toInt = ft.micros := by
  have signed := h.signed
  have epoch := h.epoch
  have ticks : ft.ticks.toInt = ft.value := toInt_of_toNat ft.ticks_toNat (by omega)
  have micros : (ft.ticks.sdiv 10).toInt = (ft.value / 10 : Nat) :=
    sdiv_toInt ticks rfl (by omega)
  have delta : deltaEpochInMicrosecs.toInt = 11644473600000000 := rfl
  rw [sinceEpoch, BitVec.toInt_sub, micros, delta, bmod_of_fits (by omega) (by omega)]
  unfold FileTime.micros
  omega

theorem micros_lt {ft : FileTime} (h : ft.Valid) : ft.micros * 2 < 2 ^ 64 := by
  have := h.signed
  unfold micros
  omega

theorem tvSec_toInt {ft : FileTime} (h : ft.Valid) :
    (gettimeofday ft).tvSec.toInt = ((ft.micros / 1000000 : Nat) : Int).bmod (2 ^ 32) := by
  have secs : (ft.sinceEpoch.sdiv 1000000).toInt = (ft.micros / 1000000 : Nat) :=
    sdiv_toInt (sinceEpoch_toInt h) rfl (micros_lt h)
  exact setWidth_toInt 32 secs

theorem tvUsec_toInt {ft : FileTime} (h : ft.Valid) :
    (gettimeofday ft).tvUsec.toInt = (ft.micros % 1000000 : Nat) := by
  have usecs : (ft.sinceEpoch.srem 1000000).toInt = (ft.micros % 1000000 : Nat) :=
    srem_toInt (sinceEpoch_toInt h) rfl
  have fits : (gettimeofday ft).tvUsec.toInt = ((ft.micros % 1000000 : Nat) : Int).bmod (2 ^ 32) :=
    setWidth_toInt 32 usecs
  rw [fits]
  exact bmod_of_fits (by omega) (by omega)

end FileTime

/-- The seconds wrap around to 32 bits; nothing else does. -/
theorem time64_eq {ft : FileTime} (h : ft.Valid) :
    time64 ft = ((ft.micros / 1000000 : Nat) : Int).bmod (2 ^ 32) * 1000 +
      (ft.micros % 1000000 / 1000 : Nat) := by
  have sec := FileTime.tvSec_toInt h
  have millis : ((gettimeofday ft).tvUsec.sdiv 1000).toInt = (ft.micros % 1000000 / 1000 : Nat) :=
    sdiv_toInt (FileTime.tvUsec_toInt h) rfl (by omega)
  have low := Int.le_bmod (x := (ft.micros / 1000000 : Nat)) (m := 2 ^ 32) (by decide)
  have high := Int.bmod_lt (x := (ft.micros / 1000000 : Nat)) (m := 2 ^ 32) (by decide)
  rw [← sec] at low high ⊢
  have thousand : (1000 : BitVec 64).toInt = 1000 := rfl
  simp only [time64, BitVec.toInt_add, BitVec.toInt_mul]
  rw [BitVec.toInt_signExtend_of_le (by decide), BitVec.toInt_signExtend_of_le (by decide), millis,
    thousand, bmod_of_fits (i := _ * 1000) (by omega) (by omega), bmod_of_fits (by omega) (by omega)]

def FileTime.millis (ft : FileTime) : Nat := ft.micros / 1000

def FileTime.Before2038 (ft : FileTime) : Prop := ft.micros / 1000000 < 2 ^ 31

theorem time64_exact {ft : FileTime} (h : ft.Valid) (early : ft.Before2038) :
    time64 ft = ft.millis := by
  unfold FileTime.Before2038 at early
  rw [time64_eq h, bmod_of_fits (by omega) (by omega), FileTime.millis]
  omega

theorem time64_wrong {ft : FileTime} (h : ft.Valid) (late : ¬ ft.Before2038) :
    time64 ft < ft.millis := by
  unfold FileTime.Before2038 at late
  have high := Int.bmod_lt (x := (ft.micros / 1000000 : Nat)) (m := 2 ^ 32) (by decide)
  rw [time64_eq h, FileTime.millis]
  omega

theorem time64_mono {ft₁ ft₂ : FileTime} (h₁ : ft₁.Valid) (h₂ : ft₂.Valid)
    (le : ft₁.value ≤ ft₂.value) (early : ft₂.Before2038) : time64 ft₁ ≤ time64 ft₂ := by
  have less : ft₁.micros ≤ ft₂.micros := by
    unfold FileTime.micros
    omega
  have early₁ : ft₁.Before2038 := lt_of_le_of_lt (Nat.div_le_div_right less) early
  rw [time64_exact h₁ early₁, time64_exact h₂ early]
  exact Int.ofNat_le.mpr (Nat.div_le_div_right less)

/-- The clock is exact, and not before what it was at any earlier time, exactly until the
seconds no longer fit. -/
theorem time64_exact_iff (ft : FileTime) (h : ft.Valid) :
    (time64 ft = ft.millis ∧
      ∀ ft₁ : FileTime, ft₁.Valid → ft₁.value ≤ ft.value → time64 ft₁ ≤ time64 ft) ↔
        ft.Before2038 := by
  constructor
  · rintro ⟨same, _⟩
    by_contra late
    exact absurd same (Int.ne_of_lt (time64_wrong h late))
  · intro early
    exact ⟨time64_exact h early, fun ft₁ h₁ le => time64_mono h₁ h le early⟩

/-- 19 January 2038, 03:14:08, the first second that does not fit. -/
def rollover : FileTime := { dwLowDateTime := 0xd53e8000, dwHighDateTime := 0x1e9fd1e }

theorem rollover_valid : rollover.Valid := ⟨by decide, by decide⟩

theorem time64_not_always_exact : ¬ ∀ ft : FileTime, ft.Valid →
    time64 ft = ft.millis ∧
      ∀ ft₁ : FileTime, ft₁.Valid → ft₁.value ≤ ft.value → time64 ft₁ ≤ time64 ft := by
  intro claim
  have same := (claim rollover rollover_valid).1
  exact absurd same (by decide)

theorem time64_exact_iff_rollover : (time64 rollover = rollover.millis ∧
    ∀ ft₁ : FileTime, ft₁.Valid → ft₁.value ≤ rollover.value → time64 ft₁ ≤ time64 rollover) ↔
      rollover.Before2038 :=
  time64_exact_iff rollover rollover_valid

end FlatPanel
