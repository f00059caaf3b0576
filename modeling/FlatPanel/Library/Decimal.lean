import FlatPanel.Library.Memory

/-! Decimal text as `printf` makes it, and what it is read back as. A number that is cut short
by its last digit is a tenth of what it was. -/
namespace CString

/-- The text `"%u"` makes. -/
def digits (n : Nat) : List UInt8 := (Nat.toDigits 10 n).map ascii

/-- The text `"%i"` makes. -/
def formatI (i : Int) : List UInt8 :=
  if i < 0 then ascii '-' :: digits i.natAbs else digits i.natAbs

/-- What such a text stands for. -/
def intValue (s : List UInt8) : Int :=
  if s.head? = some (ascii '-') then -decimalValue s.tail else decimalValue s

theorem ascii_digitChar : ∀ n < 10, ascii (Nat.digitChar n) = (48 + n).toUInt8 := by decide

theorem digits_snoc {n : Nat} (more : 10 ≤ n) :
    digits n = digits (n / 10) ++ [(48 + n % 10).toUInt8] := by
  rw [digits, Nat.toDigits_of_base_le (by decide) more, List.map_append, List.map_cons,
    ascii_digitChar _ (Nat.mod_lt n (by decide))]
  rfl

theorem digits_one {n : Nat} (one : n < 10) : digits n = [(48 + n).toUInt8] := by
  rw [digits, Nat.toDigits_of_lt_base one, List.map_cons, ascii_digitChar n one]
  rfl

theorem decimalValue_digits (n : Nat) : decimalValue (digits n) = n := by
  induction n using Nat.strongRecOn with
  | ind n ih =>
    rcases Nat.lt_or_ge n 10 with one | more
    · rw [digits_one one]
      simp [decimalValue]
      omega
    · rw [digits_snoc more, decimalValue_snoc, ih (n / 10) (by omega)]
      simp
      omega

theorem digits_isDigit (n : Nat) : ∀ b ∈ digits n, isDigit b = true := by
  have digit : ∀ n < 10, isDigit (48 + n).toUInt8 = true := by decide
  induction n using Nat.strongRecOn with
  | ind n ih =>
    rcases Nat.lt_or_ge n 10 with one | more
    · rw [digits_one one]
      exact List.forall_mem_singleton.mpr (digit n one)
    · rw [digits_snoc more, List.forall_mem_append]
      exact ⟨ih (n / 10) (by omega), List.forall_mem_singleton.mpr (digit _ (Nat.mod_lt n (by decide)))⟩

theorem digits_head (n : Nat) : (digits n).head? ≠ some (ascii '-') := by
  intro minus
  have digit := digits_isDigit n _ (List.mem_of_mem_head? minus)
  exact absurd digit (by decide)

@[simp] theorem formatI_natCast (n : Nat) : formatI n = digits n := by
  rw [formatI, if_neg (by omega), Int.natAbs_natCast]

theorem formatI_ne_zero {i : Int} {b : UInt8} (mem : b ∈ formatI i) : b ≠ 0 := by
  unfold formatI at mem
  split at mem
  · rcases List.mem_cons.mp mem with rfl | mem
    · decide
    · exact digit_ne_zero (digits_isDigit _ b mem)
  · exact digit_ne_zero (digits_isDigit _ b mem)

theorem intValue_formatI (i : Int) : intValue (formatI i) = i := by
  unfold formatI
  by_cases neg : i < 0
  · rw [if_pos neg, intValue, if_pos (show (ascii '-' :: digits i.natAbs).head? = _ by rfl),
      List.tail_cons, decimalValue_digits]
    omega
  · rw [if_neg neg, intValue, if_neg (digits_head _), decimalValue_digits]
    omega

theorem digits_length_le {n k : Nat} (pos : 0 < k) : (digits n).length ≤ k ↔ n < 10 ^ k := by
  rw [digits, List.length_map]
  exact Nat.length_toDigits_le_iff (by decide) pos

end CString
