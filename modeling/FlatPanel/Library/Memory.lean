import Mathlib.Data.List.TakeWhile
import Mathlib.Tactic

/-! Memory and strings as C code sees them. A memory is the bytes found at the
offsets from one address; nothing says where an array ends, so bounds are facts
about the code that uses it. A C string ends at its first NUL. -/

/-- The bytes at the offsets from a fixed address. -/
abbrev Memory := Nat → UInt8

/-- The code of an ASCII character, as C writes it: `'x'`. -/
def ascii (c : Char) : UInt8 := c.toNat.toUInt8

namespace Memory

def store (m : Memory) (i : Nat) (b : UInt8) : Memory := fun j => if j = i then b else m j

/-- Copy bytes over the front, as a library call that fills a buffer does. -/
def fill (m : Memory) (bs : List UInt8) : Memory := fun j => bs.getD j (m j)

/-- The same memory seen from `i` bytes further on: `&m[i]`. -/
def offset (m : Memory) (i : Nat) : Memory := fun j => m (i + j)

def bytes (m : Memory) (n : Nat) : List UInt8 := (List.range n).map m

/-- The C string at offset `i`, followed for at most `n` bytes. -/
def cstring (m : Memory) (i : Nat) : Nat → List UInt8
  | 0 => []
  | n + 1 => if m i = 0 then [] else m i :: cstring m (i + 1) n

@[simp] theorem store_same (m : Memory) (i : Nat) (b : UInt8) : m.store i b i = b := by
  simp [store]

@[simp] theorem store_other (m : Memory) {i j : Nat} (b : UInt8) (h : j ≠ i) :
    m.store i b j = m j := by
  simp [store, h]

@[simp] theorem store_store (m : Memory) (i : Nat) (b c : UInt8) :
    (m.store i b).store i c = m.store i c := by
  funext j
  cases decEq j i with
  | isTrue here => simp [store, here]
  | isFalse there => simp [store, there]

@[simp] theorem fill_nil (m : Memory) : m.fill [] = m := rfl

@[simp] theorem offset_apply (m : Memory) (i j : Nat) : m.offset i j = m (i + j) := rfl

theorem fill_inside (m : Memory) (bs : List UInt8) {i : Nat} (h : i < bs.length) :
    m.fill bs i = bs[i] := by
  simp [fill, h]

theorem fill_outside (m : Memory) (bs : List UInt8) {i : Nat} (h : bs.length ≤ i) :
    m.fill bs i = m i := by
  simp [fill, h]

theorem fill_snoc (m : Memory) (bs : List UInt8) (b : UInt8) :
    (m.fill bs).store bs.length b = m.fill (bs ++ [b]) := by
  funext j
  rcases Nat.lt_trichotomy j bs.length with lt | eq | gt
  · simp [store, fill, Nat.ne_of_lt lt, List.getElem?_append_left lt]
  · subst eq
    simp [fill]
  · have past : (bs ++ [b]).length ≤ j := by simpa using gt
    rw [store_other _ _ (Nat.ne_of_gt gt), fill_outside _ _ (Nat.le_of_lt gt),
      fill_outside _ _ past]

theorem bytes_congr {m k : Memory} {n : Nat} (same : ∀ j, j < n → k j = m j) :
    k.bytes n = m.bytes n :=
  List.map_congr_left fun j hj => same j (List.mem_range.mp hj)

theorem bytes_eq_iff (m k : Memory) (n : Nat) : k.bytes n = m.bytes n ↔ ∀ j, j < n → k j = m j := by
  simp only [bytes, List.map_inj_left, List.mem_range]

@[simp] theorem bytes_length (m : Memory) (n : Nat) : (m.bytes n).length = n := by
  simp [bytes]

/-- A C string is read up to its NUL: two memories that agree on what is read hold the
same string. -/
theorem cstring_congr {m k : Memory} {i n : Nat}
    (same : ∀ j, i ≤ j → (∀ l, i ≤ l → l < j → m l ≠ 0) → k j = m j) :
    k.cstring i n = m.cstring i n := by
  induction n generalizing i with
  | zero => rfl
  | succ n ih =>
    have first : k i = m i := same i le_rfl fun l lo hi => absurd hi (Nat.not_lt.mpr lo)
    simp only [cstring, first]
    split
    · rfl
    · rename_i more
      rw [ih fun j ge earlier => same j (Nat.le_of_succ_le ge) fun l lo hi => ?_]
      rcases Nat.eq_or_lt_of_le lo with rfl | lt
      · exact more
      · exact earlier l lt hi

/-- A string stored byte by byte and closed by a NUL is read back up to its first NUL. -/
theorem cstring_stored {m : Memory} {l : List UInt8} {i n : Nat} (room : l.length < n)
    (stored : ∀ j (h : j < l.length), m (i + j) = l[j]) (nul : m (i + l.length) = 0) :
    m.cstring i n = l.takeWhile (· ≠ 0) := by
  induction l generalizing i n with
  | nil =>
    obtain ⟨n, rfl⟩ : ∃ k, n = k + 1 := ⟨n - 1, by simp at room; omega⟩
    have h : m i = 0 := by simpa using nul
    simp [cstring, h]
  | cons b l ih =>
    obtain ⟨n, rfl⟩ : ∃ k, n = k + 1 := ⟨n - 1, by simp at room; omega⟩
    have head : m i = b := stored 0 (by simp)
    have tail : m.cstring (i + 1) n = l.takeWhile (· ≠ 0) := by
      apply ih
      · simpa using room
      · intro j h
        have := stored (j + 1) (by simpa using h)
        simpa [Nat.add_assoc, Nat.add_comm 1 j] using this
      · simpa [Nat.add_assoc, Nat.add_comm 1] using nul
    by_cases h : b = 0
    · simp [cstring, head, h]
    · simp [cstring, head, h, tail]

theorem cstring_eq_iff {m : Memory} {l : List UInt8} {i n : Nat} (room : l.length < n)
    (plain : ∀ b ∈ l, b ≠ 0) : m.cstring i n = l ↔
      (∀ j (h : j < l.length), m (i + j) = l[j]) ∧ m (i + l.length) = 0 := by
  constructor
  · intro holds
    induction l generalizing i n with
    | nil =>
      obtain ⟨n, rfl⟩ : ∃ k, n = k + 1 := ⟨n - 1, by simp at room; omega⟩
      refine ⟨fun j h => absurd h (Nat.not_lt_zero j), ?_⟩
      by_contra more
      have first : m i ≠ 0 := more
      simp [cstring, first] at holds
    | cons b l ih =>
      obtain ⟨n, rfl⟩ : ∃ k, n = k + 1 := ⟨n - 1, by simp at room; omega⟩
      cases decEq (m i) 0 with
      | isTrue nul => simp [cstring, nul] at holds
      | isFalse more =>
        simp only [cstring, if_neg more, List.cons.injEq] at holds
        obtain ⟨head, tail⟩ := ih (by simpa using room) (fun c hc => plain c (by simp [hc])) holds.2
        refine ⟨fun j h => ?_, ?_⟩
        · cases j with
          | zero => exact holds.1
          | succ j =>
            have := head j (by simpa using h)
            simpa [Nat.add_assoc, Nat.add_comm 1 j] using this
        · simpa [Nat.add_assoc, Nat.add_comm 1] using tail
  · rintro ⟨stored, nul⟩
    rw [cstring_stored room stored nul, List.takeWhile_eq_self_iff]
    exact fun b hb => by simpa using plain b hb

theorem cstring_fill (m : Memory) (front text : List UInt8) {n : Nat} (room : text.length < n) :
    (m.fill (front ++ text ++ [0])).cstring front.length n = text.takeWhile (· ≠ 0) := by
  apply cstring_stored room
  · intro j lt
    rw [fill_inside _ _ (by simp; omega)]
    simp [lt]
  · rw [fill_inside _ _ (by simp)]
    simp

end Memory

namespace CString

def isSpace (b : UInt8) : Bool := b == 32 || (9 ≤ b && b ≤ 13)

def isDigit (b : UInt8) : Bool := 48 ≤ b && b ≤ 57

def decimalValue (ds : List UInt8) : Nat := ds.foldl (fun n d => 10 * n + (d.toNat - 48)) 0

def dropSign (s : List UInt8) : List UInt8 :=
  if s.head? = some (ascii '-') ∨ s.head? = some (ascii '+') then s.tail else s

/-- `sscanf(s, "%u", &v)`: white space, an optional sign, at least one digit.
`none` is every result other than 1. A value that does not fit is undefined in C
and is taken modulo 2^32 here. -/
def scanUnsigned (s : List UInt8) : Option Nat :=
  let s := s.dropWhile isSpace
  let ds := (dropSign s).takeWhile isDigit
  let v := decimalValue ds % 2 ^ 32
  if ds = [] then none
  else if s.head? = some (ascii '-') then some ((2 ^ 32 - v) % 2 ^ 32)
  else some v

/-- The text `"%03u"` makes. -/
def format03u (n : Nat) : List UInt8 :=
  let ds := (Nat.toDigits 10 n).map ascii
  List.replicate (3 - ds.length) (ascii '0') ++ ds

/-- What `snprintf` leaves at the start of an array of `size` bytes. -/
def snprintf (size : Nat) (text : List UInt8) : List UInt8 := text.take (size - 1) ++ [0]

theorem decimalValue_snoc (ds : List UInt8) (d : UInt8) :
    decimalValue (ds ++ [d]) = 10 * decimalValue ds + (d.toNat - 48) := by
  simp [decimalValue]

theorem decimalValue_append (ds es : List UInt8) :
    decimalValue (ds ++ es) = decimalValue ds * 10 ^ es.length + decimalValue es := by
  induction es using List.reverseRecOn with
  | nil => simp [decimalValue]
  | append_singleton es e ih =>
    rw [← List.append_assoc, decimalValue_snoc, ih, decimalValue_snoc, List.length_append,
      List.length_singleton, Nat.pow_succ]
    ring

theorem digit_not_space {b : UInt8} (h : isDigit b = true) : isSpace b = false := by
  simp only [isDigit, isSpace, Bool.and_eq_true, decide_eq_true_eq, UInt8.le_iff_toNat_le] at *
  simp only [Bool.or_eq_false_iff, Bool.and_eq_false_iff, beq_eq_false_iff_ne, ne_eq,
    decide_eq_false_iff_not, ← UInt8.toNat_inj]
  simp at *
  omega

theorem digit_toNat {b : UInt8} (h : isDigit b = true) : 48 ≤ b.toNat ∧ b.toNat ≤ 57 := by
  simpa [isDigit, UInt8.le_iff_toNat_le] using h

theorem digit_ne_zero {b : UInt8} (h : isDigit b = true) : b ≠ 0 := by
  rintro rfl
  exact absurd h (by decide)

theorem decimalValue_lt {ds : List UInt8} (digits : ∀ b ∈ ds, isDigit b = true) :
    decimalValue ds < 10 ^ ds.length := by
  induction ds using List.reverseRecOn with
  | nil => decide
  | append_singleton ds d ih =>
    have less := ih fun b hb => digits b (by simp [hb])
    have last := digit_toNat (digits d (by simp))
    rw [decimalValue_snoc, List.length_append, List.length_singleton, Nat.pow_succ]
    omega

theorem scanUnsigned_digits {ds rest : List UInt8} (digits : ∀ b ∈ ds, isDigit b = true)
    (nonempty : ds ≠ []) (stop : rest.takeWhile isDigit = []) :
    scanUnsigned (ds ++ rest) = some (decimalValue ds % 2 ^ 32) := by
  have all : (ds ++ rest).takeWhile isDigit = ds := by
    rw [List.takeWhile_append_of_pos digits, stop, List.append_nil]
  obtain ⟨d, tl, rfl⟩ := List.exists_cons_of_ne_nil nonempty
  have first : isDigit d = true := digits d (by simp)
  have bounds := digit_toNat first
  have not_minus : d ≠ ascii '-' := by rintro rfl; revert bounds; decide
  have not_plus : d ≠ ascii '+' := by rintro rfl; revert bounds; decide
  have kept : (d :: tl ++ rest).dropWhile isSpace = d :: tl ++ rest := by
    simp [digit_not_space first]
  have unsigned : dropSign (d :: tl ++ rest) = d :: tl ++ rest := by
    simp [dropSign, not_minus, not_plus]
  simp only [scanUnsigned, kept, unsigned, all]
  simp [not_minus]

theorem scanUnsigned_digit {s : List UInt8} (h : scanUnsigned s ≠ none) :
    ∃ d ∈ s, isDigit d = true := by
  simp only [scanUnsigned] at h
  split at h
  · contradiction
  · rename_i some_digits
    obtain ⟨d, hd⟩ := List.exists_mem_of_ne_nil _ some_digits
    have unsigned : d ∈ dropSign (s.dropWhile isSpace) := (List.takeWhile_subset _) hd
    have text : d ∈ s.dropWhile isSpace := by
      unfold dropSign at unsigned
      split at unsigned
      · exact List.mem_of_mem_tail unsigned
      · exact unsigned
    exact ⟨d, (List.dropWhile_subset _) text, List.mem_takeWhile_imp hd⟩

theorem scanUnsigned_lt {s : List UInt8} {v : Nat} (h : scanUnsigned s = some v) : v < 2 ^ 32 := by
  simp only [scanUnsigned] at h
  split at h
  · contradiction
  · split at h
    · obtain rfl := Option.some.inj h
      exact Nat.mod_lt _ (by decide)
    · obtain rfl := Option.some.inj h
      exact Nat.mod_lt _ (by decide)

theorem format03u_small : ∀ n < 256, format03u n =
    [(48 + n / 100).toUInt8, (48 + n / 10 % 10).toUInt8, (48 + n % 10).toUInt8] := by
  decide +kernel

end CString
