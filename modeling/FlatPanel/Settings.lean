import FlatPanel.Library.Decimal
import FlatPanel.Serial

/-! The settings of a port as text. `GetSettings` writes them in the form that `Open` reads, with
the baud rate after them, into an array that is one byte short for some of the rates. -/
namespace FlatPanel

open CString

/-- `ac[parity]`. -/
def Parity.letter : Parity → UInt8
  | .none => ascii 'N'
  | .odd => ascii 'O'
  | .even => ascii 'E'
  | .mark => ascii 'M'
  | .space => ascii 'S'

def settingsBufSize : Nat := 16

/-- What is in `buf` up to its NUL. -/
def SerialPortDCS.getSettings (dcs : SerialPortDCS) : List UInt8 :=
  (Memory.fill (fun _ => 0) (snprintf (settingsBufSize - 1)
    (formatI dcs.wordlen.toNat ++ [dcs.parity.letter] ++ formatI dcs.stopbits.toNat ++
      [ascii ' '] ++ formatI dcs.baud.toInt))).cstring 0 settingsBufSize

theorem Parity.ofLetter_letter (p : Parity) : ofLetter p.letter = some p := by
  cases p <;> decide

theorem Parity.letter_ne_zero (p : Parity) : p.letter ≠ 0 := by
  cases p <;> decide

namespace SerialPort

/-- What `Open` takes for settings. -/
structure Accepts (protocol : List UInt8) (parity : Parity) : Prop where
  wordlen : ascii '5' ≤ place protocol 0 ∧ place protocol 0 ≤ ascii '8'
  parity : Parity.ofLetter (place protocol 1) = some parity
  stopbits : ascii '1' ≤ place protocol 2 ∧ place protocol 2 ≤ ascii '2'

def accepted (baudrate : BitVec 32) (protocol : List UInt8) (flowControl : FlowControl)
    (parity : Parity) : SerialPortDCS where
  baud := baudrate
  parity := parity
  wordlen := place protocol 0 - ascii '0'
  stopbits := place protocol 2 - ascii '0'
  rtscts := decide (flowControl = .rtsCts)
  xonxoff := decide (flowControl = .xonXoff)

theorem settings_iff {baudrate : BitVec 32} {protocol : List UInt8} {flowControl : FlowControl}
    {dcs : SerialPortDCS} : settings baudrate protocol flowControl = some dcs ↔
      ∃ parity, Accepts protocol parity ∧ dcs = accepted baudrate protocol flowControl parity := by
  unfold settings
  constructor
  · intro h
    split at h
    · rename_i wordlen
      split at h
      · rename_i parity reads
        split at h
        · rename_i stopbits
          exact ⟨parity, ⟨wordlen, reads, stopbits⟩, (Option.some.inj h).symm⟩
        · contradiction
      · contradiction
    · contradiction
  · rintro ⟨parity, ⟨wordlen, reads, stopbits⟩, rfl⟩
    rw [if_pos wordlen, reads]
    exact if_pos stopbits

/-- The number that a digit stands for, printed, is that digit. -/
theorem digits_place {c : UInt8} (digit : isDigit c = true) : digits (c - ascii '0').toNat = [c] := by
  obtain ⟨low, high⟩ := digit_toNat digit
  have number : (c - ascii '0').toNat = c.toNat - 48 :=
    UInt8.toNat_sub_of_le c _ (UInt8.le_iff_toNat_le.mpr low)
  rw [number, digits_one (by omega), Nat.add_sub_cancel' low]
  simp

theorem isDigit_between {a b c : UInt8} (h : a ≤ c ∧ c ≤ b) (low : 48 ≤ a) (high : b ≤ 57) :
    isDigit c = true := by
  simp [isDigit, UInt8.le_trans low h.1, UInt8.le_trans h.2 high]

/-- The baud rate has ten places of the array. -/
theorem getSettings_eq {baudrate : BitVec 32} {protocol : List UInt8} {flowControl : FlowControl}
    {parity : Parity} (h : Accepts protocol parity) :
    (accepted baudrate protocol flowControl parity).getSettings =
      [place protocol 0, parity.letter, place protocol 2, ascii ' '] ++
        (formatI baudrate.toInt).take 10 := by
  let front := [place protocol 0, parity.letter, place protocol 2, ascii ' ']
  have first := isDigit_between h.wordlen (by decide) (by decide)
  have third := isDigit_between h.stopbits (by decide) (by decide)
  have text : formatI (accepted baudrate protocol flowControl parity).wordlen.toNat ++
      [parity.letter] ++ formatI (accepted baudrate protocol flowControl parity).stopbits.toNat ++
      [ascii ' '] ++ formatI baudrate.toInt = front ++ formatI baudrate.toInt := by
    simp only [accepted, formatI_natCast, digits_place first, digits_place third]
    rfl
  have plain : ∀ b ∈ front ++ (formatI baudrate.toInt).take 10, decide (b ≠ 0) = true := by
    intro b mem
    rw [decide_eq_true_eq]
    rcases List.mem_append.mp mem with fixed | rate
    · simp only [front, List.mem_cons, List.not_mem_nil, or_false] at fixed
      rcases fixed with rfl | rfl | rfl | rfl
      · exact digit_ne_zero first
      · exact parity.letter_ne_zero
      · exact digit_ne_zero third
      · decide
    · exact formatI_ne_zero (List.mem_of_mem_take rate)
  have room : (front ++ (formatI baudrate.toInt).take 10).length < settingsBufSize := by
    have short : ((formatI baudrate.toInt).take 10).length ≤ 10 := List.length_take_le 10 _
    simp only [List.length_append, front, List.length_cons, List.length_nil, settingsBufSize]
    omega
  have held := Memory.cstring_fill (fun _ => 0) [] _ room
  rw [List.takeWhile_eq_self_iff.mpr plain] at held
  unfold SerialPortDCS.getSettings
  rw [show (accepted baudrate protocol flowControl parity).parity = parity from rfl,
    show (accepted baudrate protocol flowControl parity).baud = baudrate from rfl, text]
  exact held

/-- The rate is whole in the text if its ten places hold it; otherwise its last digit is missing. -/
theorem rate_whole_iff (rate : BitVec 32) :
    intValue ((formatI rate.toInt).take 10) = rate.toInt ↔ -10 ^ 9 < rate.toInt := by
  have low := rate.le_toInt
  have high := rate.toInt_lt
  generalize rate.toInt = i at *
  have whole (short : (formatI i).length ≤ 10) : intValue ((formatI i).take 10) = i := by
    rw [List.take_of_length_le short, intValue_formatI]
  rcases lt_or_ge i 0 with neg | pos
  · have text : formatI i = ascii '-' :: digits i.natAbs := if_pos neg
    rcases Nat.lt_or_ge i.natAbs (10 ^ 9) with fits | large
    · have short := (digits_length_le (k := 9) (by decide)).mpr fits
      refine iff_of_true (whole ?_) (by omega)
      rw [text, List.length_cons]
      omega
    · have ten : 10 ≤ i.natAbs := Nat.le_trans (by decide) large
      have most := (digits_length_le (n := i.natAbs / 10) (k := 9) (by decide)).mpr (by omega)
      have least : ¬ (digits (i.natAbs / 10)).length ≤ 8 := fun short =>
        absurd ((digits_length_le (by decide)).mp short) (by omega)
      have cut : (formatI i).take 10 = ascii '-' :: digits (i.natAbs / 10) := by
        rw [text, digits_snoc ten, List.take_succ_cons, List.take_left' (by omega)]
      have value : intValue (ascii '-' :: digits (i.natAbs / 10)) = -(i.natAbs / 10 : Nat) := by
        rw [intValue, if_pos (show (ascii '-' :: digits (i.natAbs / 10)).head? = _ by rfl),
          List.tail_cons, decimalValue_digits]
      rw [cut, value]
      omega
  · have text : formatI i = digits i.natAbs := if_neg (Int.not_lt.mpr pos)
    have short := (digits_length_le (n := i.natAbs) (k := 10) (by decide)).mpr (by omega)
    exact iff_of_true (whole (text ▸ short)) (by omega)

end SerialPort

/-- What `GetSettings` writes about a port that `Open` accepts fits its array and, given to
`Open`, leads to the same settings. The baud rate can be read from it as well if and only if it
has nine digits at most or is not negative. -/
theorem SerialPort.settings_read_back {baudrate : BitVec 32} {protocol : List UInt8}
    {flowControl : FlowControl} {dcs : SerialPortDCS}
    (taken : settings baudrate protocol flowControl = some dcs) :
    dcs.getSettings.length < settingsBufSize ∧
    (∀ rate, settings rate dcs.getSettings flowControl = some { dcs with baud := rate }) ∧
    (intValue (dcs.getSettings.drop 4) = dcs.baud.toInt ↔ -10 ^ 9 < dcs.baud.toInt) := by
  obtain ⟨parity, h, rfl⟩ := settings_iff.mp taken
  rw [getSettings_eq h]
  refine ⟨?_, fun rate => ?_, rate_whole_iff baudrate⟩
  · have short : ((formatI baudrate.toInt).take 10).length ≤ 10 := List.length_take_le 10 _
    simp only [List.length_append, List.length_cons, List.length_nil, settingsBufSize]
    omega
  · rw [settings_iff]
    exact ⟨parity, ⟨h.wordlen, parity.ofLetter_letter, h.stopbits⟩, rfl⟩

theorem SerialPort.settings_read_back_7e2 :
    let dcs : SerialPortDCS := ⟨9600, .even, 7, 2, true, false⟩
    dcs.getSettings.length < settingsBufSize ∧
    (∀ rate, settings rate dcs.getSettings .rtsCts = some { dcs with baud := rate }) ∧
    (intValue (dcs.getSettings.drop 4) = dcs.baud.toInt ↔ -10 ^ 9 < dcs.baud.toInt) :=
  settings_read_back (show settings 9600 [ascii '7', ascii 'e', ascii '2'] .rtsCts = some _ by rfl)

end FlatPanel
