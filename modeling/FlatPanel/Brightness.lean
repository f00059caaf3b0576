import FlatPanel.Faultless
import FlatPanel.Reader
import FlatPanel.Replies

/-! A brightness request as the client types it. The number is narrowed to eight bits
before the table limits it, and the reply is cut from the text, so the level set, the level
asked for and the level echoed are the same only for some texts. -/
namespace FlatPanel

open Program CString

/-- Any first character, `B`, the digits, and what a client may send before the newline. -/
def brightnessLine (c : UInt8) (ds cr : List UInt8) : List UInt8 :=
  [c, ascii 'B'] ++ (ds ++ cr)

/-- Three digits for a level of the panel, any number of zeros from three on, or a larger
number that is 255 modulo 256 and starts with the digits 255. -/
def Exact (ds : List UInt8) : Prop :=
  decimalValue ds ≤ 255 ∧ ds.length = 3 ∨
  decimalValue ds = 0 ∧ 3 ≤ ds.length ∨
  255 < decimalValue ds ∧ decimalValue ds % 256 = 255 ∧
    ds.take 3 = [ascii '2', ascii '5', ascii '5']

theorem three_digits {d₀ d₁ d₂ : UInt8} : decimalValue [d₀, d₁, d₂] =
    100 * (d₀.toNat - 48) + 10 * (d₁.toNat - 48) + (d₂.toNat - 48) := by
  simp only [decimalValue, List.foldl_cons, List.foldl_nil]
  omega

theorem reads_255 {ds : List UInt8} (digits : ∀ d ∈ ds, isDigit d = true) (three : ds.length = 3) :
    decimalValue ds = 255 ↔ ds = [ascii '2', ascii '5', ascii '5'] := by
  obtain ⟨d₀, d₁, d₂, rfl⟩ := List.length_eq_three.mp three
  constructor
  · intro value
    have b₀ := digit_toNat (digits d₀ (by simp))
    have b₁ := digit_toNat (digits d₁ (by simp))
    have b₂ := digit_toNat (digits d₂ (by simp))
    rw [three_digits] at value
    have e₀ : d₀ = ascii '2' := UInt8.toNat_inj.mp (show d₀.toNat = 50 by omega)
    have e₁ : d₁ = ascii '5' := UInt8.toNat_inj.mp (show d₁.toNat = 53 by omega)
    have e₂ : d₂ = ascii '5' := UInt8.toNat_inj.mp (show d₂.toNat = 53 by omega)
    rw [e₀, e₁, e₂]
  · intro same
    rw [same]
    decide

theorem take_three {ds : List UInt8} (digits : ∀ d ∈ ds, isDigit d = true)
    (three : 3 ≤ ds.length) :
    decimalValue (ds.take 3) = decimalValue ds ↔ ds.length = 3 ∨ decimalValue ds = 0 := by
  have whole := decimalValue_append (ds.take 3) (ds.drop 3)
  rw [List.take_append_drop] at whole
  have tail : ∀ d ∈ ds.drop 3, isDigit d = true := fun d hd => digits d (List.mem_of_mem_drop hd)
  have rest := decimalValue_lt tail
  rw [List.length_drop] at whole rest
  cases more : ds.length - 3 with
  | zero =>
    rw [more] at whole rest
    constructor
    · exact fun _ => .inl (by omega)
    · intro _
      omega
  | succ k =>
    rw [more, Nat.pow_succ] at whole
    -- a digit more makes the number at least ten times what its first three are
    have power : 10 ≤ 10 ^ k * 10 := Nat.le_mul_of_pos_left 10 (Nat.pow_pos (by decide))
    have grows : decimalValue (ds.take 3) * 10 ≤ decimalValue (ds.take 3) * (10 ^ k * 10) :=
      Nat.mul_le_mul_left _ power
    constructor
    · intro same
      right
      omega
    · rintro (len | zero)
      · omega
      · omega

theorem exact_iff {ds : List UInt8} (digits : ∀ d ∈ ds, isDigit d = true) :
    (decimalValue ds % 256 = min (decimalValue ds) 255 ∧ 3 ≤ ds.length ∧
      decimalValue (ds.take 3) = decimalValue ds % 256) ↔ Exact ds := by
  have front : ∀ d ∈ ds.take 3, isDigit d = true := fun d hd => digits d (List.mem_of_mem_take hd)
  unfold Exact
  rcases Nat.lt_or_ge 255 (decimalValue ds) with large | small
  · constructor
    · rintro ⟨stored, three, echoed⟩
      rw [Nat.min_eq_right (Nat.le_of_lt large)] at stored
      rw [stored, reads_255 front (by simpa using three)] at echoed
      exact .inr (.inr ⟨large, stored, echoed⟩)
    · rintro (⟨small, _⟩ | ⟨zero, _⟩ | ⟨_, stored, echoed⟩)
      · omega
      · omega
      · have three := congrArg List.length echoed
        rw [List.length_take] at three
        have three : 3 ≤ ds.length := by simp at three; omega
        refine ⟨by omega, three, ?_⟩
        rw [stored, echoed]
        decide
  · have narrow : decimalValue ds % 256 = decimalValue ds := Nat.mod_eq_of_lt (by omega)
    have limit : min (decimalValue ds) 255 = decimalValue ds := Nat.min_eq_left small
    rw [narrow, limit]
    constructor
    · rintro ⟨_, three, echoed⟩
      rcases (take_three digits three).mp echoed with len | zero
      · exact .inl ⟨small, len⟩
      · exact .inr (.inl ⟨zero, three⟩)
    · rintro (⟨_, len⟩ | ⟨zero, three⟩ | ⟨large, _⟩)
      · exact ⟨rfl, len.ge, (take_three digits len.ge).mpr (.inl len)⟩
      · exact ⟨rfl, three, (take_three digits three).mpr (.inr zero)⟩
      · omega

namespace Emu

/-- The level of the panel and of the dimmer is the number asked for or the largest there
is, and the reply says so. -/
structure Limited (n : Nat) (earlier : List (List UInt8)) (s' : Emu) : Prop where
  blvl : s'.panel.blvl.toNat = min n 255
  cached : s'.panel.dimmer.mBrightness = sMap.usbdVal (min n 255)
  echoed : ∃ d₀ d₁ d₂, (isDigit d₀ = true ∧ isDigit d₁ = true ∧ isDigit d₂ = true) ∧
    s'.responses = [ascii '*', ascii 'B', ascii '1', ascii '0', d₀, d₁, d₂, ascii '\n'] ::
      earlier ∧
    decimalValue [d₀, d₁, d₂] = s'.panel.blvl.toNat

/-- A number typed by a client, and where it stands in the buffer. -/
structure Typed (ds cr : List UInt8) (buf : Memory) : Prop where
  digits : ∀ d ∈ ds, isDigit d = true
  nonempty : ds ≠ []
  word : decimalValue ds < 2 ^ 32
  ending : cr = [] ∨ cr = [ascii '\r']
  letter : buf 1 = ascii 'B'
  digit : ∀ j (h : j < ds.length), buf (2 + j) = ds[j]
  after : isDigit (buf (2 + ds.length)) = false
  number : numberText buf = ds ++ cr

theorem typed_afterLine (s : Emu) {c : UInt8} {ds cr : List UInt8}
    (digits : ∀ d ∈ ds, isDigit d = true) (nonempty : ds ≠ [])
    (word : decimalValue ds < 2 ^ 32) (ending : cr = [] ∨ cr = [ascii '\r'])
    (fits : (brightnessLine c ds cr).length < bufSize - 1) :
    Typed ds cr (s.afterLine (brightnessLine c ds cr)).buf := by
  have room : (ds ++ cr).length < bufSize - 2 := by
    simp only [brightnessLine, List.length_append, List.length_cons, List.length_nil] at fits ⊢
    omega
  have text : (ds ++ cr).takeWhile (· ≠ 0) = ds ++ cr := by
    rw [List.takeWhile_eq_self_iff]
    intro d hd
    rcases List.mem_append.mp hd with digit | tail
    · simpa using digit_ne_zero (digits d digit)
    · rcases ending with rfl | rfl
      · contradiction
      · rw [List.mem_singleton.mp tail]
        decide
  refine ⟨digits, nonempty, word, ending, rfl, ?_, ?_, ?_⟩
  · intro j h
    have inside : 2 + j < (brightnessLine c ds cr ++ [0]).length := by simp [brightnessLine]; omega
    rw [afterLine_buf, Memory.fill_inside _ _ inside]
    simp [brightnessLine, Nat.add_comm 2 j, h]
  · have inside : 2 + ds.length < (brightnessLine c ds cr ++ [0]).length := by
      simp [brightnessLine]; omega
    rw [afterLine_buf, Memory.fill_inside _ _ inside]
    rcases ending with rfl | rfl
    · simp [brightnessLine, Nat.add_comm 2 ds.length]
      decide
    · simp [brightnessLine, Nat.add_comm 2 ds.length]
      decide
  · rw [← text]
    exact Memory.cstring_fill s.buf [c, ascii 'B'] (ds ++ cr) room

theorem Typed.asked {ds cr : List UInt8} {buf : Memory} (h : Typed ds cr buf) :
    asked buf = some (some (.brightness (decimalValue ds).toUInt8)) := by
  have stop : cr.takeWhile isDigit = [] := by
    rcases h.ending with rfl | rfl
    · rfl
    · decide
  have number := scanUnsigned_digits h.digits h.nonempty stop
  rw [Nat.mod_eq_of_lt h.word] at number
  unfold Emu.asked
  rw [h.letter, h.number, number]
  rfl

theorem Typed.reply {ds cr : List UInt8} {buf : Memory} (h : Typed ds cr buf) :
    Emu.reply buf = echoReply (buf.offset 2) := by
  unfold Emu.reply
  rw [h.letter]
  rfl

theorem Typed.echoed_iff {ds cr : List UInt8} {buf : Memory} (h : Typed ds cr buf)
    (p : AlnitakEmu) (n : Nat) :
    (∃ d₀ d₁ d₂, (isDigit d₀ = true ∧ isDigit d₁ = true ∧ isDigit d₂ = true) ∧
      p.responseStr (ascii 'B') (buf.offset 2) =
        [ascii '*', ascii 'B', ascii '1', ascii '0', d₀, d₁, d₂, ascii '\n'] ∧
      decimalValue [d₀, d₁, d₂] = n) ↔ 3 ≤ ds.length ∧ decimalValue (ds.take 3) = n := by
  have digit := h.digit
  have after := h.after
  constructor
  · rintro ⟨d₀, d₁, d₂, ⟨g₀, g₁, g₂⟩, text, value⟩
    obtain ⟨rfl, rfl, rfl⟩ := AlnitakEmu.responseStr_data text
    match ds, h.nonempty with
    | [a], _ => exact absurd (g₁.symm.trans after) (by decide)
    | [a, b], _ => exact absurd (g₂.symm.trans after) (by decide)
    | a :: b :: c :: rest, _ =>
      refine ⟨by simp, ?_⟩
      rw [← value]
      have e₀ := digit 0 (by simp)
      have e₁ := digit 1 (by simp)
      have e₂ := digit 2 (by simp)
      simp at e₀ e₁ e₂
      simp [e₀, e₁, e₂]
  · rintro ⟨three, value⟩
    match ds, three with
    | a :: b :: c :: rest, _ =>
      have g₀ := h.digits a (by simp)
      have g₁ := h.digits b (by simp)
      have g₂ := h.digits c (by simp)
      have e₀ : buf.offset 2 0 = a := digit 0 (by simp)
      have e₁ : buf.offset 2 1 = b := digit 1 (by simp)
      have e₂ : buf.offset 2 2 = c := digit 2 (by simp)
      refine ⟨a, b, c, ⟨g₀, g₁, g₂⟩, ?_, value⟩
      rw [← e₀] at g₀
      rw [← e₁] at g₁
      rw [← e₂] at g₂
      rw [p.responseStr_digits (by decide) g₀ g₁ g₂, e₀, e₁, e₂]

theorem carried_limited_iff {ds cr : List UInt8} {buf : Memory} (h : Typed ds cr buf)
    {s' : Emu} {p : AlnitakEmu}
    {earlier : List (List UInt8)}
    (panel : s'.panel = p.carried (some (.brightness (decimalValue ds).toUInt8)))
    (told : s'.responses = s'.panel.responseStr (ascii 'B') (buf.offset 2) :: earlier) :
    Limited (decimalValue ds) earlier s' ↔ Exact ds := by
  have narrow : s'.panel.blvl.toNat = decimalValue ds % 256 := by
    rw [panel]
    exact UInt8.toNat_ofNat'
  constructor
  · rintro ⟨blvl, _, d₀, d₁, d₂, digits, resp, value⟩
    rw [told] at resp
    have text := (List.cons.inj resp).1
    have echoed := (h.echoed_iff s'.panel _).mp ⟨d₀, d₁, d₂, digits, text, value.trans narrow⟩
    exact (exact_iff h.digits).mp ⟨narrow.symm.trans blvl, echoed⟩
  · intro typed
    obtain ⟨stored, echoed⟩ := (exact_iff h.digits).mpr typed
    obtain ⟨d₀, d₁, d₂, digits, text, value⟩ := (h.echoed_iff s'.panel _).mpr echoed
    refine ⟨narrow.trans stored, ?_, d₀, d₁, d₂, digits, ?_, value.trans narrow.symm⟩
    · have level : s'.panel.dimmer.mBrightness = IntenMap.level s'.panel.blvl.toNat := by
        rw [panel]
        exact clamp_byte _
      rw [level, narrow, stored, IntenMap.usbdVal_eq, Nat.min_eq_left (Nat.min_le_right _ _)]
    · rw [told, text]

theorem endOfLine_limited_iff {b : Behaviour} (all : b.Faultless) {s : Emu} {dev : Device}
    (coupled : s.Coupled dev) (running : s.exited = none) {ds cr : List UInt8}
    (h : Typed ds cr s.buf) :
    (s.endOfLine (Device.env b)).Returns dev (fun s' _ =>
      Limited (decimalValue ds) s.responses s' ↔ Exact ds) := by
  have noted : (s.note (.request (s.buf.bytes s.p))).Coupled dev :=
    coupled.of_panel coupled.awake rfl rfl
  obtain ⟨s₁, dev₁, serves, carried⟩ := serve_carried all noted
    (some (.brightness (decimalValue ds).toUInt8)) (Emu.reply s.buf)
  have awake : s₁.quit = false := (serve_frame serves).2.1.trans (coupled.awake running)
  have dispatches := dispatch_asked (Device.env b)
    (s := s.note (.request (s.buf.bytes s.p))) h.asked
  unfold endOfLine
  rw [dispatches]
  refine returns_bind ⟨s₁, dev₁, serves, ?_⟩
  apply returns_ite
  · exact fun quit => absurd (awake.symm.trans quit) Bool.false_ne_true
  · intro _
    apply returns_pure
    obtain ⟨t, now, stack, ready, rfl, _⟩ := carried
    refine carried_limited_iff h (p := t.panel) rfl ?_
    rw [h.reply]
    cases ready <;> rfl

/-- In every state main can be in when a line begins, and for every way to type a number
below 2^32 into a line that fits, the request is answered and does what it says if and only
if the digits are of that kind. -/
theorem brightness_limited_iff (b : Behaviour) (all : b.Faultless) (dev : Device)
    (word : dev.inten < 65536) (buf : Memory) (rs : List SerialRead) (s : Emu) (dev₁ : Device)
    (reached : (main (Device.env b) buf rs).run dev = some (s, dev₁)) (running : s.exited = none)
    (fresh : s.p = 0) (c : UInt8) (ds cr : List UInt8) (first : c ≠ ascii '\n')
    (digits : ∀ d ∈ ds, isDigit d = true) (nonempty : ds ≠ [])
    (number : decimalValue ds < 2 ^ 32) (ending : cr = [] ∨ cr = [ascii '\r'])
    (fits : (brightnessLine c ds cr).length < bufSize - 1) :
    (Runs.run (step (Device.env b)) s
        ((brightnessLine c ds cr).map .byte ++ [.byte (ascii '\n')])).Returns dev₁
      (fun s' _ => Limited (decimalValue ds) s.responses s' ↔ Exact ds) := by
  have coupled := (main_returns all buf word rs).ensures s dev₁ reached
  obtain ⟨_, at_line⟩ := main_atLine reached running fresh
  have plain : ∀ x ∈ brightnessLine c ds cr, x ≠ ascii '\n' := by
    intro x hx
    rcases List.mem_append.mp hx with front | text
    · rcases List.mem_pair.mp front with rfl | rfl
      · exact first
      · decide
    · rcases List.mem_append.mp text with digit | tail
      · rintro rfl
        exact absurd (digits _ digit) (by decide)
      · rcases ending with rfl | rfl
        · contradiction
        · rw [List.mem_singleton.mp tail]
          decide
  rw [read_line (Device.env b) at_line plain fits]
  have after : (s.afterLine (brightnessLine c ds cr)).Coupled dev₁ :=
    coupled.of_panel coupled.awake rfl rfl
  exact endOfLine_limited_iff all after running
    (typed_afterLine s digits nonempty number ending fits)

/-- A connected panel, dark when it was found, is asked for level 300 and takes level 44. -/
theorem brightness_not_always_limited :
    ¬ ∀ (b : Behaviour), b.Faultless → ∀ dev : Device, dev.inten < 65536 → ∀ buf rs s dev₁,
      (main (Device.env b) buf rs).run dev = some (s, dev₁) → s.exited = none → s.p = 0 →
      s.panel.isConnected = true → ∀ (c : UInt8) (ds cr : List UInt8), c ≠ ascii '\n' →
      (∀ d ∈ ds, isDigit d = true) → ds ≠ [] → decimalValue ds < 2 ^ 32 →
      (cr = [] ∨ cr = [ascii '\r']) → (brightnessLine c ds cr).length < bufSize - 1 →
      (Runs.run (step (Device.env b)) s
          ((brightnessLine c ds cr).map .byte ++ [.byte (ascii '\n')])).Returns dev₁
        (fun s' _ => Limited (decimalValue ds) s.responses s') := by
  intro claim
  let rs : List SerialRead := [.byte (ascii 'x'), .byte (ascii 'S'), .byte (ascii '\n')]
  obtain ⟨⟨s, dev₁⟩, reached, state⟩ := Option.map_eq_some_iff.mp (show
    ((main (Device.env .steady) (fun _ => 0) rs).run (Device.idle 0)).map (fun r =>
      (r.1.exited, r.1.p, r.1.panel.isConnected)) = some (none, 0, true) by decide +kernel)
  simp only [Prod.mk.injEq] at state
  obtain ⟨s', dev', hrun, limited⟩ := claim .steady Behaviour.steady_faultless (Device.idle 0)
    (by decide) (fun _ => 0) rs s dev₁ reached state.1 state.2.1 state.2.2 (ascii 'x')
    [ascii '3', ascii '0', ascii '0'] [] (by decide) (List.all_eq_true.mp rfl) (by decide)
    (by decide) (.inl rfl) (by decide)
  have whole := (Runs.run_append_of_run reached _).trans hrun
  have blvl := congrArg (Option.map fun r => r.1.panel.blvl.toNat) whole
  rw [Option.map_some, limited.blvl] at blvl
  exact absurd blvl (by decide +kernel)

theorem brightness_limited_iff_300 :
    (Runs.run (step (Device.env .steady)) (start fun _ => 0)
        ((brightnessLine (ascii 'x') [ascii '3', ascii '0', ascii '0'] []).map .byte ++
          [.byte (ascii '\n')])).Returns (Device.idle 0)
      (fun s' _ => Limited 300 [] s' ↔ Exact [ascii '3', ascii '0', ascii '0']) :=
  brightness_limited_iff .steady Behaviour.steady_faultless (Device.idle 0) (by decide)
    (fun _ => 0) [] _ _ rfl rfl rfl (ascii 'x') [ascii '3', ascii '0', ascii '0'] [] (by decide)
    (List.all_eq_true.mp rfl) (by decide) (by decide) (.inl rfl) (by decide)

end Emu
end FlatPanel
