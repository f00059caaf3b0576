import FlatPanel.Acknowledge

/-! The strings main sends. A reply is cut from a C string of nine bytes, three of which
come from elsewhere: for a brightness request from the client's own text, for a brightness
query from an array one byte too short. -/
namespace FlatPanel

open Program CString

/-- An eight byte reply to `cmd` that tells the truth about the panel. -/
def WellFormed (cmd : UInt8) (p : AlnitakEmu) (resp : List UInt8) : Prop :=
  ∃ d₀ d₁ d₂, (isDigit d₀ = true ∧ isDigit d₁ = true ∧ isDigit d₂ = true) ∧
    resp = [ascii '*', cmd, ascii '1', ascii '0', d₀, d₁, d₂, ascii '\n'] ∧
    (cmd = ascii 'S' → (d₁ = ascii '1' ↔ p.light = true)) ∧
    (cmd = ascii 'J' → decimalValue [d₀, d₁, d₂] = p.blvl.toNat)

namespace AlnitakEmu

theorem responseStr_eq (p : AlnitakEmu) (cmd : UInt8) (data : Memory) :
    p.responseStr cmd data = [ascii '*', cmd, ascii '1', ascii '0', data 0, data 1, data 2,
      ascii '\n', 0].takeWhile (· ≠ 0) := by
  simp only [responseStr, p.constructed.1]
  rfl

theorem responseStr_digits (p : AlnitakEmu) {cmd : UInt8} (letter : cmd ≠ 0) {data : Memory}
    (d₀ : isDigit (data 0) = true) (d₁ : isDigit (data 1) = true)
    (d₂ : isDigit (data 2) = true) : p.responseStr cmd data =
      [ascii '*', cmd, ascii '1', ascii '0', data 0, data 1, data 2, ascii '\n'] := by
  have star : ascii '*' ≠ 0 := by decide
  have one : ascii '1' ≠ 0 := by decide
  have zero : ascii '0' ≠ 0 := by decide
  have newline : ascii '\n' ≠ 0 := by decide
  simp [responseStr_eq, star, one, zero, newline, letter, digit_ne_zero d₀, digit_ne_zero d₁,
    digit_ne_zero d₂]

theorem responseStr_data {p : AlnitakEmu} {cmd : UInt8} {data : Memory} {d₀ d₁ d₂ : UInt8}
    (h : p.responseStr cmd data =
      [ascii '*', cmd, ascii '1', ascii '0', d₀, d₁, d₂, ascii '\n']) :
    data 0 = d₀ ∧ data 1 = d₁ ∧ data 2 = d₂ := by
  have part := List.takeWhile_prefix (l := [ascii '*', cmd, ascii '1', ascii '0', data 0,
    data 1, data 2, ascii '\n', 0]) (fun b => decide (b ≠ 0))
  rw [← responseStr_eq p cmd data, h] at part
  simp only [List.cons_prefix_cons] at part
  obtain ⟨_, _, _, _, e₀, e₁, e₂, _⟩ := part
  exact ⟨e₀.symm, e₁.symm, e₂.symm⟩

end AlnitakEmu

namespace Emu

/-- Requests whose reply is made of digits: all of them but J, and a brightness request only
if the three bytes it is echoed from are digits. -/
def Echoable (buf : Memory) : Prop :=
  match Letter.ofByte (buf 1) with
  | .S | .L | .D | .V => True
  | .B => isDigit (buf 2) = true ∧ isDigit (buf 3) = true ∧ isDigit (buf 4) = true
  | .J | .u | .other => False

/-- `bbuf` ends with the NUL `snprintf` puts there, so the reply ends early. -/
theorem levelReply_cut (p : AlnitakEmu) (bbuf : Memory) :
    ¬ WellFormed (ascii 'J') p (levelReply bbuf p) := by
  rintro ⟨d₀, d₁, d₂, ⟨_, _, digit⟩, text, _⟩
  have last := (AlnitakEmu.responseStr_data text).2.2
  rw [AlnitakEmu.getBrightness, format03u_small _ p.blvl.toNat_lt] at last
  have nul : d₂ = 0 := last.symm
  exact digit_ne_zero digit nul

theorem digits_wellFormed {p : AlnitakEmu} {cmd : UInt8} {data : Memory} (letter : cmd ≠ 0)
    (level : cmd ≠ ascii 'J') (light : cmd ≠ ascii 'S' ∨ (data 1 = ascii '1' ↔ p.light = true))
    (digits : isDigit (data 0) = true ∧ isDigit (data 1) = true ∧ isDigit (data 2) = true) :
    WellFormed cmd p (p.responseStr cmd data) :=
  ⟨data 0, data 1, data 2, digits, p.responseStr_digits letter digits.1 digits.2.1 digits.2.2,
    light.neg_resolve_left, fun j => absurd j level⟩

theorem stateReply_wellFormed (p : AlnitakEmu) (stack : Memory) :
    WellFormed (ascii 'S') p (stateReply stack p) := by
  obtain ⟨_, cover, motor⟩ := p.constructed
  unfold stateReply AlnitakEmu.stateStr
  rw [cover, motor]
  apply digits_wellFormed (by decide) (by decide)
  · right
    cases p.light <;> decide
  · cases p.light <;> decide

theorem wellFormed_iff {buf : Memory} {op : Option SetOp} (asks : asked buf = some op)
    (stack : Memory) (p : AlnitakEmu) :
    WellFormed (buf 1) p (reply buf stack p) ↔ Echoable buf := by
  unfold asked at asks
  unfold reply Echoable
  cases letter : Letter.ofByte (buf 1) with
  | u | other => rw [letter] at asks; contradiction
  | S =>
    rw [Letter.byte_of_ofByte (by decide) letter]
    exact iff_of_true (stateReply_wellFormed p stack) trivial
  | L | D | V =>
    rw [Letter.byte_of_ofByte (by decide) letter]
    exact iff_of_true
      (digits_wellFormed (by decide) (by decide) (.inl (by decide)) (by decide)) trivial
  | J =>
    rw [Letter.byte_of_ofByte (by decide) letter]
    exact iff_of_false (levelReply_cut p stack) id
  | B =>
    rw [Letter.byte_of_ofByte (by decide) letter]
    constructor
    · rintro ⟨d₀, d₁, d₂, digits, text, _⟩
      obtain ⟨rfl, rfl, rfl⟩ := AlnitakEmu.responseStr_data text
      exact digits
    · exact fun digits =>
        digits_wellFormed (by decide) (by decide) (.inl (by decide)) digits

/-- Whenever a request is answered, the reply is well formed and true if and only if the
request is one of those. -/
def RepliesWell (s : Emu) (r : SerialRead) (s' : Emu) : Prop :=
  ∀ b resp, r = .byte b → s'.responses = resp :: s.responses →
    (WellFormed ((s.handed b).buf 1) s'.panel resp ↔ Echoable (s.handed b).buf)

variable {W : Type}

theorem step_repliesWell (env : Env W) {s : Emu} (awake : s.Awake) (r : SerialRead) (w : W) :
    (s.step env r).Ensures w (fun s' _ => s.RepliesWell r s') := by
  rintro s' w' hs b resp rfl more
  have silent : s'.responses ≠ s.responses := fun same =>
    absurd (more.symm.trans same) (List.cons_ne_self _ _)
  cases step_cases env awake _ w s' w' hs with
  | ended _ | inLine _ _ => exact absurd rfl silent
  | skipped _ _ _ _ => exact absurd (handed_responses s b) silent
  | quits _ _ _ _ _ => exact absurd (handed_responses s b) silent
  | @served _ _ s₁ _ _ _ asks serves =>
    rcases serve_responses serves with same | ⟨stack, told⟩
    · exact absurd (same.trans (handed_responses s b)) silent
    · rw [handed_responses] at told
      obtain ⟨rfl, _⟩ := List.cons.inj (told.symm.trans more)
      exact wellFormed_iff asks stack s₁.panel

/-- In every step of a run of main, whatever the bytes and whichever calls fail. -/
theorem replies_wellFormed_iff (env : Env W) (buf : Memory) (w : W) (rs : List SerialRead) :
    Runs.EachStep (Emu.step env) (fun s _ r s' _ => s.RepliesWell r s') (start buf) w rs := by
  have keeps (s : Emu) (w : W) (r : SerialRead) (awake : s.Awake) :
      (s.step env r).Ensures w (fun s' _ => s'.Awake) := step_awake env awake r w
  exact Runs.eachStep_of_keeps keeps
    (fun s w r s' w' awake h => step_repliesWell env awake r w s' w' h) rs (start_awake buf)

/-- A panel lit at level 255 is asked for its level and answers `*J1025`, with no newline. -/
theorem not_always_wellFormed :
    ¬ ∀ (W : Type) (env : Env W) (buf : Memory) (w : W) (rs : List SerialRead),
      Runs.EachStep (Emu.step env) (fun s _ r s' _ => ∀ b resp, r = .byte b →
          s'.responses = resp :: s.responses →
            WellFormed ((s.handed b).buf 1) s'.panel resp)
        (start buf) w rs := by
  intro claim
  have first := claim Device (Device.env .steady) (fun _ => 0) (Device.idle 1023)
    [.byte (ascii 'x'), .byte (ascii 'J'), .byte (ascii '\n')]
  have second := (first _ _ rfl).2
  have third := (second _ _ rfl).2
  have last := (third _ _ rfl).1 _ [ascii '*', ascii 'J', ascii '1', ascii '0', ascii '2',
    ascii '5'] rfl (by decide +kernel)
  obtain ⟨_, _, _, _, text, _⟩ := last
  have length : 6 = 8 := congrArg List.length text
  contradiction

end Emu
end FlatPanel
