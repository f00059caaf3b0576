import FlatPanel.Acknowledge
import FlatPanel.Serial

/-! emu.cpp from its command line on: main opens the port, reads it a byte at a time, writes
what it responds, and returns. -/
namespace FlatPanel

open Program

variable {V W : Type}

/-- All that the process calls: Windows for the port, and the HID library. -/
structure Calls (W : Type) where
  win : WinOpen W
  line : WinTransfer W
  hid : Env W

/-- The port that main opens, and the rest of its state. `reads` is a record of what was read,
the last one first; no decision is taken from it. -/
structure Process where
  dev : SerialPort
  emu : Emu
  reads : List SerialRead

namespace Process

def devnameSize : Nat := 128

/-- The prefix and the argument, as much of them as fits. -/
def devname (port : List UInt8) : List UInt8 :=
  let text := [ascii '\\', ascii '\\', ascii '.', ascii '\\'] ++ port
  (Memory.fill (fun _ => 0) (CString.snprintf devnameSize text)).cstring 0 devnameSize

/-- The string given to `respond` between two states of main, if there is one. -/
def told (s s' : Emu) : Option (List UInt8) :=
  if s'.responses.length = s.responses.length then none else s'.responses.head?

/-- A `Write` that fails is only warned about. -/
def respond (line : WinTransfer W) (dev : SerialPort) : Option (List UInt8) → Program W Unit
  | none => return ()
  | some resp => do
    let _ ← dev.write line resp
    return ()

/-- Return from the loop of main: the port is destroyed, and then the static panel. -/
def leave (calls : Calls W) (code : Int) (s : Process) : Program W Process := do
  let dev ← s.dev.close calls.win
  let emu ← s.emu.leave calls.hid code
  return { s with dev := dev, emu := emu }

/-- After the inner loop. The last thing a branch of the switch does is to respond. -/
def endOfLine (calls : Calls W) (s : Process) : Program W (Process ⊕ Process) := do
  let emu ← (s.emu.note (.request (s.emu.buf.bytes s.emu.p))).dispatch calls.hid
  respond calls.line s.dev (told s.emu emu)
  if emu.quit then
    let s ← leave calls 0 { s with emu := emu }
    return .inr s
  else
    return .inl { s with emu := { emu with p := 0, rem := bufSize - 1 } }

def readByte (calls : Calls W) (s : Process) (b : UInt8) : Program W (Process ⊕ Process) :=
  let emu := { s.emu with buf := s.emu.buf.store s.emu.p b }
  if b = ascii '\n' then
    endOfLine calls { s with emu := { emu with buf := emu.buf.store emu.p 0 } }
  else
    let emu := { emu with p := emu.p + 1, rem := emu.rem - 1 }
    if emu.rem > 0 then pure (.inl { s with emu := emu })
    else endOfLine calls { s with emu := emu }

/-- What main does after a `Read`, until the next one. -/
def step (calls : Calls W) (s : Process) : SerialRead → Program W (Process ⊕ Process)
  | .timedOut => do
    let emu ← s.emu.readTimedOut calls.hid
    return .inl { s with emu := emu }
  | .failed => do
    let s ← s.leave calls 1
    return .inr s
  | .byte b => s.readByte calls b

def trip (calls : Calls W) (s : Process) : Program W (Process ⊕ Process) := do
  let (nread, bs) ← s.dev.read calls.line 1
  let r := SerialRead.ofRead nread bs
  step calls { s with reads := r :: s.reads } r

/-- The process with these arguments, stopped after so many reads (`inl`) unless it returns
before. -/
def main (calls : Calls W) (buf : Memory) (args : List (List UInt8)) (n : Nat) :
    Program W (Process ⊕ Process) := do
  match args with
  | [_, port] =>
    let (ret, dev) ← SerialPort.init.open calls.win (devname port) 9600
      [ascii '8', ascii 'N', ascii '1'] .none
    let s := { dev := dev, emu := .start buf, reads := [] }
    if ret ≠ 0 then
      let s ← leave calls 1 s
      return .inr s
    else
      trips (trip calls) n s
  | _ =>
    -- main returns before it has a port
    let emu ← (Emu.start buf).leave calls.hid 1
    return .inr { dev := .init, emu := emu, reads := [] }

inductive Stepped (calls : Calls W) (s : Process) (w : W) :
    SerialRead → Process ⊕ Process → W → Prop
  | waited {emu : Emu} {w' : W} (looks : (s.emu.readTimedOut calls.hid).run w = some (emu, w')) :
      Stepped calls s w .timedOut (.inl { s with emu := emu }) w'
  | failed {s' : Process} {w' : W} (leaves : (s.leave calls 1).run w = some (s', w')) :
      Stepped calls s w .failed (.inr s') w'
  | inLine {b : UInt8} (more : ¬ s.emu.EndsLine b) :
      Stepped calls s w (.byte b) (.inl { s with emu := s.emu.stored b }) w
  | switched {b : UInt8} {emu : Emu} {w₁ w' : W} (ends : s.emu.EndsLine b)
      (acts : ((s.emu.handed b).dispatch calls.hid).run w = some (emu, w₁))
      (sends : (respond calls.line s.dev (told (s.emu.lineRead b) emu)).run w₁ = some ((), w'))
      (goes : emu.quit = false) :
      Stepped calls s w (.byte b) (.inl { s with emu := emu.nextLine }) w'
  | quits {b : UInt8} {emu : Emu} {s' : Process} {w₁ w₂ w' : W} (ends : s.emu.EndsLine b)
      (acts : ((s.emu.handed b).dispatch calls.hid).run w = some (emu, w₁))
      (sends : (respond calls.line s.dev (told (s.emu.lineRead b) emu)).run w₁ = some ((), w₂))
      (stops : emu.quit = true)
      (leaves : (leave calls 0 { s with emu := emu }).run w₂ = some (s', w')) :
      Stepped calls s w (.byte b) (.inr s') w'

theorem readByte_ends (calls : Calls W) {s : Process} {b : UInt8} (ends : s.emu.EndsLine b) :
    s.readByte calls b = endOfLine calls { s with emu := s.emu.lineRead b } := by
  unfold readByte Emu.lineRead
  by_cases newline : b = ascii '\n'
  · simp only [if_pos newline]
  · have full : ¬ s.emu.rem - 1 > 0 := by
      have := ends.resolve_left newline
      omega
    simp only [if_neg newline]
    exact if_neg full

theorem readByte_more (calls : Calls W) {s : Process} {b : UInt8} (more : ¬ s.emu.EndsLine b) :
    s.readByte calls b = pure (.inl { s with emu := s.emu.stored b }) := by
  obtain ⟨plain, room⟩ := not_or.mp more
  unfold readByte
  simp only [if_neg plain]
  exact if_pos (by omega)

theorem step_cases (calls : Calls W) (s : Process) (r : SerialRead) (w : W) :
    (s.step calls r).Ensures w (Stepped calls s w r) := by
  cases r with
  | timedOut =>
    apply ensures_bind
    exact fun emu w' looks => ensures_pure (.waited looks)
  | failed =>
    apply ensures_bind
    exact fun s' w' leaves => ensures_pure (.failed leaves)
  | byte b =>
    change (s.readByte calls b).Ensures w _
    by_cases ends : s.emu.EndsLine b
    · rw [readByte_ends calls ends]
      apply ensures_bind
      intro emu w₁ acts
      apply ensures_bind
      intro _ w₂ sends
      apply ensures_ite
      · intro stops
        apply ensures_bind
        exact fun s' w' leaves => ensures_pure (.quits ends acts sends stops leaves)
      · intro goes
        exact ensures_pure (.switched ends acts sends (by simpa using goes))
    · rw [readByte_more calls ends]
      exact ensures_pure (.inLine ends)

theorem readTimedOut_silent (env : Env W) (s : Emu) (w : W) :
    (s.readTimedOut env).Ensures w (fun s' _ =>
      s'.exited = s.exited ∧ s'.responses = s.responses) := by
  apply ensures_ite
  · intro _
    apply ensures_bind
    intro now w₁ _
    apply ensures_ite
    · intro _
      apply ensures_bind
      exact fun panel w₂ _ => ensures_pure ⟨rfl, rfl⟩
    · exact fun _ => ensures_pure ⟨rfl, rfl⟩
  · exact fun _ => ensures_pure ⟨rfl, rfl⟩

/-- The switch leaves main running, and responds at most once. -/
theorem dispatch_once (env : Env W) (s : Emu) (w : W) :
    (s.dispatch env).Ensures w (fun s' _ => s'.exited = s.exited ∧
      (s'.responses = s.responses ∨ ∃ resp, s'.responses = resp :: s.responses)) := by
  cases asks : Emu.asked s.buf with
  | none =>
    rw [Emu.dispatch_unasked env asks]
    apply ensures_pure
    refine ⟨?_, .inl (Emu.responses_of_log s.ignored_log)⟩
    unfold Emu.ignored
    split <;> rfl
  | some op =>
    rw [Emu.dispatch_asked env asks]
    intro s' w' serves
    refine ⟨(Emu.serve_frame serves).2.2, ?_⟩
    rcases Emu.serve_responses serves with same | ⟨stack, more⟩
    · exact .inl same
    · exact .inr ⟨_, more⟩

end Process
end FlatPanel
