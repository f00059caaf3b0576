import FlatPanel.Dimmer

/-! The dimmer at the other end of the HID handle. What nothing is promised about (the
filler bytes of its answers, how often it reports that it is still moving, the clock,
uninitialised memory, which calls fail) is read from a `Behaviour` by the number of
calls made so far, so that a theorem for every `Behaviour` covers all of it. -/
namespace FlatPanel

inductive Fault where
  | none
  | timedOut
  | failed
  deriving DecidableEq

structure Behaviour where
  fault : Nat → Fault
  filler : Nat → UInt8
  moving : Nat → Nat
  clock : Nat → Int
  uninit : Nat → Memory

/-- `inten` is the intensity shown, `level` the one the last SETINTEN asked for, and
`gotos` the number of SETSTATE reports received. -/
structure Device where
  inten : Nat
  level : Nat
  gotos : Nat
  moving : Nat
  answer : List UInt8
  calls : Nat

namespace Device

def byte (n : Nat) : UInt8 := n.toUInt8

def idle (inten : Nat) : Device :=
  { inten := inten, level := inten, gotos := 0, moving := 0, answer := [], calls := 0 }

def word (report : List UInt8) : Nat := (report.getD 2 0).toNat + 256 * (report.getD 3 0).toNat

/-- The effect of a report and the answer that is made ready. -/
def receive (b : Behaviour) (d : Device) (report : List UInt8) : Device :=
  let filler := b.filler d.calls
  let cmd := report.getD 1 0
  if cmd = cmdSetInten then
    { d with level := word report, answer := [filler, cmd] }
  else if cmd = cmdSetState ∧ report.getD 2 0 = 3 then
    { d with
      inten := d.level, gotos := d.gotos + 1, moving := b.moving d.calls, answer := [filler, cmd] }
  else if cmd = cmdGetState then
    { d with moving := d.moving - 1, answer := [filler, if d.moving = 0 then 0 else 1, filler] }
  else if cmd = cmdGetInten then
    { d with answer := [filler, byte d.inten, byte (d.inten / 256), filler] }
  else
    { d with answer := [filler] }

def tick (d : Device) : Device := { d with calls := d.calls + 1 }

@[simp] theorem tick_answer (d : Device) : d.tick.answer = d.answer := rfl

def hidOpen (b : Behaviour) : Program Device (Option Handle) := fun d =>
  some (if b.fault d.calls = .none then some d.calls else none, d.tick)

/-- A report whose write fails does not reach the device. -/
def hidWrite (b : Behaviour) (report : List UInt8) : Program Device Int := fun d =>
  if b.fault d.calls = .none then some (report.length, (d.receive b report).tick)
  else some (-1, d.tick)

def found (b : Behaviour) (d : Device) : Input :=
  match b.fault d.calls with
  | .none => .bytes d.answer
  | .timedOut => .bytes []
  | .failed => .error

def hidReadTimeout (b : Behaviour) : Program Device Input := fun d => some (d.found b, d.tick)

def env (b : Behaviour) : Env Device where
  hidOpen := hidOpen b
  hidWrite := fun _ => hidWrite b
  hidReadTimeout := fun _ => hidReadTimeout b
  hidClose := fun _ d => some ((), d.tick)
  sleep := fun _ d => some ((), d.tick)
  time64 := fun d => some (b.clock d.calls, d.tick)
  uninit := fun d => b.uninit d.calls
  pollBound := fun d => d.moving + 1

end Device
end FlatPanel
