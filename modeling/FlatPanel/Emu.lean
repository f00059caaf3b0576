import FlatPanel.Panel
import FlatPanel.Library.Runs

/-! emu.cpp: the main loop, one `Read` call of the serial port at a time. `log` is a
record of what main did, newest first; no decision is taken from it. -/
namespace FlatPanel

/-- What `dev.Read(p, 1)` returns. -/
inductive SerialRead where
  | timedOut
  | failed
  | byte (b : UInt8)
  deriving DecidableEq

inductive SetOp where
  | light (on : Bool)
  | brightness (val : UInt8)
  deriving DecidableEq

inductive Act where
  /-- The switch is entered with these bytes at the front of `buf`. -/
  | request (line : List UInt8)
  | connect (panel : AlnitakEmu) (ok : Bool)
  | update (now : Int)
  | set (op : SetOp) (ok : Bool)
  | respond (resp : List UInt8)
  | idle (now : Int)
  | disconnect

/-- The first letters the switch on `buf[1]` knows. -/
inductive Letter where
  | S | L | D | B | J | V | u | other
  deriving DecidableEq

def Letter.ofByte (b : UInt8) : Letter :=
  if b = ascii 'S' then .S
  else if b = ascii 'L' then .L
  else if b = ascii 'D' then .D
  else if b = ascii 'B' then .B
  else if b = ascii 'J' then .J
  else if b = ascii 'V' then .V
  else if b = ascii 'u' then .u
  else .other

def bufSize : Nat := 1024

def idleTimeout : Int := 15 * 1000

/-- The globals, main's locals, and whether main has returned. -/
structure Emu where
  panel : AlnitakEmu
  disconnectTime : Int
  buf : Memory
  p : Nat
  rem : Nat
  quit : Bool
  exited : Option Int
  log : List Act

namespace Emu

variable {W : Type}

/-- The state at the first `Read`; the array holds whatever was on the stack. -/
def start (buf : Memory) : Emu where
  panel := .init
  disconnectTime := 0
  buf := buf
  p := 0
  rem := bufSize - 1
  quit := false
  exited := none
  log := []

def note (s : Emu) (a : Act) : Emu := { s with log := a :: s.log }

/-- `respond` hands the string to the port; a failing `Write` is only warned about. -/
def respond (s : Emu) (resp : List UInt8) : Emu := s.note (.respond resp)

def updateDisconnectTime (env : Env W) (s : Emu) : Program W Emu := do
  let now ← env.time64
  return { s with disconnectTime := now + idleTimeout }.note (.update now)

def connectPanel (env : Env W) (s : Emu) : Program W (Bool × Emu) := do
  if s.panel.isConnected then
    return (true, s)
  else
    let (ok, panel) ← s.panel.connect env
    let s := { s with panel := panel }.note (.connect panel ok)
    if ok then
      let s ← s.updateDisconnectTime env
      return (true, s)
    else
      return (false, s)

def disconnectPanel (env : Env W) (s : Emu) : Program W Emu := do
  let panel ← s.panel.disconnect env
  return { s with panel := panel }.note .disconnect

/-- The condition of a branch's inner `if`; the branches that only ask have none. -/
def applyOp (env : Env W) (op : Option SetOp) (s : Emu) : Program W (Bool × Emu) := do
  match op with
  | none => return (true, s)
  | some (.light on) =>
    let (ok, panel) ← s.panel.setLightOn env on
    return (ok, { s with panel := panel }.note (.set (.light on) ok))
  | some (.brightness val) =>
    let (ok, panel) ← s.panel.setBrightness env val
    return (ok, { s with panel := panel }.note (.set (.brightness val) ok))

/-- The body the branches of the switch share. `reply` may use an automatic array. -/
def serve (env : Env W) (op : Option SetOp) (reply : Memory → AlnitakEmu → List UInt8)
    (s : Emu) : Program W Emu := do
  let (ok, s) ← s.connectPanel env
  if ok then
    let (done, s) ← s.applyOp env op
    if done then
      let stack ← uninitialised env
      let resp := reply stack s.panel
      let s ← s.updateDisconnectTime env
      return s.respond resp
    else
      s.disconnectPanel env
  else
    return s

def stateReply (_ : Memory) (p : AlnitakEmu) : List UInt8 := p.stateStr

def plainReply (cmd : Char) (_ : Memory) (p : AlnitakEmu) : List UInt8 :=
  p.responseStr (ascii cmd) AlnitakEmu.zeros

def echoReply (data : Memory) (_ : Memory) (p : AlnitakEmu) : List UInt8 :=
  p.responseStr (ascii 'B') data

/-- `bbuf` has three bytes, and `"%03u"` makes at least three characters. -/
def levelReply (bbuf : Memory) (p : AlnitakEmu) : List UInt8 :=
  p.responseStr (ascii 'J') (bbuf.fill (CString.snprintf 3 (CString.format03u p.getBrightness)))

def versionReply (_ : Memory) (p : AlnitakEmu) : List UInt8 :=
  p.responseStr (ascii 'V') (Memory.fill (fun _ => 0) [ascii '9', ascii '9', ascii '9'])

/-- The text `sscanf` is given: from `buf[2]` on, followed no further than the array. -/
def numberText (buf : Memory) : List UInt8 := buf.cstring 2 (bufSize - 2)

def quitText : List UInt8 := [ascii 'q', ascii 'u', ascii 'i', ascii 't']

/-- The switch. The number of a B request is narrowed to `unsigned char` by the call,
and its reply is cut from `&buf[2]`. -/
def dispatch (env : Env W) (s : Emu) : Program W Emu :=
  match Letter.ofByte (s.buf 1) with
  | .S => s.serve env none stateReply
  | .L => s.serve env (some (.light true)) (plainReply 'L')
  | .D => s.serve env (some (.light false)) (plainReply 'D')
  | .B =>
    match CString.scanUnsigned (numberText s.buf) with
    | some b => s.serve env (some (.brightness b.toUInt8)) (echoReply (s.buf.offset 2))
    | none => pure s
  | .J => s.serve env none levelReply
  | .V => s.serve env none versionReply
  | .u => pure (if s.buf.cstring 0 bufSize = quitText then { s with quit := true } else s)
  | .other => pure s

/-- Return from main; the static panel is destroyed. -/
def leave (env : Env W) (code : Int) (s : Emu) : Program W Emu := do
  let panel ← s.panel.destroy env
  return { s with panel := panel, exited := some code }

/-- After the inner loop: the switch, and the next trip of the outer loop. `buf` keeps
what it held. -/
def endOfLine (env : Env W) (s : Emu) : Program W Emu := do
  let s ← (s.note (.request (s.buf.bytes s.p))).dispatch env
  if s.quit then
    s.leave env 0
  else
    return { s with p := 0, rem := bufSize - 1 }

def readTimedOut (env : Env W) (s : Emu) : Program W Emu := do
  if s.panel.isConnected then
    let now ← env.time64
    if now > s.disconnectTime then
      (s.note (.idle now)).disconnectPanel env
    else
      return s
  else
    return s

def readByte (env : Env W) (s : Emu) (b : UInt8) : Program W Emu :=
  let s := { s with buf := s.buf.store s.p b }
  if b = ascii '\n' then
    endOfLine env { s with buf := s.buf.store s.p 0 }
  else
    let s := { s with p := s.p + 1, rem := s.rem - 1 }
    if s.rem > 0 then pure s else endOfLine env s

/-- One `Read` call and what main does before the next one. -/
def step (env : Env W) (s : Emu) (r : SerialRead) : Program W Emu :=
  if s.exited.isSome then pure s
  else
    match r with
    | .timedOut => s.readTimedOut env
    | .failed => s.leave env 1
    | .byte b => s.readByte env b

def main (env : Env W) (buf : Memory) (rs : List SerialRead) : Program W Emu :=
  Runs.run (step env) (start buf) rs

end Emu
end FlatPanel
