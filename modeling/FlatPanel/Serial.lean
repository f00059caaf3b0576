import FlatPanel.Emu

/-! serialport.cpp: the port object, run against the calls of Windows it makes. -/
namespace FlatPanel

open Program

/-- A `HANDLE`. Two values stand for none: a file that cannot be opened gives one of them, an
event that cannot be created the other. -/
inductive WinHandle where
  | null
  | invalid
  | object (n : Nat)
  deriving DecidableEq

inductive Parity where
  | none | odd | even | mark | space
  deriving DecidableEq

inductive FlowControl where
  | none | rtsCts | xonXoff
  deriving DecidableEq

structure SerialPortDCS where
  baud : BitVec 32
  parity : Parity
  wordlen : UInt8
  stopbits : UInt8
  rtscts : Bool
  xonxoff : Bool
  deriving DecidableEq

def SerialPortDCS.init : SerialPortDCS := ⟨38400, .none, 8, 1, false, false⟩

/-- The device control block; the members that are not here stay zero. -/
structure DCB where
  baudRate : BitVec 32
  fBinary : Bool
  fOutxCtsFlow : Bool
  fDtrControl : Nat
  fRtsControl : Nat
  fOutX : Bool
  fInX : Bool
  xoffChar : UInt8
  xonChar : UInt8
  xonLim : Nat
  xoffLim : Nat
  parity : Nat
  stopBits : Nat
  byteSize : UInt8

structure CommTimeouts where
  readIntervalTimeout : Nat
  readTotalTimeoutMultiplier : Nat
  readTotalTimeoutConstant : Nat
  writeTotalTimeoutMultiplier : Nat
  writeTotalTimeoutConstant : Nat

def serialPortBufsize : Nat := 4096

/-- The calls that open and close. The ones that return a `BOOL` return whether they succeed. -/
structure WinOpen (W : Type) where
  createFileA : List UInt8 → Program W WinHandle
  setCommState : WinHandle → DCB → Program W Bool
  createEvent : Program W WinHandle
  setCommTimeouts : WinHandle → CommTimeouts → Program W Bool
  setupComm : WinHandle → Nat → Nat → Program W Bool
  closeHandle : WinHandle → Program W Unit

/-- An `OVERLAPPED` is passed by its address, and each port has two. -/
inductive Overlapped where
  | rd | wr
  deriving DecidableEq

/-- The calls that transfer. `getOverlappedResult` succeeds with the bytes of the operation. -/
structure WinTransfer (W : Type) where
  readFile : WinHandle → Nat → Overlapped → Program W Bool
  writeFile : WinHandle → List UInt8 → Overlapped → Program W Bool
  getOverlappedResult : WinHandle → Overlapped → Bool → Program W (Option (List UInt8))
  flushFileBuffers : WinHandle → Program W Unit
  getLastError : Program W Nat

def errorIoIncomplete : Nat := 996

def errorIoPending : Nat := 997

/-- `!ok && GetLastError() != expected`. -/
def WinTransfer.failed {W : Type} (win : WinTransfer W) (ok : Bool) (expected : Nat) :
    Program W Bool := do
  if ok then
    return false
  else
    let err ← win.getLastError
    return decide (err ≠ expected)

/-- Of an `OVERLAPPED` only the event is the program's. -/
structure SerialPort where
  mDcs : SerialPortDCS
  mFd : WinHandle
  mOvRd : WinHandle
  mOvWr : WinHandle
  deriving DecidableEq

def Parity.ofLetter (c : UInt8) : Option Parity :=
  if c = ascii 'N' ∨ c = ascii 'n' then some .none
  else if c = ascii 'O' ∨ c = ascii 'o' then some .odd
  else if c = ascii 'E' ∨ c = ascii 'e' then some .even
  else if c = ascii 'M' ∨ c = ascii 'm' then some .mark
  else if c = ascii 'S' ∨ c = ascii 's' then some .space
  else Option.none

def Parity.code : Parity → Nat
  | .none => 0
  | .odd => 1
  | .even => 2
  | .mark => 3
  | .space => 4

namespace SerialPort

variable {W : Type}

/-- The constructor; the two `OVERLAPPED` are cleared. -/
def init : SerialPort := ⟨.init, .invalid, .null, .null⟩

def close (win : WinOpen W) (d : SerialPort) : Program W SerialPort := do
  if d.mFd ≠ .invalid then
    win.closeHandle d.mOvRd
    win.closeHandle d.mOvWr
    win.closeHandle d.mFd
    return { d with mFd := .invalid }
  else
    return d

/-- A place of a string; where it ends there is a NUL. -/
def place (s : List UInt8) (i : Nat) : UInt8 := s.getD i 0

/-- What `Open` makes of its arguments. -/
def settings (baudrate : BitVec 32) (protocol : List UInt8) (flowControl : FlowControl) :
    Option SerialPortDCS :=
  if ascii '5' ≤ place protocol 0 ∧ place protocol 0 ≤ ascii '8' then
    match Parity.ofLetter (place protocol 1) with
    | some parity =>
      if ascii '1' ≤ place protocol 2 ∧ place protocol 2 ≤ ascii '2' then
        some
          { baud := baudrate
            parity := parity
            wordlen := place protocol 0 - ascii '0'
            stopbits := place protocol 2 - ascii '0'
            rtscts := decide (flowControl = .rtsCts)
            xonxoff := decide (flowControl = .xonXoff) }
      else none
    | none => none
  else none

def dcb (dcs : SerialPortDCS) : DCB where
  baudRate := dcs.baud
  fBinary := true
  fOutxCtsFlow := dcs.rtscts
  fDtrControl := 1
  fRtsControl := if dcs.rtscts then 2 else 0
  fOutX := dcs.xonxoff
  fInX := dcs.xonxoff
  xoffChar := 0x13
  xonChar := 0x11
  xonLim := (serialPortBufsize >>> 2) * 3
  xoffLim := (serialPortBufsize >>> 2) * 3
  parity := dcs.parity.code
  stopBits := if dcs.stopbits = 2 then 2 else 0
  byteSize := dcs.wordlen

/-- A `ReadFile` returns in three seconds; writes have no time-outs. -/
def timeouts : CommTimeouts := ⟨0xFFFFFFFF, 0, 3000, 0, 0⟩

/-- The last calls of `OpenDevice`. -/
def setUp (win : WinOpen W) (d : SerialPort) : Program W (Int × SerialPort) := do
  let ok ← win.setCommTimeouts d.mFd timeouts
  if ¬ ok then
    return (-5, d)
  else
    let ok ← win.setupComm d.mFd serialPortBufsize serialPortBufsize
    if ¬ ok then
      return (-6, d)
    else
      return (0, d)

/-- Nothing is undone on the way out of a failure, and an event is compared with the value that
only a file has when it is not there. -/
def openDevice (win : WinOpen W) (devname : List UInt8) (dcs : SerialPortDCS) (d : SerialPort) :
    Program W (Int × SerialPort) := do
  let fd ← win.createFileA devname
  let d := { d with mDcs := dcs, mFd := fd }
  if d.mFd = .invalid then
    return (-1, d)
  else
    let ok ← win.setCommState d.mFd (dcb d.mDcs)
    if ¬ ok then
      return (-2, d)
    else
      let event ← win.createEvent
      let d := { d with mOvRd := event }
      if d.mOvRd = .invalid then
        return (-3, d)
      else
        let event ← win.createEvent
        let d := { d with mOvWr := event }
        if d.mOvWr = .invalid then
          return (-3, d)
        else
          d.setUp win

def «open» (win : WinOpen W) (portname : List UInt8) (baudrate : BitVec 32)
    (protocol : List UInt8) (flowControl : FlowControl) (d : SerialPort) :
    Program W (Int × SerialPort) := do
  match settings baudrate protocol flowControl with
  | none => return (-1, d)
  | some dcs => d.openDevice win portname dcs

def read (win : WinTransfer W) (d : SerialPort) (len : Nat) :
    Program W (Int × List UInt8) := do
  let ok ← win.readFile d.mFd len .rd
  let failed ← win.failed ok errorIoPending
  if failed then
    return (-1, [])
  else
    let result ← win.getOverlappedResult d.mFd .rd true
    match result with
    | none => return (-1, [])
    | some bs => return (bs.length, bs)

def write (win : WinTransfer W) (d : SerialPort) (bs : List UInt8) : Program W Bool := do
  let result ← win.getOverlappedResult d.mFd .wr false
  let failed ← win.failed result.isSome errorIoIncomplete
  if failed then
    return false
  else if ¬ result.isSome then
    -- the one before is not finished, and this one is dropped
    return false
  else
    let ok ← win.writeFile d.mFd bs .wr
    let failed ← win.failed ok errorIoPending
    if failed then
      return false
    else
      win.flushFileBuffers d.mFd
      return true

end SerialPort

/-- What the loop of main makes of a `Read` of one byte. -/
def SerialRead.ofRead (nread : Int) (bs : List UInt8) : SerialRead :=
  if nread = 0 then .timedOut
  else if nread < 0 then .failed
  else .byte (bs.headD 0)

structure WinOpen.Total {W : Type} (win : WinOpen W) : Prop where
  createFileA : ∀ name w, (win.createFileA name).Returns w (fun _ _ => True)
  setCommState : ∀ fd dcb w, (win.setCommState fd dcb).Returns w (fun _ _ => True)
  createEvent : ∀ w, win.createEvent.Returns w (fun _ _ => True)
  setCommTimeouts : ∀ fd cto w, (win.setCommTimeouts fd cto).Returns w (fun _ _ => True)
  setupComm : ∀ fd m n w, (win.setupComm fd m n).Returns w (fun _ _ => True)
  closeHandle : ∀ h w, (win.closeHandle h).Returns w (fun _ _ => True)

structure WinTransfer.Total {W : Type} (line : WinTransfer W) : Prop where
  readFile : ∀ fd len ov w, (line.readFile fd len ov).Returns w (fun _ _ => True)
  writeFile : ∀ fd bs ov w, (line.writeFile fd bs ov).Returns w (fun _ _ => True)
  getOverlappedResult : ∀ fd ov wait w,
    (line.getOverlappedResult fd ov wait).Returns w (fun _ _ => True)
  flushFileBuffers : ∀ fd w, (line.flushFileBuffers fd).Returns w (fun _ _ => True)
  getLastError : ∀ w, line.getLastError.Returns w (fun _ _ => True)

namespace SerialPort

variable {W : Type}

theorem close_returns {win : WinOpen W} (total : win.Total) (d : SerialPort) (w : W) :
    (d.close win).Returns w (fun _ _ => True) := by
  apply returns_ite
  · intro _
    apply returns_bind
    apply (total.closeHandle d.mOvRd w).mono
    intro _ w₁ _
    apply returns_bind
    apply (total.closeHandle d.mOvWr w₁).mono
    intro _ w₂ _
    apply returns_bind
    apply (total.closeHandle d.mFd w₂).mono
    exact fun _ _ _ => returns_pure trivial
  · exact fun _ => returns_pure trivial

theorem setUp_returns {win : WinOpen W} (total : win.Total) (d : SerialPort) (w : W) :
    (d.setUp win).Returns w (fun _ _ => True) := by
  apply returns_bind
  apply (total.setCommTimeouts d.mFd timeouts w).mono
  intro ok w₁ _
  apply returns_ite (fun _ => returns_pure trivial)
  intro _
  apply returns_bind
  apply (total.setupComm d.mFd _ _ w₁).mono
  intro ok w₂ _
  exact returns_ite (fun _ => returns_pure trivial) (fun _ => returns_pure trivial)

theorem openDevice_returns {win : WinOpen W} (total : win.Total) (devname : List UInt8)
    (dcs : SerialPortDCS) (d : SerialPort) (w : W) :
    (d.openDevice win devname dcs).Returns w (fun _ _ => True) := by
  apply returns_bind
  apply (total.createFileA devname w).mono
  intro fd w₁ _
  apply returns_ite (fun _ => returns_pure trivial)
  intro _
  apply returns_bind
  apply (total.setCommState fd (dcb dcs) w₁).mono
  intro ok w₂ _
  apply returns_ite (fun _ => returns_pure trivial)
  intro _
  apply returns_bind
  apply (total.createEvent w₂).mono
  intro rd w₃ _
  apply returns_ite (fun _ => returns_pure trivial)
  intro _
  apply returns_bind
  apply (total.createEvent w₃).mono
  intro wr w₄ _
  apply returns_ite (fun _ => returns_pure trivial)
  exact fun _ => setUp_returns total _ w₄

/-- Where the calls of Windows come back, so does `Open`. -/
theorem open_returns {win : WinOpen W} (total : win.Total) (portname : List UInt8)
    (baudrate : BitVec 32) (protocol : List UInt8) (flowControl : FlowControl) (d : SerialPort)
    (w : W) : (d.open win portname baudrate protocol flowControl).Returns w
      (fun _ _ => True) := by
  unfold SerialPort.open
  cases settings baudrate protocol flowControl with
  | none => exact returns_pure trivial
  | some dcs => exact openDevice_returns total portname dcs d w

section Transfers

variable {line : WinTransfer W} (total : line.Total)
include total

theorem failed_returns (ok : Bool) (expected : Nat) (w : W) :
    (line.failed ok expected).Returns w (fun _ _ => True) := by
  apply returns_ite (fun _ => returns_pure trivial)
  intro _
  apply returns_bind
  exact (total.getLastError w).mono fun _ _ _ => returns_pure trivial

/-- Where the calls of Windows come back, so do `Read` and `Write`. -/
theorem read_returns (d : SerialPort) (len : Nat) (w : W) :
    (d.read line len).Returns w (fun _ _ => True) := by
  apply returns_bind
  apply (total.readFile d.mFd len .rd w).mono
  intro ok w₁ _
  apply returns_bind
  apply (failed_returns total ok errorIoPending w₁).mono
  intro failed w₂ _
  apply returns_ite (fun _ => returns_pure trivial)
  intro _
  apply returns_bind
  apply (total.getOverlappedResult d.mFd .rd true w₂).mono
  rintro (_ | bs) w₃ _
  · exact returns_pure trivial
  · exact returns_pure trivial

theorem write_returns (d : SerialPort) (bs : List UInt8) (w : W) :
    (d.write line bs).Returns w (fun _ _ => True) := by
  apply returns_bind
  apply (total.getOverlappedResult d.mFd .wr false w).mono
  intro result w₁ _
  apply returns_bind
  apply (failed_returns total _ errorIoIncomplete w₁).mono
  intro failed w₂ _
  apply returns_ite (fun _ => returns_pure trivial)
  intro _
  apply returns_ite (fun _ => returns_pure trivial)
  intro _
  apply returns_bind
  apply (total.writeFile d.mFd bs .wr w₂).mono
  intro ok w₃ _
  apply returns_bind
  apply (failed_returns total ok errorIoPending w₃).mono
  intro failed w₄ _
  apply returns_ite (fun _ => returns_pure trivial)
  intro _
  apply returns_bind
  exact (total.flushFileBuffers d.mFd w₄).mono fun _ _ _ => returns_pure trivial

end Transfers

inductive Writes (win : WinTransfer W) (d : SerialPort) (bs : List UInt8) (w : W) :
    Bool → W → Prop
  | dropped {w₁ w' : W} {bad : Bool}
      (asked : (win.getOverlappedResult d.mFd .wr false).run w = some (none, w₁))
      (why : (win.failed false errorIoIncomplete).run w₁ = some (bad, w')) :
      Writes win d bs w false w'
  | failed {w₁ w₂ w' : W} {sent : List UInt8} {ok : Bool}
      (asked : (win.getOverlappedResult d.mFd .wr false).run w = some (some sent, w₁))
      (write : (win.writeFile d.mFd bs .wr).run w₁ = some (ok, w₂))
      (why : (win.failed ok errorIoPending).run w₂ = some (true, w')) :
      Writes win d bs w false w'
  | sent {w₁ w₂ w₃ w' : W} {sent : List UInt8} {ok : Bool}
      (asked : (win.getOverlappedResult d.mFd .wr false).run w = some (some sent, w₁))
      (write : (win.writeFile d.mFd bs .wr).run w₁ = some (ok, w₂))
      (why : (win.failed ok errorIoPending).run w₂ = some (false, w₃))
      (flush : (win.flushFileBuffers d.mFd).run w₃ = some ((), w')) : Writes win d bs w true w'

theorem write_cases (win : WinTransfer W) (d : SerialPort) (bs : List UInt8) (w : W) :
    (d.write win bs).Ensures w (Writes win d bs w) := by
  intro r w' hs
  obtain ⟨result, w₁, asked, hs⟩ := (run_bind_eq _ _ _ _ _).mp hs
  obtain ⟨bad, w₂, why, hs⟩ := (run_bind_eq _ _ _ _ _).mp hs
  cases result with
  | none =>
    have ends : false = r ∧ w₂ = w' := by
      cases bad <;> exact (run_pure_eq _ _ _ _).mp hs
    obtain ⟨rfl, rfl⟩ := ends
    exact .dropped asked why
  | some sent =>
    obtain ⟨rfl, rfl⟩ := (run_pure_eq _ _ _ _).mp why
    obtain ⟨ok, w₂, write, hs⟩ := (run_bind_eq _ _ _ _ _).mp hs
    obtain ⟨bad, w₃, why, hs⟩ := (run_bind_eq _ _ _ _ _).mp hs
    cases bad with
    | true =>
      obtain ⟨rfl, rfl⟩ := (run_pure_eq _ _ _ _).mp hs
      exact .failed asked write why
    | false =>
      obtain ⟨⟨⟩, w₄, flush, hs⟩ := (run_bind_eq _ _ _ _ _).mp hs
      obtain ⟨rfl, rfl⟩ := (run_pure_eq _ _ _ _).mp hs
      exact .sent asked write why flush

/-- A byte at least, nothing before the time is over, or a failure. -/
inductive Reads (win : WinTransfer W) (d : SerialPort) (len : Nat) (w : W) :
    Int × List UInt8 → W → Prop
  | failed {w₁ w' : W} {ok : Bool} (begins : (win.readFile d.mFd len .rd).run w = some (ok, w₁))
      (why : (win.failed ok errorIoPending).run w₁ = some (true, w')) :
      Reads win d len w (-1, []) w'
  | lost {w₁ w₂ w' : W} {ok : Bool} (begins : (win.readFile d.mFd len .rd).run w = some (ok, w₁))
      (why : (win.failed ok errorIoPending).run w₁ = some (false, w₂))
      (waits : (win.getOverlappedResult d.mFd .rd true).run w₂ = some (none, w')) :
      Reads win d len w (-1, []) w'
  | got {w₁ w₂ w' : W} {ok : Bool} {bs : List UInt8}
      (begins : (win.readFile d.mFd len .rd).run w = some (ok, w₁))
      (why : (win.failed ok errorIoPending).run w₁ = some (false, w₂))
      (waits : (win.getOverlappedResult d.mFd .rd true).run w₂ = some (some bs, w')) :
      Reads win d len w (bs.length, bs) w'

theorem read_cases (win : WinTransfer W) (d : SerialPort) (len : Nat) (w : W) :
    (d.read win len).Ensures w (Reads win d len w) := by
  apply ensures_bind
  intro ok w₁ begins
  apply ensures_bind
  intro failed w₂ why
  apply ensures_ite
  · rintro rfl
    exact ensures_pure (.failed begins why)
  · intro started
    obtain rfl : failed = false := by simpa using started
    apply ensures_bind
    intro result w₃ waits
    cases result with
    | none => exact ensures_pure (.lost begins why waits)
    | some bs => exact ensures_pure (.got begins why waits)

end SerialPort
end FlatPanel
