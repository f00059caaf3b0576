import FlatPanel.Hid

/-! usbdimmer.cpp: the dimmer's HID protocol and the cached state of the panel. -/
namespace FlatPanel

def cmdSetState : UInt8 := 0x10
def cmdGetState : UInt8 := 0x11
def cmdSetInten : UInt8 := 0x20
def cmdGetInten : UInt8 := 0x21

def defaultBrightness : Int := 900

def usbdSuccess : Int := 0
def usbdNotConnected : Int := -1
def usbdCommError : Int := -2

theorem success_ne_commError : usbdSuccess ≠ usbdCommError := by decide

variable {W : Type}

/-- The write and read the protocol is made of: the report is the first five bytes of
`buf`, and the answer is read over it. `none` if the write fails, or the read returns
less than `least` (a time-out returns 0, an error -1). -/
def exchange (env : Env W) (handle : Handle) (buf : Memory) (least : Int) :
    Program W (Option Memory) := do
  let ret ← env.hidWrite handle (buf.bytes 5)
  if ret < 0 then
    return none
  else
    let (ret, buf) ← usbdRead env handle buf 5
    if ret < least then
      return none
    else
      return some buf

def getInten (env : Env W) (handle : Handle) : Program W Int := do
  let buf ← uninitialised env
  match ← exchange env handle ((buf.store 0 0x0).store 1 cmdGetInten) 3 with
  | none => return usbdCommError
  | some buf => return ((buf 1).toNat ||| ((buf 2).toNat <<< 8) : Nat)

def pollState (env : Env W) (handle : Handle) (buf : Memory) : Program W (Memory ⊕ Int) := do
  match ← exchange env handle ((buf.store 0 0x0).store 1 cmdGetState) 1 with
  | none => return .inr usbdCommError
  | some buf =>
    if buf 1 = 0 then
      return .inr usbdSuccess
    else
      env.sleep 100
      return .inl buf

def pollUntilDone (env : Env W) (handle : Handle) (buf : Memory) : Program W Int :=
  fun w => (Program.loop (pollState env handle) (env.pollBound w) buf).run w

def setInten (env : Env W) (handle : Handle) (inten : Int) : Program W Int := do
  let buf ← uninitialised env
  let buf := (buf.store 0 0x0).store 1 cmdSetInten
  let buf := (buf.store 2 (UInt8.ofInt inten)).store 3 (UInt8.ofInt (inten >>> (8 : Nat)))
  match ← exchange env handle buf 1 with
  | none => return usbdCommError
  | some buf =>
    let buf := ((buf.store 0 0x0).store 1 cmdSetState).store 2 3
    match ← exchange env handle buf 1 with
    | none => return usbdCommError
    | some buf => pollUntilDone env handle buf

/-- `m_on` and `m_brightness` mean nothing while `m_handle` is null. -/
structure USBDimmer where
  mHandle : Option Handle
  mBrightness : Int
  mOn : Bool

namespace USBDimmer

def isConnected (d : USBDimmer) : Bool := d.mHandle.isSome

/-- A failure after the open leaves the handle in `m_handle`. -/
def connect (env : Env W) (d : USBDimmer) : Program W (Int × USBDimmer) := do
  let handle ← env.hidOpen
  let d := { d with mHandle := handle }
  match handle with
  | none => return (usbdCommError, d)
  | some handle =>
    let inten ← getInten env handle
    if inten < 0 then
      return (usbdCommError, d)
    else if inten > 0 then
      return (usbdSuccess, { d with mOn := true, mBrightness := inten })
    else
      return (usbdSuccess, { d with mOn := false, mBrightness := defaultBrightness })

def disconnect (env : Env W) (d : USBDimmer) : Program W USBDimmer := do
  match d.mHandle with
  | none => return d
  | some handle =>
    env.hidClose handle
    return { d with mHandle := none }

/-- An `int` compared with an `unsigned int` is converted first. -/
def asUnsigned (i : Int) : Int := i % 2 ^ 32

def setBrightness (env : Env W) (d : USBDimmer) (val : Nat) : Program W (Int × USBDimmer) := do
  match d.mHandle with
  | none => return (usbdNotConnected, d)
  | some handle =>
    let val : Int := min (max val 0) 1023
    if val = asUnsigned d.mBrightness then
      return (usbdSuccess, d)
    else if ¬ d.mOn then
      return (usbdSuccess, { d with mBrightness := val })
    else
      let ret ← setInten env handle val
      if ret = usbdSuccess then
        return (ret, { d with mBrightness := val, mOn := if val = 0 then false else d.mOn })
      else
        return (ret, d)

def getBrightness (d : USBDimmer) : Int :=
  match d.mHandle with
  | none => usbdNotConnected
  | some _ => d.mBrightness

def isLightOn (d : USBDimmer) : Int :=
  match d.mHandle with
  | none => usbdNotConnected
  | some _ => if d.mOn then 1 else 0

def lightOn (env : Env W) (d : USBDimmer) (on : Bool) : Program W (Int × USBDimmer) := do
  match d.mHandle with
  | none => return (usbdNotConnected, d)
  | some handle =>
    if d.mOn = on then
      return (usbdSuccess, d)
    else
      let inten := if on then d.mBrightness else 0
      let ret ← setInten env handle inten
      if ret ≠ usbdSuccess then
        return (ret, d)
      else
        return (ret, { d with mOn := decide (inten > 0) })

end USBDimmer
end FlatPanel
