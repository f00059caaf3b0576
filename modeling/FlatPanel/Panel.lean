import FlatPanel.Dimmer
import FlatPanel.Levels

/-! alnitak_emu.cpp and alnitak_emu.h: the emulated Alnitak panel. -/
namespace FlatPanel

/-- No member function assigns `prodid`, `cover` or `motor`, so they keep the values
of the constructor; `constructed` says so. -/
structure AlnitakEmu where
  prodid : Int
  cover : Int
  light : Bool
  motor : Bool
  blvl : UInt8
  dimmer : USBDimmer
  constructed : prodid = 10 ∧ cover = 0 ∧ motor = false

namespace AlnitakEmu

variable {W : Type}

/-- The static object: its storage is zero before the constructors run, and that of
`USBDimmer` sets only the handle. -/
def init : AlnitakEmu where
  prodid := 10
  cover := 0
  light := false
  motor := false
  blvl := 255
  dimmer := { mHandle := none, mBrightness := 0, mOn := false }
  constructed := ⟨rfl, rfl, rfl⟩

def isConnected (p : AlnitakEmu) : Bool := p.dimmer.isConnected

def getBrightness (p : AlnitakEmu) : Nat := p.blvl.toNat

def connect (env : Env W) (p : AlnitakEmu) : Program W (Bool × AlnitakEmu) := do
  let (ret, d) ← p.dimmer.connect env
  if ret = usbdSuccess then
    return (true, { p with
      dimmer := d
      light := decide (d.isLightOn = 1)
      blvl := sMap.alnitakVal (USBDimmer.asUnsigned d.getBrightness).toNat })
  else
    return (false, { p with dimmer := d })

def disconnect (env : Env W) (p : AlnitakEmu) : Program W AlnitakEmu := do
  let d ← p.dimmer.disconnect env
  return { p with dimmer := d }

/-- The array is turned into a string up to its first NUL. -/
def responseStr (p : AlnitakEmu) (cmd : UInt8) (data : Memory) : List UInt8 :=
  let prodid := p.prodid.bmod 256
  [ascii '*', cmd, UInt8.ofInt (48 + prodid.tdiv 10), UInt8.ofInt (48 + (p.prodid.tmod 10).bmod 256),
    data 0, data 1, data 2, ascii '\n', 0].takeWhile (· ≠ 0)

def zeros : Memory := Memory.fill (fun _ => 0) [ascii '0', ascii '0', ascii '0']

def stateStr (p : AlnitakEmu) : List UInt8 :=
  let buf := [if p.motor then ascii '1' else ascii '0',
    if p.light then ascii '1' else ascii '0',
    UInt8.ofInt (48 + p.cover)]
  p.responseStr (ascii 'S') (Memory.fill (fun _ => 0) buf)

def setLightOn (env : Env W) (p : AlnitakEmu) (on : Bool) : Program W (Bool × AlnitakEmu) := do
  let (ret, d) ← p.dimmer.lightOn env on
  if ret = usbdSuccess then
    return (true, { p with dimmer := d, light := on })
  else
    return (false, { p with dimmer := d })

def setBrightness (env : Env W) (p : AlnitakEmu) (val : UInt8) :
    Program W (Bool × AlnitakEmu) := do
  let dval := sMap.usbdVal val.toNat
  let (ret, d) ← p.dimmer.setBrightness env dval
  if ret = usbdSuccess then
    return (true, { p with dimmer := d, blvl := val })
  else
    return (false, { p with dimmer := d })

/-- Destruction disconnects; the dimmer's own destructor then finds a null handle. -/
def destroy (env : Env W) (p : AlnitakEmu) : Program W AlnitakEmu := do
  let p ← p.disconnect env
  p.disconnect env

end AlnitakEmu
end FlatPanel
