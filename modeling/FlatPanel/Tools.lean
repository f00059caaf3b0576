import FlatPanel.Panel
import FlatPanel.Usbd

/-! aacmd.cpp and usbdctrl.cpp: command-line tools that set the light once and exit. A run is
what the process leaves behind. `acts` is a record of the calls it made on its dimmer; no
decision is taken from it. -/
namespace FlatPanel

inductive ToolAct where
  | connect (ok : Bool)
  /-- A call on a dimmer in this state. -/
  | set (dimmer : USBDimmer) (call : SetCall) (ok : Bool)

structure ToolRun where
  status : Int
  out : String
  err : String
  acts : List ToolAct

/-- An automatic object: its constructor sets only the handle. -/
def USBDimmer.automatic (brightness : Int) (on : Bool) : USBDimmer := ⟨none, brightness, on⟩

def AlnitakEmu.automatic (brightness : Int) (on : Bool) : AlnitakEmu :=
  { AlnitakEmu.init with dimmer := .automatic brightness on }

/-- `argv[i][0]`: an empty argument has its NUL there. -/
def firstChar (arg : List UInt8) : UInt8 := arg.headD 0

def toupper (c : UInt8) : UInt8 := if ascii 'a' ≤ c ∧ c ≤ ascii 'z' then c - 32 else c

variable {W : Type}

namespace Aacmd

def usage : String :=
  "Usage: aacmd.exe OPTIONS\n" ++
  "\n" ++
  "aacmd.exe <COM port number> L Bnnn S      - turns the panel on to brightness nnn 1-255\n" ++
  "aacmd.exe <COM port number> D S           - turns the panel off\n" ++
  "aacmd.exe <COM port number> V             - version: x.x.x\n" ++
  "aacmd.exe <COM port number> O S           - opens the FlipFlat\n" ++
  "aacmd.exe <COM port number> C S           - closes the FlipFlat\n"

/-- What main has made of its arguments when it gets to the dimmer, or why it does not. -/
inductive Command where
  | inten (inten : Nat)
  | version
  | nothing
  | usage
  deriving DecidableEq

/-- `argc` is the length of `argv`. -/
def command (argv : List (List UInt8)) : Command :=
  if argv.length < 3 then .usage
  else
    let c := toupper (firstChar (argv.getD 2 []))
    if c = ascii 'L' then
      if argv.length < 4 ∨ toupper (firstChar (argv.getD 3 [])) ≠ ascii 'B' then .usage
      else
        match CString.scanUnsigned (argv.getD 3 []).tail with
        | some val => if val < 1 ∨ val > 255 then .usage else .inten val
        | none => .usage
    else if c = ascii 'D' then .inten 0
    else if c = ascii 'V' then .version
    else if c = ascii 'O' ∨ c = ascii 'C' then .nothing
    else .usage

/-- `brightness` and `on` are what the stack held where the dimmer comes to lie. -/
def main (env : Env W) (brightness : Int) (on : Bool) (argv : List (List UInt8)) :
    Program W ToolRun := do
  match command argv with
  | .usage => return { status := 1, out := "", err := usage, acts := [] }
  | .version => return { status := 0, out := "version: 3.14.16\n", err := "", acts := [] }
  | .nothing => return { status := 0, out := "", err := "", acts := [] }
  | .inten inten =>
    let dimmer := AlnitakEmu.automatic brightness on
    let (ok, dimmer) ← dimmer.connect env
    let acts := [.connect ok]
    if ¬ ok then
      let _ ← dimmer.destroy env
      return { status := 1, out := "", err := "could not connect to usb dimmer!\n", acts := acts }
    else if inten = 0 then
      let (ok, off) ← dimmer.setLightOn env false
      let acts := acts ++ [.set dimmer.dimmer (.lightOn false) ok]
      let _ ← off.destroy env
      return { status := 0, out := "", err := "", acts := acts }
    else
      let level := inten.toUInt8
      let (ok, dimmed) ← dimmer.setBrightness env level
      let acts := acts ++ [.set dimmer.dimmer (.setBrightness (sMap.usbdVal level.toNat)) ok]
      let (ok, lit) ← dimmed.setLightOn env true
      let acts := acts ++ [.set dimmed.dimmer (.lightOn true) ok]
      let _ ← lit.destroy env
      return { status := 0, out := "", err := "", acts := acts }

end Aacmd

namespace Usbdctrl

def inten (argv : List (List UInt8)) : Int :=
  if argv.length = 2 then
    match CString.scanUnsigned (argv.getD 1 []) with
    | some t => (t : Int).bmod (2 ^ 32)
    | none => -1
  else -1

/-- The text of `ERR` goes to the debug log, if there is one. A positive `inten` is what
the call converts to `unsigned int`. -/
def main (env : Env W) (brightness : Int) (on : Bool) (argv : List (List UInt8)) :
    Program W ToolRun := do
  let inten := inten argv
  let dimmer := USBDimmer.automatic brightness on
  let (ret, dimmer) ← dimmer.connect env
  let acts := [.connect (decide (ret = usbdSuccess))]
  if ret ≠ usbdSuccess then
    let _ ← dimmer.disconnect env
    return { status := 1, out := "", err := "", acts := acts }
  else if inten = 0 then
    let (ret, off) ← dimmer.lightOn env false
    let acts := acts ++ [.set dimmer (.lightOn false) (decide (ret = usbdSuccess))]
    let _ ← off.disconnect env
    return { status := 0, out := "", err := "", acts := acts }
  else if inten > 0 then
    let val := inten.toNat
    let (ret, dimmed) ← dimmer.setBrightness env val
    let acts := acts ++ [.set dimmer (.setBrightness val) (decide (ret = usbdSuccess))]
    let (ret, lit) ← dimmed.lightOn env true
    let acts := acts ++ [.set dimmed (.lightOn true) (decide (ret = usbdSuccess))]
    let _ ← lit.disconnect env
    return { status := 0, out := "", err := "", acts := acts }
  else
    let isOn := dimmer.isLightOn
    let _ ← dimmer.disconnect env
    if isOn < 0 then
      return { status := 1, out := "", err := "", acts := acts }
    else if isOn = 0 then
      return { status := 0, out := "light is off\n", err := "", acts := acts }
    else
      return { status := 0, out := "light is on, intensity " ++ toString dimmer.getBrightness ++ "\n",
               err := "", acts := acts }

end Usbdctrl

end FlatPanel
