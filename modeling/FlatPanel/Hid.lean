import FlatPanel.Library.Program
import FlatPanel.Library.Memory

/-! What the program is run against: hidapi, the clock, and the bytes that happen to
be in an uninitialised array. Every theorem about an arbitrary `Env` is a theorem
about every pattern of answers, delays and failures of these calls. -/
namespace FlatPanel

/-- A non-null `hid_device *`. -/
abbrev Handle := Nat

/-- What `hid_read_timeout` finds: an error, or the bytes of the oldest report.
No bytes at all is a time-out. -/
inductive Input where
  | error
  | bytes (bs : List UInt8)

namespace Input

/-- The bytes stored, at most as many as were asked for. -/
def data (r : Input) (len : Nat) : List UInt8 :=
  match r with
  | .error => []
  | .bytes bs => bs.take len

def ret (r : Input) (len : Nat) : Int :=
  match r with
  | .error => -1
  | .bytes bs => (bs.take len).length

end Input

structure Env (W : Type) where
  hidOpen : Program W (Option Handle)
  hidWrite : Handle → List UInt8 → Program W Int
  hidReadTimeout : Handle → Program W Input
  hidClose : Handle → Program W Unit
  sleep : Nat → Program W Unit
  time64 : Program W Int
  /-- What an automatic array holds before it is written. -/
  uninit : W → Memory
  /-- How many trips of the polling loop the model follows before it gives up. -/
  pollBound : W → Nat

variable {W : Type}

/-- Reading `len` bytes overwrites the front of `buf` and leaves the rest alone. -/
def usbdRead (env : Env W) (handle : Handle) (buf : Memory) (len : Nat) :
    Program W (Int × Memory) := do
  let r ← env.hidReadTimeout handle
  return (r.ret len, buf.fill (r.data len))

def uninitialised (env : Env W) : Program W Memory := fun w => some (env.uninit w, w)

theorem ensures_uninit {α : Type} {env : Env W} {f : Memory → Program W α} {w : W}
    {Q : α → W → Prop} (h : (f (env.uninit w)).Ensures w Q) :
    (uninitialised env >>= f).Ensures w Q := by
  apply Program.ensures_bind
  intro buf w' hs
  obtain ⟨rfl, rfl⟩ := Prod.mk.inj (Option.some.inj hs)
  exact h

end FlatPanel
