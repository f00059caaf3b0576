import FlatPanel.Instrumented
import FlatPanel.Library.Beside
import FlatPanel.Script

/-! What a set operation sends and what it gets, written down at the library. Its verdict is
read off this record: a set operation succeeds exactly when none of its transfers fails. -/
namespace FlatPanel

open Program

variable {W : Type}

/-- A `hid_write` or a `hid_read_timeout`, and what came of it. -/
inductive Transfer where
  | write (handle : Handle) (report : List UInt8) (ret : Int)
  | read (handle : Handle) (r : Input)

namespace Transfer

def handle : Transfer → Handle
  | .write handle _ _ => handle
  | .read handle _ => handle

def event : Transfer → Event
  | .write _ report _ => .write report
  | .read _ _ => .read

/-- An error, or a read that finds nothing in time. -/
def Failed : Transfer → Prop
  | .write _ _ ret => ret < 0
  | .read _ r => r.ret 5 ≤ 0

def wrote (handle : Handle) (report : List UInt8) (ts : List Transfer) (ret : Int) :
    List Transfer := ts ++ [.write handle report ret]

def looked (handle : Handle) (ts : List Transfer) (r : Input) : List Transfer :=
  ts ++ [.read handle r]

def other {α : Type} (ts : List Transfer) (_ : α) : List Transfer := ts

/-- The library, with each transfer written down after those before it. -/
def env (lib : Env W) : Env (List Transfer × W) where
  hidOpen := noting other lib.hidOpen
  hidWrite := fun handle report => noting (wrote handle report) (lib.hidWrite handle report)
  hidReadTimeout := fun handle => noting (looked handle) (lib.hidReadTimeout handle)
  hidClose := fun handle => noting other (lib.hidClose handle)
  sleep := fun ms => noting other (lib.sleep ms)
  time64 := noting other lib.time64
  uninit := fun t => lib.uninit t.2
  pollBound := fun t => lib.pollBound t.2

theorem records (lib : Env W) : Env.Records Prod.snd (env lib) lib where
  hidOpen := noting_follows other lib.hidOpen
  hidWrite handle report := noting_follows (wrote handle report) (lib.hidWrite handle report)
  hidReadTimeout handle := noting_follows (looked handle) (lib.hidReadTimeout handle)
  hidClose handle := noting_follows other (lib.hidClose handle)
  sleep ms := noting_follows other (lib.sleep ms)
  time64 := noting_follows other lib.time64
  uninit _ := rfl
  pollBound _ := rfl

end Transfer

/-- The transfers of a whole `set_inten`: on one handle, the reports of the protocol in their
order, each followed by the read of its answer; success is a last answer that says the panel
has stopped moving, after at least three exchanges. -/
structure Carries (handle : Handle) (inten : Int) (ok : Bool) (ts : List Transfer) : Prop where
  on : ∀ t ∈ ts, t.handle = handle
  spoken : Spoken (inten % 65536).toNat (ts.map Transfer.event)
  failed : ok = false ↔ ∃ t ∈ ts, t.Failed
  stopped : ok = true → 6 ≤ ts.length ∧
    ∃ bs, ts.getLast? = some (.read handle (.bytes bs)) ∧ bs[1]? = some 0

/-- The transfers of a set call: none if the cached state makes it needless, else those that
write what it asks for. -/
def SetCall.Carried (c : SetCall) (d : USBDimmer) (ok : Bool) (ts : List Transfer) : Prop :=
  match d.target c with
  | none => ok = true ∧ ts = []
  | some inten => ∃ handle, d.mHandle = some handle ∧ Carries handle inten ok ts

/-- An exchange that was not answered ends it. -/
structure Broken (handle : Handle) (word : Nat) (ts : List Transfer) : Prop where
  on : ∀ t ∈ ts, t.handle = handle
  spoken : Spoken word (ts.map Transfer.event)
  failed : ∃ t ∈ ts, t.Failed

section Exchanges

variable {lib : Env W} {handle : Handle} {word k : Nat} {ts : List Transfer}

theorem Broken.carries {inten : Int} (h : Broken handle (inten % 65536).toNat ts) :
    Carries handle inten (decide (usbdCommError = usbdSuccess)) ts :=
  ⟨h.on, h.spoken, by simpa [success_ne_commError.symm] using h.failed, by
    simp [success_ne_commError.symm]⟩

end Exchanges

/-- Where a transfer fails, so does the operation. -/
theorem SetCall.Carried.failed {c : SetCall} {d : USBDimmer} {ok : Bool} {ts : List Transfer}
    (h : c.Carried d ok ts) (lost : ∃ t ∈ ts, t.Failed) : ok = false := by
  unfold Carried at h
  split at h
  · obtain ⟨_, rfl⟩ := h
    simp at lost
  · obtain ⟨_, _, carries⟩ := h
    exact carries.failed.mpr lost

end FlatPanel
