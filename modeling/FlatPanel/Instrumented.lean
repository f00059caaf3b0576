import FlatPanel.Steps
import FlatPanel.Library.Projection

/-! Main against a library that keeps a record of its calls. The record is in a part of the
state that no function looks at, so that main runs as it does without it, and what is proved
of the recorded runs is so of all runs. -/
namespace FlatPanel

open Program

variable {V W : Type} {part : V → W}

/-- The calls of `big` return what those of `env` return, and do the same to the part. -/
structure Env.Records (part : V → W) (big : Env V) (env : Env W) : Prop where
  hidOpen : Follows part big.hidOpen env.hidOpen
  hidWrite : ∀ handle report, Follows part (big.hidWrite handle report) (env.hidWrite handle report)
  hidReadTimeout : ∀ handle, Follows part (big.hidReadTimeout handle) (env.hidReadTimeout handle)
  hidClose : ∀ handle, Follows part (big.hidClose handle) (env.hidClose handle)
  sleep : ∀ ms, Follows part (big.sleep ms) (env.sleep ms)
  time64 : Follows part big.time64 env.time64
  uninit : ∀ v, big.uninit v = env.uninit (part v)
  pollBound : ∀ v, big.pollBound v = env.pollBound (part v)

namespace Env.Records

variable {big : Env V} {env : Env W} (h : Env.Records part big env)
include h

theorem uninitialised : Follows part (uninitialised big) (uninitialised env) := by
  intro v
  change some (big.uninit v, part v) = some (env.uninit (part v), part v)
  rw [h.uninit]

theorem exchange (handle : Handle) (buf : Memory) (least : Int) :
    Follows part (exchange big handle buf least) (exchange env handle buf least) := by
  apply (h.hidWrite _ _).bind
  intro ret
  apply Follows.ite
  · exact follows_pure none
  · apply ((h.hidReadTimeout handle).bind fun r => follows_pure _).bind
    intro r
    exact (follows_pure _).ite (follows_pure _)

theorem getInten (handle : Handle) : Follows part (getInten big handle) (getInten env handle) := by
  apply h.uninitialised.bind
  intro buf
  apply (h.exchange _ _ _).bind
  intro answer
  cases answer with
  | none => exact follows_pure _
  | some buf => exact follows_pure _

theorem pollState (handle : Handle) (buf : Memory) :
    Follows part (pollState big handle buf) (pollState env handle buf) := by
  apply (h.exchange _ _ _).bind
  intro answer
  cases answer with
  | none => exact follows_pure _
  | some buf => exact (follows_pure _).ite ((h.sleep 100).bind fun _ => follows_pure _)

theorem pollUntilDone (handle : Handle) (buf : Memory) :
    Follows part (pollUntilDone big handle buf) (pollUntilDone env handle buf) := by
  intro v
  have polls := Follows.loop (h.pollState handle) (big.pollBound v) buf v
  rw [h.pollBound] at polls
  have bound : (FlatPanel.pollUntilDone big handle buf).run v =
      (Program.loop (FlatPanel.pollState big handle) (env.pollBound (part v)) buf).run v := by
    rw [← h.pollBound]
    rfl
  rw [bound]
  exact polls

theorem setInten (handle : Handle) (inten : Int) :
    Follows part (setInten big handle inten) (setInten env handle inten) := by
  apply h.uninitialised.bind
  intro buf
  apply (h.exchange _ _ _).bind
  intro answer
  cases answer with
  | none => exact follows_pure _
  | some buf =>
    apply (h.exchange _ _ _).bind
    intro answer
    cases answer with
    | none => exact follows_pure _
    | some buf => exact h.pollUntilDone handle buf

theorem connect (p : AlnitakEmu) : Follows part (p.connect big) (p.connect env) := by
  have dimmer : Follows part (p.dimmer.connect big) (p.dimmer.connect env) := by
    apply h.hidOpen.bind
    intro handle
    cases handle with
    | none => exact follows_pure _
    | some handle =>
      apply (h.getInten handle).bind
      intro inten
      exact (follows_pure _).ite ((follows_pure _).ite (follows_pure _))
  apply dimmer.bind
  intro r
  exact (follows_pure _).ite (follows_pure _)

theorem disconnect (p : AlnitakEmu) : Follows part (p.disconnect big) (p.disconnect env) := by
  have dimmer : Follows part (p.dimmer.disconnect big) (p.dimmer.disconnect env) := by
    unfold USBDimmer.disconnect
    cases p.dimmer.mHandle with
    | none => exact follows_pure _
    | some handle => exact (h.hidClose handle).bind fun _ => follows_pure _
  exact dimmer.bind fun d => follows_pure _

theorem set (c : SetCall) (d : USBDimmer) : Follows part (c.run big d) (c.run env d) := by
  cases c with
  | setBrightness val =>
    simp only [SetCall.run, USBDimmer.setBrightness]
    cases d.mHandle with
    | none => exact follows_pure _
    | some handle =>
      apply (follows_pure _).ite
      apply (follows_pure _).ite
      apply (h.setInten handle _).bind
      intro ret
      exact (follows_pure _).ite (follows_pure _)
  | lightOn on =>
    simp only [SetCall.run, USBDimmer.lightOn]
    cases d.mHandle with
    | none => exact follows_pure _
    | some handle =>
      apply (follows_pure _).ite
      apply (h.setInten handle _).bind
      intro ret
      exact (follows_pure _).ite (follows_pure _)

theorem updateDisconnectTime (s : Emu) :
    Follows part (s.updateDisconnectTime big) (s.updateDisconnectTime env) :=
  h.time64.bind fun _ => follows_pure _

theorem connectPanel (s : Emu) : Follows part (s.connectPanel big) (s.connectPanel env) := by
  apply (follows_pure _).ite
  apply (h.connect s.panel).bind
  intro r
  apply Follows.ite
  · exact (h.updateDisconnectTime _).bind fun _ => follows_pure _
  · exact follows_pure _

theorem disconnectPanel (s : Emu) :
    Follows part (s.disconnectPanel big) (s.disconnectPanel env) :=
  (h.disconnect s.panel).bind fun _ => follows_pure _

theorem applyOp (op : Option SetOp) (s : Emu) :
    Follows part (s.applyOp big op) (s.applyOp env op) := by
  cases op with
  | none => exact follows_pure _
  | some op =>
    rw [Emu.applyOp_some, Emu.applyOp_some]
    exact (h.set op.call s.panel.dimmer).bind fun _ => follows_pure _

theorem serve (op : Option SetOp) (reply : Memory → AlnitakEmu → List UInt8) (s : Emu) :
    Follows part (s.serve big op reply) (s.serve env op reply) := by
  apply (h.connectPanel s).bind
  intro r
  apply Follows.ite
  · apply (h.applyOp op r.2).bind
    intro r
    apply Follows.ite
    · apply h.uninitialised.bind
      intro stack
      exact (h.updateDisconnectTime _).bind fun _ => follows_pure _
    · exact h.disconnectPanel r.2
  · exact follows_pure _

theorem leave (code : Int) (s : Emu) : Follows part (s.leave big code) (s.leave env code) :=
  ((h.disconnect s.panel).bind fun p => h.disconnect p).bind fun _ => follows_pure _

theorem dispatch (s : Emu) : Follows part (s.dispatch big) (s.dispatch env) := by
  cases asks : Emu.asked s.buf with
  | none =>
    rw [Emu.dispatch_unasked big asks, Emu.dispatch_unasked env asks]
    exact follows_pure _
  | some op =>
    rw [Emu.dispatch_asked big asks, Emu.dispatch_asked env asks]
    exact h.serve op _ _

theorem endOfLine (s : Emu) : Follows part (s.endOfLine big) (s.endOfLine env) := by
  apply (h.dispatch _).bind
  intro s
  exact (h.leave 0 s).ite (follows_pure _)

theorem readTimedOut (s : Emu) : Follows part (s.readTimedOut big) (s.readTimedOut env) := by
  apply Follows.ite
  · apply h.time64.bind
    intro now
    exact (h.disconnectPanel _).ite (follows_pure _)
  · exact follows_pure _

/-- One step of main is the same step with and without the record. -/
theorem step (s : Emu) (r : SerialRead) : Follows part (s.step big r) (s.step env r) := by
  apply (follows_pure s).ite
  cases r with
  | timedOut => exact h.readTimedOut s
  | failed => exact h.leave 1 s
  | byte b =>
    apply Follows.ite
    · exact h.endOfLine _
    · exact (follows_pure _).ite (h.endOfLine _)

theorem main (buf : Memory) (rs : List SerialRead) :
    Follows part (Emu.main big buf rs) (Emu.main env buf rs) :=
  Runs.follows_run h.step rs (Emu.start buf)

end Env.Records

end FlatPanel
