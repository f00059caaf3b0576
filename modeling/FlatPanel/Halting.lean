import FlatPanel.Steps
import FlatPanel.Protocol

/-! The device stops moving some time, whichever calls fail, and so every polling loop ends and
every step of main returns. -/
namespace FlatPanel

open Program

theorem SetCall.run_halts (b : Behaviour) (c : SetCall) (d : USBDimmer) (dev : Device) :
    (c.run (Device.env b) d).Returns dev (fun _ _ => True) := by
  have writes (handle : Handle) (inten : Int) (dev : Device) :
      (setInten (Device.env b) handle inten).Returns dev (fun _ _ => True) :=
    (Device.setInten_returns b dev handle inten).mono fun _ _ _ => trivial
  cases c with
  | setBrightness val =>
    simp only [SetCall.run, USBDimmer.setBrightness]
    split
    · exact returns_pure trivial
    · apply returns_ite
      · exact fun _ => returns_pure trivial
      · intro _
        apply returns_ite
        · exact fun _ => returns_pure trivial
        · intro _
          apply returns_bind
          refine (writes _ _ dev).mono fun ret dev' _ => ?_
          exact returns_ite (fun _ => returns_pure trivial) (fun _ => returns_pure trivial)
  | lightOn on =>
    simp only [SetCall.run, USBDimmer.lightOn]
    split
    · exact returns_pure trivial
    · apply returns_ite
      · exact fun _ => returns_pure trivial
      · intro _
        apply returns_bind
        refine (writes _ _ dev).mono fun ret dev' _ => ?_
        exact returns_ite (fun _ => returns_pure trivial) (fun _ => returns_pure trivial)

namespace AlnitakEmu

theorem connect_halts (b : Behaviour) (p : AlnitakEmu) (dev : Device) :
    (p.connect (Device.env b)).Returns dev (fun _ _ => True) := by
  have dimmer : (p.dimmer.connect (Device.env b)).Returns dev (fun _ _ => True) := by
    apply returns_bind
    refine ⟨_, dev.tick, rfl, ?_⟩
    by_cases opens : b.fault dev.calls = .none
    · simp only [if_pos opens]
      apply returns_bind
      refine (Device.getInten_returns b dev.tick dev.calls).mono fun inten dev' _ => ?_
      apply returns_ite
      · exact fun _ => returns_pure trivial
      · exact fun _ => returns_ite (fun _ => returns_pure trivial) (fun _ => returns_pure trivial)
    · simp only [if_neg opens]
      exact returns_pure trivial
  apply returns_bind
  refine dimmer.mono fun r dev' _ => ?_
  exact returns_ite (fun _ => returns_pure trivial) (fun _ => returns_pure trivial)

theorem disconnect_returns (b : Behaviour) (p : AlnitakEmu) (dev : Device) :
    (p.disconnect (Device.env b)).Returns dev (fun _ _ => True) := by
  apply returns_bind
  exact (Device.disconnect_returns b p.dimmer dev).mono fun _ _ _ => returns_pure trivial

end AlnitakEmu

namespace Emu

theorem leave_returns (b : Behaviour) (code : Int) (s : Emu) (dev : Device) :
    (s.leave (Device.env b) code).Returns dev (fun _ _ => True) := by
  apply returns_bind
  apply returns_bind
  refine (AlnitakEmu.disconnect_returns b s.panel dev).mono ?_
  intro p dev₁ _
  exact (AlnitakEmu.disconnect_returns b p dev₁).mono fun _ _ _ => returns_pure trivial

theorem disconnectPanel_halts (b : Behaviour) (s : Emu) (dev : Device) :
    (s.disconnectPanel (Device.env b)).Returns dev (fun _ _ => True) := by
  apply returns_bind
  exact (AlnitakEmu.disconnect_returns b s.panel dev).mono fun _ _ _ => returns_pure trivial

theorem updateDisconnectTime_halts (b : Behaviour) (s : Emu) (dev : Device) :
    (s.updateDisconnectTime (Device.env b)).Returns dev (fun _ _ => True) :=
  returns_bind ⟨_, _, rfl, returns_pure trivial⟩

theorem connectPanel_halts (b : Behaviour) (s : Emu) (dev : Device) :
    (s.connectPanel (Device.env b)).Returns dev (fun _ _ => True) := by
  apply returns_ite
  · exact fun _ => returns_pure trivial
  · intro _
    apply returns_bind
    refine (AlnitakEmu.connect_halts b s.panel dev).mono fun r dev' _ => ?_
    apply returns_ite
    · intro _
      apply returns_bind
      exact (updateDisconnectTime_halts b _ dev').mono fun _ _ _ => returns_pure trivial
    · exact fun _ => returns_pure trivial

theorem applyOp_halts (b : Behaviour) (op : Option SetOp) (s : Emu) (dev : Device) :
    (s.applyOp (Device.env b) op).Returns dev (fun _ _ => True) := by
  cases op with
  | none => exact returns_pure trivial
  | some op =>
    rw [applyOp_some]
    apply returns_bind
    exact (SetCall.run_halts b op.call s.panel.dimmer dev).mono fun _ _ _ => returns_pure trivial

theorem serve_halts (b : Behaviour) (op : Option SetOp)
    (answer : Memory → AlnitakEmu → List UInt8) (s : Emu) (dev : Device) :
    (s.serve (Device.env b) op answer).Returns dev (fun _ _ => True) := by
  apply returns_bind
  refine (connectPanel_halts b s dev).mono fun r dev₁ _ => ?_
  apply returns_ite
  · intro _
    apply returns_bind
    refine (applyOp_halts b op r.2 dev₁).mono fun r₂ dev₂ _ => ?_
    apply returns_ite
    · intro _
      apply returns_bind
      refine ⟨b.uninit dev₂.calls, dev₂, rfl, ?_⟩
      apply returns_bind
      exact (updateDisconnectTime_halts b _ dev₂).mono fun _ _ _ => returns_pure trivial
    · exact fun _ => disconnectPanel_halts b _ dev₂
  · exact fun _ => returns_pure trivial

theorem endOfLine_halts (b : Behaviour) (s : Emu) (dev : Device) :
    (s.endOfLine (Device.env b)).Returns dev (fun _ _ => True) := by
  have after (t : Emu) (dev' : Device) : (if t.quit then t.leave (Device.env b) 0
      else pure t.nextLine).Returns dev' (fun _ _ => True) :=
    returns_ite (fun _ => leave_returns b 0 t dev') (fun _ => returns_pure trivial)
  apply returns_bind
  cases asks : asked (s.note (.request (s.buf.bytes s.p))).buf with
  | some op =>
    rw [dispatch_asked (Device.env b) asks]
    exact (serve_halts b op _ _ dev).mono fun t dev' _ => after t dev'
  | none =>
    rw [dispatch_unasked (Device.env b) asks]
    exact returns_pure (after _ dev)

theorem step_halts (b : Behaviour) (s : Emu) (dev : Device) (r : SerialRead) :
    (s.step (Device.env b) r).Returns dev (fun _ _ => True) := by
  apply returns_ite
  · exact fun _ => returns_pure trivial
  · intro _
    cases r with
    | timedOut =>
      apply returns_ite
      · intro _
        apply returns_bind
        refine ⟨b.clock dev.calls, dev.tick, rfl, ?_⟩
        exact returns_ite (fun _ => disconnectPanel_halts b _ _) (fun _ => returns_pure trivial)
      · exact fun _ => returns_pure trivial
    | failed => exact leave_returns b 1 s dev
    | byte c =>
      simp only [readByte]
      apply returns_ite
      · exact fun _ => endOfLine_halts b _ dev
      · exact fun _ => returns_ite (fun _ => returns_pure trivial) (fun _ => endOfLine_halts b _ dev)

theorem dispatch_halts (b : Behaviour) (s : Emu) (dev : Device) :
    (s.dispatch (Device.env b)).Returns dev (fun _ _ => True) := by
  cases asks : asked s.buf with
  | none =>
    rw [dispatch_unasked (Device.env b) asks]
    exact returns_pure trivial
  | some op =>
    rw [dispatch_asked (Device.env b) asks]
    exact serve_halts b op _ s dev

theorem readTimedOut_halts (b : Behaviour) {s : Emu} (running : s.exited = none) (dev : Device) :
    (s.readTimedOut (Device.env b)).Returns dev (fun _ _ => True) := by
  have waits := step_halts b s dev .timedOut
  rwa [step, if_neg (by simp [running])] at waits

theorem main_halts (b : Behaviour) (buf : Memory) (dev : Device) (rs : List SerialRead) :
    (main (Device.env b) buf rs).Returns dev (fun _ _ => True) :=
  Runs.returns_run (fun s dev r _ => step_halts b s dev r) rs trivial

end Emu
end FlatPanel
