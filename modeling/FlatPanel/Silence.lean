import FlatPanel.Idle
import FlatPanel.Instrumented
import FlatPanel.Serial

/-! A client that falls silent. The port gives up each read after the time that `OpenDevice`
asked for, and main looks at the deadline only then; so the panel is released a bounded number
of reads later, whatever was done before and whatever failed. -/
namespace FlatPanel

open Program

variable {W : Type}

theorem Timed.records (clock : W → Int) (env : Env W) :
    Env.Records Timed.world (Timed.env clock env) env := by
  have lifted {α : Type} (m : Program W α) : Follows Timed.world (Timed.lift m) m :=
    follows_within (fun _ => rfl) fun _ _ => rfl
  have marked {α : Type} (m : Program W α) : Follows Timed.world (Timed.marked clock m) m :=
    follows_within (fun _ => rfl) fun _ _ => rfl
  exact ⟨lifted _, fun _ _ => marked _, fun _ => marked _, fun _ => lifted _, fun _ => lifted _,
    lifted _, fun _ => rfl, fun _ => rfl⟩

/-- What a `Read` of the port costs: a read that times out waits for its whole time-out. -/
structure Paced (clock : W → Int) (wait : SerialRead → Program W Unit) : Prop where
  passes : ∀ r w, (wait r).Ensures w (fun _ w' => clock w ≤ clock w')
  silent : ∀ w, (wait .timedOut).Ensures w (fun _ w' =>
    clock w + SerialPort.timeouts.readTotalTimeoutConstant ≤ clock w')

/-- The calls of a step that finds nothing to read return. -/
structure Idles (lib : Env W) (wait : SerialRead → Program W Unit) : Prop where
  wait : ∀ w, (wait .timedOut).Returns w (fun _ _ => True)
  time64 : ∀ w, lib.time64.Returns w (fun _ _ => True)
  hidClose : ∀ handle w, (lib.hidClose handle).Returns w (fun _ _ => True)

namespace Emu

/-- The read takes its time, and then its result is dealt with. -/
def pacedStep (wait : SerialRead → Program W Unit) (env : Env W) (s : Emu) (r : SerialRead) :
    Program W Emu := do
  wait r
  s.step env r

/-- The deadline is at most the idle time ahead, and a main that has returned left the panel. -/
structure Due (clock : W → Int) (s : Emu) (w : W) : Prop where
  awake : s.Awake
  ahead : s.disconnectTime ≤ clock w + idleTimeout
  left : s.exited ≠ none → s.panel.isConnected = false

theorem start_due {clock : W → Int} (buf : Memory) {w : W} (epoch : 0 ≤ clock w) :
    (start buf).Due clock w := by
  refine ⟨start_awake buf, ?_, fun _ => rfl⟩
  show (0 : Int) ≤ clock w + 15000
  omega

theorem Due.later {clock : W → Int} {s : Emu} {w w' : W} (h : s.Due clock w)
    (le : clock w ≤ clock w') : s.Due clock w' := by
  refine ⟨h.awake, ?_, h.left⟩
  have ahead := h.ahead
  omega

section Paced

variable {lib : Env W} {clock : W → Int} (clocked : Clocked lib clock)
  {wait : SerialRead → Program W Unit} (paced : Paced clock wait)
include clocked

theorem step_due {s s' : Emu} {r : SerialRead} {w w' : W} (h : s.Due clock w)
    (hs : (s.step lib r).run w = some (s', w')) : s'.Due clock w' := by
  obtain ⟨t', timed, rfl⟩ :=
    ((Timed.records clock lib).step s r).exists_run (v := ⟨w, clock w⟩) hs
  have kept := step_kept clocked h.awake ⟨le_refl (clock w), le_refl (clock w)⟩ timed
  refine ⟨step_awake lib h.awake r w s' _ hs, ?_, step_left h.awake h.left hs⟩
  have ahead := h.ahead
  have since := kept.since
  have idle : idleTimeout = 15000 := rfl
  rcases kept.deadline with ⟨_, refreshes⟩ | ⟨now, _, deadline, _, _, le⟩
  · rcases refreshes.deadline with ⟨_, same⟩ | ⟨now, _, deadline, _, le⟩
    · omega
    · omega
  · omega

include paced

theorem pacedStep_due (s : Emu) (w : W) (r : SerialRead) (h : s.Due clock w) :
    (s.pacedStep wait lib r).Ensures w (fun s' w' => s'.Due clock w') := by
  apply ensures_bind
  intro _ w₁ waits
  exact fun s' w' hs => step_due clocked (h.later (paced.passes r w _ w₁ waits)) hs

/-- `left` is how far ahead the deadline of a connected panel may be. -/
theorem silence_releases (n : Nat) {s : Emu} {w : W} {left : Int} (due : s.Due clock w)
    (before : s.panel.isConnected = true → 0 ≤ left ∧ s.disconnectTime ≤ clock w + left)
    (long : left < SerialPort.timeouts.readTotalTimeoutConstant * n) :
    (Runs.run (pacedStep wait lib) s (List.replicate n .timedOut)).Ensures w
      (fun s' _ => s'.panel.isConnected = false) := by
  induction n generalizing s w left with
  | zero =>
    apply ensures_pure
    by_contra up
    have ahead := (before (by simpa using up)).1
    simp only [Nat.cast_zero, Int.mul_zero] at long
    omega
  | succ n ih =>
    apply ensures_bind
    intro s' w' hs
    have due' := pacedStep_due clocked paced s w .timedOut due s' w' hs
    obtain ⟨_, w₁, waits, steps⟩ := (run_bind_eq _ _ _ _ _).mp hs
    have passed := paced.silent w _ w₁ waits
    have long' : left - SerialPort.timeouts.readTotalTimeoutConstant <
        SerialPort.timeouts.readTotalTimeoutConstant * n := by
      push_cast at long
      linarith
    apply ih due' _ long'
    cases step_cases lib due.awake .timedOut w₁ s' w' steps with
    | ended gone => exact fun up => absurd ((due.left gone).symm.trans up) Bool.false_ne_true
    | unconnected _ down => exact fun up => absurd (down.symm.trans up) Bool.false_ne_true
    | expired _ _ _ _ closes =>
      obtain rfl := closes.panel
      exact fun up => absurd up Bool.false_ne_true
    | waited _ up reads early =>
      -- the deadline is not past, so that some of `left` is
      obtain ⟨since, after⟩ := clocked.time64 w₁ _ w' reads
      have ahead := (before up).2
      exact fun _ => ⟨by omega, by omega⟩

end Paced

theorem timedOut_returns {lib : Env W} {wait : SerialRead → Program W Unit} (idles : Idles lib wait)
    (s : Emu) (w : W) : (s.step lib .timedOut).Returns w (fun _ _ => True) := by
  have releases (s : Emu) (w : W) : (s.disconnectPanel lib).Returns w (fun _ _ => True) := by
    apply returns_bind
    apply returns_bind
    unfold USBDimmer.disconnect
    cases s.panel.dimmer.mHandle with
    | none => exact returns_pure (returns_pure (returns_pure trivial))
    | some handle =>
      apply returns_bind
      exact (idles.hidClose handle w).mono fun _ _ _ =>
        returns_pure (returns_pure (returns_pure trivial))
  apply returns_ite
  · exact fun _ => returns_pure trivial
  · intro _
    apply returns_ite
    · intro _
      apply returns_bind
      refine (idles.time64 w).mono fun now w₁ _ => ?_
      exact returns_ite (fun _ => releases _ w₁) (fun _ => returns_pure trivial)
    · exact fun _ => returns_pure trivial

theorem silence_returns {lib : Env W} {wait : SerialRead → Program W Unit} (idles : Idles lib wait)
    (n : Nat) (s : Emu) (w : W) :
    (Runs.run (pacedStep wait lib) s (List.replicate n .timedOut)).Returns w
      (fun _ _ => True) := by
  induction n generalizing s w with
  | zero => exact returns_pure trivial
  | succ n ih =>
    apply returns_bind
    apply returns_bind
    refine (idles.wait w).mono fun _ w₁ _ => ?_
    exact (timedOut_returns idles s w₁).mono fun s' w' _ => ih s' w'

/-- From whatever the reads before led to, and whichever calls failed: once so many reads in a
row have timed out that the idle time is over, the panel is disconnected. And these reads are
made, if only the calls return that they lead to. -/
theorem released_after_silence (lib : Env W) (clock : W → Int) (clocked : Clocked lib clock)
    (wait : SerialRead → Program W Unit) (paced : Paced clock wait) (buf : Memory) (w : W)
    (epoch : 0 ≤ clock w) (rs : List SerialRead) (n : Nat)
    (long : idleTimeout < SerialPort.timeouts.readTotalTimeoutConstant * n) :
    (Runs.run (pacedStep wait lib) (start buf) (rs ++ List.replicate n .timedOut)).Ensures w
      (fun s _ => s.panel.isConnected = false) ∧
    (Idles lib wait → (Runs.run (pacedStep wait lib) (start buf) rs).Ensures w (fun s w' =>
      (Runs.run (pacedStep wait lib) s (List.replicate n .timedOut)).Returns w'
        (fun s' _ => s'.panel.isConnected = false))) := by
  have silent : (Runs.run (pacedStep wait lib) (start buf) rs).Ensures w (fun s w' =>
      (Runs.run (pacedStep wait lib) s (List.replicate n .timedOut)).Ensures w'
        (fun s' _ => s'.panel.isConnected = false)) := by
    intro s w' reached
    have due := Runs.ensures_run (I := fun s w => s.Due clock w)
      (fun s w r h => pacedStep_due clocked paced s w r h) rs (start_due buf epoch) s w' reached
    exact silence_releases clocked paced n due (fun _ => ⟨by decide, due.ahead⟩) long
  constructor
  · rw [Runs.run_append]
    exact ensures_bind silent
  · exact fun idles => silent.mono fun s w' releases =>
      releases.returns (silence_returns idles n s w')

end Emu

def Device.await (dev : Device) : SerialRead → Device
  | .timedOut => { dev with calls := dev.calls + 3 }
  | .failed | .byte _ => dev

/-- A request for the light, one that nothing can answer, and then eighteen seconds of silence. -/
theorem Emu.released_after_silence_slow :
    let wait : SerialRead → Program Device Unit := fun r dev => some ((), dev.await r)
    let typed := [ascii 'x', ascii 'L', ascii '\n', ascii 'x', ascii 'J'].map SerialRead.byte
    (Runs.run (pacedStep wait (Device.env .slow)) (start fun _ => 0)
      (typed ++ List.replicate 6 .timedOut)).Ensures (Device.idle 500)
        (fun s _ => s.panel.isConnected = false) ∧
    (Runs.run (pacedStep wait (Device.env .slow)) (start fun _ => 0) typed).Ensures
      (Device.idle 500) (fun s dev =>
        (Runs.run (pacedStep wait (Device.env .slow)) s (List.replicate 6 .timedOut)).Returns dev
          (fun s' _ => s'.panel.isConnected = false)) := by
  intro wait typed
  have paced : Paced (fun dev => Behaviour.slow.clock dev.calls) wait := by
    constructor
    · rintro r dev _ dev' hs
      obtain rfl := congrArg Prod.snd (Option.some.inj hs)
      cases r with
      | timedOut =>
        simp only [Behaviour.slow, Device.await]
        omega
      | failed | byte _ => exact le_rfl
    · rintro dev _ dev' hs
      obtain rfl := congrArg Prod.snd (Option.some.inj hs)
      simp only [Behaviour.slow, Device.await, SerialPort.timeouts]
      omega
  have idles : Idles (Device.env .slow) wait :=
    ⟨fun _ => ⟨_, _, rfl, trivial⟩, fun _ => ⟨_, _, rfl, trivial⟩, fun _ _ => ⟨_, _, rfl, trivial⟩⟩
  have released := released_after_silence (Device.env .slow) _ slow_clocked wait paced (fun _ => 0)
    (Device.idle 500) (by decide) typed 6 (by decide)
  exact ⟨released.1, released.2 idles⟩

end FlatPanel
