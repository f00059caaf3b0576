import FlatPanel.Acknowledge
import FlatPanel.Exchanges
import FlatPanel.Protocol

/-! The idle time-out. Every request that is answered refreshes the deadline after its last
exchange, so a panel in use is not disconnected under the client. -/
namespace FlatPanel

open Program

variable {W : Type}

/-- `clock` is the time, which passes during library calls and never goes back. `time64`
returns a value it has while the call is made. -/
structure Clocked (env : Env W) (clock : W → Int) : Prop where
  hidOpen : ∀ w, env.hidOpen.Ensures w (fun _ w' => clock w ≤ clock w')
  hidWrite : ∀ handle report w,
    (env.hidWrite handle report).Ensures w (fun _ w' => clock w ≤ clock w')
  hidReadTimeout : ∀ handle w,
    (env.hidReadTimeout handle).Ensures w (fun _ w' => clock w ≤ clock w')
  hidClose : ∀ handle w, (env.hidClose handle).Ensures w (fun _ w' => clock w ≤ clock w')
  sleep : ∀ ms w, (env.sleep ms).Ensures w (fun _ w' => clock w ≤ clock w')
  time64 : ∀ w, env.time64.Ensures w (fun now w' => clock w ≤ now ∧ now ≤ clock w')

/-- The library's state, and when the request at hand was dispatched or, if it has made one,
when its last exchange finished. -/
structure Timed (W : Type) where
  world : W
  mark : Int

namespace Timed

def lift {α : Type} (m : Program W α) : Program (Timed W) α := fun t =>
  (m.run t.world).map fun r => (r.1, { t with world := r.2 })

def marked {α : Type} (clock : W → Int) (m : Program W α) : Program (Timed W) α := fun t =>
  (m.run t.world).map fun r => (r.1, ⟨r.2, clock r.2⟩)

def env (clock : W → Int) (env : Env W) : Env (Timed W) where
  hidOpen := lift env.hidOpen
  hidWrite := fun handle report => marked clock (env.hidWrite handle report)
  hidReadTimeout := fun handle => marked clock (env.hidReadTimeout handle)
  hidClose := fun handle => lift (env.hidClose handle)
  sleep := fun ms => lift (env.sleep ms)
  time64 := lift env.time64
  uninit := fun t => env.uninit t.world
  pollBound := fun t => env.pollBound t.world

def lastMark : Program (Timed W) Int := fun t => some (t.mark, t)

theorem lift_ensures {α : Type} {m : Program W α} {t : Timed W} {Q : α → W → Prop}
    (h : m.Ensures t.world Q) :
    (lift m).Ensures t (fun a t' => t'.mark = t.mark ∧ Q a t'.world) :=
  ensures_within rfl h fun _ _ holds => ⟨rfl, holds⟩

theorem marked_ensures {α : Type} {clock : W → Int} {m : Program W α} {t : Timed W}
    {Q : α → W → Prop} (h : m.Ensures t.world Q) :
    (marked clock m).Ensures t (fun a t' => t'.mark = clock t'.world ∧ Q a t'.world) :=
  ensures_within rfl h fun _ _ holds => ⟨rfl, holds⟩

/-- The time has come to `start`, and what is marked is past. -/
structure Since (clock : W → Int) (start : Int) (t : Timed W) : Prop where
  reached : start ≤ clock t.world
  past : t.mark ≤ clock t.world

theorem lift_since {α : Type} {clock : W → Int} {start : Int} {m : Program W α} {t : Timed W}
    (h : Since clock start t)
    (later : m.Ensures t.world (fun _ w' => clock t.world ≤ clock w')) :
    (lift m).Ensures t (fun _ => Since clock start) := by
  refine (lift_ensures later).mono ?_
  rintro _ t' ⟨same, le⟩
  exact ⟨h.reached.trans le, by rw [same]; exact h.past.trans le⟩

theorem marked_since {α : Type} {clock : W → Int} {start : Int} {m : Program W α} {t : Timed W}
    (h : Since clock start t)
    (later : m.Ensures t.world (fun _ w' => clock t.world ≤ clock w')) :
    (marked clock m).Ensures t (fun _ => Since clock start) := by
  refine (marked_ensures later).mono ?_
  rintro _ t' ⟨here, le⟩
  exact ⟨h.reached.trans le, here.le⟩

section Keeps

variable {lib : Env W} {clock : W → Int} (clocked : Clocked lib clock) {start : Int}
include clocked

theorem exchanges_since : ExchangesKeep (Timed.env clock lib) (Since clock start) where
  write _ _ t h := marked_since h (clocked.hidWrite _ _ t.world)
  read _ t h := marked_since h (clocked.hidReadTimeout _ t.world)
  sleep _ t h := lift_since h (clocked.sleep _ t.world)

theorem time64_since {t t' : Timed W} {now : Int} (h : Since clock start t)
    (reads : (Timed.env clock lib).time64.run t = some (now, t')) :
    start ≤ now ∧ t'.mark ≤ now ∧ now ≤ clock t'.world ∧ Since clock start t' := by
  obtain ⟨same, before, after⟩ := lift_ensures (clocked.time64 t.world) now t' reads
  have since := h.reached.trans before
  have past := h.past.trans before
  rw [← same] at past
  exact ⟨since, past, after, since.trans after, past.trans after⟩

theorem closed_since {p p' : AlnitakEmu} {t t' : Timed W} (h : Since clock start t)
    (closes : AlnitakEmu.Closed (Timed.env clock lib) p t p' t') : Since clock start t' := by
  cases closes with
  | already _ => exact h
  | closes _ closes => exact lift_since h (clocked.hidClose _ t.world) _ t' closes

theorem connected_since {p : AlnitakEmu} {r : Bool × AlnitakEmu} {t t' : Timed W}
    (h : Since clock start t)
    (connects : AlnitakEmu.Connected (Timed.env clock lib) p t r t') : Since clock start t' := by
  have opened {ans : Option Handle} {t₁ : Timed W}
      (hopen : (Timed.env clock lib).hidOpen.run t = some (ans, t₁)) : Since clock start t₁ :=
    lift_since h (clocked.hidOpen t.world) ans t₁ hopen
  cases connects with
  | noDevice hopen => exact opened hopen
  | noAnswer hopen hread _ | read hopen hread _ =>
    exact (exchanges_since clocked).getInten _ (opened hopen) _ t' hread

end Keeps
end Timed

def Act.updated : Act → Option Int
  | .update now => some now
  | _ => none

def Act.idled : Act → Option Int
  | .idle now => some now
  | _ => none

namespace Emu

def lastUpdate (s : Emu) : Option Int := s.log.findSome? Act.updated

def idles (s : Emu) : List Int := s.log.filterMap Act.idled

theorem serve_idles {env : Env W} {s s' : Emu} {w w' : W} {op : Option SetOp}
    {answer : Memory → AlnitakEmu → List UInt8}
    (h : (s.serve env op answer).run w = some (s', w')) : s'.idles = s.idles := by
  apply recorded_of_log _ (serve_log h)
  intro a inside
  cases a <;> first | rfl | contradiction

structure Refreshes (clock : W → Int) (start : Int) (s s' : Emu) (t' : Timed W) : Prop where
  since : Timed.Since clock start t'
  deadline : s'.lastUpdate = s.lastUpdate ∧ s'.disconnectTime = s.disconnectTime ∨
    ∃ now, s'.lastUpdate = some now ∧ s'.disconnectTime = now + idleTimeout ∧
      start ≤ now ∧ now ≤ clock t'.world

theorem Refreshes.refl {clock : W → Int} {start : Int} {s s' : Emu} {t' : Timed W}
    (since : Timed.Since clock start t') (update : s'.lastUpdate = s.lastUpdate)
    (deadline : s'.disconnectTime = s.disconnectTime) : Refreshes clock start s s' t' :=
  ⟨since, .inl ⟨update, deadline⟩⟩

theorem setBy_deadline (s : Emu) (op : SetOp) (r : Int × USBDimmer) :
    (s.setBy op r).lastUpdate = s.lastUpdate ∧
      (s.setBy op r).disconnectTime = s.disconnectTime := by
  unfold setBy
  split <;> exact ⟨rfl, rfl⟩

theorem handed_deadline (s : Emu) (b : UInt8) : (s.handed b).lastUpdate = s.lastUpdate ∧
    (s.handed b).disconnectTime = s.disconnectTime ∧ (s.handed b).idles = s.idles := by
  obtain ⟨line, log⟩ := handed_log s b
  have deadline : (s.lineRead b).disconnectTime = s.disconnectTime := by
    unfold lineRead
    split <;> rfl
  refine ⟨?_, deadline, ?_⟩
  · rw [lastUpdate, log]
    rfl
  · rw [idles, log]
    rfl

/-- What one `Read` does to the deadline, and when it may disconnect. -/
structure Kept (clock : W → Int) (start : Int) (s s' : Emu) (t' : Timed W) : Prop where
  since : start ≤ clock t'.world
  deadline : s'.responses = s.responses ∧ Refreshes clock start s s' t' ∨
    ∃ now, s'.lastUpdate = some now ∧ s'.disconnectTime = now + idleTimeout ∧
      start ≤ now ∧ t'.mark ≤ now ∧ now ≤ clock t'.world
  idles : s'.idles = s.idles ∨ ∃ now, s'.idles = now :: s.idles ∧ s.disconnectTime < now

theorem Kept.of_refl {clock : W → Int} {start : Int} {s s' : Emu} {t' : Timed W}
    (since : Timed.Since clock start t') (responses : s'.responses = s.responses)
    (update : s'.lastUpdate = s.lastUpdate) (deadline : s'.disconnectTime = s.disconnectTime)
    (idles : s'.idles = s.idles) : Kept clock start s s' t' :=
  ⟨since.reached, .inl ⟨responses, .refl since update deadline⟩, .inl idles⟩

section Steps

variable {lib : Env W} {clock : W → Int} (clocked : Clocked lib clock) {start : Int}
include clocked

theorem connectPanel_refreshes {s : Emu} {r : Bool × Emu} {t t' : Timed W}
    (h : Timed.Since clock start t)
    (connects : (s.connectPanel (Timed.env clock lib)).run t = some (r, t')) :
    Refreshes clock start s r.2 t' := by
  cases connectPanel_cases _ s t r t' connects with
  | already _ => exact .refl h rfl rfl
  | failed _ way => exact .refl (Timed.connected_since clocked h way) rfl rfl
  | opened _ way clocks =>
    have opened := Timed.connected_since clocked h way
    obtain ⟨since, _, le, after⟩ := Timed.time64_since clocked opened clocks
    exact ⟨after, .inr ⟨_, rfl, rfl, since, le⟩⟩

theorem applyOp_since {s : Emu} {op : Option SetOp} {r : Bool × Emu} {t t' : Timed W}
    (h : Timed.Since clock start t)
    (applies : (s.applyOp (Timed.env clock lib) op).run t = some (r, t')) :
    Timed.Since clock start t' ∧ r.2.lastUpdate = s.lastUpdate ∧
      r.2.disconnectTime = s.disconnectTime := by
  cases applyOp_cases _ op s t r t' applies with
  | asked => exact ⟨h, rfl, rfl⟩
  | set writes =>
    exact ⟨(Timed.exchanges_since clocked).set _ _ h _ t' writes, setBy_deadline ..⟩

theorem serve_refreshes {s s' : Emu} {op : Option SetOp} {answer : Memory → AlnitakEmu → List UInt8}
    {t t' : Timed W} (h : Timed.Since clock start t)
    (serves : (s.serve (Timed.env clock lib) op answer).run t = some (s', t')) :
    s'.responses = s.responses ∧ Refreshes clock start s s' t' ∨
    ∃ now, s'.lastUpdate = some now ∧ s'.disconnectTime = now + idleTimeout ∧
      start ≤ now ∧ t'.mark ≤ now ∧ now ≤ clock t'.world := by
  cases serve_cases _ op answer s t s' t' serves with
  | noPanel connects =>
    exact .inl ⟨silent_of_inner (connectPanel_log connects),
      connectPanel_refreshes clocked h connects⟩
  | answered connects applies clocks =>
    have opened := connectPanel_refreshes clocked h connects
    obtain ⟨applied, _, _⟩ := applyOp_since clocked opened.since applies
    obtain ⟨since, past, le, _⟩ := Timed.time64_since clocked applied clocks
    exact .inr ⟨_, rfl, rfl, since, past, le⟩
  | refused connects applies closes =>
    have silent := silent_of_inner (request_log connects applies)
    have opened := connectPanel_refreshes clocked h connects
    obtain ⟨applied, update, deadline⟩ := applyOp_since clocked opened.since applies
    have closed := Timed.closed_since clocked applied closes
    refine .inl ⟨silent, closed, ?_⟩
    rcases opened.deadline with ⟨update₁, deadline₁⟩ | ⟨now, update₁, deadline₁, since, le⟩
    · exact .inl ⟨update.trans update₁, deadline.trans deadline₁⟩
    · -- the time of the update is kept as well
      have later : Timed.Since clock now _ := ⟨le, opened.since.past⟩
      have after := Timed.closed_since clocked (applyOp_since clocked later applies).1 closes
      exact .inr ⟨now, update.trans update₁, deadline.trans deadline₁, since, after.reached⟩

theorem step_kept {s s' : Emu} {r : SerialRead} {t t' : Timed W} (awake : s.Awake)
    (h : Timed.Since clock start t)
    (hs : (s.step (Timed.env clock lib) r).run t = some (s', t')) : Kept clock start s s' t' := by
  cases step_cases _ awake r t s' t' hs with
  | ended _ | unconnected _ _ | inLine _ _ => exact .of_refl h rfl rfl rfl rfl
  | waited _ _ clocks _ =>
    exact .of_refl (Timed.time64_since clocked h clocks).2.2.2 rfl rfl rfl rfl
  | expired _ _ clocks late closes =>
    have waited := (Timed.time64_since clocked h clocks).2.2.2
    have closed := Timed.closed_since clocked waited closes
    exact ⟨closed.reached, .inl ⟨rfl, .refl closed rfl rfl⟩, .inr ⟨_, rfl, late⟩⟩
  | portFailed _ closes => exact .of_refl (Timed.closed_since clocked h closes) rfl rfl rfl rfl
  | @served b op s₁ _ _ _ _ serves =>
    obtain ⟨update, deadline, idles⟩ := handed_deadline s b
    have same : s₁.nextLine.idles = s.idles := (serve_idles serves).trans idles
    rcases serve_refreshes clocked h serves with ⟨silent, refreshes⟩ | ⟨now, answered⟩
    · have silent : s₁.nextLine.responses = s.responses := silent.trans (handed_responses s b)
      have kept := refreshes.deadline
      rw [update, deadline] at kept
      exact ⟨refreshes.since.reached, .inl ⟨silent, refreshes.since, kept⟩, .inl same⟩
    · have since := answered.2.2.1.trans answered.2.2.2.2
      exact ⟨since, .inr ⟨now, answered⟩, .inl same⟩
  | @skipped b _ _ _ _ =>
    obtain ⟨update, deadline, idles⟩ := handed_deadline s b
    exact .of_refl h (handed_responses s b) update deadline idles
  | @quits b _ _ _ _ _ closes =>
    obtain ⟨update, deadline, idles⟩ := handed_deadline s b
    have closed := Timed.closed_since clocked h closes
    exact .of_refl closed (handed_responses s b) update deadline idles

end Steps
end Emu

/-- Main, and for each request that was answered the clock value its last exchange finished at,
or if it made none the one it was dispatched at. -/
structure Watch where
  emu : Emu
  answered : List Int

namespace Watch

def start (buf : Memory) : Watch := ⟨.start buf, []⟩

/-- Time passes while `Read` waits, and what it returns is dealt with at once. -/
def step (wait : Program W Unit) (clock : W → Int) (env : Env W) (s : Watch) (r : SerialRead) :
    Program (Timed W) Watch := do
  Timed.marked clock wait
  let emu ← s.emu.step (Timed.env clock env) r
  let t ← Timed.lastMark
  return {
    emu := emu
    answered := if emu.responses = s.emu.responses then s.answered else t :: s.answered }

/-- The deadline is unset and nothing has been answered, or it is 15 seconds after its latest
update, which no answered request came after. -/
def OnTime (s : Watch) : Prop :=
  match s.emu.lastUpdate with
  | none => s.emu.disconnectTime = 0 ∧ s.answered = []
  | some now => s.emu.disconnectTime = now + 15000 ∧ ∀ t ∈ s.answered, t ≤ now

/-- If the panel is disconnected for being idle, every answered request is more than 15 seconds
past. -/
def NeverEarly (s s' : Watch) : Prop :=
  s'.emu.idles = s.emu.idles ∨
    ∃ now, s'.emu.idles = now :: s.emu.idles ∧ ∀ t ∈ s.answered, t + 15000 < now

structure Fresh (clock : W → Int) (s : Watch) (t : Timed W) : Prop where
  awake : s.emu.Awake
  onTime : s.OnTime
  past : ∀ now, s.emu.lastUpdate = some now → now ≤ clock t.world

theorem start_fresh (clock : W → Int) (buf : Memory) (t : Timed W) : (start buf).Fresh clock t :=
  ⟨Emu.start_awake buf, ⟨rfl, rfl⟩, fun _ update => by contradiction⟩

theorem Fresh.answered_past {clock : W → Int} {s : Watch} {t : Timed W} (h : s.Fresh clock t) :
    ∀ a ∈ s.answered, a ≤ clock t.world := by
  have onTime := h.onTime
  intro a mem
  unfold OnTime at onTime
  split at onTime
  · rw [onTime.2] at mem
    contradiction
  · rename_i now update
    exact (onTime.2 a mem).trans (h.past now update)

theorem Fresh.late {clock : W → Int} {s : Watch} {t : Timed W} (h : s.Fresh clock t) {now : Int}
    (late : s.emu.disconnectTime < now) : ∀ a ∈ s.answered, a + 15000 < now := by
  have onTime := h.onTime
  intro a mem
  unfold OnTime at onTime
  split at onTime
  · rw [onTime.2] at mem
    contradiction
  · have before := onTime.2 a mem
    omega

theorem onTime_of_update {s : Watch} {now : Int} (update : s.emu.lastUpdate = some now)
    (deadline : s.emu.disconnectTime = now + idleTimeout) (before : ∀ a ∈ s.answered, a ≤ now) :
    s.OnTime := by
  unfold OnTime
  rw [update]
  exact ⟨deadline, before⟩

theorem step_fresh {lib : Env W} {clock : W → Int} (clocked : Clocked lib clock)
    {wait : Program W Unit} (waits : ∀ w, wait.Ensures w (fun _ w' => clock w ≤ clock w'))
    {s s' : Watch} {r : SerialRead} {t t' : Timed W} (h : s.Fresh clock t)
    (hs : (s.step wait clock lib r).run t = some (s', t')) :
    s.NeverEarly s' ∧ s'.Fresh clock t' := by
  obtain ⟨_, t₁, waited, rest⟩ := (run_bind_eq _ _ _ _ _).mp hs
  obtain ⟨emu, t₂, steps, last⟩ := (run_bind_eq _ _ _ _ _).mp rest
  obtain ⟨rfl, rfl⟩ := Prod.mk.inj (Option.some.inj last)
  obtain ⟨here, passed⟩ := Timed.marked_ensures (waits t.world) _ t₁ waited
  have awake := Emu.step_awake _ h.awake r t₁ emu t₂ steps
  have kept := Emu.step_kept clocked h.awake ⟨passed, here.le⟩ steps
  have old := h.answered_past
  constructor
  · rcases kept.idles with same | ⟨now, more, late⟩
    · exact .inl same
    · exact .inr ⟨now, more, h.late late⟩
  · rcases kept.deadline with ⟨silent, refreshes⟩ | ⟨now, update, deadline, since, past, le⟩
    · simp only [if_pos silent]
      rcases refreshes.deadline with ⟨update, deadline⟩ | ⟨now, update, deadline, since, le⟩
      · refine ⟨awake, ?_, ?_⟩
        · have onTime := h.onTime
          unfold OnTime at onTime ⊢
          simp only [update, deadline]
          exact onTime
        · intro now before
          rw [update] at before
          exact (h.past now before).trans kept.since
      · refine ⟨awake, onTime_of_update update deadline fun a mem => (old a mem).trans since, ?_⟩
        intro now' update'
        obtain rfl := Option.some.inj (update.symm.trans update')
        exact le
    · refine ⟨awake, onTime_of_update update deadline fun a mem => ?_, ?_⟩
      · simp only at mem
        split at mem
        · exact (old a mem).trans since
        · rcases List.mem_cons.mp mem with rfl | before
          · exact past
          · exact (old a before).trans since
      · intro now' update'
        obtain rfl := Option.some.inj (update.symm.trans update')
        exact le

end Watch

/-- Over any requests, whatever fails and whenever reads time out. -/
theorem idle_never_early (lib : Env W) (clock : W → Int) (clocked : Clocked lib clock)
    (wait : Program W Unit) (waits : ∀ w, wait.Ensures w (fun _ w' => clock w ≤ clock w'))
    (buf : Memory) (t : Timed W) (rs : List SerialRead) :
    Runs.Always (Watch.step wait clock lib) (fun s _ => s.OnTime) (Watch.start buf) t rs ∧
      Runs.EachStep (Watch.step wait clock lib) (fun s _ _ s' _ => s.NeverEarly s')
        (Watch.start buf) t rs := by
  have keeps (s : Watch) (t : Timed W) (r : SerialRead) (h : s.Fresh clock t) :
      (s.step wait clock lib r).Ensures t (fun s' t' => s'.Fresh clock t') :=
    fun s' t' hs => (Watch.step_fresh clocked waits h hs).2
  constructor
  · refine (Runs.always_of_keeps keeps rs (Watch.start_fresh clock buf t)).mono ?_
    exact fun s t h => h.onTime
  · apply Runs.eachStep_of_keeps keeps _ rs (Watch.start_fresh clock buf t)
    exact fun s t r s' t' h hs => (Watch.step_fresh clocked waits h hs).1

theorem device_clocked {b : Behaviour} (mono : Monotone b.clock) :
    Clocked (Device.env b) (fun dev => b.clock dev.calls) := by
  have later (dev : Device) : b.clock dev.calls ≤ b.clock dev.tick.calls :=
    mono (Nat.le_succ dev.calls)
  have ticks {α : Type} (dev : Device) (r : α) :
      Ensures (fun _ => some (r, dev.tick)) dev
        (fun _ dev' => b.clock dev.calls ≤ b.clock dev'.calls) := by
    intro a dev' hs
    obtain ⟨_, rfl⟩ := Prod.mk.inj (Option.some.inj hs)
    exact later dev
  constructor
  · exact fun dev => ticks dev _
  · rintro handle report dev ret dev' hs
    have counted : dev'.calls = dev.tick.calls := by
      simp only [Device.env, Device.hidWrite, StateT.run] at hs
      split at hs
      · obtain ⟨_, rfl⟩ := Prod.mk.inj (Option.some.inj hs)
        simp
      · obtain ⟨_, rfl⟩ := Prod.mk.inj (Option.some.inj hs)
        rfl
    simp only [counted]
    exact later dev
  · rintro handle dev ans dev' hs
    obtain ⟨_, rfl⟩ := Prod.mk.inj (Option.some.inj hs)
    exact later dev
  · exact fun _ dev => ticks dev _
  · exact fun _ dev => ticks dev _
  · rintro dev now dev' hs
    obtain ⟨rfl, rfl⟩ := Prod.mk.inj (Option.some.inj hs)
    exact ⟨le_rfl, later dev⟩

def Behaviour.slow : Behaviour := { Behaviour.steady with clock := fun n => 1000 * n }

theorem slow_clocked : Clocked (Device.env .slow) (fun dev => Behaviour.slow.clock dev.calls) :=
  device_clocked fun m n le => by
    simp only [Behaviour.slow]
    omega

/-- A state request, and reads that time out until the panel is disconnected. -/
theorem idle_never_early_slow :
    let wait : Program Device Unit := fun dev => some ((), dev.tick)
    let clock := fun dev : Device => Behaviour.slow.clock dev.calls
    let rs := [ascii 'x', ascii 'S', ascii '\n'].map .byte ++ List.replicate 30 .timedOut
    Runs.Always (Watch.step wait clock (Device.env .slow)) (fun s _ => s.OnTime)
        (Watch.start fun _ => 0) ⟨Device.idle 500, 0⟩ rs ∧
      Runs.EachStep (Watch.step wait clock (Device.env .slow)) (fun s _ _ s' _ => s.NeverEarly s')
        (Watch.start fun _ => 0) ⟨Device.idle 500, 0⟩ rs := by
  intro wait clock rs
  have waits (dev : Device) : wait.Ensures dev (fun _ dev' => clock dev ≤ clock dev') := by
    intro _ dev' hs
    obtain ⟨_, rfl⟩ := Prod.mk.inj (Option.some.inj hs)
    simp only [clock, Behaviour.slow, Device.tick_calls]
    omega
  exact idle_never_early (Device.env .slow) clock slow_clocked wait waits _ _ rs

end FlatPanel
