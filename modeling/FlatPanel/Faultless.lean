import FlatPanel.Acknowledge
import FlatPanel.Halting
import FlatPanel.Mirror

/-! Main against a device whose calls all succeed: every request is carried out and
answered, and the cache of a connected panel stays with the device. -/
namespace FlatPanel

open Program

theorem Mirrors.congr {read : Int} {d : USBDimmer} {dev dev' : Device} (h : Mirrors read d dev)
    (same : dev'.inten = dev.inten) : Mirrors read d dev' :=
  ⟨h.cached, by rw [same]; exact h.shows⟩

theorem Mirrors.word {read : Int} {d : USBDimmer} {dev : Device} (h : Mirrors read d dev) :
    dev.inten < 65536 := by
  have shows := h.shows
  have bounds := h.cached.shown_bounds
  omega

theorem Device.time64_run {b : Behaviour} {dev dev' : Device} {now : Int}
    (h : (Device.env b).time64.run dev = some (now, dev')) : dev'.inten = dev.inten := by
  obtain ⟨_, rfl⟩ := Prod.mk.inj (Option.some.inj h)
  rfl

namespace AlnitakEmu

theorem Closed.inten {b : Behaviour} {p p' : AlnitakEmu} {dev dev' : Device}
    (h : Closed (Device.env b) p dev p' dev') : dev'.inten = dev.inten := by
  cases h with
  | already _ => rfl
  | closes _ closes =>
    obtain ⟨_, rfl⟩ := Prod.mk.inj (Option.some.inj closes)
    rfl

theorem connect_found {b : Behaviour} (all : b.Faultless) (dev : Device)
    (word : dev.inten < 65536) (p : AlnitakEmu) :
    (p.connect (Device.env b)).Returns dev (fun r dev' =>
      r = (true, p.found dev.calls dev.inten) ∧ dev'.inten = dev.inten ∧
      Mirrors dev.inten r.2.dimmer dev') := by
  apply returns_bind
  refine (connect_mirrors all dev word p.dimmer).mono ?_
  rintro _ dev' ⟨rfl, mirrors⟩
  have shows := mirrors.shows
  rw [USBDimmer.opened_shown dev.calls (Int.natCast_nonneg _)] at shows
  refine returns_pure ⟨?_, Int.ofNat.inj shows, mirrors⟩
  rw [found, ← found_light dev.calls dev.inten]
  rfl

def carried (p : AlnitakEmu) : Option SetOp → AlnitakEmu
  | none => p
  | some op => p.acknowledged op (p.dimmer.after op.call)

end AlnitakEmu

namespace Emu

/-- The state in which a request is carried out. -/
inductive Ready (s : Emu) (inten : Int) : Emu → Prop where
  | already : s.panel.isConnected = true → Ready s inten s
  | opened (handle : Handle) (now : Int) : s.panel.isConnected = false →
      Ready s inten ((s.withPanel (s.panel.found handle inten)
        (.connect (s.panel.found handle inten) true)).refreshed now)

def carry (s : Emu) : Option SetOp → Emu
  | none => s
  | some op => s.withPanel (s.panel.carried (some op)) (.set op true)

theorem carry_responses {s t : Emu} {inten : Int} (ready : s.Ready inten t)
    (op : Option SetOp) : (t.carry op).responses = s.responses := by
  cases ready <;> cases op <;> rfl

/-- The device can be read, and the cache of a connected panel is what it shows. -/
structure Coupled (s : Emu) (dev : Device) : Prop where
  awake : s.Awake
  word : dev.inten < 65536
  mirrors : s.panel.isConnected = true → ∃ read, Mirrors read s.panel.dimmer dev

theorem connectPanel_ready {b : Behaviour} (all : b.Faultless) {s : Emu} {dev : Device}
    (h : s.Coupled dev) :
    (s.connectPanel (Device.env b)).Returns dev (fun r dev' => r.1 = true ∧
      s.Ready dev.inten r.2 ∧ dev'.inten = dev.inten ∧
      ∃ read, Mirrors read r.2.panel.dimmer dev') := by
  apply returns_ite
  · exact fun up => returns_pure ⟨rfl, .already up, rfl, h.mirrors up⟩
  · intro down
    have down : s.panel.isConnected = false := by simpa using down
    apply returns_bind
    refine (AlnitakEmu.connect_found all dev h.word s.panel).mono ?_
    rintro _ dev' ⟨rfl, same, mirrors⟩
    exact returns_bind (returns_bind ⟨_, _, rfl, returns_pure (returns_pure
      ⟨rfl, .opened _ _ down, same, _, mirrors.congr rfl⟩)⟩)

theorem applyOp_carry {b : Behaviour} (all : b.Faultless) {s : Emu} {dev : Device} {read : Int}
    (h : Mirrors read s.panel.dimmer dev) (op : Option SetOp) :
    (s.applyOp (Device.env b) op).Returns dev (fun r dev' =>
      r = (true, s.carry op) ∧ Mirrors read r.2.panel.dimmer dev') := by
  cases op with
  | none => exact returns_pure ⟨rfl, h⟩
  | some op =>
    rw [applyOp_some]
    apply returns_bind
    refine (set_mirrors all h op.call).mono ?_
    rintro _ dev' ⟨rfl, mirrors⟩
    refine returns_pure ⟨rfl, ?_⟩
    rw [setBy_dimmer]
    exact mirrors

def Carried (op : Option SetOp) (answer : Memory → AlnitakEmu → List UInt8) (s : Emu)
    (dev : Device) (s' : Emu) (dev' : Device) : Prop :=
  ∃ t now stack, s.Ready dev.inten t ∧
    s' = ((t.carry op).refreshed now).respond (answer stack (t.carry op).panel) ∧
    ∃ read, Mirrors read t.panel.dimmer dev ∧ Mirrors read s'.panel.dimmer dev'

theorem Carried.responses {op : Option SetOp} {answer : Memory → AlnitakEmu → List UInt8}
    {s s' : Emu} {dev dev' : Device} (h : Carried op answer s dev s' dev') :
    s'.responses ≠ s.responses := by
  obtain ⟨t, _, _, ready, rfl, _⟩ := h
  rw [← carry_responses ready op]
  exact List.cons_ne_self _ _

theorem serve_carried {b : Behaviour} (all : b.Faultless) {s : Emu} {dev : Device}
    (h : s.Coupled dev) (op : Option SetOp) (answer : Memory → AlnitakEmu → List UInt8) :
    (s.serve (Device.env b) op answer).Returns dev (Carried op answer s dev) := by
  apply returns_bind
  refine (connectPanel_ready all h).mono ?_
  rintro ⟨_, t⟩ dev₁ ⟨rfl, ready, same, read, before⟩
  apply returns_bind
  refine (applyOp_carry all before op).mono ?_
  rintro _ dev₂ ⟨rfl, after⟩
  refine returns_bind ⟨b.uninit dev₂.calls, dev₂, rfl, ?_⟩
  refine returns_bind (returns_bind ⟨_, _, rfl, returns_pure (returns_pure ?_)⟩)
  exact ⟨t, _, _, ready, rfl, read, before.congr same.symm, after.congr rfl⟩

theorem Coupled.of_panel {s s' : Emu} {dev dev' : Device} (h : s.Coupled dev)
    (awake : s'.Awake) (panel : s'.panel = s.panel) (same : dev'.inten = dev.inten) :
    s'.Coupled dev' := by
  refine ⟨awake, by rw [same]; exact h.word, ?_⟩
  rw [panel]
  intro up
  obtain ⟨read, mirrors⟩ := h.mirrors up
  exact ⟨read, mirrors.congr same⟩

theorem Coupled.of_closed {s s' : Emu} {dev dev' : Device} (h : s.Coupled dev)
    (awake : s'.Awake) (down : s'.panel.isConnected = false) (same : dev'.inten = dev.inten) :
    s'.Coupled dev' := by
  refine ⟨awake, by rw [same]; exact h.word, ?_⟩
  rw [down]
  intro up
  contradiction

theorem start_coupled (buf : Memory) {dev : Device} (word : dev.inten < 65536) :
    (start buf).Coupled dev :=
  ⟨start_awake buf, word, fun up => absurd up Bool.false_ne_true⟩

theorem handed_coupled {s : Emu} {dev : Device} (h : s.Coupled dev) (b : UInt8) :
    (s.handed b).Coupled dev := by
  obtain ⟨panel, quit, exited⟩ := handed_frame s b
  refine h.of_panel ?_ panel rfl
  unfold Awake
  rw [quit, exited]
  exact h.awake

theorem step_coupled {b : Behaviour} (all : b.Faultless) (s : Emu) (dev : Device)
    (r : SerialRead) (h : s.Coupled dev) :
    (s.step (Device.env b) r).Ensures dev Coupled := by
  intro s' dev' hs
  have awake' := step_awake (Device.env b) h.awake r dev s' dev' hs
  cases step_cases (Device.env b) h.awake r dev s' dev' hs with
  | ended _ => exact h
  | unconnected _ _ => exact h
  | waited _ _ clock _ => exact h.of_panel awake' rfl (Device.time64_run clock)
  | expired _ _ clock _ closes =>
    obtain rfl := closes.panel
    exact h.of_closed awake' rfl (closes.inten.trans (Device.time64_run clock))
  | portFailed _ closes => exact h.of_closed awake' rfl closes.inten
  | inLine _ _ => exact h.of_panel awake' rfl rfl
  | @served byte op s₁ _ _ _ _ serves =>
    obtain ⟨t, now, stack, _, rfl, read, _, mirrors⟩ :=
      (serve_carried all (handed_coupled h byte) op _).ensures s₁ dev' serves
    exact ⟨awake', mirrors.word, fun _ => ⟨read, mirrors⟩⟩
  | @skipped byte _ _ _ _ => exact h.of_panel awake' (handed_frame s byte).1 rfl
  | quits _ _ _ _ closes => exact h.of_closed awake' rfl closes.inten

theorem leave_run (b : Behaviour) (code : Int) (s : Emu) (dev : Device) :
    ∃ dev', (s.leave (Device.env b) code).run dev = some (s.gone code, dev') ∧
      dev'.inten = dev.inten := by
  obtain ⟨s', dev', hrun, _⟩ := leave_returns b code s dev
  obtain ⟨rfl, closes⟩ := leave_cases (Device.env b) code s dev s' dev' hrun
  exact ⟨dev', hrun, closes.inten⟩

/-- Every step returns, and keeps the cache of a connected panel with the device. -/
theorem step_returns {b : Behaviour} (all : b.Faultless) (s : Emu) (dev : Device)
    (r : SerialRead) (h : s.Coupled dev) :
    (s.step (Device.env b) r).Returns dev Coupled := by
  obtain ⟨s', dev', hs, _⟩ := step_halts b s dev r
  exact ⟨s', dev', hs, step_coupled all s dev r h s' dev' hs⟩

theorem main_returns {b : Behaviour} (all : b.Faultless) (buf : Memory) {dev : Device}
    (word : dev.inten < 65536) (rs : List SerialRead) :
    (main (Device.env b) buf rs).Returns dev Coupled :=
  Runs.returns_run (step_returns all) rs (start_coupled buf word)

end Emu
end FlatPanel
