import FlatPanel.Faultless

/-! The emulator's `light` and `blvl` against the intensity of the device, over whole
runs of main. Level 0 turns the dimmer off behind the emulator's back; from then on a
level is remembered as set, with the light on, and the device stays dark. -/
namespace FlatPanel

open Program IntenMap

def Act.bounds : Act → Bool
  | .connect _ _ | .disconnect => true
  | _ => false

def Act.levels : Act → Bool
  | .set (.brightness _) ok => ok
  | _ => false

/-- A brightness request was carried out in the present connection. -/
def leveled : List Act → Bool
  | [] => false
  | a :: earlier => !a.bounds && (a.levels || leveled earlier)

namespace AlnitakEmu

/-- What ties the emulator's fields to the dimmer's while the panel is connected, before
and after the first brightness request. -/
structure InStep (leveled : Bool) (p : AlnitakEmu) : Prop where
  dark : p.light = false → p.dimmer.mOn = false
  fresh : leveled = false → (p.light = true → p.dimmer.mOn = true) ∧ 0 < p.dimmer.mBrightness
  level : leveled = true → p.dimmer.mBrightness = sMap.usbdVal p.blvl.toNat ∧
    (p.light = true → p.dimmer.mOn = false → p.blvl = 0)

theorem found_inStep (p : AlnitakEmu) (handle : Handle) (inten : Int) :
    InStep false (p.found handle inten) := by
  refine ⟨id, fun _ => ⟨id, ?_⟩, fun h => absurd h Bool.false_ne_true⟩
  show (0 : Int) < if inten > 0 then inten else defaultBrightness
  split
  · assumption
  · decide

theorem InStep.light {leveled : Bool} {p : AlnitakEmu} (h : InStep leveled p) (on : Bool) :
    InStep leveled (p.carried (some (.light on))) := by
  cases on with
  | false => exact ⟨fun _ => rfl, fun l => ⟨fun lit => absurd lit Bool.false_ne_true,
      (h.fresh l).2⟩, fun l => ⟨(h.level l).1, fun lit => absurd lit Bool.false_ne_true⟩⟩
  | true =>
    refine ⟨fun dark => absurd dark.symm Bool.false_ne_true, fun l => ?_, fun l => ?_⟩
    · exact ⟨fun _ => decide_eq_true (h.fresh l).2, (h.fresh l).2⟩
    · refine ⟨(h.level l).1, fun _ off => ?_⟩
      have none : ¬ 0 < p.dimmer.mBrightness := of_decide_eq_false off
      rw [(h.level l).1, usbdVal_byte] at none
      show p.blvl = 0
      exact level_byte_eq_zero.mp (by omega)

theorem InStep.brightness {leveled : Bool} {p : AlnitakEmu} (h : InStep leveled p) {v : UInt8}
    (lit : v ≠ 0 → p.light = true → p.dimmer.mOn = true) :
    InStep true (p.carried (some (.brightness v))) := by
  refine ⟨fun dark => ?_, fun l => absurd l.symm Bool.false_ne_true, fun _ => ⟨?_, ?_⟩⟩
  · show (if _ then false else p.dimmer.mOn) = false
    split
    · rfl
    · exact h.dark dark
  · show USBDimmer.clamp (sMap.usbdVal v.toNat) = sMap.usbdVal v.toNat
    rw [clamp_byte, usbdVal_byte]
  · intro on (off : (if USBDimmer.clamp (sMap.usbdVal v.toNat) = 0 then false
      else p.dimmer.mOn) = false)
    show v = 0
    rw [clamp_byte] at off
    by_contra nonzero
    rw [if_neg (fun zero => nonzero (level_byte_eq_zero.mp zero)), lit nonzero on] at off
    contradiction

theorem InStep.shows {p : AlnitakEmu} (h : InStep true p) :
    p.dimmer.shown = if p.light then (sMap.usbdVal p.blvl.toNat : Int) else 0 := by
  obtain ⟨level, zero⟩ := h.level rfl
  unfold USBDimmer.shown
  cases lit : p.light with
  | false => simp [h.dark lit]
  | true =>
    cases on : p.dimmer.mOn with
    | true => simp [level]
    | false =>
      have nothing : (IntenMap.level p.blvl.toNat : Int) = 0 := level_byte_eq_zero.mpr (zero lit on)
      rw [usbdVal_byte, nothing]
      rfl

theorem brightness_unseen {p : AlnitakEmu} {v : UInt8} (off : p.dimmer.mOn = false) :
    (p.carried (some (.brightness v))).dimmer.shown = 0 := by
  show (if (if _ then false else p.dimmer.mOn) then _ else (0 : Int)) = 0
  simp [off]

end AlnitakEmu

namespace Emu

/-- The device shows what the emulator says. -/
def Coherent (s : Emu) (dev : Device) : Prop :=
  s.panel.isConnected = true → leveled s.log = true →
    dev.inten = if s.panel.light then sMap.usbdVal s.panel.blvl.toNat else 0

/-- A brightness request for a level other than 0 (the number is taken modulo 256) finds
the light on and the dimmer off. -/
def Unseen (s : Emu) (r : SerialRead) : Prop :=
  ∃ b v, r = .byte b ∧ s.exited = none ∧ s.EndsLine b ∧
    asked (s.handed b).buf = some (some (.brightness v)) ∧ v ≠ 0 ∧
    s.panel.isConnected = true ∧ s.panel.light = true ∧ s.panel.dimmer.mOn = false

structure Tracks (s : Emu) (dev : Device) : Prop where
  coupled : s.Coupled dev
  inStep : s.panel.isConnected = true → s.panel.InStep (leveled s.log)

theorem Tracks.coherent {s : Emu} {dev : Device} (h : s.Tracks dev) : s.Coherent dev := by
  intro up after
  obtain ⟨read, mirrors⟩ := h.coupled.mirrors up
  have told := (after ▸ h.inStep up).shows
  rw [← mirrors.shows] at told
  split at told <;> simp_all

theorem ready_inStep {s t : Emu} {inten : Int} (ready : s.Ready inten t)
    (h : s.panel.isConnected = true → s.panel.InStep (leveled s.log)) :
    t.panel.InStep (leveled t.log) := by
  cases ready with
  | already up => exact h up
  | opened handle now _ => exact s.panel.found_inStep handle inten

theorem carry_inStep {t : Emu} {op : Option SetOp} (h : t.panel.InStep (leveled t.log))
    (lit : ∀ v, op = some (.brightness v) → v ≠ 0 → t.panel.light = true →
      t.panel.dimmer.mOn = true) :
    (t.carry op).panel.InStep (leveled (t.carry op).log) := by
  cases op with
  | none => exact h
  | some op =>
    cases op with
    | light on => exact h.light on
    | brightness v => exact h.brightness (lit v rfl)

theorem handed_inStep {s : Emu} {dev : Device} (h : s.Tracks dev) (b : UInt8)
    (up : (s.handed b).panel.isConnected = true) :
    (s.handed b).panel.InStep (leveled (s.handed b).log) := by
  obtain ⟨line, log⟩ := handed_log s b
  rw [(handed_frame s b).1] at up ⊢
  rw [log]
  exact h.inStep up

theorem step_tracks {b : Behaviour} (all : b.Faultless) (s : Emu) (dev : Device)
    (r : SerialRead) (h : s.Tracks dev) (seen : ¬ s.Unseen r) :
    (s.step (Device.env b) r).Ensures dev Tracks := by
  intro s' dev' hs
  refine ⟨step_coupled all s dev r h.coupled s' dev' hs, ?_⟩
  cases step_cases (Device.env b) h.coupled.awake r dev s' dev' hs with
  | ended _ | unconnected _ _ | waited _ _ _ _ | inLine _ _ => exact h.inStep
  | expired _ _ _ _ closes =>
    obtain rfl := closes.panel
    exact fun up => absurd up Bool.false_ne_true
  | portFailed _ _ | quits _ _ _ _ _ => exact fun up => absurd up Bool.false_ne_true
  | @skipped byte _ _ _ _ => exact handed_inStep h byte
  | @served byte op s₁ _ running ends asks serves =>
    obtain ⟨t, now, stack, ready, rfl, _⟩ :=
      (serve_carried all (handed_coupled h.coupled byte) op _).ensures s₁ dev' serves
    refine fun _ => carry_inStep (ready_inStep ready (handed_inStep h byte)) ?_
    rintro v rfl nonzero
    cases ready with
    | already up =>
      rw [(handed_frame s byte).1] at up ⊢
      intro light
      by_contra off
      exact seen ⟨byte, v, rfl, running, ends, asks, nonzero, up, light, by simpa using off⟩
    | opened handle now _ => exact ((AlnitakEmu.found_inStep _ handle dev.inten).fresh rfl).1

/-- A request that misses the condition is answered, and the device stays dark. -/
theorem step_unseen {b : Behaviour} (all : b.Faultless) (s : Emu) (dev : Device)
    (r : SerialRead) (h : s.Tracks dev) (unseen : s.Unseen r) :
    (s.step (Device.env b) r).Ensures dev (fun s' dev' => ¬ s'.Coherent dev') := by
  obtain ⟨byte, v, rfl, running, ends, asks, nonzero, up, light, off⟩ := unseen
  intro s' dev' hs
  obtain ⟨s₁, serves, rfl⟩ := step_asked running h.coupled.awake ends asks hs
  obtain ⟨t, now, stack, ready, rfl, read, _, mirrors⟩ :=
    (serve_carried all (handed_coupled h.coupled byte) _ _).ensures s₁ dev' serves
  rw [← (handed_frame s byte).1] at up light off
  cases ready with
  | opened _ _ down => exact absurd (up.symm.trans down) (by decide)
  | already _ =>
    intro coherent
    have told : dev'.inten = if (s.handed byte).panel.light then sMap.usbdVal v.toNat else 0 :=
      coherent up rfl
    have shows := mirrors.shows.trans (AlnitakEmu.brightness_unseen (v := v) off)
    rw [if_pos light, usbdVal_byte] at told
    rw [told] at shows
    exact nonzero (level_byte_eq_zero.mp shows)

/-- Whatever the requests and the idle times, the device shows what the emulator says in
every state of a run if and only if the run makes no request of that kind. -/
theorem coherent_iff (b : Behaviour) (all : b.Faultless) (dev : Device)
    (word : dev.inten < 65536) (buf : Memory) (rs : List SerialRead) :
    (main (Device.env b) buf rs).Returns dev (fun _ _ => True) ∧
      (Runs.Always (Emu.step (Device.env b)) Coherent (start buf) dev rs ↔
        Runs.EachStep (Emu.step (Device.env b)) (fun s _ r _ _ => ¬ s.Unseen r)
          (start buf) dev rs) := by
  refine ⟨(main_returns all buf word rs).mono fun _ _ _ => trivial, ?_⟩
  have begin : (start buf).Tracks dev :=
    ⟨start_coupled buf word, fun up => absurd up Bool.false_ne_true⟩
  exact Runs.always_iff_eachStep (fun s w h => h.coherent)
    (fun s w r h seen => step_tracks all s w r h seen)
    (fun s w r h unseen => step_unseen all s w r h (not_not.mp unseen)) rs begin

def typed (text : List Char) : List SerialRead := text.map fun c => .byte (ascii c)

def levelZero : List SerialRead :=
  typed ['x', 'L', '\n', 'x', 'B', '1', '0', '0', '\n', 'x', 'B', '0', '0', '0', '\n',
    'x', 'B', '1', '0', '0', '\n']

/-- The last request is acknowledged, `light` is true and `blvl` 100, and the device is dark. -/
theorem not_always_coherent :
    ¬ ∀ (b : Behaviour), b.Faultless → ∀ dev : Device, dev.inten < 65536 → ∀ buf rs,
      Runs.Always (Emu.step (Device.env b)) Coherent (start buf) dev rs := by
  intro claim
  have always := claim .steady Behaviour.steady_faultless (Device.idle 0) (by decide)
    (fun _ => 0) levelZero
  have last := (Runs.always_iff_prefix _ _ _).mp always _ List.prefix_rfl
  obtain ⟨⟨s, dev⟩, hrun, out⟩ := Option.map_eq_some_iff.mp (show
    ((main (Device.env .steady) (fun _ => 0) levelZero).run (Device.idle 0)).map (fun r =>
        (r.1.panel.isConnected, leveled r.1.log, r.1.panel.light, r.1.panel.blvl, r.2.inten)) =
      some (true, true, true, 100, 0) by decide +kernel)
  simp only [Prod.mk.injEq] at out
  obtain ⟨up, after, light, blvl, dark⟩ := out
  have told := last s dev hrun up after
  rw [light, blvl, dark, usbdVal_byte] at told
  exact absurd told (by decide +kernel)

theorem coherent_iff_levelZero :
    (main (Device.env .steady) (fun _ => 0) levelZero).Returns (Device.idle 0)
        (fun _ _ => True) ∧
      (Runs.Always (Emu.step (Device.env .steady)) Coherent (start fun _ => 0) (Device.idle 0)
          levelZero ↔
        Runs.EachStep (Emu.step (Device.env .steady)) (fun s _ r _ _ => ¬ s.Unseen r)
          (start fun _ => 0) (Device.idle 0) levelZero) :=
  coherent_iff .steady Behaviour.steady_faultless (Device.idle 0) (by decide) _ _

end Emu
end FlatPanel
