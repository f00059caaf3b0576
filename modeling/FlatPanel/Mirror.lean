import FlatPanel.Library.Runs
import FlatPanel.Usbd

/-! Runs of calls on one object against a device whose exchanges all succeed: the
cached state and the device never disagree, which is what makes the calls that skip
the device sound. -/
namespace FlatPanel

open Program

/-- An object and what its last call returned. -/
structure Session where
  dimmer : USBDimmer
  ret : Int

variable {W : Type}

def Session.step (env : Env W) (s : Session) (c : Call) : Program W Session := do
  let (ret, d) ← c.run env s.dimmer
  return { dimmer := d, ret := ret }

/-- The device shows what the cached state says. -/
structure Mirrors (read : Int) (d : USBDimmer) (dev : Device) : Prop where
  cached : d.Cached read
  shows : (dev.inten : Int) = d.shown

theorem toNat_word {t : Int} (bounds : 0 ≤ t ∧ t < 65536) : ((t % 65536).toNat : Int) = t := by
  omega

theorem setInten_faultless {b : Behaviour} (all : b.Faultless) (dev : Device) (handle : Handle)
    {t : Int} (bounds : 0 ≤ t ∧ t < 65536) :
    (setInten (Device.env b) handle t).Returns dev (fun ret dev' =>
      ret = usbdSuccess ∧ (dev'.inten : Int) = t) := by
  refine (Device.setInten_returns b dev handle t).mono ?_
  rintro ret dev' ⟨written, ok⟩
  have success := ok.mpr (all.serves dev.calls)
  refine ⟨success, ?_⟩
  rw [written.shows success]
  exact toNat_word bounds

theorem opened_mirrors {dev dev' : Device} (word : dev.inten < 65536)
    (kept : dev'.inten = dev.inten) (handle : Handle) :
    Mirrors dev.inten (USBDimmer.opened handle dev.inten) dev' := by
  refine ⟨USBDimmer.opened_cached handle (by omega) (by omega), ?_⟩
  rw [USBDimmer.opened_shown handle (by omega), kept]

/-- A connect reads the device when its three calls go through, and fails when they do not. -/
theorem connect_returns (b : Behaviour) {dev : Device} (word : dev.inten < 65536) (d : USBDimmer) :
    (d.connect (Device.env b)).Returns dev (fun r dev' =>
      b.Connects dev.calls ∧ r = (usbdSuccess, .opened dev.calls dev.inten) ∧
          dev'.calls = dev.calls + 3 ∧ Mirrors dev.inten r.2 dev' ∨
        ¬ b.Connects dev.calls ∧ r.1 = usbdCommError) := by
  by_cases opens : b.fault dev.calls = .none
  · have handle : (Device.env b).hidOpen.run dev = some (some dev.calls, dev.tick) := by
      simp [Device.env, Device.hidOpen, StateT.run, opens]
    obtain ⟨inten, dev', hread, kept, out⟩ := Device.getInten_returns b dev.tick dev.calls
    rcases out with ⟨found, swaps, calls⟩ | ⟨rfl, fault⟩
    · obtain rfl : inten = dev.inten := by
        rw [found]
        exact congrArg Nat.cast (Nat.mod_eq_of_lt word)
      exact ⟨_, dev', USBDimmer.connect_read handle hread (by omega) d, .inl ⟨⟨opens, swaps⟩, rfl,
        calls, opened_mirrors word kept.inten dev.calls⟩⟩
    · apply returns_bind
      refine ⟨some dev.calls, dev.tick, handle, ?_⟩
      apply returns_bind
      refine ⟨usbdCommError, dev', hread, ?_⟩
      exact returns_pure (.inr ⟨fun connects => fault connects.2, rfl⟩)
  · have lost : (Device.env b).hidOpen.run dev = some (none, dev.tick) := by
      simp [Device.env, Device.hidOpen, StateT.run, opens]
    apply returns_bind
    exact ⟨none, dev.tick, lost, returns_pure (.inr ⟨fun connects => opens connects.1, rfl⟩)⟩

theorem connect_mirrors {b : Behaviour} (all : b.Faultless) (dev : Device)
    (word : dev.inten < 65536) (d : USBDimmer) :
    (d.connect (Device.env b)).Returns dev (fun r dev' =>
      r = (usbdSuccess, .opened dev.calls dev.inten) ∧ Mirrors dev.inten r.2 dev') := by
  refine (connect_returns b word d).mono ?_
  rintro r dev' (⟨_, read, _, mirrors⟩ | ⟨fault, _⟩)
  · exact ⟨read, mirrors⟩
  · exact absurd (all.connects dev.calls) fault

theorem connect_success {b : Behaviour} {dev dev₁ : Device} (word : dev.inten < 65536)
    {d d₁ : USBDimmer}
    (connects : (d.connect (Device.env b)).run dev = some ((usbdSuccess, d₁), dev₁)) :
    Mirrors dev.inten d₁ dev₁ := by
  rcases (connect_returns b word d).ensures _ dev₁ connects with ⟨_, _, _, mirrors⟩ | ⟨_, failed⟩
  · exact mirrors
  · exact absurd failed success_ne_commError

theorem set_mirrors {b : Behaviour} (all : b.Faultless) {read : Int} {d : USBDimmer}
    {dev : Device} (h : Mirrors read d dev) (c : SetCall) :
    (c.run (Device.env b) d).Returns dev (fun r dev' =>
      r = (usbdSuccess, d.after c) ∧ Mirrors read r.2 dev') := by
  cases goal : d.target c with
  | none =>
    rw [USBDimmer.run_shortcut h.cached (Device.env b) goal]
    refine returns_pure ⟨rfl, h.cached.after c, ?_⟩
    rw [USBDimmer.shown_after_shortcut h.cached goal]
    exact h.shows
  | some t =>
    obtain ⟨handle, opens⟩ := Option.isSome_iff_exists.mp h.cached.connected
    rw [USBDimmer.run_target (Device.env b) opens goal]
    apply returns_bind
    refine (setInten_faultless all dev handle (h.cached.target_bounds goal)).mono ?_
    rintro ret dev' ⟨rfl, there⟩
    refine returns_pure ⟨by rw [if_pos rfl], ?_⟩
    rw [if_pos rfl]
    refine ⟨h.cached.after c, ?_⟩
    rw [there, USBDimmer.shown_after_target h.cached goal]

theorem call_mirrors {b : Behaviour} (all : b.Faultless) {read : Int} {d : USBDimmer}
    {dev : Device} (h : Mirrors read d dev) (c : Call) :
    (c.run (Device.env b) d).Returns dev (fun r dev' => Mirrors read r.2 dev') := by
  cases c with
  | set c => exact (set_mirrors all h c).mono fun r dev' hr => hr.2
  | getBrightness => exact returns_pure h
  | isLightOn => exact returns_pure h

theorem step_mirrors {b : Behaviour} (all : b.Faultless) (read : Int) (s : Session)
    (dev : Device) (c : Call) (h : Mirrors read s.dimmer dev) :
    (s.step (Device.env b) c).Returns dev (fun s' dev' => Mirrors read s'.dimmer dev') :=
  returns_bind ((call_mirrors all h c).mono fun _ _ hr => returns_pure hr)

namespace USBDimmer

/-- The intensity the panel should have after a set call: the level while it is lit, and the
cached level where it is switched on. -/
def wants (d : USBDimmer) : SetCall → Int
  | .setBrightness val => if d.mOn then min val 1023 else 0
  | .lightOn on => if on then d.mBrightness else 0

theorem Cached.shown_after {read : Int} {d : USBDimmer} (h : d.Cached read) (c : SetCall) :
    (d.after c).shown = d.wants c := by
  cases c with
  | setBrightness val =>
    have level : clamp val = min (val : Int) 1023 := by
      unfold clamp
      omega
    by_cases zero : clamp val = 0
    · simp [USBDimmer.after, shown, wants, zero, ← level]
    · simp [USBDimmer.after, shown, wants, zero, ← level]
  | lightOn on =>
    have nonneg := h.nonneg
    cases on with
    | false => simp [USBDimmer.after, shown, wants]
    | true =>
      by_cases positive : 0 < d.mBrightness
      · simp [USBDimmer.after, shown, wants, positive]
      · simp [USBDimmer.after, shown, wants, positive]
        omega

end USBDimmer

/-- What a set call has done, told from the state before it. It leaves the intensity that is
asked for, which is the one that writing it would have left, also where nothing is written. -/
structure SetDone (b : Behaviour) (d : USBDimmer) (dev : Device) (c : SetCall) (s' : Session)
    (dev' : Device) : Prop where
  success : s'.ret = usbdSuccess
  cache : s'.dimmer = d.after c
  shows : (dev'.inten : Int) = d.wants c
  skipped : d.target c = none → dev' = dev
  written : ∀ handle, (setInten (Device.env b) handle (d.wants c)).Returns dev
    (fun ret dev₁ => ret = usbdSuccess ∧ dev₁.inten = dev'.inten)

/-- The calls that ask answer from the cache and touch nothing. -/
def CallDone (b : Behaviour) (s : Session) (dev : Device) (c : Call) (s' : Session)
    (dev' : Device) : Prop :=
  match c with
  | .set c => SetDone b s.dimmer dev c s' dev'
  | .getBrightness => s' = ⟨s.dimmer, s.dimmer.mBrightness⟩ ∧ dev' = dev
  | .isLightOn => s' = ⟨s.dimmer, if s.dimmer.mOn then 1 else 0⟩ ∧ dev' = dev

theorem set_done {b : Behaviour} (all : b.Faultless) {read : Int} {d : USBDimmer}
    {dev dev' : Device} (h : Mirrors read d dev) {c : SetCall} {r : Int × USBDimmer}
    (hs : (c.run (Device.env b) d).run dev = some (r, dev')) :
    SetDone b d dev c ⟨r.2, r.1⟩ dev' := by
  obtain ⟨rfl, mirrors⟩ := (set_mirrors all h c).ensures r dev' hs
  have shows : (dev'.inten : Int) = d.wants c := mirrors.shows.trans (h.cached.shown_after c)
  have bounds := (h.cached.after c).shown_bounds
  rw [h.cached.shown_after c] at bounds
  refine ⟨rfl, rfl, shows, fun needless => ?_, fun handle => ?_⟩
  · rw [USBDimmer.run_shortcut h.cached (Device.env b) needless] at hs
    exact ((run_pure_eq _ _ dev dev').mp hs).2.symm
  · refine (setInten_faultless all dev handle bounds).mono ?_
    rintro ret dev₁ ⟨success, there⟩
    exact ⟨success, Int.ofNat.inj (there.trans shows.symm)⟩

theorem step_done {b : Behaviour} (all : b.Faultless) {read : Int} {s s' : Session}
    {dev dev' : Device} {c : Call} (h : Mirrors read s.dimmer dev)
    (hs : (s.step (Device.env b) c).run dev = some (s', dev')) : CallDone b s dev c s' dev' := by
  obtain ⟨r, _, call, out⟩ := (run_bind_eq _ _ dev dev' s').mp hs
  obtain ⟨rfl, rfl⟩ := (run_pure_eq _ _ _ _).mp out
  obtain ⟨handle, opens⟩ := Option.isSome_iff_exists.mp h.cached.connected
  cases c with
  | set c => exact set_done all h call
  | getBrightness =>
    obtain ⟨rfl, rfl⟩ := (run_pure_eq _ _ _ _).mp call
    simp [CallDone, USBDimmer.getBrightness, opens]
  | isLightOn =>
    obtain ⟨rfl, rfl⟩ := (run_pure_eq _ _ _ _).mp call
    simp [CallDone, USBDimmer.isLightOn, opens]

/-- Connect once, then any calls: after each of them the device shows `m_brightness` if
`m_on` and 0 otherwise, a lit panel has a level, and the level is one a client can ask
for or the one found at the start. Each call does what it asks for from the state before it,
and one that skips the device leaves the intensity that writing it would have left. -/
def CacheMirrors (b : Behaviour) (dev : Device) (d : USBDimmer) (calls : List Call) : Prop :=
  ∃ d₁ dev₁, (d.connect (Device.env b)).run dev = some ((usbdSuccess, d₁), dev₁) ∧
    (Runs.run (Session.step (Device.env b)) ⟨d₁, usbdSuccess⟩ calls).Returns dev₁
      (fun _ _ => True) ∧
    Runs.Always (Session.step (Device.env b)) (fun s dev' =>
        (dev'.inten : Int) = (if s.dimmer.mOn then s.dimmer.mBrightness else 0) ∧
        (s.dimmer.mOn = true → 0 < s.dimmer.mBrightness) ∧
        (s.dimmer.mBrightness ≤ 1023 ∨ s.dimmer.mBrightness = dev.inten))
      ⟨d₁, usbdSuccess⟩ dev₁ calls ∧
    Runs.EachStep (Session.step (Device.env b)) (CallDone b) ⟨d₁, usbdSuccess⟩ dev₁ calls

theorem cache_mirrors_device (b : Behaviour) (all : b.Faultless) (dev : Device)
    (word : dev.inten < 65536) (d : USBDimmer) (calls : List Call) :
    CacheMirrors b dev d calls := by
  obtain ⟨_, dev₁, hrun, rfl, mirrors⟩ := connect_mirrors all dev word d
  have steps := step_mirrors all (dev.inten : Int)
  have keeps : ∀ (s : Session) (w : Device) (c : Call), Mirrors dev.inten s.dimmer w →
      (s.step (Device.env b) c).Ensures w (fun s' w' => Mirrors dev.inten s'.dimmer w') :=
    fun s w c h => (steps s w c h).ensures
  refine ⟨_, dev₁, hrun, ?_, ?_, ?_⟩
  · exact (Runs.returns_run steps calls (s := ⟨_, usbdSuccess⟩) mirrors).mono
      fun _ _ _ => trivial
  · refine (Runs.always_of_keeps keeps calls (s := ⟨_, usbdSuccess⟩) mirrors).mono ?_
    intro s w h
    exact ⟨h.shows, h.cached.lit, h.cached.range⟩
  · exact Runs.eachStep_of_keeps keeps (fun s w c s' w' h hs => step_done all h hs) calls
      (s := ⟨_, usbdSuccess⟩) mirrors

/-- A panel found above the range the commands use, dimmed to nothing and lit again. -/
theorem cache_mirrors_device_5000 :
    CacheMirrors .steady (Device.idle 5000) ⟨none, 0, false⟩
      [.set (.lightOn false), .set (.lightOn true), .set (.setBrightness 0),
        .set (.setBrightness 700), .isLightOn] :=
  cache_mirrors_device .steady Behaviour.steady_faultless (Device.idle 5000) (by decide) _ _

end FlatPanel
