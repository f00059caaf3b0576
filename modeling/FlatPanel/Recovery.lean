import FlatPanel.Mirror

/-! Calls on one object whose exchanges may fail anywhere. A failed call may have moved
the device and leaves the cache as it was; the calls that trust the cache and skip the
device then report a success that is not there. -/
namespace FlatPanel

open Program

/-- An object, what its last call returned, and the intensity of the last SETSTATE that
reached the device through it, if there was one. -/
structure Ledger where
  dimmer : USBDimmer
  ret : Int
  sent : Option Int

def Ledger.opened (d : USBDimmer) : Ledger := { dimmer := d, ret := usbdSuccess, sent := none }

def Ledger.step (b : Behaviour) (s : Ledger) (c : SetCall) : Program Device Ledger := do
  let before ← get
  let (ret, d) ← c.run (Device.env b) s.dimmer
  let after ← get
  return {
    dimmer := d
    ret := ret
    sent := if after.gotos = before.gotos then s.sent else s.dimmer.target c }

/-- If the last call returned success, the device shows what the cache says. -/
def Truthful (s : Ledger) (dev : Device) : Prop :=
  s.ret = usbdSuccess → (dev.inten : Int) = if s.dimmer.mOn then s.dimmer.mBrightness else 0

/-- A call that needs no exchange is made only where the last intensity that reached the
device is the one the cache stands for. -/
def Settled (s : Ledger) (_ : Device) (c : SetCall) : Prop :=
  s.dimmer.target c = none → s.sent = none ∨ s.sent = some s.dimmer.shown

/-- The device shows the last intensity that reached it. -/
structure Accounts (read : Int) (s : Ledger) (dev : Device) : Prop where
  cached : s.dimmer.Cached read
  shows : (dev.inten : Int) = s.sent.getD s.dimmer.shown
  truthful : s.ret = usbdSuccess → s.sent = none ∨ s.sent = some s.dimmer.shown

theorem Accounts.shows_cache {read : Int} {s : Ledger} {dev : Device} (h : Accounts read s dev)
    (settled : s.sent = none ∨ s.sent = some s.dimmer.shown) :
    (dev.inten : Int) = s.dimmer.shown := by
  rw [h.shows]
  rcases settled with eq | eq <;> simp [eq]

theorem ledger_shortcut {read : Int} {s : Ledger} {dev : Device} (h : Accounts read s dev)
    (b : Behaviour) {c : SetCall} (skips : s.dimmer.target c = none) :
    (s.step b c).Ensures dev (fun s' dev' => dev' = dev ∧ s' =
      { dimmer := s.dimmer.after c, ret := usbdSuccess, sent := s.sent }) := by
  refine (show (s.step b c).Returns dev _ from ?_).ensures
  refine ⟨_, dev, ?_, rfl, rfl⟩
  simp [Ledger.step, USBDimmer.run_shortcut h.cached (Device.env b) skips]

theorem ledger_target {read : Int} {s : Ledger} {dev : Device} (h : Accounts read s dev)
    (b : Behaviour) {c : SetCall} {t : Int} (writes : s.dimmer.target c = some t) :
    (s.step b c).Ensures dev (Accounts read) := by
  obtain ⟨handle, opens⟩ := Option.isSome_iff_exists.mp h.cached.connected
  have bounds := h.cached.target_bounds writes
  obtain ⟨ret, dev', hrun, written, _⟩ := Device.setInten_returns b dev handle t
  have steps : (s.step b c).run dev = some (
      { dimmer := if ret = usbdSuccess then s.dimmer.after c else s.dimmer
        ret := ret
        sent := if dev'.gotos = dev.gotos then s.sent else some t }, dev') := by
    simp [Ledger.step, USBDimmer.run_target (Device.env b) opens writes, writes, hrun]
  refine (show (s.step b c).Returns dev _ from ⟨_, _, steps, ?_⟩).ensures
  by_cases ok : ret = usbdSuccess
  · have moved : dev'.gotos ≠ dev.gotos := by have := written.done ok; omega
    have there : (dev'.inten : Int) = t := by
      rw [written.shows ok]; exact toNat_word bounds
    have now : (s.dimmer.after c).shown = t := USBDimmer.shown_after_target h.cached writes
    simp only [if_pos ok, if_neg moved]
    exact ⟨h.cached.after c, there, fun _ => .inr (congrArg some now.symm)⟩
  · simp only [if_neg ok]
    refine ⟨h.cached, ?_, fun success => absurd success ok⟩
    rcases written.moved with ⟨same, kept⟩ | ⟨moved, there⟩
    · simp only [same, if_true, kept]
      exact h.shows
    · have moved' : dev'.gotos ≠ dev.gotos := by omega
      simp only [moved', if_false, there]
      exact toNat_word bounds

theorem ledger_keeps (b : Behaviour) (read : Int) (s : Ledger) (dev : Device) (c : SetCall)
    (h : Accounts read s dev) (settled : Settled s dev c) :
    (s.step b c).Ensures dev (Accounts read) := by
  cases goal : s.dimmer.target c with
  | none =>
    refine (ledger_shortcut h b goal).mono ?_
    rintro s' dev' ⟨rfl, rfl⟩
    have same := USBDimmer.shown_after_shortcut h.cached goal
    refine ⟨h.cached.after c, ?_, fun _ => ?_⟩
    · rw [same]; exact h.shows
    · rw [same]; exact settled goal
  | some t => exact ledger_target h b goal

theorem ledger_lies (b : Behaviour) (read : Int) (s : Ledger) (dev : Device) (c : SetCall)
    (h : Accounts read s dev) (unsettled : ¬ Settled s dev c) :
    (s.step b c).Ensures dev (fun s' dev' => ¬ Truthful s' dev') := by
  obtain ⟨skips, stale⟩ := Classical.not_imp.mp unsettled
  refine (ledger_shortcut h b skips).mono ?_
  rintro s' dev' ⟨rfl, rfl⟩ truthful
  have claimed : (dev'.inten : Int) = (s.dimmer.after c).shown := truthful rfl
  rw [USBDimmer.shown_after_shortcut h.cached skips, h.shows] at claimed
  apply stale
  cases sent : s.sent with
  | none => exact .inl rfl
  | some t => exact .inr (congrArg some (by simpa [sent] using claimed))

/-- The exact condition under which every success is true, over a whole run of calls. -/
theorem success_truthful_iff (b : Behaviour) (dev dev₁ : Device) (word : dev.inten < 65536)
    (d d₁ : USBDimmer)
    (connects : (d.connect (Device.env b)).run dev = some ((usbdSuccess, d₁), dev₁))
    (calls : List SetCall) :
    Runs.Always (Ledger.step b) Truthful (Ledger.opened d₁) dev₁ calls ↔
      Runs.EachStep (Ledger.step b) (fun s dev c _ _ => Settled s dev c)
        (Ledger.opened d₁) dev₁ calls := by
  have start : Accounts dev.inten (Ledger.opened d₁) dev₁ := by
    have mirrors := connect_success word connects
    exact ⟨mirrors.cached, mirrors.shows, fun _ => .inl rfl⟩
  exact Runs.always_iff_eachStep
    (fun s w h ok => h.shows_cache (h.truthful ok))
    (fun s w c h met => ledger_keeps b _ s w c h met)
    (fun s w c h unmet => ledger_lies b _ s w c h unmet) calls start

/-- The read after the first SETSTATE times out: calls 0 to 2 connect, and the first
`SetBrightness` makes calls 3 to 6. -/
def lateTimeout : Behaviour :=
  { Behaviour.steady with fault := fun n => if n = 6 then .timedOut else .none }

/-- A panel at 500 is asked for 300 and gets there, but the answer is lost; asked for 500
again, the object reports success and the panel stays at 300. -/
theorem success_not_always_truthful :
    ¬ ∀ (b : Behaviour) (dev dev₁ : Device), dev.inten < 65536 → ∀ d d₁ : USBDimmer,
      (d.connect (Device.env b)).run dev = some ((usbdSuccess, d₁), dev₁) →
      ∀ calls, Runs.Always (Ledger.step b) Truthful (Ledger.opened d₁) dev₁ calls := by
  intro claim
  have always := claim lateTimeout (Device.idle 500) _ (by decide) ⟨none, 0, false⟩ _ rfl
    [.setBrightness 300, .setBrightness 500]
  have last := (Runs.always_iff_prefix _ _ _).mp always _ List.prefix_rfl _ _ rfl
  exact absurd (last rfl) (by decide)

theorem success_truthful_iff_500 :
    Runs.Always (Ledger.step lateTimeout) Truthful (Ledger.opened ⟨some 0, 500, true⟩)
        { Device.idle 500 with answer := [0, 244, 1, 0], calls := 3 }
        [.setBrightness 300, .setBrightness 500] ↔
      Runs.EachStep (Ledger.step lateTimeout) (fun s dev c _ _ => Settled s dev c)
        (Ledger.opened ⟨some 0, 500, true⟩)
        { Device.idle 500 with answer := [0, 244, 1, 0], calls := 3 }
        [.setBrightness 300, .setBrightness 500] :=
  success_truthful_iff lateTimeout (Device.idle 500) _ (by decide) ⟨none, 0, false⟩ _ rfl _

end FlatPanel
