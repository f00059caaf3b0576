import FlatPanel.Protocol

/-! usbd.cpp: the calls a client of the DLL makes on one object, and what each of them
does to the cached state and to the device. -/
namespace FlatPanel

open Program

/-- `USBD_SetBrightness` and `USBD_LightOn`. -/
inductive SetCall where
  | setBrightness (val : Nat)
  | lightOn (on : Bool)

inductive Call where
  | set (c : SetCall)
  | getBrightness
  | isLightOn

variable {W : Type}

def SetCall.run (env : Env W) (d : USBDimmer) : SetCall → Program W (Int × USBDimmer)
  | .setBrightness val => d.setBrightness env val
  | .lightOn on => d.lightOn env on

def Call.run (env : Env W) (d : USBDimmer) : Call → Program W (Int × USBDimmer)
  | .set c => c.run env d
  | .getBrightness => pure (d.getBrightness, d)
  | .isLightOn => pure (d.isLightOn, d)

namespace USBDimmer

def shown (d : USBDimmer) : Int := if d.mOn then d.mBrightness else 0

/-- The level `SetBrightness` works with. -/
def clamp (val : Nat) : Int := min (max val 0) 1023

/-- The intensity a call writes, if it needs an exchange at all. -/
def target (d : USBDimmer) : SetCall → Option Int
  | .setBrightness val =>
    if clamp val = asUnsigned d.mBrightness ∨ d.mOn = false then none else some (clamp val)
  | .lightOn on => if d.mOn = on then none else some (if on then d.mBrightness else 0)

/-- What every call keeps, whether its exchanges succeed or not. `read` is the
intensity that was found when the handle was opened. -/
structure Cached (read : Int) (d : USBDimmer) : Prop where
  connected : d.mHandle.isSome
  lit : d.mOn = true → 0 < d.mBrightness
  nonneg : 0 ≤ d.mBrightness
  word : d.mBrightness < 65536
  range : d.mBrightness ≤ 1023 ∨ d.mBrightness = read

theorem clamp_bounds (val : Nat) : 0 ≤ clamp val ∧ clamp val ≤ 1023 := by
  unfold clamp
  omega

theorem asUnsigned_of_nonneg {i : Int} (nonneg : 0 ≤ i) (word : i < 65536) :
    asUnsigned i = i := by
  unfold asUnsigned
  omega

theorem Cached.asUnsigned_eq {read : Int} {d : USBDimmer} (h : d.Cached read) :
    asUnsigned d.mBrightness = d.mBrightness :=
  asUnsigned_of_nonneg h.nonneg h.word

theorem Cached.shown_bounds {read : Int} {d : USBDimmer} (h : d.Cached read) :
    0 ≤ d.shown ∧ d.shown < 65536 := by
  have := h.nonneg
  have := h.word
  unfold shown
  split <;> omega

theorem Cached.target_bounds {read : Int} {d : USBDimmer} (h : d.Cached read) {c : SetCall}
    {t : Int} (writes : d.target c = some t) : 0 ≤ t ∧ t < 65536 := by
  have := h.nonneg
  have := h.word
  cases c with
  | setBrightness val =>
    have := clamp_bounds val
    simp only [target] at writes
    split at writes
    · contradiction
    · obtain rfl := Option.some.inj writes
      omega
  | lightOn on =>
    simp only [target] at writes
    split at writes
    · contradiction
    · obtain rfl := Option.some.inj writes
      split <;> omega

def after (d : USBDimmer) : SetCall → USBDimmer
  | .setBrightness val =>
    { d with mBrightness := clamp val, mOn := if clamp val = 0 then false else d.mOn }
  | .lightOn on => { d with mOn := if on then decide (0 < d.mBrightness) else false }

theorem Cached.after {read : Int} {d : USBDimmer} (h : d.Cached read) (c : SetCall) :
    (d.after c).Cached read := by
  cases c with
  | setBrightness val =>
    have := clamp_bounds val
    refine ⟨h.connected, ?_, this.1, show clamp val < 65536 by omega, .inl this.2⟩
    intro on
    by_cases zero : clamp val = 0
    · simp [USBDimmer.after, zero] at on
    · exact lt_of_le_of_ne this.1 (Ne.symm zero)
  | lightOn on =>
    refine ⟨h.connected, ?_, h.nonneg, h.word, h.range⟩
    cases on with
    | false => intro lit; simp [USBDimmer.after] at lit
    | true => intro lit; exact of_decide_eq_true lit

theorem shown_after_target {read : Int} {d : USBDimmer} (h : d.Cached read) {c : SetCall}
    {t : Int} (writes : d.target c = some t) : (d.after c).shown = t := by
  cases c with
  | setBrightness val =>
    simp only [target] at writes
    split at writes
    · contradiction
    · rename_i needed
      obtain rfl := Option.some.inj writes
      have on : d.mOn = true := by simpa using fun off => needed (.inr off)
      by_cases zero : clamp val = 0
      · simp [USBDimmer.after, shown, zero]
      · simp [USBDimmer.after, shown, zero, on]
  | lightOn on =>
    simp only [target] at writes
    split at writes
    · contradiction
    · obtain rfl := Option.some.inj writes
      have := h.nonneg
      cases on with
      | false => rfl
      | true =>
        by_cases positive : 0 < d.mBrightness
        · simp [USBDimmer.after, shown, positive]
        · simp [USBDimmer.after, shown, positive]; omega

theorem shown_after_shortcut {read : Int} {d : USBDimmer} (h : d.Cached read) {c : SetCall}
    (skips : d.target c = none) : (d.after c).shown = d.shown := by
  cases c with
  | setBrightness val =>
    cases lit : d.mOn with
    | false => simp [USBDimmer.after, shown, lit]
    | true =>
      have same : clamp val = d.mBrightness := by
        have := h.asUnsigned_eq
        simpa [target, lit, this] using skips
      have := h.lit lit
      simp [USBDimmer.after, shown, lit, same, Int.ne_of_gt this]
  | lightOn on =>
    have same : d.mOn = on := by simpa [target] using skips
    subst same
    cases lit : d.mOn with
    | false => simp [USBDimmer.after, shown, lit]
    | true => simp [USBDimmer.after, shown, lit, h.lit lit]

theorem run_shortcut {read : Int} {d : USBDimmer} (h : d.Cached read) (env : Env W)
    {c : SetCall} (skips : d.target c = none) :
    c.run env d = pure (usbdSuccess, d.after c) := by
  obtain ⟨handle, opens⟩ := Option.isSome_iff_exists.mp h.connected
  cases c with
  | setBrightness val =>
    have same := h.asUnsigned_eq
    have skip : clamp val = d.mBrightness ∨ d.mOn = false := by
      by_contra needed
      simp [target, same, needed] at skips
    simp only [SetCall.run, setBrightness, opens, same]
    rw [show (min (max (val : Int) 0) 1023 : Int) = clamp val from rfl]
    by_cases level : clamp val = d.mBrightness
    · have kept : d.after (.setBrightness val) = d := by
        cases lit : d.mOn with
        | false => cases d; simp_all [USBDimmer.after]
        | true =>
          have := h.lit lit
          cases d
          simp_all [USBDimmer.after, Int.ne_of_gt this]
      rw [if_pos level, kept]
    · have off : d.mOn = false := skip.resolve_left level
      simp [level, off, opens, USBDimmer.after]
  | lightOn on =>
    have same : d.mOn = on := by simpa [target] using skips
    have kept : d.after (.lightOn on) = d := by
      cases on with
      | false => cases d; simp_all [USBDimmer.after]
      | true =>
        have := h.lit same
        cases d
        simp_all [USBDimmer.after]
    simp only [SetCall.run, lightOn, opens]
    rw [if_pos same, kept]

theorem run_target (env : Env W) {d : USBDimmer} {c : SetCall} {t : Int} {handle : Handle}
    (opens : d.mHandle = some handle)
    (writes : d.target c = some t) :
    c.run env d = setInten env handle t >>= fun ret =>
      pure (ret, if ret = usbdSuccess then d.after c else d) := by
  cases c with
  | setBrightness val =>
    simp only [target] at writes
    split at writes
    · contradiction
    · rename_i needed
      obtain rfl := Option.some.inj writes
      simp only [SetCall.run, setBrightness, opens]
      rw [show (min (max (val : Int) 0) 1023 : Int) = clamp val from rfl]
      have level : ¬ clamp val = asUnsigned d.mBrightness := fun h => needed (.inl h)
      have on : d.mOn = true := by simpa using fun off => needed (.inr off)
      simp only [if_neg level, on, not_true_eq_false, if_false]
      congr 1
      funext ret
      split <;> simp [USBDimmer.after, on, opens]
  | lightOn on =>
    simp only [target] at writes
    split at writes
    · contradiction
    · rename_i needed
      obtain rfl := Option.some.inj writes
      simp only [SetCall.run, lightOn, opens, if_neg needed]
      congr 1
      funext ret
      by_cases ok : ret = usbdSuccess
      · cases on <;> simp [ok, opens, USBDimmer.after]
      · simp [ok]

/-- What every call does to the cached state, against any device. -/
theorem Cached.run_result {read : Int} {d : USBDimmer} (h : d.Cached read) (env : Env W)
    (c : SetCall) (w : W) : (c.run env d).Ensures w (fun r _ =>
      r.2 = if r.1 = usbdSuccess then d.after c else d) := by
  cases goal : d.target c with
  | none =>
    rw [run_shortcut h env goal]
    exact ensures_pure (if_pos rfl).symm
  | some t =>
    obtain ⟨handle, opens⟩ := Option.isSome_iff_exists.mp h.connected
    rw [run_target env opens goal]
    apply ensures_bind
    exact fun ret w' _ => ensures_pure rfl

def opened (handle : Handle) (inten : Int) : USBDimmer where
  mHandle := some handle
  mBrightness := if inten > 0 then inten else defaultBrightness
  mOn := decide (inten > 0)

theorem opened_cached (handle : Handle) {inten : Int} (nonneg : 0 ≤ inten)
    (word : inten < 65536) : (opened handle inten).Cached inten := by
  by_cases positive : inten > 0
  · refine ⟨rfl, ?_, ?_, ?_, ?_⟩ <;> simp [opened, positive] <;> omega
  · refine ⟨rfl, ?_, ?_, ?_, ?_⟩ <;> simp [opened, positive, defaultBrightness]

theorem opened_shown (handle : Handle) {inten : Int} (nonneg : 0 ≤ inten) :
    (opened handle inten).shown = inten := by
  by_cases positive : inten > 0
  · simp [opened, shown, positive]
  · simp [opened, shown, positive]; omega

theorem connect_read {env : Env W} {w w₁ w' : W} {handle : Handle} {inten : Int}
    (hopen : env.hidOpen.run w = some (some handle, w₁))
    (hread : (getInten env handle).run w₁ = some (inten, w')) (nonneg : 0 ≤ inten)
    (d : USBDimmer) : (d.connect env).run w = some ((usbdSuccess, opened handle inten), w') := by
  have good : ¬ inten < 0 := Int.not_lt.mpr nonneg
  rw [connect, run_bind_of_run hopen]
  simp only [run_bind_of_run hread, if_neg good]
  by_cases positive : inten > 0
  · have lit : decide (inten > 0) = true := decide_eq_true positive
    simp only [if_pos positive, opened, lit]
    rfl
  · have dark : decide (inten > 0) = false := decide_eq_false positive
    simp only [if_neg positive, opened, dark]
    rfl

inductive Connected (env : Env W) (d : USBDimmer) (w : W) : Int × USBDimmer → W → Prop where
  | noDevice {w' : W} : env.hidOpen.run w = some (none, w') →
      Connected env d w (usbdCommError, { d with mHandle := none }) w'
  | noAnswer {handle : Handle} {inten : Int} {w₁ w' : W} :
      env.hidOpen.run w = some (some handle, w₁) →
      (getInten env handle).run w₁ = some (inten, w') → inten < 0 →
      Connected env d w (usbdCommError, { d with mHandle := some handle }) w'
  | read {handle : Handle} {inten : Int} {w₁ w' : W} :
      env.hidOpen.run w = some (some handle, w₁) →
      (getInten env handle).run w₁ = some (inten, w') → 0 ≤ inten →
      Connected env d w (usbdSuccess, opened handle inten) w'

theorem connect_cases (env : Env W) (d : USBDimmer) (w : W) :
    (d.connect env).Ensures w (Connected env d w) := by
  intro r w' h
  obtain ⟨handle, w₁, hopen, rest⟩ := (run_bind_eq _ _ w w' r).mp h
  cases handle with
  | none =>
    obtain ⟨rfl, rfl⟩ := (run_pure_eq _ r w₁ w').mp rest
    exact .noDevice hopen
  | some handle =>
    obtain ⟨inten, w₂, hread, out⟩ := (run_bind_eq _ _ w₁ w' r).mp rest
    by_cases bad : inten < 0
    · rw [if_pos bad] at out
      obtain ⟨rfl, rfl⟩ := (run_pure_eq _ r w₂ w').mp out
      exact .noAnswer hopen hread bad
    · have ok := connect_read hopen hread (Int.not_lt.mp bad) d
      rw [h] at ok
      obtain ⟨rfl, rfl⟩ := Prod.mk.inj (Option.some.inj ok)
      exact .read hopen hread (Int.not_lt.mp bad)

end USBDimmer
end FlatPanel
