import FlatPanel.Connection
import FlatPanel.Transparency

/-! Main against a device any of whose calls may fail, and which other programs set while the
panel is not connected. A set operation that fails may have moved the device; the panel is
disconnected then, and the next connect reads what the device shows. -/
namespace FlatPanel

open Program

/-- A `Read` of main, or other programs leave the device like this. -/
inductive Occasion where
  | read (r : SerialRead)
  | others (left : Device)

def Occasion.step (b : Behaviour) (s : Emu) : Occasion → Program Device Emu
  | .read r => s.step (Device.env b) r
  | .others left => fun _ => some (s, left)

/-- A handle that main opens is answered, and others set the device only while main has none. -/
def Occasion.Permitted (b : Behaviour) (s : Emu) (dev : Device) : Occasion → Prop
  | .read r => s.OpensWell (Device.env b) dev r
  | .others left => s.panel.isConnected = false ∧ left.inten < 65536

/-- What the device shows once the operation is acknowledged; a level is shown when the light
is on. -/
def SetOp.Shows (op : SetOp) (p : AlnitakEmu) (inten : Nat) : Prop :=
  match op with
  | .light false => inten = 0
  | .light true => (inten : Int) = p.dimmer.mBrightness
  | .brightness v => p.dimmer.mBrightness = sMap.usbdVal v.toNat ∧
      (p.dimmer.mOn = true → inten = sMap.usbdVal v.toNat)

variable {b : Behaviour} {dev dev' : Device}

theorem Device.hidOpen_run {opened : Option Handle}
    (h : (Device.env b).hidOpen.run dev = some (opened, dev')) : dev'.inten = dev.inten := by
  obtain ⟨_, rfl⟩ := Prod.mk.inj (Option.some.inj h)
  rfl

theorem Device.getInten_run {handle : Handle} {inten : Int} (word : dev.inten < 65536)
    (h : (getInten (Device.env b) handle).run dev = some (inten, dev')) :
    dev'.inten = dev.inten ∧ (0 ≤ inten → inten = dev.inten) := by
  obtain ⟨kept, out⟩ := (Device.getInten_returns b dev handle).ensures inten dev' h
  refine ⟨kept.inten, fun nonneg => ?_⟩
  rcases out with ⟨found, _⟩ | ⟨rfl, _⟩
  · rw [found, Nat.mod_eq_of_lt word]
  · exact absurd nonneg (by decide)

/-- A set call that succeeds leaves the device where the cache says, whatever failed before;
one that fails leaves some intensity. -/
theorem set_mirrors_success {read : Int} {d : USBDimmer} (h : Mirrors read d dev) (c : SetCall)
    {r : Int × USBDimmer} (hs : (c.run (Device.env b) d).run dev = some (r, dev')) :
    dev'.inten < 65536 ∧ (r.1 = usbdSuccess → r.2 = d.after c ∧ Mirrors read r.2 dev') := by
  cases goal : d.target c with
  | none =>
    rw [USBDimmer.run_shortcut h.cached (Device.env b) goal] at hs
    obtain ⟨rfl, rfl⟩ := (run_pure_eq _ _ _ _).mp hs
    refine ⟨h.word, fun _ => ⟨rfl, h.cached.after c, ?_⟩⟩
    rw [USBDimmer.shown_after_shortcut h.cached goal]
    exact h.shows
  | some t =>
    obtain ⟨handle, opens⟩ := Option.isSome_iff_exists.mp h.cached.connected
    have bounds := h.cached.target_bounds goal
    rw [USBDimmer.run_target (Device.env b) opens goal] at hs
    obtain ⟨ret, dev₁, writes, ends⟩ := (run_bind_eq _ _ _ _ _).mp hs
    obtain ⟨rfl, rfl⟩ := (run_pure_eq _ _ _ _).mp ends
    obtain ⟨written, _⟩ := (Device.setInten_returns b dev handle t).ensures ret dev₁ writes
    constructor
    · rcases written.moved with ⟨_, same⟩ | ⟨_, there⟩
      · rw [same]
        exact h.word
      · omega
    · intro ok
      simp only [if_pos ok]
      refine ⟨trivial, h.cached.after c, ?_⟩
      rw [written.shows ok, toNat_word bounds, USBDimmer.shown_after_target h.cached goal]

theorem Mirrors.acknowledged {read : Int} {p : AlnitakEmu} {op : SetOp}
    (h : Mirrors read (p.dimmer.after op.call) dev) :
    op.Shows (p.acknowledged op (p.dimmer.after op.call)) dev.inten := by
  have shows := h.shows
  cases op with
  | light on =>
    cases on with
    | false => exact Int.ofNat.inj shows
    | true =>
      have nonneg : 0 ≤ p.dimmer.mBrightness := h.cached.nonneg
      show (dev.inten : Int) = p.dimmer.mBrightness
      rw [shows]
      by_cases lit : 0 < p.dimmer.mBrightness
      · simp [USBDimmer.shown, USBDimmer.after, SetOp.call, lit]
      · simp [USBDimmer.shown, USBDimmer.after, SetOp.call, lit]
        omega
  | brightness v =>
    have level : USBDimmer.clamp (sMap.usbdVal v.toNat) = sMap.usbdVal v.toNat := by
      rw [clamp_byte, usbdVal_byte]
    refine ⟨level, fun on => Int.ofNat.inj ?_⟩
    have on : (p.dimmer.after (SetOp.brightness v).call).mOn = true := on
    rw [USBDimmer.shown, on, if_pos rfl] at shows
    exact shows.trans level

namespace Emu

theorem connectPanel_mirrors {s : Emu} {r : Bool × Emu} (h : s.Coupled dev)
    (answers : ∀ handle w₁, s.panel.isConnected = false →
      (Device.env b).hidOpen.run dev = some (some handle, w₁) →
        AnswersIntensity (Device.env b) handle w₁)
    (connects : (s.connectPanel (Device.env b)).run dev = some (r, dev')) :
    dev'.inten = dev.inten ∧
      (r.1 = true ∧ (∃ read, Mirrors read r.2.panel.dimmer dev') ∨
        r.1 = false ∧ r.2.panel.isConnected = false) := by
  cases connectPanel_cases (Device.env b) s dev r dev' connects with
  | already up => exact ⟨rfl, .inl ⟨rfl, h.mirrors up⟩⟩
  | failed down way =>
    cases way with
    | noDevice hopen => exact ⟨Device.hidOpen_run hopen, .inr ⟨rfl, rfl⟩⟩
    | @noAnswer handle inten dev₁ _ hopen hread bad =>
      rcases getInten_cases (Device.env b) handle dev₁ inten dev' hread with
        ⟨good, _⟩ | ⟨_, silent⟩
      · exact absurd good (Int.not_le.mpr bad)
      · exact absurd (answers handle dev₁ down hopen) silent
  | @opened _ now dev₂ _ down way clock =>
    cases way with
    | @read handle inten dev₁ _ hopen hread nonneg =>
      have same := Device.hidOpen_run hopen
      obtain ⟨kept, found⟩ := Device.getInten_run (by rw [same]; exact h.word) hread
      have shows : dev'.inten = dev.inten := (Device.time64_run clock).trans (kept.trans same)
      have mirrors := opened_mirrors h.word shows handle
      rw [← same, ← found nonneg] at mirrors
      exact ⟨shows, .inl ⟨rfl, inten, mirrors⟩⟩

/-- What a request leaves behind, and what its answer promises. -/
structure Mended (s : Emu) (op : Option SetOp) (s' : Emu) (dev' : Device) : Prop where
  word : dev'.inten < 65536
  mirrors : s'.panel.isConnected = true → ∃ read, Mirrors read s'.panel.dimmer dev'
  shows : s'.responses ≠ s.responses → ∀ o, op = some o → o.Shows s'.panel dev'.inten

theorem serve_mended {s s' : Emu} {op : Option SetOp} {answer : Memory → AlnitakEmu → List UInt8}
    (h : s.Coupled dev)
    (answers : ∀ handle w₁, s.panel.isConnected = false →
      (Device.env b).hidOpen.run dev = some (some handle, w₁) →
        AnswersIntensity (Device.env b) handle w₁)
    (serves : (s.serve (Device.env b) op answer).run dev = some (s', dev')) :
    Mended s op s' dev' := by
  cases serve_cases (Device.env b) op answer s dev s' dev' serves with
  | noPanel connects =>
    obtain ⟨same, ⟨yes, _⟩ | ⟨_, down⟩⟩ := connectPanel_mirrors h answers connects
    · contradiction
    · have silent := silent_of_inner (connectPanel_log connects)
      exact ⟨by rw [same]; exact h.word, fun up => absurd (down.symm.trans up) Bool.false_ne_true,
        fun more => absurd silent more⟩
  | @answered s₁ s₂ dev₁ dev₂ _ now connects applies clock =>
    obtain ⟨same, ⟨_, read, mirrors⟩ | ⟨no, _⟩⟩ := connectPanel_mirrors h answers connects
    · have kept := Device.time64_run clock
      have way := applyOp_cases (Device.env b) op s₁ dev₁ _ dev₂ applies
      generalize hr : (true, s₂) = r at way
      cases way with
      | asked =>
        obtain ⟨_, rfl⟩ := Prod.mk.inj hr
        exact ⟨by rw [kept]; exact mirrors.word, fun _ => ⟨read, mirrors.congr kept⟩, nofun⟩
      | @set o r _ sets =>
        obtain ⟨done, rfl⟩ := Prod.mk.inj hr
        have ok : r.1 = usbdSuccess := of_decide_eq_true done.symm
        obtain ⟨word, after⟩ := set_mirrors_success mirrors o.call sets
        obtain ⟨result, there⟩ := after ok
        have panel : (s₁.setBy o r).panel =
            s₁.panel.acknowledged o (s₁.panel.dimmer.after o.call) := by
          rw [setBy, if_pos ok, withPanel_panel, result]
        refine ⟨by rw [kept]; exact word, fun _ => ⟨read, ?_⟩, fun _ o' same => ?_⟩
        · rw [result] at there
          change Mirrors read (s₁.setBy o r).panel.dimmer dev'
          rw [panel, AlnitakEmu.acknowledged_dimmer]
          exact there.congr kept
        · obtain rfl := Option.some.inj same
          rw [result] at there
          change o.Shows (s₁.setBy o r).panel dev'.inten
          rw [panel, kept]
          exact there.acknowledged
    · contradiction
  | @refused s₁ s₂ panel dev₁ dev₂ _ connects applies closes =>
    obtain rfl := closes.panel
    have silent := silent_of_inner (request_log connects applies)
    obtain ⟨same, ⟨_, read, mirrors⟩ | ⟨no, _⟩⟩ := connectPanel_mirrors h answers connects
    · refine ⟨?_, fun up => absurd up Bool.false_ne_true, fun more => absurd silent more⟩
      have way := applyOp_cases (Device.env b) op s₁ dev₁ _ dev₂ applies
      generalize hr : (false, s₂) = r at way
      cases way with
      | asked => cases hr
      | @set o r _ sets =>
        rw [closes.inten]
        exact (set_mirrors_success mirrors o.call sets).1
    · contradiction

theorem step_mended {s s' : Emu} {r : SerialRead} (h : s.Coupled dev)
    (opens : s.OpensWell (Device.env b) dev r)
    (hs : (s.step (Device.env b) r).run dev = some (s', dev')) :
    s'.Coupled dev' ∧ ∀ c op, r = .byte c → s'.responses ≠ s.responses →
      asked (s.handed c).buf = some (some op) → op.Shows s'.panel dev'.inten := by
  have awake' := step_awake (Device.env b) h.awake r dev s' dev' hs
  cases step_cases (Device.env b) h.awake r dev s' dev' hs with
  | ended _ | unconnected _ _ => exact ⟨h, nofun⟩
  | waited _ _ clock _ => exact ⟨h.of_panel awake' rfl (Device.time64_run clock), nofun⟩
  | expired _ _ clock _ closes =>
    obtain rfl := closes.panel
    exact ⟨h.of_closed awake' rfl (closes.inten.trans (Device.time64_run clock)), nofun⟩
  | portFailed _ closes => exact ⟨h.of_closed awake' rfl closes.inten, nofun⟩
  | inLine _ _ => exact ⟨h.of_panel awake' rfl rfl, fun _ _ _ more => absurd rfl more⟩
  | @served byte op s₁ _ running ends asks serves =>
    have answers (handle : Handle) (w₁ : Device) (down : (s.handed byte).panel.isConnected = false)
        (hopen : (Device.env b).hidOpen.run dev = some (some handle, w₁)) :
        AnswersIntensity (Device.env b) handle w₁ := by
      rw [(handed_frame s byte).1] at down
      exact opens byte op handle w₁ rfl running ends asks down hopen
    have mended := serve_mended (handed_coupled h byte) answers serves
    refine ⟨⟨awake', mended.word, mended.mirrors⟩, ?_⟩
    intro c o same more asks'
    obtain rfl := SerialRead.byte.inj same
    rw [asks] at asks'
    rw [← handed_responses s byte] at more
    exact mended.shows more o (Option.some.inj asks')
  | @skipped byte _ _ _ _ =>
    exact ⟨h.of_panel awake' (handed_frame s byte).1 rfl,
      fun _ _ _ more => absurd (handed_responses s byte) more⟩
  | @quits byte _ _ _ _ _ closes =>
    exact ⟨h.of_closed awake' rfl closes.inten,
      fun _ _ _ more => absurd (handed_responses s byte) more⟩

/-- The device shows the cached state of a connected panel. -/
def Truthful (s : Emu) (dev : Device) : Prop :=
  s.panel.isConnected = true →
    (dev.inten : Int) = if s.panel.dimmer.mOn then s.panel.dimmer.mBrightness else 0

/-- An answer to a request that sets something is true of the device. -/
def AnswersTruly (s : Emu) (o : Occasion) (s' : Emu) (dev' : Device) : Prop :=
  ∀ c op, o = .read (.byte c) → s'.responses ≠ s.responses →
    asked (s.handed c).buf = some (some op) → op.Shows s'.panel dev'.inten

theorem occasion_mended {s s' : Emu} {o : Occasion} (h : s.Coupled dev)
    (permitted : o.Permitted b s dev) (hs : (o.step b s).run dev = some (s', dev')) :
    s'.Coupled dev' ∧ s.AnswersTruly o s' dev' := by
  cases o with
  | read r =>
    obtain ⟨kept, truly⟩ := step_mended h permitted hs
    exact ⟨kept, fun c op byte => truly c op (Occasion.read.inj byte)⟩
  | others left =>
    obtain ⟨rfl, rfl⟩ := Prod.mk.inj (Option.some.inj hs)
    obtain ⟨down, word⟩ := permitted
    exact ⟨⟨h.awake, word, fun up => absurd (down.symm.trans up) Bool.false_ne_true⟩, nofun⟩

theorem occasion_halts (b : Behaviour) (s : Emu) (dev : Device) (o : Occasion) :
    (o.step b s).Returns dev (fun _ _ => True) := by
  cases o with
  | read r => exact step_halts b s dev r
  | others left => exact ⟨s, left, rfl, trivial⟩

/-- Whichever calls fail, whatever else sets the device, and whatever the bytes: main goes on,
the cache of a connected panel is true after every step, and so is every answer. -/
theorem truthful_through_faults (b : Behaviour) (dev : Device) (word : dev.inten < 65536)
    (buf : Memory) (occasions : List Occasion)
    (permitted : Runs.EachStep (Occasion.step b) (fun s dev o _ _ => o.Permitted b s dev)
      (start buf) dev occasions) :
    (Runs.run (Occasion.step b) (start buf) occasions).Returns dev (fun _ _ => True) ∧
      Runs.Always (Occasion.step b) Truthful (start buf) dev occasions ∧
      Runs.EachStep (Occasion.step b) (fun s _ o s' dev' => s.AnswersTruly o s' dev')
        (start buf) dev occasions := by
  have runs := Runs.returns_run (I := fun _ _ => True) (fun s dev o _ => occasion_halts b s dev o)
    occasions (s := start buf) (w := dev) trivial
  have keeps (s : Emu) (dev : Device) (o : Occasion) (s' : Emu) (dev' : Device) (h : s.Coupled dev)
      (hs : (o.step b s).run dev = some (s', dev')) (permitted : o.Permitted b s dev) :
      s'.Coupled dev' ∧ s.AnswersTruly o s' dev' := occasion_mended h permitted hs
  obtain ⟨always, each⟩ := Runs.always_of_met keeps occasions (start_coupled buf word) permitted
  refine ⟨runs, always.mono fun s dev h up => ?_, each⟩
  obtain ⟨read, mirrors⟩ := h.mirrors up
  exact mirrors.shows

/-- Nothing fails any more. -/
def Quiet (b : Behaviour) (n : Nat) : Prop := ∀ k, n ≤ k → b.fault k = .none

theorem Quiet.serves {n : Nat} (quiet : Quiet b n) : b.Serves n := by
  have swaps (k : Nat) (later : n ≤ k) : b.Swaps k := ⟨quiet k later, quiet (k + 1) (by omega)⟩
  exact ⟨swaps n le_rfl, swaps (n + 2) (by omega), fun k _ => swaps (n + 4 + 3 * k) (by omega)⟩

/-- From any cached state, true or not. -/
theorem set_succeeds {d : USBDimmer} {handle : Handle} (opens : d.mHandle = some handle)
    (quiet : Quiet b dev.calls) (c : SetCall) :
    (c.run (Device.env b) d).Ensures dev (fun r _ => r.1 = usbdSuccess) := by
  have writes (inten : Int) : (setInten (Device.env b) handle inten).Ensures dev
      (fun ret _ => ret = usbdSuccess) :=
    ((Device.setInten_returns b dev handle inten).mono fun _ _ out =>
      out.2.mpr quiet.serves).ensures
  cases c with
  | setBrightness val =>
    simp only [SetCall.run, USBDimmer.setBrightness, opens]
    apply ensures_ite
    · exact fun _ => ensures_pure rfl
    · intro _
      apply ensures_ite
      · exact fun _ => ensures_pure rfl
      · intro _
        apply ensures_bind
        refine (writes _).mono ?_
        intro ret dev' ok
        exact ensures_ite (fun _ => ensures_pure ok) (fun _ => ensures_pure ok)
  | lightOn on =>
    simp only [SetCall.run, USBDimmer.lightOn, opens]
    apply ensures_ite
    · exact fun _ => ensures_pure rfl
    · intro _
      apply ensures_bind
      refine (writes _).mono ?_
      intro ret dev' ok
      exact ensures_ite (fun _ => ensures_pure ok) (fun _ => ensures_pure ok)

theorem connectPanel_succeeds {s : Emu} {r : Bool × Emu} (quiet : Quiet b dev.calls)
    (connects : (s.connectPanel (Device.env b)).run dev = some (r, dev')) :
    r.1 = true ∧ dev.calls ≤ dev'.calls ∧ ∃ handle, r.2.panel.dimmer.mHandle = some handle := by
  have opened {found : Option Handle} {dev₁ : Device}
      (hopen : (Device.env b).hidOpen.run dev = some (found, dev₁)) :
      found ≠ none ∧ dev₁ = dev.tick := by
    obtain ⟨rfl, rfl⟩ := Prod.mk.inj (Option.some.inj hopen)
    simp [quiet dev.calls le_rfl]
  have swaps : b.Swaps dev.tick.calls :=
    ⟨quiet _ (Nat.le_succ _), quiet _ (by simp; omega)⟩
  cases connectPanel_cases (Device.env b) s dev r dev' connects with
  | already up => exact ⟨rfl, le_rfl, Option.isSome_iff_exists.mp up⟩
  | failed _ way =>
    cases way with
    | noDevice hopen => exact absurd rfl (opened hopen).1
    | @noAnswer handle inten dev₁ _ hopen hread bad =>
      obtain ⟨_, rfl⟩ := opened hopen
      obtain ⟨_, ⟨found, _⟩ | ⟨_, fault⟩⟩ :=
        (Device.getInten_returns b dev.tick handle).ensures inten dev' hread
      · omega
      · exact absurd swaps fault
  | @opened _ now dev₂ _ _ way clock =>
    cases way with
    | @read handle inten dev₁ _ hopen hread _ =>
      obtain ⟨_, rfl⟩ := opened hopen
      obtain ⟨_, rfl⟩ := Prod.mk.inj (Option.some.inj clock)
      obtain ⟨_, ⟨_, _, calls⟩ | ⟨_, fault⟩⟩ :=
        (Device.getInten_returns b dev.tick handle).ensures inten dev₂ hread
      · rw [Device.tick_calls] at calls
        refine ⟨rfl, ?_, handle, rfl⟩
        show dev.calls ≤ dev₂.calls + 1
        omega
      · exact absurd swaps fault

/-- A line that asks for something is answered. -/
def Answered (s : Emu) (r : SerialRead) (s' : Emu) : Prop :=
  ∀ c op, r = .byte c → s.exited = none → s.EndsLine c → asked (s.handed c).buf = some op →
    ∃ resp, s'.responses = resp :: s.responses

theorem serve_answers {s s' : Emu} {op : Option SetOp} {answer : Memory → AlnitakEmu → List UInt8}
    (quiet : Quiet b dev.calls)
    (serves : (s.serve (Device.env b) op answer).run dev = some (s', dev')) :
    ∃ resp, s'.responses = resp :: s.responses := by
  cases serve_cases (Device.env b) op answer s dev s' dev' serves with
  | noPanel connects => exact absurd (connectPanel_succeeds quiet connects).1 Bool.false_ne_true
  | answered connects applies _ =>
    rw [← silent_of_inner (request_log connects applies)]
    exact ⟨_, rfl⟩
  | @refused s₁ s₂ _ dev₁ dev₂ _ connects applies _ =>
    obtain ⟨_, later, handle, opens⟩ := connectPanel_succeeds quiet connects
    have way := applyOp_cases (Device.env b) op s₁ dev₁ _ dev₂ applies
    generalize hr : (false, s₂) = r at way
    cases way with
    | asked => cases hr
    | @set o r _ sets =>
      have success := set_succeeds opens (fun k le => quiet k (later.trans le)) o.call r dev₂ sets
      rw [success] at hr
      cases hr

/-- No failure is remembered: whatever failed before and whatever state it left, from the first
call on after which nothing fails, every request is answered the first time it is made. Each step
returns, also while calls fail. -/
theorem answered_after_faults (b : Behaviour) (dev : Device) (buf : Memory)
    (rs : List SerialRead) : Runs.EachStep (Emu.step (Device.env b))
      (fun s dev r s' _ => Quiet b dev.calls → s.Answered r s') (start buf) dev rs ∧
    Runs.Always (Emu.step (Device.env b)) (fun s dev => ∀ r,
      (s.step (Device.env b) r).Returns dev (fun s' _ => Quiet b dev.calls → s.Answered r s'))
      (start buf) dev rs := by
  have answers (s : Emu) (dev : Device) (r : SerialRead) (awake : s.Awake) :
      (s.step (Device.env b) r).Ensures dev (fun s' _ => Quiet b dev.calls → s.Answered r s') := by
    rintro s' dev' hs quiet c op rfl running ends asks
    obtain ⟨s₁, serves, rfl⟩ := step_asked running awake ends asks hs
    obtain ⟨resp, more⟩ := serve_answers quiet serves
    rw [handed_responses] at more
    exact ⟨resp, more⟩
  have keeps (s : Emu) (dev : Device) (r : SerialRead) (awake : s.Awake) :
      (s.step (Device.env b) r).Ensures dev (fun s' _ => s'.Awake) :=
    step_awake (Device.env b) awake r dev
  constructor
  · exact Runs.eachStep_of_keeps keeps
      (fun s dev r s' dev' awake hs => answers s dev r awake s' dev' hs) rs (start_awake buf)
  · refine (Runs.always_of_keeps keeps rs (start_awake buf)).mono fun s dev awake r => ?_
    exact (answers s dev r awake).returns (step_halts b s dev r)

theorem answersIntensity_iff (b : Behaviour) (handle : Handle) (dev : Device) :
    AnswersIntensity (Device.env b) handle dev ↔ b.Swaps dev.calls := by
  obtain ⟨inten, dev', reads, _, out⟩ := Device.getInten_returns b dev handle
  rcases getInten_cases (Device.env b) handle dev inten dev' reads with
    ⟨nonneg, _, answers⟩ | ⟨negative, silent⟩
  · rcases out with ⟨_, swaps, _⟩ | ⟨rfl, _⟩
    · exact iff_of_true answers swaps
    · exact absurd nonneg (by decide)
  · rcases out with ⟨found, _⟩ | ⟨_, fault⟩
    · rw [found] at negative
      exact absurd (Int.natCast_nonneg _) (Int.not_le.mpr negative)
    · exact iff_of_false silent fault

theorem opensWell_iff (b : Behaviour) (s : Emu) (dev : Device) (c : UInt8) :
    s.OpensWell (Device.env b) dev (.byte c) ↔ (s.exited = none → s.EndsLine c →
      (asked (s.handed c).buf).isSome = true → s.panel.isConnected = false →
      b.fault dev.calls = .none → b.Swaps (dev.calls + 1)) := by
  constructor
  · intro opens running ends asks down good
    obtain ⟨op, asks⟩ := Option.isSome_iff_exists.mp asks
    have hopen : (Device.env b).hidOpen.run dev = some (some dev.calls, dev.tick) := by
      simp [Device.env, Device.hidOpen, StateT.run, good]
    exact (answersIntensity_iff b dev.calls dev.tick).mp
      (opens c op dev.calls dev.tick rfl running ends asks down hopen)
  · rintro swaps _ op handle dev₁ byte running ends asks down hopen
    obtain rfl := SerialRead.byte.inj byte
    obtain ⟨found, rfl⟩ := Prod.mk.inj (Option.some.inj hopen)
    have good : b.fault dev.calls = .none := by
      by_contra bad
      rw [if_neg bad] at found
      contradiction
    exact (answersIntensity_iff b handle dev.tick).mpr
      (swaps running ends (by rw [asks]; rfl) down good)

instance (b : Behaviour) (n : Nat) : Decidable (b.Swaps n) := inferInstanceAs (Decidable (_ ∧ _))

instance (b : Behaviour) (s : Emu) (dev : Device) :
    ∀ o, Decidable (Occasion.Permitted b s dev o)
  | .read (.byte c) => decidable_of_iff' _ (opensWell_iff b s dev c)
  | .read .timedOut | .read .failed => isTrue fun _ _ _ _ byte => by contradiction
  | .others left => inferInstanceAs (Decidable (_ ∧ left.inten < 65536))

/-- Level 9 is asked for, and the device goes there, but its answer is lost. While the panel is
disconnected another program sets 700. Then the state is asked for, and the light turned off. -/
def eventful : List Occasion :=
  (typed ['x', 'B', '9', '\n']).map .read ++ [.others { Device.idle 700 with calls := 10 }] ++
    (typed ['x', 'S', '\n', 'x', 'D', '\n']).map .read

/-- The read after the first SETSTATE times out: calls 0 to 3 connect. -/
def lostGoto : Behaviour :=
  { Behaviour.steady with fault := fun n => if n = 7 then .timedOut else .none }

theorem truthful_through_faults_eventful :
    (Runs.run (Occasion.step lostGoto) (start fun _ => 0) eventful).Returns (Device.idle 500)
        (fun _ _ => True) ∧
      Runs.Always (Occasion.step lostGoto) Truthful (start fun _ => 0) (Device.idle 500) eventful ∧
      Runs.EachStep (Occasion.step lostGoto) (fun s _ o s' dev' => s.AnswersTruly o s' dev')
        (start fun _ => 0) (Device.idle 500) eventful :=
  truthful_through_faults lostGoto (Device.idle 500) (by decide) (fun _ => 0) eventful
    (by decide +kernel)

end Emu
end FlatPanel
