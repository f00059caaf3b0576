import FlatPanel.Coherence
import FlatPanel.Replies

/-! The idle disconnect. Two runs are compared that get the same bytes: in one the idle
time-out closes the panel here and there, in the other the time-outs are left out. A panel
that shows its level is found as it was left; the level of a dark panel is forgotten, which
shows only if it is used before a client sets it again. -/
namespace FlatPanel

open Program

namespace AlnitakEmu

structure Same (p q : AlnitakEmu) : Prop where
  light : p.light = q.light
  blvl : p.blvl = q.blvl
  mBrightness : p.dimmer.mBrightness = q.dimmer.mBrightness
  mOn : p.dimmer.mOn = q.dimmer.mOn

/-- The level is the one a client asked for, and the light is off only if the dimmer is. -/
structure Known (p : AlnitakEmu) : Prop where
  dark : p.light = false → p.dimmer.mOn = false
  level : p.dimmer.mBrightness = sMap.usbdVal p.blvl.toNat

structure Dark (p : AlnitakEmu) : Prop where
  light : p.light = false
  mOn : p.dimmer.mOn = false

theorem found_same (p q : AlnitakEmu) (h k : Handle) (inten : Int) :
    Same (p.found h inten) (q.found k inten) :=
  ⟨rfl, rfl, rfl, rfl⟩

theorem Same.carried {p q : AlnitakEmu} (h : Same p q) (op : Option SetOp) :
    Same (p.carried op) (q.carried op) := by
  obtain ⟨light, blvl, level, on⟩ := h
  match op with
  | none => exact ⟨light, blvl, level, on⟩
  | some (.light set) =>
    refine ⟨rfl, blvl, level, ?_⟩
    simp [AlnitakEmu.carried, USBDimmer.after, SetOp.call, level]
  | some (.brightness v) =>
    refine ⟨light, rfl, rfl, ?_⟩
    simp [AlnitakEmu.carried, USBDimmer.after, SetOp.call, on]

theorem Dark.brightness {p q : AlnitakEmu} (hp : p.Dark) (hq : q.Dark) (v : UInt8) :
    Same (p.carried (some (.brightness v))) (q.carried (some (.brightness v))) := by
  refine ⟨hp.light.trans hq.light.symm, rfl, rfl, ?_⟩
  simp [AlnitakEmu.carried, USBDimmer.after, SetOp.call, hp.mOn, hq.mOn]

theorem carried_dark {p : AlnitakEmu} (h : p.light = false → p.dimmer.mOn = false)
    (op : Option SetOp) : (p.carried op).light = false → (p.carried op).dimmer.mOn = false := by
  match op with
  | none => exact h
  | some (.light true) => exact fun off => absurd off.symm Bool.false_ne_true
  | some (.light false) => exact fun _ => rfl
  | some (.brightness v) =>
    intro off
    simp [AlnitakEmu.carried, USBDimmer.after, SetOp.call, h off]

theorem Known.light {p : AlnitakEmu} (h : p.Known) (on : Bool) :
    (p.carried (some (.light on))).Known :=
  ⟨p.carried_dark h.dark _, h.level⟩

theorem known_brightness {p : AlnitakEmu} (h : p.light = false → p.dimmer.mOn = false)
    (v : UInt8) : (p.carried (some (.brightness v))).Known := by
  refine ⟨p.carried_dark h _, ?_⟩
  have level := clamp_byte v
  rw [← usbdVal_byte] at level
  exact level

theorem found_known (p : AlnitakEmu) {q : AlnitakEmu} (h : Handle) (known : q.Known)
    (lit : q.dimmer.mOn = true) (positive : 0 < q.dimmer.mBrightness) :
    Same (p.found h q.dimmer.mBrightness) q ∧ (p.found h q.dimmer.mBrightness).Known := by
  have light : q.light = true := by
    cases light : q.light with
    | true => rfl
    | false => exact absurd ((known.dark light).symm.trans lit) Bool.false_ne_true
  have level := known.level
  rw [usbdVal_byte] at level
  have opened : (USBDimmer.opened h q.dimmer.mBrightness).mBrightness = q.dimmer.mBrightness :=
    if_pos positive
  have blvl : (p.found h q.dimmer.mBrightness).blvl = q.blvl := by
    show sMap.alnitakVal (USBDimmer.asUnsigned
      (USBDimmer.opened h q.dimmer.mBrightness).mBrightness).toNat = q.blvl
    have small := q.blvl.toNat_lt
    have word := IntenMap.level_byte q.blvl.toNat (by omega)
    rw [opened, USBDimmer.asUnsigned_of_nonneg (Int.le_of_lt positive) (by omega), level,
      Int.toNat_natCast, IntenMap.alnitakVal_level]
  have same : Same (p.found h q.dimmer.mBrightness) q :=
    ⟨(decide_eq_true positive).trans light.symm, blvl, opened,
      (decide_eq_true positive).trans lit.symm⟩
  exact ⟨same, ⟨id, by rw [same.mBrightness, same.blvl]; exact known.level⟩⟩

theorem Same.known {p q : AlnitakEmu} (same : Same p q) (h : p.Known) : q.Known := by
  obtain ⟨light, blvl, level, on⟩ := same
  exact ⟨fun dark => by rw [← on]; exact h.dark (light.trans dark),
    by rw [← level, ← blvl]; exact h.level⟩

end AlnitakEmu

/-- The last connect found a dark panel. -/
def foundDark : List Act → Bool
  | [] => false
  | .connect p _ :: _ => !p.light
  | _ :: earlier => foundDark earlier

/-- Two connected panels that answer alike: the same panel, or two dark ones, of which the
first has forgotten a level. `log` is the record about the first. -/
inductive Paired (log : List Act) (p q : AlnitakEmu) : Prop where
  | same : p.Same q → (p.light = false → p.dimmer.mOn = false) →
      (log.any Act.levels = true → p.Known) → Paired log p q
  | forgot : log.any Act.levels = true → leveled log = false → foundDark log = true →
      p.Dark → q.Dark → Paired log p q

theorem Paired.shown {log : List Act} {p q : AlnitakEmu} (h : Paired log p q) :
    p.dimmer.shown = q.dimmer.shown := by
  unfold USBDimmer.shown
  cases h with
  | same same _ _ => rw [same.mOn, same.mBrightness]
  | forgot _ _ _ hp hq => rw [hp.mOn, hq.mOn]; rfl

theorem Paired.light {log : List Act} {p q : AlnitakEmu} (h : Paired log p q) :
    p.light = q.light := by
  cases h with
  | same same _ _ => exact same.light
  | forgot _ _ _ hp hq => rw [hp.light, hq.light]

theorem Paired.quiet {log : List Act} {p q : AlnitakEmu} (h : Paired log p q) {a : Act}
    (plain : a.levels = false) (inside : a.bounds = false) : Paired (a :: log) p q := by
  have any : (a :: log).any Act.levels = log.any Act.levels := by simp [plain]
  have level : leveled (a :: log) = leveled log := by simp [leveled, plain, inside]
  have found : foundDark (a :: log) = foundDark log := by
    cases a with
    | connect _ _ => exact absurd inside.symm Bool.false_ne_true
    | request _ | update _ | set _ _ | respond _ | idle _ | disconnect => rfl
  cases h with
  | same same dark known => exact .same same dark (any ▸ known)
  | forgot set none dark hp hq => exact .forgot (any ▸ set) (level ▸ none) (found ▸ dark) hp hq

theorem Paired.carried {log : List Act} {p q : AlnitakEmu} (h : Paired log p q) (op : SetOp)
    (allowed : leveled log = false → foundDark log = true → log.any Act.levels = true →
      op ≠ .light true) :
    Paired (.set op true :: log) (p.carried (some op)) (q.carried (some op)) := by
  cases op with
  | brightness v =>
    cases h with
    | same same dark _ =>
      exact .same (same.carried _) (p.carried_dark dark _)
        fun _ => AlnitakEmu.known_brightness dark v
    | forgot _ _ _ hp hq =>
      have dark : p.light = false → p.dimmer.mOn = false := fun _ => hp.mOn
      exact .same (hp.brightness hq v) (p.carried_dark dark _)
        fun _ => AlnitakEmu.known_brightness dark v
  | light on =>
    cases h with
    | same same dark known =>
      exact .same (same.carried _) (p.carried_dark dark _) fun set => (known set).light on
    | forgot set none dark hp hq =>
      cases on with
      | true => exact absurd rfl (allowed none dark set)
      | false => exact .forgot set none dark ⟨rfl, rfl⟩ ⟨rfl, rfl⟩

namespace Emu

/-- A client set a level, and the panel was closed in the dark since and not set again. -/
def Forgets (s : Emu) (dev : Device) : Prop :=
  s.log.any Act.levels = true ∧ leveled s.log = false ∧
    if s.panel.isConnected then foundDark s.log = true else dev.inten = 0

inductive Panels (s t : Emu) : Prop where
  | gone : s.exited ≠ none → Panels s t
  | down : s.panel.isConnected = false → t.panel.isConnected = false →
      s.log.any Act.levels = false → Panels s t
  | away : s.panel.isConnected = false → t.panel.isConnected = true →
      s.log.any Act.levels = true → leveled s.log = false →
      t.panel.light = t.panel.dimmer.mOn → (t.panel.dimmer.mOn = true → t.panel.Known) →
      Panels s t
  | up : s.panel.isConnected = true → t.panel.isConnected = true →
      Paired s.log s.panel t.panel → Panels s t

/-- The run with the disconnects, and the one without. -/
structure Twins (s : Emu) (dev : Device) (t : Emu) (dev' : Device) : Prop where
  left : s.Coupled dev
  right : t.Coupled dev'
  locals : s.locals = t.locals
  responses : s.responses = t.responses
  inten : dev.inten = dev'.inten
  panels : Panels s t

theorem ready_paired {s t s₁ t₁ : Emu} {dev dev' : Device} (h : Twins s dev t dev')
    (running : s.exited = none) (hs : s.Ready dev.inten s₁) (ht : t.Ready dev'.inten t₁) :
    Paired s₁.log s₁.panel t₁.panel ∧
      (leveled s₁.log = false → foundDark s₁.log = true → s₁.log.any Act.levels = true →
        s.Forgets dev) := by
  cases hs with
  | already up =>
    refine ⟨?_, fun none dark set => ⟨set, none, by rw [if_pos up]; exact dark⟩⟩
    cases h.panels with
    | gone gone => exact absurd running gone
    | down no _ _ => exact absurd (no.symm.trans up) Bool.false_ne_true
    | away no _ _ _ _ _ => exact absurd (no.symm.trans up) Bool.false_ne_true
    | up _ up' paired =>
      cases ht with
      | already _ => exact paired
      | opened _ _ down => exact absurd (down.symm.trans up') Bool.false_ne_true
  | opened handle now down =>
    cases h.panels with
    | gone gone => exact absurd running gone
    | up up _ _ => exact absurd (down.symm.trans up) Bool.false_ne_true
    | down _ down' none =>
      cases ht with
      | already up => exact absurd (down'.symm.trans up) Bool.false_ne_true
      | opened handle' now' _ =>
        refine ⟨.same ?_ ?_ ?_, ?_⟩
        · rw [h.inten]
          exact AlnitakEmu.found_same _ _ _ _ _
        · exact id
        · exact fun set => absurd (none.symm.trans set) Bool.false_ne_true
        · exact fun _ _ set => absurd (none.symm.trans set) Bool.false_ne_true
    | away _ up set none light known =>
      cases ht with
      | opened _ _ down' => exact absurd (down'.symm.trans up) Bool.false_ne_true
      | already _ =>
        obtain ⟨read, mirrors⟩ := h.right.mirrors up
        have shows := mirrors.shows
        rw [← h.inten] at shows
        cases on : t.panel.dimmer.mOn with
        | true =>
          rw [USBDimmer.shown, on, if_pos rfl] at shows
          obtain ⟨same, found⟩ := s.panel.found_known handle (known on) on (mirrors.cached.lit on)
          rw [← shows] at same found
          refine ⟨.same same found.dark fun _ => found, fun _ dark _ => ?_⟩
          have lit : (s.panel.found handle dev.inten).light = true :=
            same.light.trans (light.trans on)
          have dark : (s.panel.found handle dev.inten).light = false := by
            simpa [foundDark] using dark
          exact absurd (dark.symm.trans lit) Bool.false_ne_true
        | false =>
          rw [USBDimmer.shown, on, if_neg Bool.false_ne_true] at shows
          have zero : dev.inten = 0 := by omega
          have dark : (s.panel.found handle dev.inten).Dark := by
            rw [zero]
            exact ⟨rfl, rfl⟩
          refine ⟨.forgot set rfl ?_ dark ⟨light.trans on, on⟩, fun _ _ _ => ⟨set, none, ?_⟩⟩
          · simp [foundDark, dark.light]
          · rw [down]
            exact zero

theorem reply_congr {buf : Memory} (stack stack' : Memory) {p q : AlnitakEmu}
    (light : p.light = q.light) (level : Letter.ofByte (buf 1) = .J → p.blvl = q.blvl) :
    reply buf stack p = reply buf stack' q := by
  unfold reply
  cases letter : Letter.ofByte (buf 1) with
  | S =>
    obtain ⟨_, cover, motor⟩ := p.constructed
    obtain ⟨_, cover', motor'⟩ := q.constructed
    simp only [stateReply, AlnitakEmu.stateStr, AlnitakEmu.responseStr_eq, cover, cover', motor,
      motor', light]
  | J =>
    simp only [levelReply, AlnitakEmu.responseStr_eq, AlnitakEmu.getBrightness,
      level letter, CString.format03u_small _ q.blvl.toNat_lt]
    rfl
  | L | D | B | V | u | other =>
    simp only [plainReply, echoReply, versionReply, AlnitakEmu.responseStr_eq]

theorem carry_panel (t : Emu) (op : Option SetOp) : (t.carry op).panel = t.panel.carried op := by
  cases op <;> rfl

theorem asked_light {buf : Memory} (h : asked buf = some (some (.light true))) :
    Letter.ofByte (buf 1) = .L := by
  unfold asked at h
  cases letter : Letter.ofByte (buf 1) with
  | L => rfl
  | S | D | J | V | u | other => simp [letter] at h
  | B =>
    rw [letter] at h
    obtain ⟨_, _, wrong⟩ := Option.map_eq_some_iff.mp h
    simp at wrong

/-- What a step of the run with the disconnects may do: close the panel on an idle time-out
once a level was set, and either in the light or with the light off as far as the client
knows; and use a level only if it is not forgotten. -/
structure Allowed (s : Emu) (dev : Device) (r : SerialRead) (s' : Emu) (_ : Device) : Prop where
  idle : r = .timedOut → s.panel.isConnected = true → s'.panel.isConnected = false →
    s.log.any Act.levels = true ∧ (dev.inten ≠ 0 ∨ s.panel.light = false)
  level : ∀ c, r = .byte c → s.exited = none → s.EndsLine c →
    Letter.ofByte ((s.handed c).buf 1) = .L ∨ Letter.ofByte ((s.handed c).buf 1) = .J →
    ¬ (s.handed c).Forgets dev

instance (s : Emu) (dev : Device) : Decidable (s.Forgets dev) :=
  inferInstanceAs (Decidable (_ ∧ _ ∧ ite _ _ _))

instance (s : Emu) (b : UInt8) : Decidable (s.EndsLine b) :=
  inferInstanceAs (Decidable (_ ∨ _))

instance (s : Emu) (dev : Device) (s' : Emu) (dev' : Device) :
    ∀ r, Decidable (Allowed s dev r s' dev')
  | .timedOut => decidable_of_iff (s.panel.isConnected = true → s'.panel.isConnected = false →
      s.log.any Act.levels = true ∧ (dev.inten ≠ 0 ∨ s.panel.light = false))
      ⟨fun h => ⟨fun _ => h, fun _ byte => by contradiction⟩, fun h => h.idle rfl⟩
  | .failed => isTrue ⟨fun out => by contradiction, fun _ byte => by contradiction⟩
  | .byte c => decidable_of_iff (s.exited = none → s.EndsLine c →
      Letter.ofByte ((s.handed c).buf 1) = .L ∨ Letter.ofByte ((s.handed c).buf 1) = .J →
      ¬ (s.handed c).Forgets dev)
      ⟨fun h => ⟨fun out => by contradiction, fun d byte => by cases byte; exact h⟩,
        fun h => h.level c rfl⟩

theorem handed_locals {s t : Emu} (same : s.locals = t.locals) (b : UInt8) :
    (s.handed b).locals = (t.handed b).locals := by
  simp only [locals, Prod.mk.injEq] at same ⊢
  obtain ⟨buf, p, rem, quit, exited⟩ := same
  unfold handed lineRead stored
  split <;> simp [note, buf, p, rem, quit, exited]

theorem stored_locals {s t : Emu} (same : s.locals = t.locals) (b : UInt8) :
    (s.stored b).locals = (t.stored b).locals := by
  simp only [locals, Prod.mk.injEq] at same
  obtain ⟨buf, p, rem, quit, exited⟩ := same
  simp [locals, stored, buf, p, rem, quit, exited]

theorem nextLine_locals {s t : Emu} (same : s.locals = t.locals) :
    s.nextLine.locals = t.nextLine.locals := by
  simp only [locals, Prod.mk.injEq] at same
  obtain ⟨buf, _, _, quit, exited⟩ := same
  simp [locals, nextLine, buf, quit, exited]

/-- A stretch in which neither panel is touched and at most a request is recorded. -/
theorem Twins.still {s t s' t' : Emu} {dev dev' dev₁ dev₁' : Device} (h : Twins s dev t dev')
    (left : s'.Awake) (right : t'.Awake) (locals : s'.locals = t'.locals)
    (exited : s'.exited = s.exited) (panel : s'.panel = s.panel) (panel' : t'.panel = t.panel)
    (log : s'.log = s.log ∨ ∃ line, s'.log = .request line :: s.log)
    (responses : s'.responses = t'.responses) (inten : dev₁.inten = dev.inten)
    (inten' : dev₁'.inten = dev'.inten) : Twins s' dev₁ t' dev₁' := by
  refine ⟨h.left.of_panel left panel inten, h.right.of_panel right panel' inten', locals,
    responses, inten.trans (h.inten.trans inten'.symm), ?_⟩
  have any : s'.log.any Act.levels = s.log.any Act.levels := by
    rcases log with same | ⟨line, more⟩
    · rw [same]
    · rw [more]; rfl
  have level : leveled s'.log = leveled s.log := by
    rcases log with same | ⟨line, more⟩
    · rw [same]
    · rw [more]; rfl
  cases h.panels with
  | gone gone => exact .gone (exited ▸ gone)
  | down no no' none => exact .down (panel ▸ no) (panel' ▸ no') (any.trans none)
  | away no up set none light known =>
    exact .away (panel ▸ no) (panel' ▸ up) (any.trans set) (level.trans none) (panel' ▸ light)
      (panel' ▸ known)
  | up up up' paired =>
    refine .up (panel ▸ up) (panel' ▸ up') ?_
    rw [panel, panel']
    rcases log with same | ⟨line, more⟩
    · rw [same]; exact paired
    · rw [more]; exact paired.quiet rfl rfl

theorem handed_awake {s : Emu} (awake : s.Awake) (b : UInt8) : (s.handed b).Awake := by
  obtain ⟨_, quit, exited⟩ := handed_frame s b
  intro running
  rw [quit]
  exact awake (exited.symm.trans running)

theorem handed_twins {s t : Emu} {dev dev' : Device} (h : Twins s dev t dev') (c : UInt8) :
    Twins (s.handed c) dev (t.handed c) dev' := by
  have responses : (s.handed c).responses = (t.handed c).responses := by
    rw [handed_responses, handed_responses, h.responses]
  exact h.still (handed_awake h.left.awake c) (handed_awake h.right.awake c)
    (handed_locals h.locals c) (handed_frame s c).2.2 (handed_frame s c).1 (handed_frame t c).1
    (.inr (handed_log s c)) responses rfl rfl

theorem carried_twins {s t s₁ t₁ : Emu} {dev dev' dev₁ dev₁' : Device} {op : Option SetOp}
    (h : Twins s dev t dev') (running : s.exited = none) (asks : asked s.buf = some op)
    (level : Letter.ofByte (s.buf 1) = .L ∨ Letter.ofByte (s.buf 1) = .J → ¬ s.Forgets dev)
    (hs : Carried op (reply s.buf) s dev s₁ dev₁) (ht : Carried op (reply t.buf) t dev' t₁ dev₁') :
    s₁.responses = t₁.responses ∧ dev₁.inten = dev₁'.inten ∧ s₁.panel.isConnected = true ∧
      t₁.panel.isConnected = true ∧ Paired s₁.log s₁.panel t₁.panel := by
  obtain ⟨u, now, stack, ready, rfl, _, _, mirrors⟩ := hs
  obtain ⟨v, now', stack', ready', rfl, _, _, mirrors'⟩ := ht
  obtain ⟨paired, forgets⟩ := ready_paired h running ready ready'
  have same : t.buf = s.buf := (congrArg Prod.fst h.locals).symm
  have after : Paired (u.carry op).log (u.carry op).panel (v.carry op).panel := by
    rw [carry_panel, carry_panel]
    cases op with
    | none => exact paired
    | some op =>
      refine paired.carried op fun none dark set => ?_
      rintro rfl
      exact level (.inl (asked_light asks)) (forgets none dark set)
  have blvl : Letter.ofByte (s.buf 1) = .J → (u.carry op).panel.blvl = (v.carry op).panel.blvl := by
    intro letter
    cases after with
    | same same _ _ => exact same.blvl
    | forgot set none dark _ _ =>
      have nothing : op = Option.none := by
        unfold asked at asks
        rw [letter] at asks
        exact (Option.some.inj asks).symm
      subst nothing
      exact absurd (forgets none dark set) (level (.inr letter))
  refine ⟨?_, ?_, mirrors.cached.connected, mirrors'.cached.connected,
    (after.quiet rfl rfl).quiet rfl rfl⟩
  · have told := reply_congr stack stack' after.light blvl
    have earlier : (u.carry op).responses = (v.carry op).responses :=
      (carry_responses ready op).trans (h.responses.trans (carry_responses ready' op).symm)
    rw [same]
    exact congrArg₂ List.cons told earlier
  · have shows := mirrors.shows
    have shows' := mirrors'.shows
    exact Int.ofNat.inj (shows.trans (after.shown.trans shows'.symm))

theorem served_twins {b b' : Behaviour} (all : b.Faultless) (all' : b'.Faultless)
    {s s' t : Emu} {dev dev₁ dev' : Device} {c : UInt8} {op : Option SetOp}
    (h : Twins s dev t dev') (running : s.exited = none) (ends : s.EndsLine c)
    (asks : asked (s.handed c).buf = some op)
    (level : Letter.ofByte ((s.handed c).buf 1) = .L ∨ Letter.ofByte ((s.handed c).buf 1) = .J →
      ¬ (s.handed c).Forgets dev)
    (hs : (s.step (Device.env b) (.byte c)).run dev = some (s', dev₁)) :
    (t.step (Device.env b') (.byte c)).Returns dev' (fun t' dev₁' => Twins s' dev₁ t' dev₁') := by
  have twins := handed_twins h c
  have same := h.locals
  have same' := twins.locals
  simp only [locals, Prod.mk.injEq] at same same'
  obtain ⟨_, _, rem, _, exited⟩ := same
  have running' : t.exited = none := exited ▸ running
  have ends' : t.EndsLine c := ends.imp id fun full => rem ▸ full
  have asks' : asked (t.handed c).buf = some op := same'.1 ▸ asks
  have running₁ : (s.handed c).exited = none := (handed_frame s c).2.2.trans running
  obtain ⟨s₁, d₁, serves, carried⟩ := serve_carried all twins.left op (reply (s.handed c).buf)
  obtain ⟨t₁, d₁', serves', carried'⟩ := serve_carried all' twins.right op (reply (t.handed c).buf)
  have step := step_served (Device.env b) running h.left.awake ends asks serves
  have step' := step_served (Device.env b') running' h.right.awake ends' asks' serves'
  obtain ⟨rfl, rfl⟩ := run_unique hs step
  obtain ⟨responses, inten, up, up', paired⟩ :=
    carried_twins twins running₁ asks level carried carried'
  refine ⟨_, _, step', step_coupled all s dev _ h.left _ _ step,
    step_coupled all' t dev' _ h.right _ _ step', ?_, responses, inten, .up up up' paired⟩
  exact nextLine_locals ((serve_locals serves).trans (twins.locals.trans (serve_locals serves').symm))

def untimed : SerialRead → List SerialRead
  | .timedOut => []
  | r => [r]

theorem gone_twins {s t s' t' : Emu} {dev dev' dev₁ dev₁' : Device} (h : Twins s dev t dev')
    (locals : s'.locals = t'.locals) (responses : s'.responses = t'.responses) (code : Int)
    (inten : dev₁.inten = dev.inten) (inten' : dev₁'.inten = dev'.inten) :
    Twins (s'.gone code) dev₁ (t'.gone code) dev₁' := by
  have ended (u : Emu) : (u.gone code).exited ≠ none := Option.some_ne_none code
  refine ⟨h.left.of_closed (fun on => absurd on (ended s')) rfl inten,
    h.right.of_closed (fun on => absurd on (ended t')) rfl inten', ?_, responses,
    inten.trans (h.inten.trans inten'.symm), .gone (ended s')⟩
  simp only [Emu.locals, Prod.mk.injEq] at locals
  obtain ⟨buf, p, rem, quit, _⟩ := locals
  simp [Emu.locals, gone, buf, p, rem, quit]

theorem unasked_twins {b b' : Behaviour} {s s' t : Emu} {dev dev₁ dev' : Device} {c : UInt8}
    (h : Twins s dev t dev') (running : s.exited = none) (ends : s.EndsLine c)
    (asks : asked (s.handed c).buf = none)
    (hs : (s.step (Device.env b) (.byte c)).run dev = some (s', dev₁)) :
    (t.step (Device.env b') (.byte c)).Returns dev' (fun t' dev₁' => Twins s' dev₁ t' dev₁') := by
  have twins := handed_twins h c
  have same := h.locals
  have same' := twins.locals
  simp only [locals, Prod.mk.injEq] at same same'
  obtain ⟨_, _, rem, _, exited⟩ := same
  obtain ⟨buf, p, rem', quit, exited'⟩ := same'
  have running' : t.exited = none := exited ▸ running
  have ends' : t.EndsLine c := ends.imp id fun full => rem ▸ full
  have asks' : asked (t.handed c).buf = none := buf ▸ asks
  have step := step_unasked (Device.env b) (w := dev) running ends asks
  have step' := step_unasked (Device.env b') (w := dev') running' ends' asks'
  rw [hs] at step
  unfold Program.Returns
  rw [step']
  unfold ignored at step ⊢
  by_cases quits : Letter.ofByte ((s.handed c).buf 1) = .u ∧
      (s.handed c).buf.cstring 0 bufSize = quitText
  · have quits' := quits
    rw [buf] at quits'
    rw [if_pos quits] at step
    rw [if_pos quits']
    obtain ⟨d₁, leaves, inten⟩ := leave_run b 0 { s.handed c with quit := true } dev
    obtain ⟨d₁', leaves', inten'⟩ := leave_run b' 0 { t.handed c with quit := true } dev'
    obtain ⟨rfl, rfl⟩ := Prod.mk.inj (Option.some.inj (step.trans leaves))
    have kept : ({ s.handed c with quit := true } : Emu).locals =
        ({ t.handed c with quit := true } : Emu).locals := by
      simp [locals, buf, p, rem', exited']
    have told : ({ s.handed c with quit := true } : Emu).responses =
        ({ t.handed c with quit := true } : Emu).responses := twins.responses
    exact ⟨_, _, leaves', gone_twins h kept told 0 inten inten'⟩
  · have more : (s.handed c).quit = false :=
      twins.left.awake ((handed_frame s c).2.2.trans running)
    have more' : (t.handed c).quit = false := quit ▸ more
    have quits' := quits
    rw [buf] at quits'
    rw [if_neg quits, more] at step
    rw [if_neg quits', more']
    obtain ⟨rfl, rfl⟩ := Prod.mk.inj (Option.some.inj step)
    exact ⟨_, _, rfl, twins.still twins.left.awake twins.right.awake
      (nextLine_locals twins.locals) rfl rfl rfl (.inl rfl) twins.responses rfl rfl⟩

theorem expired_panels {s t : Emu} {dev dev' : Device} (h : Twins s dev t dev')
    (running : s.exited = none) (up : s.panel.isConnected = true) (now : Int)
    (set : s.log.any Act.levels = true) (how : dev.inten ≠ 0 ∨ s.panel.light = false) :
    Panels ((s.note (.idle now)).withPanel s.panel.closed .disconnect) t := by
  cases h.panels with
  | gone gone => exact absurd running gone
  | down no _ _ => exact absurd (no.symm.trans up) Bool.false_ne_true
  | away no _ _ _ _ _ => exact absurd (no.symm.trans up) Bool.false_ne_true
  | up _ up' paired =>
    cases paired with
    | forgot _ _ _ _ hq =>
      exact .away rfl up' set rfl (hq.light.trans hq.mOn.symm)
        fun on => absurd (hq.mOn.symm.trans on) Bool.false_ne_true
    | same same dark known =>
      have level := (known set)
      have light : s.panel.light = s.panel.dimmer.mOn := by
        cases on : s.panel.dimmer.mOn with
        | true =>
          cases off : s.panel.light with
          | true => rfl
          | false => exact absurd ((dark off).symm.trans on) Bool.false_ne_true
        | false =>
          rcases how with lit | off
          · obtain ⟨read, mirrors⟩ := h.left.mirrors up
            have shows := mirrors.shows
            rw [USBDimmer.shown, on, if_neg Bool.false_ne_true] at shows
            omega
          · exact off
      exact .away rfl up' set rfl (same.light.symm.trans (light.trans same.mOn))
        fun _ => same.known level

theorem step_twins {b b' : Behaviour} (all : b.Faultless) (all' : b'.Faultless)
    (s : Emu) (dev : Device) (t : Emu) (dev' : Device) (r : SerialRead) (s' : Emu)
    (dev₁ : Device) (h : Twins s dev t dev')
    (hs : (s.step (Device.env b) r).run dev = some (s', dev₁))
    (allowed : Allowed s dev r s' dev₁) :
    (Runs.run (step (Device.env b')) t (untimed r)).Returns dev' (fun t' dev₁' =>
      Twins s' dev₁ t' dev₁') := by
  have same := h.locals
  simp only [locals, Prod.mk.injEq] at same
  obtain ⟨_, _, rem, quit, exited⟩ := same
  cases running : s.exited with
  | some code =>
    have ended : s.exited ≠ none := by simp [running]
    have ended' : t.exited ≠ none := exited ▸ ended
    rw [step_gone (Device.env b) ended] at hs
    obtain ⟨rfl, rfl⟩ := (run_pure_eq s s' dev dev₁).mp hs
    cases r with
    | timedOut => exact returns_pure h
    | failed | byte _ =>
      simp only [untimed, Runs.run, bind_pure, step_gone (Device.env b') ended']
      exact returns_pure h
  | none =>
    have running' : t.exited = none := exited ▸ running
    cases r with
    | timedOut =>
      apply returns_pure
      cases step_cases (Device.env b) h.left.awake _ dev s' dev₁ hs with
      | ended gone => exact absurd running gone
      | unconnected _ _ => exact h
      | waited _ _ clock _ =>
        exact h.still h.left.awake h.right.awake h.locals rfl rfl rfl (.inl rfl) h.responses
          (Device.time64_run clock) rfl
      | @expired now _ _ _ _ up clock _ closes =>
        obtain rfl := closes.panel
        obtain ⟨set, how⟩ := allowed.idle rfl up rfl
        have same := closes.inten.trans (Device.time64_run clock)
        exact ⟨step_coupled all s dev _ h.left _ dev₁ hs, h.right, h.locals, h.responses,
          same.trans h.inten, expired_panels h running up now set how⟩
    | failed =>
      simp only [untimed, Runs.run, bind_pure, step_failed (Device.env b') running']
      rw [step_failed (Device.env b) running] at hs
      obtain ⟨d₁, leaves, inten⟩ := leave_run b 1 s dev
      obtain ⟨d₁', leaves', inten'⟩ := leave_run b' 1 t dev'
      obtain ⟨rfl, rfl⟩ := run_unique hs leaves
      exact ⟨_, _, leaves', gone_twins h h.locals h.responses 1 inten inten'⟩
    | byte c =>
      simp only [untimed, Runs.run, bind_pure]
      by_cases ends : s.EndsLine c
      · cases asks : asked (s.handed c).buf with
        | some op =>
          exact served_twins all all' h running ends asks (allowed.level c rfl running ends) hs
        | none => exact unasked_twins h running ends asks hs
      · have ends' : ¬ t.EndsLine c := fun full => ends (full.imp id fun full => rem ▸ full)
        rw [step_stored (Device.env b) running ends] at hs
        obtain ⟨rfl, rfl⟩ := (run_pure_eq _ s' dev dev₁).mp hs
        rw [step_stored (Device.env b') running' ends']
        exact returns_pure (h.still h.left.awake h.right.awake (stored_locals h.locals c) rfl rfl
          rfl (.inl rfl) h.responses rfl rfl)

/-- At every point of the run, the run without the time-outs has sent the same replies and
the device shows the same. -/
def Transparent (b b' : Behaviour) (dev dev' : Device) (buf : Memory) (rs : List SerialRead) :
    Prop :=
  ∀ pre, pre <+: rs → (main (Device.env b) buf pre).Returns dev (fun s d =>
    (main (Device.env b') buf (pre.flatMap untimed)).Returns dev' (fun t d' =>
      s.responses = t.responses ∧ d.inten = d'.inten))

/-- Whatever the bytes, the delays and the places of the disconnects. -/
theorem idle_transparent (b b' : Behaviour) (all : b.Faultless) (all' : b'.Faultless)
    (dev dev' : Device) (word : dev.inten < 65536) (same : dev.inten = dev'.inten) (buf : Memory)
    (rs : List SerialRead)
    (allowed : Runs.EachStep (Emu.step (Device.env b)) Allowed (start buf) dev rs) :
    Transparent b b' dev dev' buf rs := by
  rintro pre ⟨rest, rfl⟩
  obtain ⟨s, d, reached, _⟩ := main_returns all buf word pre
  refine ⟨s, d, reached, ?_⟩
  have begin : Twins (start buf) dev (start buf) dev' :=
    ⟨start_coupled buf word, start_coupled buf (same ▸ word), rfl, rfl, same, .down rfl rfl rfl⟩
  have before := (Runs.eachStep_append.mp allowed).1
  have follows := Runs.run_relation untimed (step_twins all all') pre begin before reached
  exact follows.mono fun t d' twins => ⟨twins.responses, twins.inten⟩

def restless : Behaviour := { Behaviour.steady with clock := fun n => 20000 * n }

/-- Level 100 is set in the dark, the panel is closed while idle, and then asked for. -/
def darkLevel : List SerialRead :=
  typed ['x', 'B', '1', '0', '0', '\n'] ++ [.timedOut] ++ typed ['x', 'J', '\n']

/-- The level that comes back is that of the default intensity. -/
theorem not_always_transparent :
    ¬ ∀ (b b' : Behaviour), b.Faultless → b'.Faultless → ∀ dev dev' : Device,
      dev.inten < 65536 → dev.inten = dev'.inten → ∀ buf rs,
      Runs.EachStep (Emu.step (Device.env b)) (fun s _ r s' _ =>
          r = .timedOut → s.panel.isConnected = true → s'.panel.isConnected = false →
            s.log.any Act.levels = true) (start buf) dev rs →
      Transparent b b' dev dev' buf rs := by
  intro claim
  have transparent := claim restless .steady (fun _ => rfl) Behaviour.steady_faultless
    (Device.idle 0) (Device.idle 0) (by decide) rfl (fun _ => 0) darkLevel (by decide +kernel)
  obtain ⟨s, _, run, t, _, run', responses, _⟩ := transparent _ List.prefix_rfl
  have told := congrArg (Option.map fun r => r.1.responses) run
  have told' := congrArg (Option.map fun r => r.1.responses) run'
  rw [Option.map_some, responses] at told
  rw [Option.map_some] at told'
  exact absurd (told.trans told'.symm) (by decide +kernel)

theorem idle_transparent_lit :
    Transparent restless .steady (Device.idle 500) (Device.idle 500) (fun _ => 0) darkLevel :=
  idle_transparent restless .steady (fun _ => rfl) Behaviour.steady_faultless _ _ (by decide) rfl
    _ darkLevel (by decide +kernel)

end Emu
end FlatPanel
