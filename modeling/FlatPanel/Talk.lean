import FlatPanel.Connection
import FlatPanel.Instrumented
import FlatPanel.Library.Beside

/-! What may be said to the dimmer, and when. The automaton permits one exchange after another
on the handle that is open: the intensity is asked for right after the open; an intensity is set
by a SETINTEN, a SETSTATE and as many GETSTATEs as it takes; and where one of these fails the
handle is closed next. -/
namespace FlatPanel

open Program

variable {W : Type}

inductive Phase where
  | closed
  | fresh (handle : Handle)
  | ready (handle : Handle)
  /-- A report with this command is sent, and its answer not read yet. -/
  | asked (handle : Handle) (cmd : UInt8)
  /-- The intensity is accepted. -/
  | told (handle : Handle)
  | moving (handle : Handle)
  | resting (handle : Handle)
  | broken (handle : Handle)
  deriving DecidableEq

/-- `cap` is the largest intensity there is to ask for: 1023, or one that a device showed. -/
structure Talk where
  phase : Phase
  cap : Nat
  deriving DecidableEq

namespace Talk

def start : Talk := ⟨.closed, 1023⟩

def inPhase (σ : Talk) (phase : Phase) : Talk := { σ with phase := phase }

def command (report : List UInt8) : UInt8 := report.getD 1 0

/-- The two bytes after the one in front of them. -/
def wordAt (i : Nat) (bs : List UInt8) : Nat := (bs.getD i 0).toNat + 256 * (bs.getD (i + 1) 0).toNat

def Permits (σ : Talk) (handle : Handle) (report : List UInt8) : Prop :=
  match σ.phase with
  | .fresh open' => open' = handle ∧ command report = cmdGetInten
  | .ready open' => open' = handle ∧ command report = cmdSetInten ∧ wordAt 2 report ≤ σ.cap
  | .told open' => open' = handle ∧ command report = cmdSetState ∧ report.getD 2 0 = 3
  | .moving open' => open' = handle ∧ command report = cmdGetState
  | _ => False

instance (σ : Talk) (handle : Handle) (report : List UInt8) :
    Decidable (σ.Permits handle report) := by
  unfold Permits
  split <;> infer_instance

/-- A failure to ask leaves the handle to the next request. -/
def lost (handle : Handle) (cmd : UInt8) : Phase :=
  if cmd = cmdGetInten then .ready handle else .broken handle

def least (cmd : UInt8) : Int := if cmd = cmdGetInten then 3 else 1

def answered (σ : Talk) (handle : Handle) (cmd : UInt8) (r : Input) : Talk :=
  if r.ret 5 < least cmd then σ.inPhase (lost handle cmd)
  else if cmd = cmdGetInten then ⟨.ready handle, max σ.cap (wordAt 1 (r.data 5))⟩
  else if cmd = cmdSetInten then σ.inPhase (.told handle)
  else if cmd = cmdSetState then σ.inPhase (.moving handle)
  else if (r.data 5).getD 1 cmd = 0 then σ.inPhase (.ready handle)
  else σ.inPhase (.resting handle)

def opens (σ : Talk) (found : Option Handle) : Option Talk :=
  match σ.phase, found with
  | .closed, none => some σ
  | .closed, some handle => some (σ.inPhase (.fresh handle))
  | _, _ => none

def writes (handle : Handle) (report : List UInt8) (σ : Talk) (ret : Int) : Option Talk :=
  if σ.Permits handle report then
    some (σ.inPhase (if ret < 0 then lost handle (command report)
      else .asked handle (command report)))
  else none

def reads (handle : Handle) (σ : Talk) (r : Input) : Option Talk :=
  match σ.phase with
  | .asked open' cmd => if open' = handle then some (σ.answered handle cmd r) else none
  | _ => none

def closes (handle : Handle) (σ : Talk) (_ : Unit) : Option Talk :=
  if σ.phase = .ready handle ∨ σ.phase = .broken handle then some (σ.inPhase .closed) else none

def sleeps (σ : Talk) (_ : Unit) : Option Talk :=
  match σ.phase with
  | .resting handle => some (σ.inPhase (.moving handle))
  | _ => none

/-- The time is not asked for in the middle of anything. -/
def clock (σ : Talk) (_ : Int) : Option Talk :=
  match σ.phase with
  | .closed | .ready _ => some σ
  | _ => none

def env (env : Env W) : Env (Option Talk × W) where
  hidOpen := watched opens env.hidOpen
  hidWrite := fun handle report => watched (writes handle report) (env.hidWrite handle report)
  hidReadTimeout := fun handle => watched (reads handle) (env.hidReadTimeout handle)
  hidClose := fun handle => watched (closes handle) (env.hidClose handle)
  sleep := fun ms => watched sleeps (env.sleep ms)
  time64 := watched clock env.time64
  uninit := fun t => env.uninit t.2
  pollBound := fun t => env.pollBound t.2

theorem records (lib : Env W) : Env.Records Prod.snd (env lib) lib :=
  ⟨watched_follows _ _, fun _ _ => watched_follows _ _, fun _ => watched_follows _ _,
    fun _ => watched_follows _ _, fun _ => watched_follows _ _, watched_follows _ _,
    fun _ => rfl, fun _ => rfl⟩

/-! How the functions move it. -/

section Exchanges

variable {lib : Env W} {σ : Talk} {t : Option Talk × W} {handle : Handle}

/-- An exchange that is permitted is not answered, or answered with so much as is asked for. -/
theorem exchange_answered {buf : Memory} (cmd : UInt8) (is : buf 1 = cmd)
    (here : t.1 = some σ) (permits : σ.Permits handle (buf.bytes 5)) :
    (exchange (env lib) handle buf (least cmd)).Ensures t (fun ans t' =>
      ans = none ∧ t'.1 = some (σ.inPhase (lost handle cmd)) ∨
      ∃ r : Input, least cmd ≤ r.ret 5 ∧ ans = some (buf.fill (r.data 5)) ∧
        t'.1 = some (σ.answered handle cmd r)) := by
  have same : command (buf.bytes 5) = cmd := is
  have wrote (ret : Int) : writes handle (buf.bytes 5) σ ret =
      some (σ.inPhase (if ret < 0 then lost handle cmd else .asked handle cmd)) := by
    rw [writes, if_pos permits, same]
  have read (r : Input) : reads handle (σ.inPhase (.asked handle cmd)) r =
      some (σ.answered handle cmd r) := if_pos rfl
  have sends {ret : Int} {t₁ : Option Talk × W}
      (hw : ((env lib).hidWrite handle (buf.bytes 5)).run t = some (ret, t₁)) :
      t₁.1 = some (σ.inPhase (if ret < 0 then lost handle cmd else .asked handle cmd)) :=
    (watched_ensures _ _ here _ t₁ hw).trans (wrote ret)
  have reads {ret : Int} {r : Input} {t₁ t' : Option Talk × W} (sent : 0 ≤ ret)
      (hw : ((env lib).hidWrite handle (buf.bytes 5)).run t = some (ret, t₁))
      (hr : ((env lib).hidReadTimeout handle).run t₁ = some (r, t')) :
      t'.1 = some (σ.answered handle cmd r) := by
    have asked := sends hw
    rw [if_neg (Int.not_lt.mpr sent)] at asked
    exact (watched_ensures _ _ asked _ t' hr).trans (read r)
  intro ans t' hs
  cases exchange_cases (env lib) handle buf (least cmd) t ans t' hs with
  | unsent hw bad =>
    have moved := sends hw
    rw [if_pos bad] at moved
    exact .inl ⟨rfl, moved⟩
  | unread hw sent hr short =>
    have moved := reads sent hw hr
    rw [answered, if_pos short] at moved
    exact .inl ⟨rfl, moved⟩
  | answered hw sent hr long => exact .inr ⟨_, long, rfl, reads sent hw hr⟩

theorem data_length {r : Input} {n : Nat} (long : (n : Int) ≤ r.ret 5) :
    n ≤ (r.data 5).length := by
  cases r with
  | error =>
    have bad : (n : Int) ≤ -1 := long
    omega
  | bytes bs => exact Int.ofNat_le.mp long

theorem wordAt_fill (m : Memory) {bs : List UInt8} (long : 3 ≤ bs.length) :
    (m.fill bs 1).toNat ||| ((m.fill bs 2).toNat <<< 8) = wordAt 1 bs := by
  rw [Device.or_shift, Memory.fill_inside m bs (by omega), Memory.fill_inside m bs (by omega)]
  simp [wordAt, show 1 < bs.length by omega, show 2 < bs.length by omega]

/-- Asking for the intensity ends ready, with the intensity that was shown allowed for. -/
theorem getInten_asks (here : t.1 = some σ) (fresh : σ.phase = .fresh handle) :
    (getInten (env lib) handle).Ensures t (fun inten t' => ∃ cap, σ.cap ≤ cap ∧ inten ≤ cap ∧
      t'.1 = some ⟨.ready handle, cap⟩) := by
  apply ensures_uninit
  apply ensures_bind
  have permits : σ.Permits handle ((((env lib).uninit t).store 0 0x0).store 1 cmdGetInten |>.bytes 5) := by
    rw [Permits, fresh]
    exact ⟨rfl, rfl⟩
  refine (exchange_answered cmdGetInten (by simp) here permits).mono ?_
  rintro ans t₁ (⟨rfl, moved⟩ | ⟨r, long, rfl, moved⟩)
  · exact ensures_pure ⟨σ.cap, le_rfl, by simp [usbdCommError], moved⟩
  · apply ensures_pure
    rw [answered, if_neg (Int.not_lt.mpr long), if_pos rfl] at moved
    refine ⟨_, le_max_left _ _, ?_, moved⟩
    rw [wordAt_fill _ (data_length long)]
    exact Int.ofNat_le.mpr (le_max_right _ _)

/-- Setting ends ready or, if it is not acknowledged, broken. -/
def Ends (σ : Talk) (handle : Handle) (ret : Int) (t' : Option Talk × W) : Prop :=
  t'.1 = some (σ.inPhase (.broken handle)) ∧ ret ≠ usbdSuccess ∨
    t'.1 = some (σ.inPhase (.ready handle))

theorem unanswered (cmd : UInt8) (sets : cmd ≠ cmdGetInten)
    (moved : t.1 = some (σ.inPhase (lost handle cmd))) :
    (pure usbdCommError : Program (Option Talk × W) Int).Ensures t (Ends σ handle) := by
  rw [lost, if_neg sets] at moved
  exact ensures_pure (.inl ⟨moved, by decide⟩)

theorem pollUntilDone_ends (buf : Memory) (here : t.1 = some (σ.inPhase (.moving handle))) :
    (pollUntilDone (env lib) handle buf).Ensures t (Ends σ handle) := by
  refine ensures_loop (fun _ t => t.1 = some (σ.inPhase (.moving handle))) ?_ _ here
  intro buf t here
  have other : cmdGetState ≠ cmdGetInten := by decide
  have cmd : ((buf.store 0 0x0).store 1 cmdGetState) 1 = cmdGetState := Memory.store_same ..
  have permits : (σ.inPhase (.moving handle)).Permits handle
      (((buf.store 0 0x0).store 1 cmdGetState).bytes 5) := ⟨rfl, rfl⟩
  apply ensures_bind
  refine (exchange_answered cmdGetState cmd here permits).mono ?_
  rintro ans t₁ (⟨rfl, moved⟩ | ⟨r, long, rfl, moved⟩)
  · rw [lost, if_neg other] at moved
    exact ensures_pure (.inl ⟨moved, by decide⟩)
  · rw [answered, if_neg (Int.not_lt.mpr long), if_neg other, if_neg (by decide),
      if_neg (by decide)] at moved
    have shown : ((buf.store 0 0x0).store 1 cmdGetState).fill (r.data 5) 1 =
        (r.data 5).getD 1 cmdGetState := congrArg ((r.data 5).getD 1) cmd
    apply ensures_ite
    · intro done
      rw [if_pos (shown.symm.trans done)] at moved
      exact ensures_pure (.inr moved)
    · intro more
      rw [if_neg fun none => more (shown.trans none)] at moved
      apply ensures_bind
      refine (watched_ensures sleeps (lib.sleep 100) moved).mono ?_
      exact fun _ t₂ slept => ensures_pure slept

theorem setInten_ends {inten : Int} (here : t.1 = some σ) (ready : σ.phase = .ready handle)
    (nonneg : 0 ≤ inten) (low : inten ≤ σ.cap) :
    (setInten (env lib) handle inten).Ensures t (Ends σ handle) := by
  apply ensures_uninit
  have permits (m : Memory) : σ.Permits handle ((((m.store 1 cmdSetInten).store 2
      (UInt8.ofInt inten)).store 3 (UInt8.ofInt (inten >>> (8 : Nat)))).bytes 5) := by
    rw [Permits, ready]
    refine ⟨rfl, rfl, ?_⟩
    have word := Device.low_high inten
    change (UInt8.ofInt inten).toNat + 256 * (UInt8.ofInt (inten >>> (8 : Nat))).toNat ≤ σ.cap
    omega
  apply ensures_bind
  refine (exchange_answered cmdSetInten (by simp) here (permits _)).mono ?_
  rintro ans t₁ (⟨rfl, moved⟩ | ⟨r, long, rfl, moved⟩)
  · exact unanswered cmdSetInten (by decide) moved
  · rw [answered, if_neg (Int.not_lt.mpr long), if_neg (by decide), if_pos rfl] at moved
    have goto (m : Memory) : (σ.inPhase (.told handle)).Permits handle
        (((m.store 1 cmdSetState).store 2 3).bytes 5) := ⟨rfl, rfl, rfl⟩
    apply ensures_bind
    refine (exchange_answered cmdSetState (by simp) moved (goto _)).mono ?_
    rintro ans t₂ (⟨rfl, moved⟩ | ⟨r, long, rfl, moved⟩)
    · exact unanswered cmdSetState (by decide) moved
    · rw [answered, if_neg (Int.not_lt.mpr long), if_neg (by decide), if_neg (by decide),
        if_pos rfl] at moved
      exact pollUntilDone_ends _ moved

end Exchanges

def phaseOf (p : AlnitakEmu) : Phase :=
  match p.dimmer.mHandle with
  | none => .closed
  | some handle => .ready handle

/-- Between the calls of main: nothing is under way, and what the panel would ask for is
permitted. -/
structure At (p : AlnitakEmu) (cap : Nat) (t : Option Talk × W) : Prop where
  phase : t.1 = some ⟨phaseOf p, cap⟩
  most : 1023 ≤ cap
  nonneg : 0 ≤ p.dimmer.mBrightness
  low : p.dimmer.mBrightness ≤ cap

section Main

variable {lib : Env W} {p p' : AlnitakEmu} {cap : Nat} {t t' : Option Talk × W}

theorem At.open_phase (h : At p cap t) {handle : Handle}
    (opens : p.dimmer.mHandle = some handle) : t.1 = some ⟨.ready handle, cap⟩ := by
  rw [h.phase, phaseOf, opens]

theorem At.closed_phase (h : At p cap t) (down : p.dimmer.mHandle = none) :
    t.1 = some ⟨.closed, cap⟩ := by
  rw [h.phase, phaseOf, down]

theorem At.time64 (h : At p cap t) {now : Int}
    (asks : ((env lib).time64).run t = some (now, t')) : At p cap t' := by
  refine ⟨(watched_ensures clock lib.time64 h.phase now t' asks).trans ?_, h.most, h.nonneg, h.low⟩
  unfold phaseOf
  cases p.dimmer.mHandle with
  | none => rfl
  | some handle => rfl

theorem At.connected (h : At p cap t) (down : p.dimmer.mHandle = none) {r : Bool × AlnitakEmu}
    (connects : AlnitakEmu.Connected (env lib) p t r t') : ∃ cap', At r.2 cap' t' := by
  have opened {found : Option Handle} {t₁ : Option Talk × W}
      (hopen : (env lib).hidOpen.run t = some (found, t₁)) :
      t₁.1 = opens ⟨.closed, cap⟩ found :=
    watched_ensures opens lib.hidOpen (h.closed_phase down) found t₁ hopen
  cases connects with
  | noDevice hopen => exact ⟨cap, opened hopen, h.most, h.nonneg, h.low⟩
  | noAnswer hopen hread _ =>
    obtain ⟨cap', more, _, ready⟩ := getInten_asks (opened hopen) rfl _ t' hread
    have more : cap ≤ cap' := more
    have low := h.low
    exact ⟨cap', ready, h.most.trans more, h.nonneg, by simp only; omega⟩
  | @read handle inten _ _ hopen hread good =>
    obtain ⟨cap', more, shown, ready⟩ := getInten_asks (opened hopen) rfl _ t' hread
    have more : cap ≤ cap' := more
    have most := h.most
    refine ⟨cap', ready, most.trans more, ?_, ?_⟩
    · simp only [AlnitakEmu.found, USBDimmer.opened, defaultBrightness]
      omega
    · simp only [AlnitakEmu.found, USBDimmer.opened, defaultBrightness]
      omega

/-- A handle may be closed when it is ready, and must be when it is broken. -/
theorem closed_at {phase : Phase} (here : t.1 = some ⟨phase, cap⟩) (most : 1023 ≤ cap)
    (nonneg : 0 ≤ p.dimmer.mBrightness) (low : p.dimmer.mBrightness ≤ cap)
    (held : phase = phaseOf p ∨ ∃ handle, p.dimmer.mHandle = some handle ∧ phase = .broken handle)
    (closed : AlnitakEmu.Closed (env lib) p t p' t') : At p' cap t' := by
  cases closed with
  | already none =>
    rcases held with rfl | ⟨handle, opens, _⟩
    · refine ⟨here.trans ?_, most, nonneg, low⟩
      rw [phaseOf, none]
      rfl
    · rw [none] at opens
      contradiction
  | @closes handle _ open' hclose =>
    refine ⟨(watched_ensures (closes handle) _ here _ t' hclose).trans ?_, most, nonneg, low⟩
    apply if_pos
    rcases held with rfl | ⟨other, opens, rfl⟩
    · exact .inl (by rw [phaseOf, open'])
    · obtain rfl := Option.some.inj (open'.symm.trans opens)
      exact .inr rfl

theorem run_brightness (env : Env W) (c : SetCall) (d : USBDimmer) (w : W) :
    (c.run env d).Ensures w (fun r _ => r.2.mBrightness = d.mBrightness ∨
      0 ≤ r.2.mBrightness ∧ r.2.mBrightness ≤ 1023) := by
  cases c with
  | setBrightness val =>
    have bounds := USBDimmer.clamp_bounds val
    simp only [SetCall.run, USBDimmer.setBrightness]
    split
    · exact ensures_pure (.inl rfl)
    · apply ensures_ite
      · exact fun _ => ensures_pure (.inl rfl)
      · intro _
        apply ensures_ite
        · exact fun _ => ensures_pure (.inr bounds)
        · intro _
          apply ensures_bind
          intro ret w' _
          apply ensures_ite
          · exact fun _ => ensures_pure (.inr bounds)
          · exact fun _ => ensures_pure (.inl rfl)
  | lightOn on =>
    simp only [SetCall.run, USBDimmer.lightOn]
    split
    · exact ensures_pure (.inl rfl)
    · apply ensures_ite
      · exact fun _ => ensures_pure (.inl rfl)
      · intro _
        apply ensures_bind
        intro ret w' _
        apply ensures_ite
        · exact fun _ => ensures_pure (.inl rfl)
        · exact fun _ => ensures_pure (.inl rfl)

theorem At.target (h : At p cap t) {c : SetCall} {inten : Int}
    (target : p.dimmer.target c = some inten) : 0 ≤ inten ∧ inten ≤ cap := by
  have most := h.most
  have nonneg := h.nonneg
  have low := h.low
  cases c with
  | setBrightness val =>
    have bounds := USBDimmer.clamp_bounds val
    simp only [USBDimmer.target] at target
    split at target
    · contradiction
    · obtain rfl := Option.some.inj target
      omega
  | lightOn on =>
    simp only [USBDimmer.target] at target
    split at target
    · contradiction
    · obtain rfl := Option.some.inj target
      split <;> omega

/-- A set operation that fails may leave the handle broken. -/
theorem At.set (h : At p cap t) {handle : Handle} (opens : p.dimmer.mHandle = some handle)
    (c : SetCall) : (c.run (env lib) p.dimmer).Ensures t (fun r t' =>
      r.2.mHandle = some handle ∧ 0 ≤ r.2.mBrightness ∧ r.2.mBrightness ≤ cap ∧
        (t'.1 = some ⟨.ready handle, cap⟩ ∨
          t'.1 = some ⟨.broken handle, cap⟩ ∧ r.1 ≠ usbdSuccess)) := by
  intro r t' hs
  have most := h.most
  have nonneg := h.nonneg
  have low := h.low
  have keeps := (SetCall.run_keeps (env lib) c p.dimmer t r t' hs).2
  have bounds := run_brightness (env lib) c p.dimmer t r t' hs
  refine ⟨keeps.trans opens, by omega, by omega, ?_⟩
  rcases c.run_exchanges (env lib) opens t r t' hs with ⟨_, rfl, _⟩ | ⟨inten, target, sets⟩
  · exact .inl (h.open_phase opens)
  · obtain ⟨above, below⟩ := h.target target
    rcases setInten_ends (h.open_phase opens) rfl above below r.1 t' sets with ⟨broken, failed⟩ | ready
    · exact .inr ⟨broken, failed⟩
    · exact .inl ready

theorem At.connectPanel {s : Emu} {r : Bool × Emu} (h : At s.panel cap t)
    (connects : (s.connectPanel (env lib)).run t = some (r, t')) :
    ∃ cap', At r.2.panel cap' t' := by
  have down (off : s.panel.isConnected = false) : s.panel.dimmer.mHandle = none := by
    simpa [AlnitakEmu.isConnected, USBDimmer.isConnected] using off
  cases Emu.connectPanel_cases (env lib) s t r t' connects with
  | already _ => exact ⟨cap, h⟩
  | failed off way => exact h.connected (down off) way
  | opened off way asks =>
    obtain ⟨cap', opened⟩ := h.connected (down off) way
    exact ⟨cap', opened.time64 asks⟩

theorem At.serve {s s' : Emu} {op : Option SetOp} {answer : Memory → AlnitakEmu → List UInt8}
    (h : At s.panel cap t) (serves : (s.serve (env lib) op answer).run t = some (s', t')) :
    ∃ cap', At s'.panel cap' t' := by
  have set {s₁ : Emu} {op : SetOp} {cap₁ : Nat} {t₁ t₂ : Option Talk × W} {r : Int × USBDimmer}
      (h : At s₁.panel cap₁ t₁) (up : ∃ handle, s₁.panel.dimmer.mHandle = some handle)
      (sets : (op.call.run (env lib) s₁.panel.dimmer).run t₁ = some (r, t₂)) :
      At (s₁.setBy op r).panel cap₁ t₂ ∨ r.1 ≠ usbdSuccess ∧ ∃ handle,
        (s₁.setBy op r).panel.dimmer.mHandle = some handle ∧
        t₂.1 = some ⟨.broken handle, cap₁⟩ ∧ 0 ≤ (s₁.setBy op r).panel.dimmer.mBrightness ∧
        (s₁.setBy op r).panel.dimmer.mBrightness ≤ cap₁ := by
    obtain ⟨handle, opens⟩ := up
    obtain ⟨same, nonneg, low, ready | ⟨broken, failed⟩⟩ := h.set opens op.call r t₂ sets
    · rw [← Emu.setBy_dimmer s₁ op r] at same nonneg low
      refine .inl ⟨?_, h.most, nonneg, low⟩
      rw [ready, phaseOf, same]
    · rw [← Emu.setBy_dimmer s₁ op r] at same nonneg low
      exact .inr ⟨failed, handle, same, broken, nonneg, low⟩
  cases Emu.serve_cases (env lib) op answer s t s' t' serves with
  | noPanel connects => exact h.connectPanel connects
  | @answered s₁ s₂ t₁ t₂ _ _ connects applies asks =>
    obtain ⟨cap₁, opened⟩ := h.connectPanel connects
    have up := Emu.connectPanel_handle connects
    have way := Emu.applyOp_cases (env lib) op s₁ t₁ _ t₂ applies
    generalize done : (true, s₂) = r at way
    cases way with
    | asked =>
      obtain ⟨_, rfl⟩ := Prod.mk.inj done
      exact ⟨cap₁, opened.time64 asks⟩
    | set sets =>
      obtain ⟨ok, rfl⟩ := Prod.mk.inj done
      rcases set opened up sets with ready | ⟨failed, _⟩
      · exact ⟨cap₁, ready.time64 asks⟩
      · exact absurd (of_decide_eq_true ok.symm) failed
  | @refused s₁ s₂ panel t₁ t₂ _ connects applies closes =>
    obtain ⟨cap₁, opened⟩ := h.connectPanel connects
    have up := Emu.connectPanel_handle connects
    have way := Emu.applyOp_cases (env lib) op s₁ t₁ _ t₂ applies
    generalize undone : (false, s₂) = r at way
    cases way with
    | asked => cases undone
    | set sets =>
      obtain ⟨_, rfl⟩ := Prod.mk.inj undone
      rcases set opened up sets with ready | ⟨_, handle, opens, broken, nonneg, low⟩
      · exact ⟨cap₁, closed_at ready.phase ready.most ready.nonneg ready.low (.inl rfl) closes⟩
      · exact ⟨cap₁, closed_at broken opened.most nonneg low (.inr ⟨handle, opens, rfl⟩) closes⟩

/-- The state of main after a step, with what it knows of the panel. -/
structure Speaks (s : Emu) (t : Option Talk × W) : Prop where
  awake : s.Awake
  at_rest : ∃ cap, At s.panel cap t
  left : s.exited ≠ none → s.panel.isConnected = false

theorem step_speaks {s s' : Emu} {r : SerialRead} (h : Speaks s t)
    (hs : (s.step (env lib) r).run t = some (s', t')) : Speaks s' t' := by
  obtain ⟨cap, here⟩ := h.at_rest
  refine ⟨Emu.step_awake (env lib) h.awake r t s' t' hs, ?_,
    Emu.step_left h.awake h.left hs⟩
  have close {u : Option Talk × W} {q : AlnitakEmu} (here : At s.panel cap u)
      (closes : AlnitakEmu.Closed (env lib) s.panel u q t') : ∃ cap, At q cap t' :=
    ⟨cap, closed_at here.phase here.most here.nonneg here.low (.inl rfl) closes⟩
  cases Emu.step_cases (env lib) h.awake r t s' t' hs with
  | ended _ | unconnected _ _ | inLine _ _ => exact ⟨cap, here⟩
  | waited _ _ asks _ => exact ⟨cap, here.time64 asks⟩
  | expired _ _ asks _ closes => exact close (here.time64 asks) closes
  | portFailed _ closes => exact close here closes
  | @served b _ _ _ _ _ _ serves =>
    have panel := (Emu.handed_frame s b).1
    rw [← panel] at here
    obtain ⟨cap', served⟩ := here.serve serves
    exact ⟨cap', served⟩
  | @skipped b _ _ _ _ =>
    have panel : (s.handed b).nextLine.panel = s.panel := (Emu.handed_frame s b).1
    exact ⟨cap, panel ▸ here⟩
  | @quits b _ _ _ _ _ closes =>
    have panel : ({ s.handed b with quit := true }.gone 0 : Emu).panel = s.panel.closed :=
      congrArg AlnitakEmu.closed (Emu.handed_frame s b).1
    rw [panel]
    exact close here closes

end Main

/-- The watch changes nothing; and against any library and device, for any reads and whatever
fails, every call that main makes is permitted, it is between them where main knows it to be, and
a main that has returned has closed what it opened. -/
theorem main_speaks (lib : Env W) (buf : Memory) (rs : List SerialRead) (w : W) :
    Follows Prod.snd (Emu.main (env lib) buf rs) (Emu.main lib buf rs) ∧
      Runs.Always (Emu.step (env lib)) (fun s t => ∃ cap, t.1 = some ⟨phaseOf s.panel, cap⟩ ∧
        (s.exited ≠ none → phaseOf s.panel = .closed)) (Emu.start buf) (some start, w) rs := by
  refine ⟨(records lib).main buf rs, ?_⟩
  have here : At AlnitakEmu.init 1023 (some start, w) := ⟨rfl, le_rfl, le_rfl, by decide⟩
  have begins : Speaks (Emu.start buf) (some start, w) :=
    ⟨Emu.start_awake buf, ⟨1023, here⟩, fun gone => absurd rfl gone⟩
  refine (Runs.always_of_keeps (I := Speaks) ?_ rs begins).mono ?_
  · exact fun s t r h s' t' hs => step_speaks h hs
  · intro s t h
    obtain ⟨cap, here⟩ := h.at_rest
    refine ⟨cap, here.phase, fun gone => ?_⟩
    have down : s.panel.dimmer.mHandle = none := by
      simpa [AlnitakEmu.isConnected, USBDimmer.isConnected] using h.left gone
    rw [phaseOf, down]

end Talk
end FlatPanel
