import FlatPanel.Emu
import FlatPanel.Exchanges

/-! What one step of main can do, said once: the panel and the device change only in a
connect, in a set operation and in a disconnect. Every property of main's runs is proved
from these lemmas. -/
namespace FlatPanel

open Program

variable {W : Type}

theorem usbdVal_byte (v : UInt8) : sMap.usbdVal v.toNat = IntenMap.level v.toNat := by
  have := v.toNat_lt
  rw [IntenMap.usbdVal_eq, Nat.min_eq_left (by omega)]

theorem clamp_byte (v : UInt8) : USBDimmer.clamp (sMap.usbdVal v.toNat) = IntenMap.level v.toNat := by
  have := v.toNat_lt
  have := IntenMap.level_byte v.toNat (by omega)
  rw [usbdVal_byte, USBDimmer.clamp]
  omega

theorem level_byte_eq_zero {v : UInt8} : (IntenMap.level v.toNat : Int) = 0 ↔ v = 0 := by
  rw [Int.natCast_eq_zero, IntenMap.level_eq_zero, ← UInt8.toNat_inj]
  rfl

def SetOp.call : SetOp → SetCall
  | .light on => .lightOn on
  | .brightness val => .setBrightness (sMap.usbdVal val.toNat)

namespace AlnitakEmu

def found (p : AlnitakEmu) (handle : Handle) (inten : Int) : AlnitakEmu :=
  { p with
    dimmer := .opened handle inten
    light := decide (inten > 0)
    blvl := sMap.alnitakVal (USBDimmer.asUnsigned (USBDimmer.opened handle inten).mBrightness).toNat }

/-- The panel's own fields after a set operation that succeeded. -/
def acknowledged (p : AlnitakEmu) (op : SetOp) (d : USBDimmer) : AlnitakEmu :=
  match op with
  | .light on => { p with dimmer := d, light := on }
  | .brightness val => { p with dimmer := d, blvl := val }

@[simp] theorem acknowledged_dimmer (p : AlnitakEmu) (op : SetOp) (d : USBDimmer) :
    (p.acknowledged op d).dimmer = d := by
  cases op <;> rfl

/-- Every way out of `Connect`. -/
inductive Connected (env : Env W) (p : AlnitakEmu) (w : W) : Bool × AlnitakEmu → W → Prop where
  | noDevice {w' : W} : env.hidOpen.run w = some (none, w') →
      Connected env p w (false, { p with dimmer := { p.dimmer with mHandle := none } }) w'
  | noAnswer {handle : Handle} {inten : Int} {w₁ w' : W} :
      env.hidOpen.run w = some (some handle, w₁) →
      (getInten env handle).run w₁ = some (inten, w') → inten < 0 →
      Connected env p w (false, { p with dimmer := { p.dimmer with mHandle := some handle } }) w'
  | read {handle : Handle} {inten : Int} {w₁ w' : W} :
      env.hidOpen.run w = some (some handle, w₁) →
      (getInten env handle).run w₁ = some (inten, w') → 0 ≤ inten →
      Connected env p w (true, p.found handle inten) w'

theorem found_light (handle : Handle) (inten : Int) :
    decide ((USBDimmer.opened handle inten).isLightOn = 1) = decide (inten > 0) := by
  by_cases positive : inten > 0
  · simp [USBDimmer.opened, USBDimmer.isLightOn, positive]
  · simp [USBDimmer.opened, USBDimmer.isLightOn, positive]

theorem connect_cases (env : Env W) (p : AlnitakEmu) (w : W) :
    (p.connect env).Ensures w (Connected env p w) := by
  apply ensures_bind
  refine (USBDimmer.connect_cases env p.dimmer w).mono ?_
  intro r w' way
  cases way with
  | noDevice hopen => exact ensures_pure (.noDevice hopen)
  | noAnswer hopen hread bad => exact ensures_pure (.noAnswer hopen hread bad)
  | @read handle inten w₁ _ hopen hread good =>
    have out := Connected.read (p := p) hopen hread good
    rw [found, ← found_light handle inten] at out
    exact ensures_pure out

def closed (p : AlnitakEmu) : AlnitakEmu := { p with dimmer := { p.dimmer with mHandle := none } }

inductive Closed (env : Env W) (p : AlnitakEmu) (w : W) : AlnitakEmu → W → Prop where
  | already : p.dimmer.mHandle = none → Closed env p w p.closed w
  | closes {handle : Handle} {w' : W} : p.dimmer.mHandle = some handle →
      (env.hidClose handle).run w = some ((), w') → Closed env p w p.closed w'

theorem disconnect_cases (env : Env W) (p : AlnitakEmu) (w : W) :
    (p.disconnect env).Ensures w (Closed env p w) := by
  unfold disconnect USBDimmer.disconnect
  cases opens : p.dimmer.mHandle with
  | none =>
    have out : Closed env p w p.closed w := .already opens
    rw [closed, ← opens] at out
    exact ensures_pure out
  | some handle =>
    apply ensures_bind
    apply ensures_bind
    intro _ w' closes
    exact ensures_pure (ensures_pure (.closes opens closes))

theorem Closed.panel {env : Env W} {p p' : AlnitakEmu} {w w' : W} (h : Closed env p w p' w') :
    p' = p.closed := by
  cases h <;> rfl

theorem Closed.closing {env : Env W} {p p' : AlnitakEmu} {w w' : W} {handle : Handle}
    (h : Closed env p w p' w') (opens : p.dimmer.mHandle = some handle) :
    (env.hidClose handle).run w = some ((), w') := by
  cases h with
  | already shut =>
    rw [opens] at shut
    contradiction
  | closes opens' closes =>
    obtain rfl := Option.some.inj (opens.symm.trans opens')
    exact closes

/-- The second disconnect of the destruction finds nothing to do. -/
theorem destroy_cases (env : Env W) (p : AlnitakEmu) (w : W) :
    (p.destroy env).Ensures w (Closed env p w) := by
  apply ensures_bind
  refine (disconnect_cases env p w).mono ?_
  intro p₁ w₁ first
  refine (disconnect_cases env p₁ w₁).mono ?_
  intro p₂ w₂ second
  obtain rfl := first.panel
  cases second with
  | already _ => exact first
  | closes opens _ => exact absurd opens (by simp [closed])

end AlnitakEmu

def Letter.byte : Letter → UInt8
  | .S => ascii 'S'
  | .L => ascii 'L'
  | .D => ascii 'D'
  | .B => ascii 'B'
  | .J => ascii 'J'
  | .V => ascii 'V'
  | .u => ascii 'u'
  | .other => 0

theorem Letter.byte_of_ofByte {b : UInt8} {l : Letter} (known : l ≠ .other)
    (h : Letter.ofByte b = l) : b = l.byte := by
  subst h
  unfold Letter.ofByte at *
  repeat' split
  all_goals first | assumption | simp_all

namespace Emu

/-- What the switch asks of the panel: nothing, or an operation that may be empty. -/
def asked (buf : Memory) : Option (Option SetOp) :=
  match Letter.ofByte (buf 1) with
  | .S | .J | .V => some none
  | .L => some (some (.light true))
  | .D => some (some (.light false))
  | .B => (CString.scanUnsigned (numberText buf)).map fun b => some (.brightness b.toUInt8)
  | .u | .other => none

def reply (buf : Memory) : Memory → AlnitakEmu → List UInt8 :=
  match Letter.ofByte (buf 1) with
  | .S => stateReply
  | .L => plainReply 'L'
  | .D => plainReply 'D'
  | .B => echoReply (buf.offset 2)
  | .J => levelReply
  | _ => versionReply

def ignored (s : Emu) : Emu :=
  if Letter.ofByte (s.buf 1) = .u ∧ s.buf.cstring 0 bufSize = quitText then
    { s with quit := true }
  else s

theorem dispatch_asked (env : Env W) {s : Emu} {op : Option SetOp}
    (asks : asked s.buf = some op) : s.dispatch env = s.serve env op (reply s.buf) := by
  unfold asked at asks
  unfold dispatch reply
  cases letter : Letter.ofByte (s.buf 1) with
  | B =>
    rw [letter] at asks
    obtain ⟨b, number, rfl⟩ := Option.map_eq_some_iff.mp asks
    simp only [number]
  | u | other => rw [letter] at asks; contradiction
  | S | L | D | J | V =>
    rw [letter] at asks
    obtain rfl := Option.some.inj asks
    rfl

theorem dispatch_unasked (env : Env W) {s : Emu} (asks : asked s.buf = none) :
    s.dispatch env = pure s.ignored := by
  unfold asked at asks
  unfold dispatch ignored
  cases letter : Letter.ofByte (s.buf 1) with
  | B =>
    rw [letter] at asks
    have number := Option.map_eq_none_iff.mp asks
    simp [number]
  | u => simp
  | other => simp
  | S | L | D | J | V => rw [letter] at asks; contradiction

def refreshed (s : Emu) (now : Int) : Emu :=
  { s with disconnectTime := now + idleTimeout }.note (.update now)

def withPanel (s : Emu) (panel : AlnitakEmu) (a : Act) : Emu := { s with panel := panel }.note a

/-- Main's locals, which no panel request touches. -/
def locals (s : Emu) : Memory × Nat × Nat × Bool × Option Int :=
  (s.buf, s.p, s.rem, s.quit, s.exited)

@[simp] theorem refreshed_log (s : Emu) (now : Int) :
    (s.refreshed now).log = .update now :: s.log := rfl
@[simp] theorem withPanel_panel (s : Emu) (p : AlnitakEmu) (a : Act) :
    (s.withPanel p a).panel = p := rfl
@[simp] theorem withPanel_log (s : Emu) (p : AlnitakEmu) (a : Act) :
    (s.withPanel p a).log = a :: s.log := rfl

def setBy (s : Emu) (op : SetOp) (r : Int × USBDimmer) : Emu :=
  if r.1 = usbdSuccess then
    s.withPanel (s.panel.acknowledged op r.2) (.set op true)
  else
    s.withPanel { s.panel with dimmer := r.2 } (.set op false)

theorem applyOp_some (env : Env W) (op : SetOp) (s : Emu) :
    s.applyOp env (some op) = op.call.run env s.panel.dimmer >>= fun r =>
      pure (decide (r.1 = usbdSuccess), s.setBy op r) := by
  cases op with
  | light on =>
    simp only [applyOp, AlnitakEmu.setLightOn, SetOp.call, SetCall.run, bind_assoc]
    congr 1
    funext r
    by_cases ok : r.1 = usbdSuccess
    · simp [ok, setBy, withPanel, AlnitakEmu.acknowledged]
    · simp [ok, setBy, withPanel]
  | brightness val =>
    simp only [applyOp, AlnitakEmu.setBrightness, SetOp.call, SetCall.run, bind_assoc]
    congr 1
    funext r
    by_cases ok : r.1 = usbdSuccess
    · simp [ok, setBy, withPanel, AlnitakEmu.acknowledged]
    · simp [ok, setBy, withPanel]

theorem setBy_locals (s : Emu) (op : SetOp) (r : Int × USBDimmer) :
    (s.setBy op r).locals = s.locals := by
  unfold setBy
  split <;> rfl

theorem setBy_log (s : Emu) (op : SetOp) (r : Int × USBDimmer) :
    (s.setBy op r).log = .set op (decide (r.1 = usbdSuccess)) :: s.log := by
  unfold setBy
  split <;> simp [*]

theorem setBy_dimmer (s : Emu) (op : SetOp) (r : Int × USBDimmer) :
    (s.setBy op r).panel.dimmer = r.2 := by
  unfold setBy
  split <;> simp

inductive Applied (env : Env W) (s : Emu) (w : W) : Option SetOp → Bool × Emu → W → Prop where
  | asked : Applied env s w none (true, s) w
  | set {op : SetOp} {r : Int × USBDimmer} {w' : W} :
      (op.call.run env s.panel.dimmer).run w = some (r, w') →
      Applied env s w (some op) (decide (r.1 = usbdSuccess), s.setBy op r) w'

theorem applyOp_cases (env : Env W) (op : Option SetOp) (s : Emu) (w : W) :
    (s.applyOp env op).Ensures w (Applied env s w op) := by
  cases op with
  | none => exact ensures_pure .asked
  | some op =>
    rw [applyOp_some]
    apply ensures_bind
    exact fun r w' hs => ensures_pure (.set hs)

inductive PanelConnected (env : Env W) (s : Emu) (w : W) : Bool × Emu → W → Prop where
  | already : s.panel.isConnected = true → PanelConnected env s w (true, s) w
  | failed {panel : AlnitakEmu} {w' : W} : s.panel.isConnected = false →
      AlnitakEmu.Connected env s.panel w (false, panel) w' →
      PanelConnected env s w (false, s.withPanel panel (.connect panel false)) w'
  | opened {panel : AlnitakEmu} {now : Int} {w₁ w' : W} : s.panel.isConnected = false →
      AlnitakEmu.Connected env s.panel w (true, panel) w₁ →
      env.time64.run w₁ = some (now, w') →
      PanelConnected env s w (true, (s.withPanel panel (.connect panel true)).refreshed now) w'

theorem connectPanel_cases (env : Env W) (s : Emu) (w : W) :
    (s.connectPanel env).Ensures w (PanelConnected env s w) := by
  apply ensures_ite
  · exact fun up => ensures_pure (.already up)
  · intro down
    have down : s.panel.isConnected = false := by simpa using down
    apply ensures_bind
    refine (AlnitakEmu.connect_cases env s.panel w).mono ?_
    rintro ⟨ok, panel⟩ w₁ way
    cases ok with
    | false => exact ensures_pure (.failed down way)
    | true =>
      apply ensures_bind
      apply ensures_bind
      intro now w₂ clock
      exact ensures_pure (ensures_pure (.opened down way clock))

theorem connectPanel_true {env : Env W} {s t : Emu} {w w' : W}
    (h : (s.connectPanel env).run w = some ((true, t), w')) :
    s.panel.isConnected = true ∧ t = s ∨
    s.panel.isConnected = false ∧ ∃ handle inten w₁ w₂ now,
      env.hidOpen.run w = some (some handle, w₁) ∧
      (getInten env handle).run w₁ = some (inten, w₂) ∧ 0 ≤ inten ∧
      t = (s.withPanel (s.panel.found handle inten)
        (.connect (s.panel.found handle inten) true)).refreshed now := by
  have way := connectPanel_cases env s w _ w' h
  generalize hr : (true, t) = r at way
  cases way with
  | already up => exact .inl ⟨up, congrArg Prod.snd hr⟩
  | failed _ _ => exact absurd (congrArg Prod.fst hr).symm Bool.false_ne_true
  | opened down way _ =>
    cases way with
    | read hopen hread nonneg =>
      exact .inr ⟨down, _, _, _, _, _, hopen, hread, nonneg, congrArg Prod.snd hr⟩

theorem connectPanel_handle {env : Env W} {s s₁ : Emu} {w w₁ : W}
    (h : (s.connectPanel env).run w = some ((true, s₁), w₁)) :
    ∃ handle, s₁.panel.dimmer.mHandle = some handle := by
  rcases connectPanel_true h with ⟨up, rfl⟩ | ⟨_, handle, _, _, _, _, _, _, _, rfl⟩
  · exact Option.isSome_iff_exists.mp up
  · exact ⟨handle, rfl⟩

theorem connectPanel_false {env : Env W} {s t : Emu} {w w' : W}
    (h : (s.connectPanel env).run w = some ((false, t), w')) :
    s.panel.isConnected = false ∧ ∃ panel, t = s.withPanel panel (.connect panel false) ∧
      (env.hidOpen.run w = some (none, w') ∧ panel = s.panel.closed ∨
      ∃ handle inten w₁, env.hidOpen.run w = some (some handle, w₁) ∧
        (getInten env handle).run w₁ = some (inten, w') ∧ inten < 0 ∧
        panel = { s.panel with dimmer := { s.panel.dimmer with mHandle := some handle } }) := by
  have way := connectPanel_cases env s w _ w' h
  generalize hr : (false, t) = r at way
  cases way with
  | already _ => exact absurd (congrArg Prod.fst hr) Bool.false_ne_true
  | opened _ _ _ => exact absurd (congrArg Prod.fst hr) Bool.false_ne_true
  | failed down way =>
    refine ⟨down, _, congrArg Prod.snd hr, ?_⟩
    cases way with
    | noDevice hopen => exact .inl ⟨hopen, rfl⟩
    | noAnswer hopen hread bad => exact .inr ⟨_, _, _, hopen, hread, bad, rfl⟩

inductive Served (env : Env W) (op : Option SetOp) (answer : Memory → AlnitakEmu → List UInt8)
    (s : Emu) (w : W) : Emu → W → Prop where
  | noPanel {s₁ : Emu} {w₁ : W} : (s.connectPanel env).run w = some ((false, s₁), w₁) →
      Served env op answer s w s₁ w₁
  | answered {s₁ s₂ : Emu} {w₁ w₂ w' : W} {now : Int} :
      (s.connectPanel env).run w = some ((true, s₁), w₁) →
      (s₁.applyOp env op).run w₁ = some ((true, s₂), w₂) →
      env.time64.run w₂ = some (now, w') →
      Served env op answer s w
        ((s₂.refreshed now).respond (answer (env.uninit w₂) s₂.panel)) w'
  | refused {s₁ s₂ : Emu} {panel : AlnitakEmu} {w₁ w₂ w' : W} :
      (s.connectPanel env).run w = some ((true, s₁), w₁) →
      (s₁.applyOp env op).run w₁ = some ((false, s₂), w₂) →
      AlnitakEmu.Closed env s₂.panel w₂ panel w' →
      Served env op answer s w (s₂.withPanel panel .disconnect) w'

theorem serve_cases (env : Env W) (op : Option SetOp)
    (answer : Memory → AlnitakEmu → List UInt8) (s : Emu) (w : W) :
    (s.serve env op answer).Ensures w (Served env op answer s w) := by
  apply ensures_bind
  rintro ⟨ok, s₁⟩ w₁ connects
  cases ok with
  | false => exact ensures_pure (.noPanel connects)
  | true =>
    apply ensures_bind
    rintro ⟨done, s₂⟩ w₂ applies
    cases done with
    | false =>
      apply ensures_bind
      refine (AlnitakEmu.disconnect_cases env s₂.panel w₂).mono ?_
      exact fun panel w' closes => ensures_pure (.refused connects applies closes)
    | true =>
      apply ensures_uninit
      apply ensures_bind
      apply ensures_bind
      intro now w' clock
      exact ensures_pure (ensures_pure (.answered connects applies clock))

/-- The state after a byte that stays in the inner loop. -/
def stored (s : Emu) (b : UInt8) : Emu :=
  { s with buf := s.buf.store s.p b, p := s.p + 1, rem := s.rem - 1 }

def lineRead (s : Emu) (b : UInt8) : Emu :=
  if b = ascii '\n' then { s with buf := (s.buf.store s.p b).store s.p 0 } else s.stored b

def handed (s : Emu) (b : UInt8) : Emu :=
  (s.lineRead b).note (.request ((s.lineRead b).buf.bytes (s.lineRead b).p))

def nextLine (s : Emu) : Emu := { s with p := 0, rem := bufSize - 1 }

def gone (s : Emu) (code : Int) : Emu := { s with panel := s.panel.closed, exited := some code }

theorem ignored_log (s : Emu) : s.ignored.log = s.log := by
  unfold ignored
  split
  · rfl
  · rfl

theorem nextLine_log (s : Emu) : s.nextLine.log = s.log := rfl

theorem gone_log (s : Emu) (code : Int) : (s.gone code).log = s.log := rfl

theorem leave_cases (env : Env W) (code : Int) (s : Emu) (w : W) :
    (s.leave env code).Ensures w (fun s' w' =>
      s' = s.gone code ∧ AlnitakEmu.Closed env s.panel w s.panel.closed w') := by
  apply ensures_bind
  refine (AlnitakEmu.destroy_cases env s.panel w).mono ?_
  intro panel w' closes
  obtain rfl := closes.panel
  exact ensures_pure ⟨rfl, closes⟩

/-- Main goes round the outer loop only while `quit` is false. -/
def Awake (s : Emu) : Prop := s.exited = none → s.quit = false

/-- The switch is reached by this byte. -/
def EndsLine (s : Emu) (b : UInt8) : Prop := b = ascii '\n' ∨ s.rem ≤ 1

/-- Every way one `Read` can go. -/
inductive Stepped (env : Env W) (s : Emu) (w : W) : SerialRead → Emu → W → Prop where
  | ended {r : SerialRead} : s.exited ≠ none → Stepped env s w r s w
  | unconnected : s.exited = none → s.panel.isConnected = false → Stepped env s w .timedOut s w
  | waited {now : Int} {w' : W} : s.exited = none → s.panel.isConnected = true →
      env.time64.run w = some (now, w') → now ≤ s.disconnectTime →
      Stepped env s w .timedOut s w'
  | expired {now : Int} {w₁ w' : W} {panel : AlnitakEmu} : s.exited = none →
      s.panel.isConnected = true → env.time64.run w = some (now, w₁) →
      s.disconnectTime < now → AlnitakEmu.Closed env s.panel w₁ panel w' →
      Stepped env s w .timedOut ((s.note (.idle now)).withPanel panel .disconnect) w'
  | portFailed {w' : W} : s.exited = none →
      AlnitakEmu.Closed env s.panel w s.panel.closed w' → Stepped env s w .failed (s.gone 1) w'
  | inLine {b : UInt8} : s.exited = none → ¬ s.EndsLine b →
      Stepped env s w (.byte b) (s.stored b) w
  | served {b : UInt8} {op : Option SetOp} {s₁ : Emu} {w' : W} : s.exited = none →
      s.EndsLine b → asked (s.handed b).buf = some op →
      ((s.handed b).serve env op (reply (s.handed b).buf)).run w = some (s₁, w') →
      Stepped env s w (.byte b) s₁.nextLine w'
  | skipped {b : UInt8} : s.exited = none → s.EndsLine b → asked (s.handed b).buf = none →
      (s.handed b).buf.cstring 0 bufSize ≠ quitText ∨ (s.handed b).buf 1 ≠ ascii 'u' →
      Stepped env s w (.byte b) (s.handed b).nextLine w
  | quits {b : UInt8} {w' : W} : s.exited = none → s.EndsLine b →
      asked (s.handed b).buf = none → (s.handed b).buf.cstring 0 bufSize = quitText →
      AlnitakEmu.Closed env s.panel w s.panel.closed w' →
      Stepped env s w (.byte b) ({ s.handed b with quit := true }.gone 0) w'

theorem step_stored (env : Env W) {s : Emu} {b : UInt8} (running : s.exited = none)
    (more : ¬ s.EndsLine b) : s.step env (.byte b) = pure (s.stored b) := by
  obtain ⟨plain, room⟩ := not_or.mp more
  have on : ¬ s.exited.isSome = true := by simp [running]
  rw [step, if_neg on]
  simp only [readByte]
  rw [if_neg plain]
  exact if_pos (by omega)

theorem step_lineRead (env : Env W) {s : Emu} {b : UInt8} (running : s.exited = none)
    (ends : s.EndsLine b) : s.step env (.byte b) = (s.lineRead b).endOfLine env := by
  have on : ¬ s.exited.isSome = true := by simp [running]
  rw [step, if_neg on]
  simp only [readByte, lineRead]
  by_cases newline : b = ascii '\n'
  · rw [if_pos newline, if_pos newline]
  · have full : ¬ s.rem - 1 > 0 := by
      have := ends.resolve_left newline
      omega
    rw [if_neg newline, if_neg newline]
    exact if_neg full

theorem lineRead_frame (s : Emu) (b : UInt8) : (s.lineRead b).panel = s.panel ∧
    (s.lineRead b).quit = s.quit ∧ (s.lineRead b).exited = s.exited ∧
    (s.lineRead b).log = s.log := by
  unfold lineRead
  split <;> exact ⟨rfl, rfl, rfl, rfl⟩

theorem handed_frame (s : Emu) (b : UInt8) : (s.handed b).panel = s.panel ∧
    (s.handed b).quit = s.quit ∧ (s.handed b).exited = s.exited := by
  obtain ⟨panel, quit, exited, _⟩ := lineRead_frame s b
  exact ⟨panel, quit, exited⟩

theorem handed_log (s : Emu) (b : UInt8) :
    ∃ line, (s.handed b).log = .request line :: s.log := by
  refine ⟨(s.lineRead b).buf.bytes (s.lineRead b).p, ?_⟩
  rw [← (lineRead_frame s b).2.2.2]
  rfl

/-- The record of what a request does before it is answered or given up. -/
def inner : Act → Bool
  | .connect _ _ | .update _ | .set _ _ => true
  | .request _ | .respond _ | .idle _ | .disconnect => false

theorem connectPanel_log {env : Env W} {s : Emu} {w w' : W} {r : Bool × Emu}
    (h : (s.connectPanel env).run w = some (r, w')) :
    ∃ acts, r.2.log = acts ++ s.log ∧ ∀ a ∈ acts, inner a = true := by
  cases connectPanel_cases env s w r w' h with
  | already _ => exact ⟨[], rfl, by simp⟩
  | failed _ _ => exact ⟨[.connect _ false], rfl, by simp [inner]⟩
  | opened _ _ _ => exact ⟨[.update _, .connect _ true], rfl, by simp [inner]⟩

theorem request_log {env : Env W} {s s₁ s₂ : Emu} {w w₁ w₂ : W} {op : Option SetOp}
    {ok done : Bool} (connects : (s.connectPanel env).run w = some ((ok, s₁), w₁))
    (applies : (s₁.applyOp env op).run w₁ = some ((done, s₂), w₂)) :
    ∃ acts, s₂.log = acts ++ s.log ∧ ∀ a ∈ acts, inner a = true := by
  obtain ⟨acts, log, all⟩ := connectPanel_log connects
  have way := applyOp_cases env op s₁ w₁ _ w₂ applies
  generalize hr : (done, s₂) = r at way
  cases way with
  | asked =>
    obtain ⟨_, rfl⟩ := Prod.mk.inj hr
    exact ⟨acts, log, all⟩
  | @set op r _ _ =>
    obtain ⟨_, rfl⟩ := Prod.mk.inj hr
    refine ⟨.set op (decide (r.1 = usbdSuccess)) :: acts, ?_, by simpa [inner] using all⟩
    rw [setBy_log, List.cons_append, ← log]

/-- The record of all that the body of a request does. -/
def served : Act → Bool
  | .request _ | .idle _ => false
  | _ => true

theorem served_of_inner {a : Act} (inside : inner a = true) : served a = true := by
  cases a <;> first | rfl | contradiction

theorem serve_log {env : Env W} {s s' : Emu} {w w' : W} {op : Option SetOp}
    {answer : Memory → AlnitakEmu → List UInt8}
    (h : (s.serve env op answer).run w = some (s', w')) :
    ∃ acts, s'.log = acts ++ s.log ∧ ∀ a ∈ acts, served a = true := by
  cases serve_cases env op answer s w s' w' h with
  | noPanel connects =>
    obtain ⟨acts, log, all⟩ := connectPanel_log connects
    exact ⟨acts, log, fun a mem => served_of_inner (all a mem)⟩
  | @answered s₁ s₂ _ w₂ _ now connects applies _ =>
    obtain ⟨acts, log, all⟩ := request_log connects applies
    refine ⟨.respond (answer (env.uninit w₂) s₂.panel) :: .update now :: acts, ?_, ?_⟩
    · rw [List.cons_append, List.cons_append, ← log]
      rfl
    · simpa [served] using fun a mem => served_of_inner (all a mem)
  | refused connects applies _ =>
    obtain ⟨acts, log, all⟩ := request_log connects applies
    refine ⟨.disconnect :: acts, ?_, ?_⟩
    · rw [List.cons_append, ← log]
      rfl
    · simpa [served] using fun a mem => served_of_inner (all a mem)

/-- What is kept of the record does not see what is added to it, if it skips each addition. -/
theorem recorded_of_log {β : Type} {f : Act → Option β} {part : Act → Bool}
    (skips : ∀ a, part a = true → f a = none) {s s' : Emu}
    (h : ∃ acts, s'.log = acts ++ s.log ∧ ∀ a ∈ acts, part a = true) :
    s'.log.filterMap f = s.log.filterMap f := by
  obtain ⟨acts, log, all⟩ := h
  have none : acts.filterMap f = [] := by
    rw [List.filterMap_eq_nil_iff]
    exact fun a mem => skips a (all a mem)
  rw [log, List.filterMap_append, none, List.nil_append]

theorem counted_of_log {count part : Act → Bool} (skips : ∀ a, part a = true → ¬ count a = true)
    {s s' : Emu} (h : ∃ acts, s'.log = acts ++ s.log ∧ ∀ a ∈ acts, part a = true) :
    s'.log.countP count = s.log.countP count := by
  obtain ⟨acts, log, all⟩ := h
  have none : acts.countP count = 0 := by
    rw [List.countP_eq_zero]
    exact fun a mem => skips a (all a mem)
  rw [log, List.countP_append, none, Nat.zero_add]

theorem connectPanel_locals {env : Env W} {s : Emu} {w w' : W} {r : Bool × Emu}
    (h : PanelConnected env s w r w') : r.2.locals = s.locals := by
  cases h <;> rfl

theorem applyOp_locals {env : Env W} {s : Emu} {w w' : W} {op : Option SetOp}
    {r : Bool × Emu} (h : Applied env s w op r w') : r.2.locals = s.locals := by
  cases h with
  | asked => rfl
  | set _ => exact setBy_locals ..

theorem serve_locals {env : Env W} {s s' : Emu} {w w' : W} {op : Option SetOp}
    {answer : Memory → AlnitakEmu → List UInt8}
    (h : (s.serve env op answer).run w = some (s', w')) : s'.locals = s.locals := by
  cases serve_cases env op answer s w s' w' h with
  | noPanel connects => exact connectPanel_locals (connectPanel_cases env s w _ _ connects)
  | answered connects applies _ =>
    exact (applyOp_locals (applyOp_cases env op _ _ _ _ applies)).trans
      (connectPanel_locals (connectPanel_cases env s w _ _ connects))
  | refused connects applies _ =>
    exact (applyOp_locals (applyOp_cases env op _ _ _ _ applies)).trans
      (connectPanel_locals (connectPanel_cases env s w _ _ connects))

theorem serve_frame {env : Env W} {s s' : Emu} {w w' : W} {op : Option SetOp}
    {answer : Memory → AlnitakEmu → List UInt8}
    (h : (s.serve env op answer).run w = some (s', w')) :
    s'.buf = s.buf ∧ s'.quit = s.quit ∧ s'.exited = s.exited := by
  have same := serve_locals h
  simp only [locals, Prod.mk.injEq] at same
  exact ⟨same.1, same.2.2.2.1, same.2.2.2.2⟩

theorem endOfLine_cases (env : Env W) {s : Emu} {b : UInt8} (w : W) (running : s.exited = none)
    (awake : s.quit = false) (ends : s.EndsLine b) :
    ((s.lineRead b).endOfLine env).Ensures w (Stepped env s w (.byte b)) := by
  have frame := handed_frame s b
  unfold endOfLine
  change ((s.handed b).dispatch env >>= _ : Program W Emu).Ensures w _
  apply ensures_bind
  cases asks : asked (s.handed b).buf with
  | some op =>
    rw [dispatch_asked env asks]
    intro s₁ w' serves
    have more : s₁.quit = false := by rw [(serve_frame serves).2.1, frame.2.1, awake]
    apply ensures_ite
    · exact fun quit => absurd (more.symm.trans quit) Bool.false_ne_true
    · exact fun _ => ensures_pure (.served running ends asks serves)
  | none =>
    rw [dispatch_unasked env asks]
    apply ensures_pure
    by_cases quits : Letter.ofByte ((s.handed b).buf 1) = .u ∧
        (s.handed b).buf.cstring 0 bufSize = quitText
    · simp only [ignored, if_pos quits]
      refine (leave_cases env 0 _ w).mono ?_
      rintro s' w' ⟨rfl, closes⟩
      rw [show ({ s.handed b with quit := true } : Emu).panel = s.panel from frame.1] at closes
      exact .quits running ends asks quits.2 closes
    · have more : (s.handed b).quit = false := by rw [frame.2.1, awake]
      simp only [ignored, if_neg quits]
      apply ensures_ite
      · exact fun quit => absurd (more.symm.trans quit) Bool.false_ne_true
      · refine fun _ => ensures_pure (.skipped running ends asks ?_)
        rcases Classical.not_and_iff_not_or_not.mp quits with letter | text
        · exact .inr fun u => letter (u ▸ rfl)
        · exact .inl text

theorem step_cases (env : Env W) {s : Emu} (awake : s.Awake) (r : SerialRead) (w : W) :
    (s.step env r).Ensures w (Stepped env s w r) := by
  cases running : s.exited with
  | some code =>
    have gone : s.exited.isSome = true := by simp [running]
    unfold step
    rw [if_pos gone]
    exact ensures_pure (.ended (by simp [running]))
  | none =>
    have on : ¬ s.exited.isSome = true := by simp [running]
    cases r with
    | timedOut =>
      rw [step, if_neg on]
      apply ensures_ite
      · intro up
        apply ensures_bind
        intro now w₁ clock
        apply ensures_ite
        · intro late
          apply ensures_bind
          refine (AlnitakEmu.disconnect_cases env s.panel w₁).mono ?_
          exact fun panel w' closes => ensures_pure (.expired running up clock late closes)
        · exact fun early => ensures_pure (.waited running up clock (Int.not_lt.mp early))
      · exact fun down => ensures_pure (.unconnected running (by simpa using down))
    | failed =>
      rw [step, if_neg on]
      refine (leave_cases env 1 s w).mono ?_
      rintro s' w' ⟨rfl, closes⟩
      exact .portFailed running closes
    | byte b =>
      by_cases ends : s.EndsLine b
      · rw [step_lineRead env running ends]
        exact endOfLine_cases env w running (awake running) ends
      · rw [step_stored env running ends]
        exact ensures_pure (.inLine running ends)

theorem step_ends {env : Env W} {s s' : Emu} {b : UInt8} {w w' : W} (running : s.exited = none)
    (awake : s.Awake) (ends : s.EndsLine b)
    (hs : (s.step env (.byte b)).run w = some (s', w')) :
    (∃ op s₁, asked (s.handed b).buf = some op ∧
      ((s.handed b).serve env op (reply (s.handed b).buf)).run w = some (s₁, w') ∧
      s' = s₁.nextLine) ∨
    asked (s.handed b).buf = none ∧
      ((s.handed b).buf.cstring 0 bufSize ≠ quitText ∨ (s.handed b).buf 1 ≠ ascii 'u') ∧
      s' = (s.handed b).nextLine ∨
    asked (s.handed b).buf = none ∧ (s.handed b).buf.cstring 0 bufSize = quitText ∧
      s' = { s.handed b with quit := true }.gone 0 := by
  generalize byte : SerialRead.byte b = r at hs
  cases step_cases env awake r w s' w' hs with
  | ended gone => exact absurd running gone
  | unconnected _ _ | waited _ _ _ _ | expired _ _ _ _ _ | portFailed _ _ => contradiction
  | inLine _ more =>
    obtain rfl := SerialRead.byte.inj byte
    exact absurd ends more
  | served _ _ asks serves =>
    obtain rfl := SerialRead.byte.inj byte
    exact .inl ⟨_, _, asks, serves, rfl⟩
  | skipped _ _ asks other =>
    obtain rfl := SerialRead.byte.inj byte
    exact .inr (.inl ⟨asks, other, rfl⟩)
  | quits _ _ asks text _ =>
    obtain rfl := SerialRead.byte.inj byte
    exact .inr (.inr ⟨asks, text, rfl⟩)

theorem step_asked {env : Env W} {s s' : Emu} {b : UInt8} {op : Option SetOp} {w w' : W}
    (running : s.exited = none) (awake : s.Awake) (ends : s.EndsLine b)
    (asks : asked (s.handed b).buf = some op)
    (hs : (s.step env (.byte b)).run w = some (s', w')) :
    ∃ s₁, ((s.handed b).serve env op (reply (s.handed b).buf)).run w = some (s₁, w') ∧
      s' = s₁.nextLine := by
  rcases step_ends running awake ends hs with ⟨op', s₁, asks', serves, rfl⟩ | ⟨none, _⟩ | ⟨none, _⟩
  · obtain rfl := Option.some.inj (asks.symm.trans asks')
    exact ⟨s₁, serves, rfl⟩
  · rw [asks] at none
    contradiction
  · rw [asks] at none
    contradiction

theorem step_gone (env : Env W) {s : Emu} (gone : s.exited ≠ none) (r : SerialRead) :
    s.step env r = pure s := by
  have gone : s.exited.isSome = true := Option.isSome_iff_ne_none.mpr gone
  unfold step
  rw [if_pos gone]

theorem step_failed (env : Env W) {s : Emu} (running : s.exited = none) :
    s.step env .failed = s.leave env 1 := by
  have on : ¬ s.exited.isSome = true := by simp [running]
  rw [step, if_neg on]

theorem endOfLine_run (env : Env W) {s s₁ : Emu} {b : UInt8} {w w₁ : W}
    (running : s.exited = none) (ends : s.EndsLine b)
    (switch : ((s.handed b).dispatch env).run w = some (s₁, w₁)) :
    (s.step env (.byte b)).run w =
      (if s₁.quit then s₁.leave env 0 else pure s₁.nextLine : Program W Emu).run w₁ := by
  rw [step_lineRead env running ends]
  exact run_bind_of_run switch

theorem step_served (env : Env W) {s s₁ : Emu} {b : UInt8} {op : Option SetOp} {w w₁ : W}
    (running : s.exited = none) (awake : s.Awake) (ends : s.EndsLine b)
    (asks : asked (s.handed b).buf = some op)
    (serves : ((s.handed b).serve env op (reply (s.handed b).buf)).run w = some (s₁, w₁)) :
    (s.step env (.byte b)).run w = some (s₁.nextLine, w₁) := by
  have more : s₁.quit = false :=
    ((serve_frame serves).2.1.trans (handed_frame s b).2.1).trans (awake running)
  rw [← dispatch_asked env asks] at serves
  rw [endOfLine_run env running ends serves, more]
  rfl

theorem step_unasked (env : Env W) {s : Emu} {b : UInt8} {w : W} (running : s.exited = none)
    (ends : s.EndsLine b) (asks : asked (s.handed b).buf = none) :
    (s.step env (.byte b)).run w = (if (s.handed b).ignored.quit then
      (s.handed b).ignored.leave env 0 else pure (s.handed b).ignored.nextLine :
        Program W Emu).run w := by
  apply endOfLine_run env running ends
  rw [dispatch_unasked env asks]
  rfl

theorem start_awake (buf : Memory) : (start buf).Awake := fun _ => rfl

theorem step_awake (env : Env W) {s : Emu} (awake : s.Awake) (r : SerialRead) (w : W) :
    (s.step env r).Ensures w (fun s' _ => s'.Awake) := by
  refine (step_cases env awake r w).mono ?_
  intro s' w' way running'
  cases way with
  | ended gone => exact absurd running' gone
  | unconnected running _ => exact awake running
  | waited running _ _ _ => exact awake running
  | expired running _ _ _ _ => exact awake running
  | portFailed _ _ => contradiction
  | inLine running _ => exact awake running
  | served running _ _ serves =>
    exact ((serve_frame serves).2.1.trans (handed_frame s _).2.1).trans (awake running)
  | skipped running _ _ _ => exact (handed_frame s _).2.1.trans (awake running)
  | quits _ _ _ _ _ => contradiction

/-- A main that has returned has left the panel. -/
theorem step_left {env : Env W} {s s' : Emu} {r : SerialRead} {w w' : W} (awake : s.Awake)
    (left : s.exited ≠ none → s.panel.isConnected = false)
    (hs : (s.step env r).run w = some (s', w')) :
    s'.exited ≠ none → s'.panel.isConnected = false := by
  cases step_cases env awake r w s' w' hs with
  | ended _ => exact left
  | unconnected running _ | waited running _ _ _ | inLine running _ =>
    exact fun gone => absurd running gone
  | expired _ _ _ _ closes =>
    obtain rfl := closes.panel
    exact fun _ => rfl
  | portFailed _ _ | quits _ _ _ _ _ => exact fun _ => rfl
  | @served byte _ _ _ running _ _ serves =>
    have on := (serve_frame serves).2.2.trans ((handed_frame s byte).2.2.trans running)
    exact fun gone => absurd on gone
  | @skipped byte running _ _ _ =>
    exact fun gone => absurd ((handed_frame s byte).2.2.trans running) gone

end Emu
end FlatPanel
