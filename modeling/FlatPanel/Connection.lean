import FlatPanel.Steps

/-! What a connected panel rests on. `Connect` stores the handle before it reads the
intensity and keeps it when the read fails; `ConnectPanel` then takes the panel for
connected, with the values of an earlier connection. -/
namespace FlatPanel

open Program

variable {W : Type}

/-- The device takes the intensity request and answers it in time, with three bytes or more. -/
def AnswersIntensity (env : Env W) (handle : Handle) (w : W) : Prop :=
  ∀ ret w₁, (env.hidWrite handle
      ((((env.uninit w).store 0 0x0).store 1 cmdGetInten).bytes 5)).run w = some (ret, w₁) →
    0 ≤ ret ∧ ∀ r w₂, (env.hidReadTimeout handle).run w₁ = some (r, w₂) → 3 ≤ r.ret 5

theorem word_or (lo hi : UInt8) : lo.toNat ||| (hi.toNat <<< 8) < 65536 := by
  have low := lo.toNat_lt
  have high := hi.toNat_lt
  rw [Device.or_shift]
  omega

theorem getInten_cases (env : Env W) (handle : Handle) (w : W) :
    (getInten env handle).Ensures w (fun inten _ =>
      (0 ≤ inten ∧ inten < 65536 ∧ AnswersIntensity env handle w) ∨
      (inten < 0 ∧ ¬ AnswersIntensity env handle w)) := by
  apply ensures_uninit
  apply ensures_bind
  refine (exchange_cases env handle _ 3 w).mono ?_
  intro answer w' way
  cases way with
  | unsent writes lost =>
    refine ensures_pure (.inr ⟨by decide, fun good => ?_⟩)
    exact absurd (good _ _ writes).1 (Int.not_le.mpr lost)
  | unread writes _ reads short =>
    refine ensures_pure (.inr ⟨by decide, fun good => ?_⟩)
    exact absurd ((good _ _ writes).2 _ _ reads) (Int.not_le.mpr short)
  | @answered ret r w₁ _ writes sent reads long =>
    refine ensures_pure (.inl ⟨Int.natCast_nonneg _, ?_, ?_⟩)
    · exact Int.ofNat_lt.mpr (word_or _ _)
    · intro ret' w₁' writes'
      obtain ⟨rfl, rfl⟩ := run_unique writes writes'
      refine ⟨sent, fun r' w₂' reads' => ?_⟩
      obtain ⟨rfl, rfl⟩ := run_unique reads reads'
      exact long

/-- Entries of the record that say nothing about the panel. -/
def Act.quiet : Act → Bool
  | .request _ | .update _ | .respond _ | .idle _ => true
  | .connect _ _ | .set _ _ | .disconnect => false

/-- By the record, the panel was found by a connect that read the intensity on the handle
it opened, and changed since by the set operations that succeeded. -/
inductive Backed (env : Env W) : List Act → AlnitakEmu → Prop where
  | read {p : AlnitakEmu} {handle : Handle} {inten : Int} {w w₁ w₂ : W} {log : List Act} :
      env.hidOpen.run w = some (some handle, w₁) →
      (getInten env handle).run w₁ = some (inten, w₂) → 0 ≤ inten →
      Backed env (.connect (p.found handle inten) true :: log) (p.found handle inten)
  | set {p : AlnitakEmu} {op : SetOp} {log : List Act} : Backed env log p →
      Backed env (.set op true :: log) (p.acknowledged op (p.dimmer.after op.call))
  | unset {p : AlnitakEmu} {op : SetOp} {log : List Act} : Backed env log p →
      Backed env (.set op false :: log) p
  | quiet {p : AlnitakEmu} {a : Act} {log : List Act} : a.quiet = true → Backed env log p →
      Backed env (a :: log) p

theorem Backed.cached {env : Env W} {log : List Act} {p : AlnitakEmu} (h : Backed env log p) :
    ∃ read, p.dimmer.Cached read := by
  induction h with
  | @read p handle inten w w₁ w₂ log _ reads nonneg =>
    rcases getInten_cases env handle w₁ inten w₂ reads with ⟨_, word, _⟩ | ⟨bad, _⟩
    · exact ⟨inten, USBDimmer.opened_cached handle nonneg word⟩
    · exact absurd nonneg (Int.not_le.mpr bad)
  | @set p op log _ ih =>
    obtain ⟨read, cached⟩ := ih
    rw [AlnitakEmu.acknowledged_dimmer]
    exact ⟨read, cached.after op.call⟩
  | unset _ ih => exact ih
  | quiet _ _ ih => exact ih

theorem not_backed {env : Env W} {log earlier : List Act} {p q : AlnitakEmu}
    (last : log = .connect q false :: earlier) : ¬ Backed env log p := by
  rintro (_ | _ | _ | ⟨quiet, _⟩)
  all_goals simp_all [Act.quiet]

namespace Emu

/-- What a connected panel remembers is backed by the record. -/
def Rests (env : Env W) (s : Emu) : Prop :=
  s.panel.isConnected = true → Backed env s.log s.panel

/-- A panel that is connected when main reads on, and one a request is carried out on, was
connected with success and remembers nothing else. -/
structure Sound (env : Env W) (s : Emu) (w : W) (r : SerialRead) (s' : Emu) (_ : W) : Prop where
  connected : s'.Rests env
  carried : ∀ b op t w₁, r = .byte b → s.exited = none → s.EndsLine b →
    asked (s.handed b).buf = some op →
    ((s.handed b).connectPanel env).run w = some ((true, t), w₁) → Backed env t.log t.panel

/-- If this step opens a handle, the device answers the intensity request on it. -/
def OpensWell (env : Env W) (s : Emu) (w : W) (r : SerialRead) : Prop :=
  ∀ b op handle w₁, r = .byte b → s.exited = none → s.EndsLine b →
    asked (s.handed b).buf = some op → s.panel.isConnected = false →
    env.hidOpen.run w = some (some handle, w₁) → AnswersIntensity env handle w₁

theorem handed_rests {env : Env W} {s : Emu} (h : s.Rests env) (b : UInt8) :
    (s.handed b).Rests env := by
  obtain ⟨line, log⟩ := handed_log s b
  intro up
  rw [(handed_frame s b).1] at up ⊢
  rw [log]
  exact .quiet rfl (h up)

theorem connectPanel_backed {env : Env W} {s t : Emu} {w w₁ : W} (h : s.Rests env)
    (connects : (s.connectPanel env).run w = some ((true, t), w₁)) :
    Backed env t.log t.panel := by
  rcases connectPanel_true connects with
    ⟨up, rfl⟩ | ⟨_, handle, inten, _, _, now, hopen, hread, nonneg, rfl⟩
  · exact h up
  · exact .quiet rfl (.read hopen hread nonneg)

theorem applyOp_backed {env : Env W} {s t : Emu} {w w₁ : W} {op : Option SetOp} {ok : Bool}
    (h : Backed env s.log s.panel)
    (applies : (s.applyOp env op).run w = some ((ok, t), w₁)) : Backed env t.log t.panel := by
  have way := applyOp_cases env op s w _ w₁ applies
  generalize hr : (ok, t) = r at way
  cases way with
  | asked =>
    obtain ⟨_, rfl⟩ := Prod.mk.inj hr
    exact h
  | @set op r _ hs =>
    obtain ⟨_, rfl⟩ := Prod.mk.inj hr
    obtain ⟨read, cached⟩ := h.cached
    have result : r.2 = if r.1 = usbdSuccess then s.panel.dimmer.after op.call
        else s.panel.dimmer := cached.run_result env op.call w r w₁ hs
    by_cases success : r.1 = usbdSuccess
    · rw [if_pos success] at result
      simp only [setBy, if_pos success, result]
      exact .set h
    · rw [if_neg success] at result
      simp only [setBy, if_neg success, result]
      exact .unset h

theorem serve_rests {env : Env W} {s s' : Emu} {w w' : W} {op : Option SetOp}
    {answer : Memory → AlnitakEmu → List UInt8} (h : s.Rests env)
    (answers : ∀ handle w₁, s.panel.isConnected = false →
      env.hidOpen.run w = some (some handle, w₁) → AnswersIntensity env handle w₁)
    (serves : (s.serve env op answer).run w = some (s', w')) : s'.Rests env := by
  cases serve_cases env op answer s w s' w' serves with
  | noPanel connects =>
    obtain ⟨down, panel, rfl, ⟨_, rfl⟩ | ⟨handle, inten, w₁, hopen, hread, bad, _⟩⟩ :=
      connectPanel_false connects
    · exact fun up => absurd up Bool.false_ne_true
    · rcases getInten_cases env handle w₁ inten w' hread with ⟨good, _⟩ | ⟨_, silent⟩
      · exact absurd good (Int.not_le.mpr bad)
      · exact absurd (answers handle w₁ down hopen) silent
  | answered connects applies _ =>
    have backed := applyOp_backed (connectPanel_backed h connects) applies
    exact fun _ => .quiet rfl (.quiet rfl backed)
  | refused _ _ closes =>
    obtain rfl := closes.panel
    exact fun up => absurd up Bool.false_ne_true

theorem step_rests {env : Env W} {s s' : Emu} {w w' : W} {r : SerialRead} (awake : s.Awake)
    (h : s.Rests env) (opens : s.OpensWell env w r)
    (hs : (s.step env r).run w = some (s', w')) : s'.Rests env := by
  cases step_cases env awake r w s' w' hs with
  | ended _ | unconnected _ _ | waited _ _ _ _ | inLine _ _ => exact h
  | expired _ _ _ _ closes =>
    obtain rfl := closes.panel
    exact fun up => absurd up Bool.false_ne_true
  | portFailed _ _ | quits _ _ _ _ _ => exact fun up => absurd up Bool.false_ne_true
  | @skipped byte _ _ _ _ => exact handed_rests h byte
  | @served byte op s₁ _ running ends asks serves =>
    have answers (handle : Handle) (w₁ : W) (down : (s.handed byte).panel.isConnected = false)
        (hopen : env.hidOpen.run w = some (some handle, w₁)) : AnswersIntensity env handle w₁ := by
      rw [(handed_frame s byte).1] at down
      exact opens byte op handle w₁ rfl running ends asks down hopen
    have kept : s₁.Rests env := serve_rests (handed_rests h byte) answers serves
    exact kept

theorem step_sound {env : Env W} {s s' : Emu} {w w' : W} {r : SerialRead} (awake : s.Awake)
    (h : s.Rests env) (opens : s.OpensWell env w r)
    (hs : (s.step env r).run w = some (s', w')) : s.Sound env w r s' w' :=
  ⟨step_rests awake h opens hs,
    fun b _ _ _ _ _ _ _ connects => connectPanel_backed (handed_rests h b) connects⟩

theorem sound_opensWell {env : Env W} {s s' : Emu} {w w' : W} {r : SerialRead}
    (awake : s.Awake) (hs : (s.step env r).run w = some (s', w'))
    (sound : s.Sound env w r s' w') : s.OpensWell env w r := by
  rintro b op handle w₁ rfl running ends asks down hopen
  rw [← (handed_frame s b).1] at down
  have opened {ok : Bool} {t : Emu} {w₂ : W}
      (connects : ((s.handed b).connectPanel env).run w = some ((ok, t), w₂))
      (backed : ok = false → t.Rests env) : AnswersIntensity env handle w₁ := by
    cases ok with
    | true =>
      rcases connectPanel_true connects with
        ⟨up, _⟩ | ⟨_, _, inten, _, w₃, _, hopen', hread, nonneg, _⟩
      · exact absurd (down.symm.trans up) Bool.false_ne_true
      · obtain ⟨same, rfl⟩ := run_unique hopen hopen'
        obtain rfl := Option.some.inj same
        rcases getInten_cases env handle w₁ inten w₃ hread with ⟨_, _, good⟩ | ⟨bad, _⟩
        · exact good
        · exact absurd nonneg (Int.not_le.mpr bad)
    | false =>
      obtain ⟨_, panel, rfl, ⟨hopen', _⟩ | ⟨_, _, _, _, _, _, rfl⟩⟩ :=
        connectPanel_false connects
      · exact absurd (hopen.symm.trans hopen') (by simp)
      · exact absurd (backed rfl rfl) (not_backed rfl)
  obtain ⟨s₁, serves, rfl⟩ := step_asked running awake ends asks hs
  cases serve_cases env op _ (s.handed b) w s₁ w' serves with
  | noPanel connects => exact opened connects fun _ => sound.connected
  | answered connects _ _ | refused connects _ _ =>
    exact opened connects fun no => absurd no.symm Bool.false_ne_true

/-- In every run, whatever the bytes and whichever calls fail, a panel is connected only
after a successful connect if and only if every handle that is opened is read. -/
theorem sound_iff (env : Env W) (buf : Memory) (w : W) (rs : List SerialRead) :
    Runs.EachStep (Emu.step env) (Sound env) (start buf) w rs ↔
      Runs.EachStep (Emu.step env) (fun s w r _ _ => s.OpensWell env w r) (start buf) w rs := by
  have begin : (start buf).Awake ∧ (start buf).Rests env :=
    ⟨start_awake buf, fun up => absurd up Bool.false_ne_true⟩
  refine Runs.eachStep_iff (I := fun s _ => s.Awake ∧ s.Rests env) ?_ ?_ rs begin
  · rintro s w r s' w' ⟨awake, rests⟩ hs opens
    exact ⟨⟨step_awake env awake r w s' w' hs, step_rests awake rests opens hs⟩,
      step_sound awake rests opens hs⟩
  · rintro s w r s' w' ⟨awake, _⟩ hs sound
    exact sound_opensWell awake hs sound

/-- The write of the intensity request fails. -/
def lostRequest : Behaviour :=
  { Behaviour.steady with fault := fun n => if n = 1 then .failed else .none }

/-- The request is not answered, but the panel is connected from then on; the next one would
be answered from values nobody has read. -/
theorem not_always_sound :
    ¬ ∀ (W : Type) (env : Env W) (buf : Memory) (w : W) (rs : List SerialRead),
      Runs.EachStep (Emu.step env) (Sound env) (start buf) w rs := by
  intro claim
  have first := claim Device (Device.env lostRequest) (fun _ => 0) (Device.idle 500)
    [.byte (ascii 'x'), .byte (ascii 'S'), .byte (ascii '\n')]
  have second := (first _ _ rfl).2
  have third := (second _ _ rfl).2
  have backed := (third _ _ rfl).1.connected rfl
  exact not_backed rfl backed

end Emu
end FlatPanel
