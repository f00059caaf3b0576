import FlatPanel.Usbd

/-! The dimmer's calls as series of exchanges, against any library: how one write and read
can go, and what every exchange gives a whole `set_inten`. -/
namespace FlatPanel

open Program

variable {W : Type}

inductive Exchanged (env : Env W) (handle : Handle) (buf : Memory) (least : Int) (w : W) :
    Option Memory → W → Prop where
  | unsent {ret : Int} {w' : W} :
      (env.hidWrite handle (buf.bytes 5)).run w = some (ret, w') → ret < 0 →
      Exchanged env handle buf least w none w'
  | unread {ret : Int} {r : Input} {w₁ w' : W} :
      (env.hidWrite handle (buf.bytes 5)).run w = some (ret, w₁) → 0 ≤ ret →
      (env.hidReadTimeout handle).run w₁ = some (r, w') → r.ret 5 < least →
      Exchanged env handle buf least w none w'
  | answered {ret : Int} {r : Input} {w₁ w' : W} :
      (env.hidWrite handle (buf.bytes 5)).run w = some (ret, w₁) → 0 ≤ ret →
      (env.hidReadTimeout handle).run w₁ = some (r, w') → least ≤ r.ret 5 →
      Exchanged env handle buf least w (some (buf.fill (r.data 5))) w'

theorem exchange_cases (env : Env W) (handle : Handle) (buf : Memory) (least : Int) (w : W) :
    (exchange env handle buf least).Ensures w (Exchanged env handle buf least w) := by
  apply ensures_bind
  intro ret w₁ writes
  apply ensures_ite
  · exact fun lost => ensures_pure (.unsent writes lost)
  · intro sent
    apply ensures_bind
    apply ensures_bind
    intro r w' reads
    apply ensures_pure
    apply ensures_ite
    · exact fun short => ensures_pure (.unread writes (Int.not_lt.mp sent) reads short)
    · exact fun long =>
        ensures_pure (.answered writes (Int.not_lt.mp sent) reads (Int.not_lt.mp long))

/-- `set_inten` is a series of exchanges, each made only if the one before was answered. What
every one of them gives, the whole gives, and what an answer gives, a success gives. -/
theorem setInten_exchanges {env : Env W} {handle : Handle} {K N : W → Prop}
    (swap : ∀ buf w, K w → (exchange env handle buf 1).Ensures w (fun ans w' =>
      N w' ∧ (ans ≠ none → K w')))
    (pause : ∀ n w, K w → (env.sleep n).Ensures w (fun _ w' => K w')) (inten : Int) {w : W}
    (first : ∀ buf, (exchange env handle buf 1).Ensures w (fun ans w' =>
      N w' ∧ (ans ≠ none → K w'))) : (setInten env handle inten).Ensures w (fun ret w' =>
      N w' ∧ (ret = usbdSuccess → K w')) := by
  have failed {w' : W} (kept : N w') : (pure usbdCommError : Program W Int).Ensures w' (fun ret w' =>
      N w' ∧ (ret = usbdSuccess → K w')) :=
    ensures_pure ⟨kept, fun same => absurd same.symm success_ne_commError⟩
  apply ensures_uninit
  apply ensures_bind
  refine (first _).mono ?_
  rintro (_ | buf₁) w₁ ⟨kept₁, answered₁⟩
  · exact failed kept₁
  · apply ensures_bind
    refine (swap _ w₁ (answered₁ (by simp))).mono ?_
    rintro (_ | buf₂) w₂ ⟨kept₂, answered₂⟩
    · exact failed kept₂
    · refine ensures_loop (fun _ => K) ?_ _ (answered₂ (by simp))
      intro buf w₃ clean
      apply ensures_bind
      refine (swap _ w₃ clean).mono ?_
      rintro (_ | buf₄) w₄ ⟨kept₄, answered₄⟩
      · exact ensures_pure ⟨kept₄, fun same => absurd same.symm success_ne_commError⟩
      · apply ensures_ite
        · exact fun _ => ensures_pure ⟨kept₄, fun _ => answered₄ (by simp)⟩
        · intro _
          apply ensures_bind
          exact (pause 100 w₄ (answered₄ (by simp))).mono fun _ _ kept => ensures_pure kept

/-- A set call that fails keeps the cached state, whatever the cached state is, and no
set call touches the handle. -/
theorem SetCall.run_keeps (env : Env W) (c : SetCall) (d : USBDimmer) (w : W) :
    (c.run env d).Ensures w (fun r _ =>
      (r.1 ≠ usbdSuccess → r.2 = d) ∧ r.2.mHandle = d.mHandle) := by
  cases c with
  | setBrightness val =>
    simp only [SetCall.run, USBDimmer.setBrightness]
    split
    · exact ensures_pure ⟨fun _ => rfl, rfl⟩
    · apply ensures_ite
      · exact fun _ => ensures_pure ⟨fun bad => absurd rfl bad, rfl⟩
      · intro _
        apply ensures_ite
        · exact fun _ => ensures_pure ⟨fun bad => absurd rfl bad, rfl⟩
        · intro _
          apply ensures_bind
          intro ret w' _
          apply ensures_ite
          · exact fun ok => ensures_pure ⟨fun bad => absurd ok bad, rfl⟩
          · exact fun _ => ensures_pure ⟨fun _ => rfl, rfl⟩
  | lightOn on =>
    simp only [SetCall.run, USBDimmer.lightOn]
    split
    · exact ensures_pure ⟨fun _ => rfl, rfl⟩
    · apply ensures_ite
      · exact fun _ => ensures_pure ⟨fun bad => absurd rfl bad, rfl⟩
      · intro _
        apply ensures_bind
        intro ret w' _
        apply ensures_ite
        · exact fun _ => ensures_pure ⟨fun _ => rfl, rfl⟩
        · exact fun ok => ensures_pure ⟨fun bad => absurd (not_not.mp ok) bad, rfl⟩

/-- A set call on an open handle makes no call at all, and succeeds, or is `set_inten`. -/
theorem SetCall.run_exchanges (env : Env W) (c : SetCall) {d : USBDimmer}
    {handle : Handle} (opens : d.mHandle = some handle) (w : W) :
    (c.run env d).Ensures w (fun r w' => d.target c = none ∧ w' = w ∧ r.1 = usbdSuccess ∨
      ∃ inten, d.target c = some inten ∧ (setInten env handle inten).run w = some (r.1, w')) := by
  cases goal : d.target c with
  | some inten =>
    rw [USBDimmer.run_target env opens goal]
    apply ensures_bind
    exact fun ret w' hs => ensures_pure (.inr ⟨inten, rfl, hs⟩)
  | none =>
    cases c with
    | setBrightness val =>
      simp only [SetCall.run, USBDimmer.setBrightness, opens]
      apply ensures_ite
      · exact fun _ => ensures_pure (.inl ⟨trivial, rfl, rfl⟩)
      · intro other
        apply ensures_ite
        · exact fun _ => ensures_pure (.inl ⟨trivial, rfl, rfl⟩)
        · intro on
          rw [USBDimmer.target, if_neg] at goal
          · contradiction
          · exact fun needless => needless.elim other fun off => on (by simp [off])
    | lightOn on =>
      have same : d.mOn = on := by simpa [USBDimmer.target] using goal
      simp only [SetCall.run, USBDimmer.lightOn, opens, if_pos same]
      exact ensures_pure (.inl ⟨trivial, rfl, rfl⟩)

/-- Every library call of an exchange, and a pause, keeps `K`. -/
structure ExchangesKeep (env : Env W) (K : W → Prop) : Prop where
  write : ∀ handle report w, K w → (env.hidWrite handle report).Ensures w (fun _ => K)
  read : ∀ handle w, K w → (env.hidReadTimeout handle).Ensures w (fun _ => K)
  sleep : ∀ n w, K w → (env.sleep n).Ensures w (fun _ => K)

namespace ExchangesKeep

variable {env : Env W} {K : W → Prop} (keep : ExchangesKeep env K)
include keep

theorem exchange (handle : Handle) (buf : Memory) (least : Int) {w : W} (h : K w) :
    (exchange env handle buf least).Ensures w (fun _ => K) := by
  intro ans w' hs
  cases exchange_cases env handle buf least w ans w' hs with
  | unsent writes _ => exact keep.write _ _ w h _ w' writes
  | unread writes _ reads _ | answered writes _ reads _ =>
    exact keep.read _ _ (keep.write _ _ w h _ _ writes) _ w' reads

theorem getInten (handle : Handle) {w : W} (h : K w) :
    (getInten env handle).Ensures w (fun _ => K) := by
  apply ensures_uninit
  apply ensures_bind
  refine (keep.exchange handle _ 3 h).mono ?_
  intro ans w₁ kept
  cases ans with
  | none => exact ensures_pure kept
  | some buf => exact ensures_pure kept

theorem setInten (handle : Handle) (inten : Int) {w : W} (h : K w) :
    (setInten env handle inten).Ensures w (fun _ => K) := by
  have swap (buf : Memory) (w₁ : W) (h : K w₁) : (FlatPanel.exchange env handle buf 1).Ensures w₁
      (fun ans w₂ => K w₂ ∧ (ans ≠ none → K w₂)) :=
    (keep.exchange handle buf 1 h).mono fun _ _ kept => ⟨kept, fun _ => kept⟩
  exact (setInten_exchanges swap keep.sleep inten fun buf => swap buf w h).mono fun _ _ kept => kept.1

theorem set (c : SetCall) (d : USBDimmer) {w : W} (h : K w) :
    (c.run env d).Ensures w (fun _ => K) := by
  intro r w' hs
  cases opens : d.mHandle with
  | none =>
    have refused : c.run env d = pure (usbdNotConnected, d) := by
      cases c <;> simp [SetCall.run, USBDimmer.setBrightness, USBDimmer.lightOn, opens]
    rw [refused] at hs
    obtain ⟨_, rfl⟩ := (run_pure_eq _ r w w').mp hs
    exact h
  | some handle =>
    rcases c.run_exchanges env opens w r w' hs with ⟨_, rfl, _⟩ | ⟨inten, _, writes⟩
    · exact h
    · exact keep.setInten handle inten h _ w' writes

end ExchangesKeep
end FlatPanel
