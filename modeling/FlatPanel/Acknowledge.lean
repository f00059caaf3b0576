import FlatPanel.Traffic

/-! When main responds. A request is answered at most once, exactly when everything it
asked for was done; a set operation one of whose transfers fails changes nothing the emulator
remembers, is not answered, and closes the handle. -/
namespace FlatPanel

open Program

variable {W : Type}

def Act.response? : Act → Option (List UInt8)
  | .respond resp => some resp
  | _ => none

namespace Emu

/-- The strings given to `respond` so far, the last one first. -/
def responses (s : Emu) : List (List UInt8) := s.log.filterMap Act.response?

/-- A panel request (S, L, D, J, V, or B with a number) for which `ConnectPanel` returned
true and the set operation, if there is one, returned success. -/
def Done (env : Env W) (s : Emu) (w : W) : Prop :=
  ∃ op, asked s.buf = some op ∧
    ∃ s₁ w₁, (s.connectPanel env).run w = some ((true, s₁), w₁) ∧
      ∃ s₂ w₂, (s₁.applyOp env op).run w₁ = some ((true, s₂), w₂)

/-- What the switch, entered in `s`, has done when main is ready to read on in `s'`. `carried`
ties the verdict of the operation to its transfers, and `failed` says what follows from one that
fails, whatever the verdict. -/
structure Acknowledges (env : Env W) (s : Emu) (w : W) (s' : Emu) (w' : W) : Prop where
  once : s'.responses = s.responses ∨ ∃ r, s'.responses = r :: s.responses
  exactly : (∃ r, s'.responses = r :: s.responses) ↔ Done env s w
  carried : ∀ op s₁ w₁ ok s₂ w₂, asked s.buf = some (some op) →
    (s.connectPanel env).run w = some ((true, s₁), w₁) →
    (s₁.applyOp env (some op)).run w₁ = some ((ok, s₂), w₂) →
      ∃ ts, (s₁.applyOp (Transfer.env env) (some op)).run ([], w₁) = some ((ok, s₂), (ts, w₂)) ∧
        op.call.Carried s₁.panel.dimmer ok ts
  failed : ∀ op s₁ w₁ ok s₂ ts w₂, asked s.buf = some (some op) →
    (s.connectPanel env).run w = some ((true, s₁), w₁) →
    (s₁.applyOp (Transfer.env env) (some op)).run ([], w₁) = some ((ok, s₂), (ts, w₂)) →
    (∃ t ∈ ts, t.Failed) →
      s₂.panel = s₁.panel ∧ s'.panel = s₁.panel.closed ∧ s'.responses = s.responses ∧
      ∃ handle, s₁.panel.dimmer.mHandle = some handle ∧
        (env.hidClose handle).run w₂ = some ((), w')

theorem responses_of_log {s t : Emu} (same : t.log = s.log) : t.responses = s.responses := by
  rw [responses, responses, same]

@[simp] theorem handed_responses (s : Emu) (b : UInt8) :
    (s.handed b).responses = s.responses := by
  obtain ⟨line, log⟩ := handed_log s b
  rw [responses, log]
  rfl

theorem silent_of_inner {s s' : Emu} (h : ∃ acts, s'.log = acts ++ s.log ∧
    ∀ a ∈ acts, inner a = true) : s'.responses = s.responses := by
  apply recorded_of_log _ h
  intro a inside
  cases a <;> first | rfl | contradiction

theorem serve_responses {env : Env W} {s s' : Emu} {w w' : W} {op : Option SetOp}
    {answer : Memory → AlnitakEmu → List UInt8}
    (h : (s.serve env op answer).run w = some (s', w')) : s'.responses = s.responses ∨
      ∃ stack, s'.responses = answer stack s'.panel :: s.responses := by
  cases serve_cases env op answer s w s' w' h with
  | noPanel connects =>
    exact .inl (silent_of_inner (connectPanel_log connects))
  | answered connects applies _ =>
    rw [← silent_of_inner (request_log connects applies)]
    exact .inr ⟨_, rfl⟩
  | refused connects applies _ =>
    have silent := silent_of_inner (request_log connects applies)
    exact .inl silent

theorem Acknowledges.nextLine {env : Env W} {s s' : Emu} {w w' : W}
    (h : Acknowledges env s w s' w') : Acknowledges env s w s'.nextLine w' :=
  ⟨h.once, h.exactly, h.carried, h.failed⟩

end Emu
end FlatPanel
