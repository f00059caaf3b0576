import FlatPanel.Steps

/-! What a request does depends on the buffer only through the bytes the switch and the
parsers look at, and on the record of what was done before not at all. -/
namespace FlatPanel

namespace Emu

variable {W : Type}

def frame (s : Emu) (m : Memory) (base : List Act) : Emu :=
  { s with buf := m, log := s.log ++ base }

@[simp] theorem frame_panel (s : Emu) (m : Memory) (base : List Act) :
    (s.frame m base).panel = s.panel := rfl
@[simp] theorem frame_quit (s : Emu) (m : Memory) (base : List Act) :
    (s.frame m base).quit = s.quit := rfl

theorem updateDisconnectTime_frame (env : Env W) (s : Emu) (m : Memory) (base : List Act) :
    (s.frame m base).updateDisconnectTime env =
      (fun r => r.frame m base) <$> s.updateDisconnectTime env := by
  simp only [updateDisconnectTime, map_bind, map_pure]
  rfl

theorem disconnectPanel_frame (env : Env W) (s : Emu) (m : Memory) (base : List Act) :
    (s.frame m base).disconnectPanel env =
      (fun r => r.frame m base) <$> s.disconnectPanel env := by
  simp only [disconnectPanel, map_bind, map_pure]
  rfl

theorem connectPanel_frame (env : Env W) (s : Emu) (m : Memory) (base : List Act) :
    (s.frame m base).connectPanel env =
      (fun r => (r.1, r.2.frame m base)) <$> s.connectPanel env := by
  unfold connectPanel
  cases up : s.panel.isConnected with
  | true =>
    have up' : (s.frame m base).panel.isConnected = true := up
    rw [if_pos rfl, if_pos up', map_pure]
  | false =>
    have down' : ¬ (s.frame m base).panel.isConnected = true := by
      rw [show (s.frame m base).panel = s.panel from rfl, up]
      exact Bool.false_ne_true
    rw [if_neg Bool.false_ne_true, if_neg down', map_bind]
    congr 1
    funext ⟨ok, panel⟩
    cases ok with
    | false => rfl
    | true =>
      simp only [if_true, updateDisconnectTime, bind_assoc, pure_bind, map_bind, map_pure]
      rfl

theorem applyOp_frame (env : Env W) (op : Option SetOp) (s : Emu) (m : Memory)
    (base : List Act) : (s.frame m base).applyOp env op =
      (fun r => (r.1, r.2.frame m base)) <$> s.applyOp env op := by
  match op with
  | none => rfl
  | some (.light on) =>
    simp only [applyOp, map_bind, map_pure]
    rfl
  | some (.brightness val) =>
    simp only [applyOp, map_bind, map_pure]
    rfl

theorem serve_frame_eq (env : Env W) (op : Option SetOp)
    (answer : Memory → AlnitakEmu → List UInt8) (s : Emu) (m : Memory) (base : List Act) :
    (s.frame m base).serve env op answer =
      (fun r => r.frame m base) <$> s.serve env op answer := by
  unfold serve
  rw [connectPanel_frame, bind_map_left, map_bind]
  congr 1
  funext ⟨ok, t⟩
  cases ok with
  | false => rfl
  | true =>
    simp only [if_true, applyOp_frame, bind_map_left, map_bind]
    congr 1
    funext ⟨done, u⟩
    cases done with
    | false => exact disconnectPanel_frame env u m base
    | true =>
      simp only [if_true, updateDisconnectTime_frame, bind_map_left, map_bind, map_pure]
      rfl

theorem leave_frame (env : Env W) (code : Int) (s : Emu) (m : Memory) (base : List Act) :
    (s.frame m base).leave env code = (fun r => r.frame m base) <$> s.leave env code := by
  simp only [leave, map_bind, map_pure]
  rfl

/-- The bytes of the buffer that are read once a line is over: by the switch; by `sscanf`, up
to the NUL; by `strcmp`, up to the first difference; and by `responseStr` for a reply. -/
def Reads (s : Emu) (answered : Prop) (j : Nat) : Prop :=
  j = 1 ∨
  Letter.ofByte (s.buf 1) = .B ∧ 2 ≤ j ∧ (∀ i, 2 ≤ i → i < j → s.buf i ≠ 0) ∨
  Letter.ofByte (s.buf 1) = .u ∧ (∀ i, i < j → quitText[i]? = some (s.buf i)) ∨
  Letter.ofByte (s.buf 1) = .B ∧ answered ∧ 2 ≤ j ∧ j ≤ 4

theorem quit_iff (m : Memory) : m.cstring 0 bufSize = quitText ↔
    (∀ j (h : j < quitText.length), m j = quitText[j]) ∧ m quitText.length = 0 := by
  have same := Memory.cstring_eq_iff (m := m) (l := quitText) (i := 0) (n := bufSize) (by decide)
    (by simp [quitText, ascii])
  simpa using same

theorem quit_congr {s : Emu} {m : Memory} (letter : Letter.ofByte (s.buf 1) = .u)
    (agree : ∀ j, s.Reads False j → m j = s.buf j) :
    m.cstring 0 bufSize = quitText ↔ s.buf.cstring 0 bufSize = quitText := by
  have look (j : Nat) (before : ∀ i, i < j → quitText[i]? = some (s.buf i)) : m j = s.buf j :=
    agree j (.inr (.inr (.inl ⟨letter, before⟩)))
  rw [quit_iff, quit_iff]
  constructor
  · rintro ⟨text, nul⟩
    have matched (j : Nat) (h : j ≤ quitText.length) : ∀ i, i < j →
        quitText[i]? = some (s.buf i) := by
      induction j with
      | zero => exact fun i lt => absurd lt (Nat.not_lt_zero i)
      | succ j ih =>
        intro i lt
        rcases Nat.lt_succ_iff_lt_or_eq.mp lt with earlier | rfl
        · exact ih (Nat.le_of_succ_le h) i earlier
        · rw [← look i (ih (Nat.le_of_succ_le h)), text i h, List.getElem?_eq_getElem h]
    refine ⟨fun j h => ?_, ?_⟩
    · rw [← look j (matched j (Nat.le_of_lt h)), text j h]
    · rw [← look _ (matched _ le_rfl), nul]
  · rintro ⟨text, nul⟩
    have matched (j : Nat) (h : j ≤ quitText.length) (i : Nat) (lt : i < j) :
        quitText[i]? = some (s.buf i) := by
      have inside : i < quitText.length := by omega
      rw [text i inside, List.getElem?_eq_getElem inside]
    refine ⟨fun j h => ?_, ?_⟩
    · rw [look j (matched j (Nat.le_of_lt h)), text j h]
    · rw [look _ (matched _ le_rfl), nul]

theorem asked_congr {s : Emu} {m : Memory} (agree : ∀ j, s.Reads False j → m j = s.buf j) :
    asked m = asked s.buf := by
  unfold asked
  rw [agree 1 (.inl rfl)]
  cases letter : Letter.ofByte (s.buf 1) with
  | B =>
    have text : numberText m = numberText s.buf :=
      Memory.cstring_congr fun j ge before => agree j (.inr (.inl ⟨letter, ge, before⟩))
    simp only [text]
  | S | L | D | J | V | u | other => rfl

theorem reply_frame {s : Emu} {m : Memory} (agree : ∀ j, s.Reads True j → m j = s.buf j) :
    reply m = reply s.buf := by
  unfold reply
  rw [agree 1 (.inl rfl)]
  cases letter : Letter.ofByte (s.buf 1) with
  | B =>
    have look (j : Nat) (ge : 2 ≤ j) (le : j ≤ 4) : m j = s.buf j :=
      agree j (.inr (.inr (.inr ⟨letter, trivial, ge, le⟩)))
    funext stack p
    simp only [echoReply, AlnitakEmu.responseStr, Memory.offset_apply, look 2, look 3, look 4,
      le_refl, Nat.reduceLeDiff, Nat.reduceAdd]
  | S | L | D | J | V | u | other => rfl

theorem ignored_frame {s : Emu} {m : Memory} (base : List Act)
    (agree : ∀ j, s.Reads False j → m j = s.buf j) :
    (s.frame m base).ignored = s.ignored.frame m base := by
  have first : m 1 = s.buf 1 := agree 1 (.inl rfl)
  unfold ignored
  simp only [frame, first]
  by_cases letter : Letter.ofByte (s.buf 1) = .u
  · simp only [letter, true_and, quit_congr letter agree]
    split <;> rfl
  · simp only [letter, false_and, if_false]

theorem Reads.mono {s : Emu} {a b : Prop} (imp : a → b) {j : Nat} (h : s.Reads a j) :
    s.Reads b j :=
  h.imp_right (Or.imp_right (Or.imp_right (And.imp_right (And.imp_left imp))))

theorem dispatch_frame (env : Env W) {s : Emu} {m : Memory} (base : List Act)
    (agree : ∀ j, s.Reads (asked s.buf ≠ none) j → m j = s.buf j) :
    (s.frame m base).dispatch env = (fun r => r.frame m base) <$> s.dispatch env := by
  have same : asked m = asked s.buf := asked_congr fun j h => agree j (h.mono False.elim)
  cases asks : asked s.buf with
  | some op =>
    have answer : reply m = reply s.buf :=
      reply_frame fun j h => agree j (h.mono fun _ => by simp [asks])
    rw [dispatch_asked env asks, dispatch_asked env (s := s.frame m base) (same.trans asks),
      serve_frame_eq]
    exact congrArg _ (congrArg (s.serve env op) answer)
  | none =>
    rw [dispatch_unasked env asks, dispatch_unasked env (s := s.frame m base) (same.trans asks),
      map_pure, ignored_frame base fun j h => agree j (h.mono False.elim)]

/-- The buffer after a `Read` into position `p`. -/
def into (m : Memory) (p : Nat) : SerialRead → Memory
  | .byte b => if b = ascii '\n' then (m.store p b).store p 0 else m.store p b
  | .timedOut | .failed => m

theorem into_agree {m k : Memory} {p : Nat} (agree : ∀ j, j < p → k j = m j) (b : UInt8)
    {j : Nat} (h : j ≤ p) : into k p (.byte b) j = into m p (.byte b) j := by
  rcases Nat.lt_or_eq_of_le h with before | rfl
  · have apart : j ≠ p := Nat.ne_of_lt before
    simp only [into]
    split <;> simp [apart, agree j before]
  · simp only [into]
    split <;> simp

theorem into_other (m : Memory) {p j : Nat} (other : j ≠ p) (r : SerialRead) : into m p r j = m j := by
  cases r with
  | timedOut | failed => rfl
  | byte b =>
    simp only [into]
    split <;> simp [other]

theorem lineRead_buf (s : Emu) (b : UInt8) : (s.lineRead b).buf = into s.buf s.p (.byte b) := by
  simp only [lineRead, into]
  split <;> rfl

theorem lineRead_frame_eq (s : Emu) (m : Memory) (base : List Act) (b : UInt8) :
    (s.frame m base).lineRead b = (s.lineRead b).frame (into m s.p (.byte b)) base := by
  simp only [lineRead, into, frame]
  split <;> rfl

/-- The bytes that the switch is entered with have been read since the line began. -/
theorem handed_frame_eq {s : Emu} {m : Memory} (base : List Act) (b : UInt8)
    (agree : ∀ j, j < s.p → m j = s.buf j) :
    (s.frame m base).handed b = (s.handed b).frame (into m s.p (.byte b)) base := by
  have within : (s.lineRead b).p ≤ s.p + 1 := by
    unfold lineRead
    split
    · exact Nat.le_succ s.p
    · exact le_rfl
  have same : (into m s.p (.byte b)).bytes (s.lineRead b).p =
      (s.lineRead b).buf.bytes (s.lineRead b).p := by
    rw [lineRead_buf]
    exact Memory.bytes_congr fun j lt => into_agree agree b (by omega)
  unfold handed
  rw [lineRead_frame_eq]
  simp only [frame, note, same]
  rfl

theorem endOfLine_frame (env : Env W) {s : Emu} {m : Memory} (base : List Act) {b : UInt8}
    (running : s.exited = none) (ends : s.EndsLine b) (agree : ∀ j, j < s.p → m j = s.buf j)
    (own : ∀ j, (s.handed b).Reads (asked (s.handed b).buf ≠ none) j → j ≤ s.p) :
    (s.frame m base).step env (.byte b) =
      (fun r => r.frame (into m s.p (.byte b)) base) <$> s.step env (.byte b) := by
  have seen (j : Nat) (h : (s.handed b).Reads (asked (s.handed b).buf ≠ none) j) :
      into m s.p (.byte b) j = (s.handed b).buf j :=
    (into_agree agree b (own j h)).trans (congrFun (lineRead_buf s b) j).symm
  rw [step_lineRead env running ends, step_lineRead env (s := s.frame m base) running ends]
  unfold endOfLine
  change ((s.frame m base).handed b).dispatch env >>= _ =
    _ <$> ((s.handed b).dispatch env >>= _)
  rw [handed_frame_eq base b agree, dispatch_frame env base seen, bind_map_left, map_bind]
  congr 1
  funext t
  rw [frame_quit]
  cases t.quit with
  | true => exact leave_frame env 0 t _ base
  | false => rfl

theorem readTimedOut_frame (env : Env W) (s : Emu) (m : Memory) (base : List Act) :
    (s.frame m base).readTimedOut env = (fun r => r.frame m base) <$> s.readTimedOut env := by
  unfold readTimedOut
  rw [frame_panel]
  cases s.panel.isConnected with
  | false => rfl
  | true =>
    simp only [if_true, map_bind]
    congr 1
    funext now
    by_cases late : now > s.disconnectTime
    · have late' : now > (s.frame m base).disconnectTime := late
      rw [if_pos late, if_pos late']
      exact disconnectPanel_frame env (s.note (.idle now)) m base
    · have early : ¬ now > (s.frame m base).disconnectTime := late
      rw [if_neg late, if_neg early]
      rfl

theorem step_frame_eq (env : Env W) {s : Emu} {m : Memory} (base : List Act) {r : SerialRead}
    (running : s.exited = none) (agree : ∀ j, j < s.p → m j = s.buf j)
    (own : ∀ b, r = .byte b → s.EndsLine b →
      ∀ j, (s.handed b).Reads (asked (s.handed b).buf ≠ none) j → j ≤ s.p) :
    (s.frame m base).step env r = (fun x => x.frame (into m s.p r) base) <$> s.step env r := by
  cases r with
  | timedOut =>
    have on : ¬ s.exited.isSome = true := by simp [running]
    have on' : ¬ (s.frame m base).exited.isSome = true := on
    rw [step, if_neg on', step, if_neg on]
    exact readTimedOut_frame env s m base
  | failed =>
    rw [step_failed env running, step_failed env (s := s.frame m base) running]
    exact leave_frame env 1 s m base
  | byte b =>
    by_cases ends : s.EndsLine b
    · exact endOfLine_frame env base running ends agree (own b rfl ends)
    · have plain : b ≠ ascii '\n' := (not_or.mp ends).1
      rw [step_stored env running ends, step_stored env (s := s.frame m base) running ends,
        map_pure, into, if_neg plain]
      rfl

end Emu
end FlatPanel
