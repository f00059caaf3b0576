import FlatPanel.Steps

/-! The inner loop of main. It stores a line byte by byte over whatever the buffer held
before, and closes it with a NUL only if a newline ends it. -/
namespace FlatPanel

open Program

namespace Emu

variable {W : Type}

/-- The free bytes of the buffer are those after `p`, and one at least is left. -/
def Reading (s : Emu) : Prop := s.exited = none → s.p + s.rem = bufSize - 1 ∧ 0 < s.rem

theorem room_for_line : 0 < bufSize - 1 := by decide

theorem start_reading (buf : Memory) : (start buf).Reading := fun _ => ⟨rfl, room_for_line⟩

theorem step_reading (env : Env W) {s : Emu} (awake : s.Awake) (h : s.Reading) (r : SerialRead)
    (w : W) : (s.step env r).Ensures w (fun s' _ => s'.Reading) := by
  refine (step_cases env awake r w).mono ?_
  intro s' w' way running'
  cases way with
  | ended gone => exact absurd running' gone
  | unconnected running _ | waited running _ _ _ | expired running _ _ _ _ => exact h running
  | portFailed _ _ | quits _ _ _ _ _ => contradiction
  | inLine running more =>
    obtain ⟨whole, _⟩ := h running
    have left : 1 < s.rem := Nat.lt_of_not_le fun full => more (.inr full)
    simp only [stored]
    omega
  | served _ _ _ _ | skipped _ _ _ _ => exact ⟨rfl, room_for_line⟩

structure AtLine (s : Emu) : Prop where
  running : s.exited = none
  p : s.p = 0
  rem : s.rem = bufSize - 1

theorem Reading.atLine {s : Emu} (h : s.Reading) (running : s.exited = none) (p : s.p = 0) :
    s.AtLine := by
  obtain ⟨whole, _⟩ := h running
  exact ⟨running, p, by omega⟩

/-- A buffer with nothing in it has all its room, in every state that main reaches. -/
theorem main_atLine {env : Env W} {buf : Memory} {rs : List SerialRead} {s : Emu} {w w₁ : W}
    (reached : (main env buf rs).run w = some (s, w₁)) (running : s.exited = none)
    (fresh : s.p = 0) : s.Awake ∧ s.AtLine := by
  have keeps (t : Emu) (v : W) (r : SerialRead) (h : t.Awake ∧ t.Reading) :
      (t.step env r).Ensures v (fun t' _ => t'.Awake ∧ t'.Reading) :=
    fun t' v' ht => ⟨step_awake env h.1 r v t' v' ht, step_reading env h.1 h.2 r v t' v' ht⟩
  obtain ⟨awake, reading⟩ := Runs.ensures_run (I := fun t _ => t.Awake ∧ t.Reading) keeps rs
    ⟨start_awake buf, start_reading buf⟩ s w₁ reached
  exact ⟨awake, reading.atLine running fresh⟩

def afterText (s : Emu) (l : List UInt8) : Emu :=
  { s with buf := s.buf.fill l, p := l.length, rem := bufSize - 1 - l.length }

def afterLine (s : Emu) (l : List UInt8) : Emu :=
  { s with buf := s.buf.fill (l ++ [0]), p := l.length, rem := bufSize - 1 - l.length }

@[simp] theorem afterLine_buf (s : Emu) (l : List UInt8) :
    (s.afterLine l).buf = s.buf.fill (l ++ [0]) := rfl

theorem stored_text (s : Emu) (l : List UInt8) (b : UInt8) :
    (s.afterText l).stored b = s.afterText (l ++ [b]) := by
  simp only [stored, afterText, Memory.fill_snoc, List.length_append, List.length_singleton]
  rfl

theorem read_text (env : Env W) {s : Emu} (at_line : s.AtLine) {l : List UInt8}
    (plain : ∀ b ∈ l, b ≠ ascii '\n') (room : l.length < bufSize - 1) :
    Runs.run (step env) s (l.map .byte) = pure (s.afterText l) := by
  induction l using List.reverseRecOn with
  | nil =>
    have same : s.afterText [] = s := by
      obtain ⟨running, p, rem⟩ := at_line
      cases s
      simp_all [afterText]
    rw [same]
    rfl
  | append_singleton l b ih =>
    rw [List.length_append, List.length_singleton] at room
    have before := ih (fun c hc => plain c (by simp [hc])) (by omega)
    have more : ¬ (s.afterText l).EndsLine b := by
      rintro (newline | full)
      · exact plain b (by simp) newline
      · simp only [afterText] at full
        omega
    have last := step_stored env (s := s.afterText l) at_line.running more
    rw [List.map_append, Runs.run_append, before, pure_bind]
    simp only [List.map_cons, List.map_nil, Runs.run, last, pure_bind, stored_text]

theorem read_line (env : Env W) {s : Emu} (at_line : s.AtLine) {l : List UInt8}
    (plain : ∀ b ∈ l, b ≠ ascii '\n') (room : l.length < bufSize - 1) :
    Runs.run (step env) s (l.map .byte ++ [.byte (ascii '\n')]) = (s.afterLine l).endOfLine env := by
  have last := step_lineRead env (s := s.afterText l) (b := ascii '\n') at_line.running (.inl rfl)
  have closed : ((s.buf.fill l).store l.length (ascii '\n')).store l.length 0 =
      s.buf.fill (l ++ [0]) := by
    rw [Memory.store_store, Memory.fill_snoc]
  have read : (s.afterText l).lineRead (ascii '\n') = s.afterLine l := by
    rw [lineRead, if_pos rfl, afterText, closed, afterLine]
  rw [Runs.run_append, read_text env at_line plain room, pure_bind]
  simp only [Runs.run, bind_pure, last, read]

end Emu
end FlatPanel
