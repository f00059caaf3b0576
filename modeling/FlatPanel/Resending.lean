import FlatPanel.Lamp

/-! A client that gets no answer may send its line again. A line that is heard several times in
a row leaves the lamp as hearing it once does, and is answered with the same words each time. -/
namespace FlatPanel

open Program Framing

theorem Told.apply_apply (t : Told) (inten : Nat) (q : Request) :
    (t.apply inten q).2.apply (t.apply inten q).1 q = t.apply inten q := by
  cases q with
  | state | light _ | query | version => rfl
  | level v text =>
    refine Prod.ext ?_ rfl
    change (if (if inten = 0 then 0 else IntenMap.level v.toNat) = 0 then 0
      else IntenMap.level v.toNat) = if inten = 0 then 0 else IntenMap.level v.toNat
    by_cases dark : inten = 0
    · rw [if_pos dark, if_pos rfl]
    · rw [if_neg dark]
      split
      · exact Eq.symm ‹_›
      · rfl

namespace Lamp

def answer (m : Lamp) (q : Request) : List UInt8 :=
  ((m.told.getD (.found m.inten)).apply m.inten q).2.answer q

theorem ask_answers (m : Lamp) (q : Request) : (m.ask q).answers = m.answer q :: m.answers := rfl

theorem ask_again (m : Lamp) (q : Request) : ((m.ask q).ask q).inten = (m.ask q).inten ∧
    ((m.ask q).ask q).told = (m.ask q).told ∧ (m.ask q).answer q = m.answer q := by
  have again := (m.told.getD (.found m.inten)).apply_apply m.inten q
  refine ⟨congrArg Prod.fst again, congrArg (fun r : Nat × Told => some r.2) again, ?_⟩
  exact congrArg (fun r : Nat × Told => r.2.answer q) again

/-- The second lamp shows and keeps what the first does, and has answered the same, with some
answers given several times in a row. -/
structure Echoes (m k : Lamp) : Prop where
  inten : k.inten = m.inten
  told : k.told = m.told
  answers : ∃ ps : List (List UInt8 × Nat), m.answers = ps.map Prod.fst ∧ k.answers = repeated ps

theorem Echoes.leave {m k : Lamp} (h : Echoes m k) : Echoes m.leave k.leave :=
  ⟨h.inten, rfl, h.answers⟩

theorem Echoes.answer {m k : Lamp} (h : Echoes m k) (q : Request) : k.answer q = m.answer q := by
  rw [Lamp.answer, h.inten, h.told, Lamp.answer]

theorem Echoes.ask {m k : Lamp} (h : Echoes m k) (q : Request) : Echoes (m.ask q) (k.ask q) := by
  obtain ⟨ps, once, more⟩ := h.answers
  refine ⟨?_, ?_, (m.answer q, 0) :: ps, ?_, ?_⟩
  · simp only [Lamp.ask, h.inten, h.told]
  · simp only [Lamp.ask, h.inten, h.told]
  · rw [ask_answers, once]
    rfl
  · rw [ask_answers, h.answer, more]
    rfl

theorem Echoes.ask_again {m k : Lamp} {q : Request} (h : Echoes (m.ask q) k) :
    Echoes (m.ask q) (k.ask q) := by
  obtain ⟨inten, told, same⟩ := m.ask_again q
  have next := h.ask q
  obtain ⟨ps, once, more⟩ := h.answers
  rw [ask_answers] at once
  obtain ⟨p, ps, rfl, first, once⟩ := List.map_eq_cons_iff.mp once.symm
  refine ⟨next.inten.trans inten, next.told.trans told, (p.1, p.2 + 1) :: ps, ?_, ?_⟩
  · rw [ask_answers, ← first, ← once]
    rfl
  · rw [ask_answers, h.answer, same, more, ← first]
    rfl

theorem Echoes.next {m k : Lamp} (h : Echoes m k) (e : Event) : Echoes (m.next e) (k.next e) := by
  cases e with
  | idle => exact h.leave
  | line l =>
    simp only [Lamp.next]
    split
    · exact h.leave
    · cases Request.ofLine l with
      | none => exact h
      | some q => exact h.ask q

theorem Echoes.next_again {m k : Lamp} {l : List UInt8} (h : Echoes (m.next (.line l)) k) :
    Echoes (m.next (.line l)) (k.next (.line l)) := by
  simp only [Lamp.next] at *
  split at h
  · rename_i quits
    simp only [quits, if_true]
    exact ⟨h.inten, rfl, h.answers⟩
  · rename_i goes
    simp only [goes, Bool.false_eq_true, if_false]
    cases asks : Request.ofLine l with
    | none =>
      rw [asks] at h
      exact h
    | some q =>
      rw [asks] at h
      exact h.ask_again

theorem Echoes.line {m k : Lamp} (h : Echoes m k) (l : List UInt8) (n : Nat) :
    Echoes (m.next (.line l)) (((List.replicate (n + 1) l).map .line).foldl Lamp.next k) := by
  induction n with
  | zero => exact h.next (.line l)
  | succ n ih =>
    rw [List.replicate_succ', List.map_append, List.foldl_append]
    exact ih.next_again

theorem Echoes.lines {m k : Lamp} (h : Echoes m k) (ps : List (List UInt8 × Nat)) :
    Echoes (((ps.map Prod.fst).map .line).foldl Lamp.next m)
      (((repeated ps).map .line).foldl Lamp.next k) := by
  induction ps generalizing m k with
  | nil => exact h
  | cons p ps ih =>
    rw [repeated, List.flatMap_cons, List.map_append, List.foldl_append]
    exact ih (h.line p.1 p.2)

theorem events_of_lines {es : List Event} (none : es.countP Event.isIdle = 0) :
    es = (es.filterMap Event.line?).map .line := by
  induction es with
  | nil => rfl
  | cons e es ih =>
    cases e with
    | idle => simp [Event.isIdle] at none
    | line l =>
      rw [List.countP_cons_of_neg (by simp [Event.isIdle])] at none
      exact congrArg (Event.line l :: ·) (ih none)

end Lamp

theorem Emu.Plays.lines_only {m : Lamp} {waits : Nat} {rest : List SerialRead} {s : Emu}
    {dev : Device} {es : List Lamp.Event} (h : Plays m waits rest s dev es) (none : s.idles = []) :
    s.lamp dev = (s.lines.map .line).foldl Lamp.next m := by
  have idles := h.idles
  rw [none] at idles
  rw [h.lamp, h.lines, ← Lamp.events_of_lines idles.symm]

/-- Of two clients the second sends each line once or more times in a row. Unless the panel is
closed at a time-out in between, both have the same lamp in the end, and the second has been told
what the first has, some of it several times in a row. -/
theorem Lamp.resending_harmless {b : Behaviour} (all : b.Faultless) (buf buf' : Memory)
    {dev : Device} (word : dev.inten < 65536) {rs rs' : List SerialRead} (ps : List (Line × Nat))
    (once : Delivers rs (ps.map Prod.fst)) (more : Delivers rs' (repeated ps))
    (fits : ∀ p ∈ ps, 1 ≤ p.1.bytes.length ∧ p.1.bytes.length ≤ longest) :
    (Emu.main (Device.env b) buf rs).Returns dev (fun s dev₁ =>
      (Emu.main (Device.env b) buf' rs').Returns dev (fun t dev₂ =>
        s.idles = [] → t.idles = [] → Echoes (s.lamp dev₁) (t.lamp dev₂))) := by
  have fits' : ∀ l ∈ ps.map Prod.fst, 1 ≤ l.bytes.length ∧ l.bytes.length ≤ longest := by
    intro l mem
    obtain ⟨p, inside, rfl⟩ := List.mem_map.mp mem
    exact fits p inside
  refine (Emu.main_plays all buf word once fits').mono ?_
  rintro s dev₁ ⟨handed, _, plays⟩
  refine (Emu.main_plays all buf' word more fun l mem => fits' l (mem_repeated.mp mem)).mono ?_
  rintro t dev₂ ⟨handed', _, plays'⟩ none none'
  obtain ⟨qs, first, second⟩ := upTo_repeated Emu.isQuit (ps.map (Prod.map Line.bytes id))
  rw [List.map_map] at handed
  rw [List.map_map] at first
  rw [plays.lines_only none, plays'.lines_only none', handed, handed', map_repeated, second]
  rw [show upTo Emu.isQuit (ps.map (Line.bytes ∘ Prod.fst)) = qs.map Prod.fst from first]
  exact Echoes.lines ⟨rfl, rfl, [], rfl, rfl⟩ qs

theorem Lamp.resending_harmless_slowly :
    (Emu.main (Device.env .steady) (fun _ => 0) (slowly [.state, .quit])).Returns (Device.idle 5)
      (fun s dev₁ => (Emu.main (Device.env .steady) (fun _ => 0)
        (slowly [.state, .state, .state, .quit])).Returns (Device.idle 5) (fun t dev₂ =>
          s.idles = [] → t.idles = [] → Echoes (s.lamp dev₁) (t.lamp dev₂))) :=
  resending_harmless Behaviour.steady_faultless _ _ (by decide) [(.state, 2), (.quit, 0)]
    (slowly_delivers _) (slowly_delivers _) (by decide)

end FlatPanel
