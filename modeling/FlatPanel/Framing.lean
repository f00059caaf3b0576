import FlatPanel.Halting
import FlatPanel.Library.Framing
import FlatPanel.Lines

/-! What the inner loop hands to the switch: the client's lines, each once and whole, however
the bytes arrive, until one of them is a quit. -/
namespace FlatPanel

open Program Framing

variable {W : Type}

def Act.line : Act → Option (List UInt8)
  | .request line => some line
  | _ => none

/-- The reads deliver the lines, a newline after each, with any time-outs in between. -/
structure Delivers (rs : List SerialRead) (ls : List Line) : Prop where
  got : rs.filterMap SerialRead.got = join (ascii '\n') (ls.map Line.bytes)
  live : .failed ∉ rs

/-- The longest line that fits into the buffer with its NUL. -/
def longest : Nat := bufSize - 2

namespace Emu

def lines (s : Emu) : List (List UInt8) := (s.log.filterMap Act.line).reverse

/-- The line is a quit to the switch, which compares up to the first NUL. -/
def isQuit (line : List UInt8) : Bool := decide (line.takeWhile (· ≠ 0) = quitText)

/-- The switch is entered once for a newline, with the line at the front of the buffer and a
NUL after it, and otherwise not. -/
structure HandsOver (s : Emu) (r : SerialRead) (s' : Emu) : Prop where
  entered : s.Switches r → r = .byte (ascii '\n') ∧ ∃ line, s'.lines = s.lines ++ [line] ∧
    (s.handed (ascii '\n')).buf.bytes line.length = line ∧
    (s.handed (ascii '\n')).buf line.length = 0
  passed : ¬ s.Switches r → s'.lines = s.lines

/-- The `Read` is given a place inside the buffer and nothing else of it changes; `rem` counts
down from at least one. -/
def InBounds (s s' : Emu) : Prop :=
  s.exited = none → s.p ≤ longest ∧ 1 ≤ s.rem ∧ s.p + s.rem = bufSize - 1 ∧
    ∀ j, s'.buf j ≠ s.buf j → j = s.p

theorem step_inBounds (env : Env W) {s : Emu} (awake : s.Awake) (reading : s.Reading)
    (r : SerialRead) (w : W) : (s.step env r).Ensures w (fun s' _ => s.InBounds s') := by
  intro s' w' hs running
  obtain ⟨whole, room⟩ := reading running
  obtain ⟨written, _⟩ := step_agree env (m := s.buf) awake running (fun _ _ => rfl) r w s' w' hs
  refine ⟨?_, room, whole, fun j changed => ?_⟩
  · simp only [longest, bufSize] at *
    omega
  · by_contra other
    rw [written, into_other s.buf other r] at changed
    exact changed rfl

theorem serve_lines {env : Env W} {s s' : Emu} {w w' : W} {op : Option SetOp}
    {answer : Memory → AlnitakEmu → List UInt8}
    (h : (s.serve env op answer).run w = some (s', w')) : s'.lines = s.lines := by
  apply congrArg List.reverse
  apply recorded_of_log _ (serve_log h)
  intro a inside
  cases a <;> first | rfl | contradiction

def text (s : Emu) : List UInt8 := s.buf.bytes s.p

theorem text_stored (s : Emu) (b : UInt8) : (s.stored b).text = s.text ++ [b] := by
  have before : (s.buf.store s.p b).bytes s.p = s.buf.bytes s.p :=
    Memory.bytes_congr fun j lt => Memory.store_other _ _ (Nat.ne_of_lt lt)
  simp only [text, stored, Memory.bytes, List.range_succ, List.map_append, List.map_cons,
    List.map_nil, Memory.store_same]
  exact congrArg (· ++ [b]) before

theorem handed_newline (s : Emu) :
    (s.handed (ascii '\n')).lines = s.lines ++ [s.text] ∧
    (s.handed (ascii '\n')).buf.bytes s.p = s.text ∧
    (s.handed (ascii '\n')).buf s.p = 0 := by
  have front : (s.lineRead (ascii '\n')).buf.bytes s.p = s.text := by
    apply Memory.bytes_congr
    intro j lt
    rw [lineRead_buf, into_other s.buf (Nat.ne_of_lt lt)]
  have place : (s.lineRead (ascii '\n')).p = s.p := by simp [lineRead]
  refine ⟨?_, front, ?_⟩
  · simp only [lines, handed, note, place, front, (lineRead_frame s _).2.2.2,
      List.filterMap_cons, Act.line, List.reverse_cons]
  · change (s.lineRead (ascii '\n')).buf s.p = 0
    rw [lineRead_buf]
    simp [into]

theorem handed_quit {s : Emu} (room : s.p < bufSize) :
    (s.handed (ascii '\n')).buf.cstring 0 bufSize = quitText ↔ isQuit s.text = true := by
  obtain ⟨_, front, nul⟩ := handed_newline s
  have held : (s.handed (ascii '\n')).buf.cstring 0 bufSize = s.text.takeWhile (· ≠ 0) := by
    apply Memory.cstring_stored
    · rw [text, Memory.bytes_length]
      exact room
    · intro j lt
      rw [Nat.zero_add]
      simp only [← front]
      simp [Memory.bytes]
    · rw [Nat.zero_add, text, Memory.bytes_length]
      exact nul
  rw [held, isQuit, decide_eq_true_iff]

/-- What is handed over already and what the reads to come will hand over is the same at every
point of the run. -/
structure Ahead (total : List (List UInt8)) (rest : List SerialRead) (s : Emu) : Prop where
  awake : s.Awake
  reading : s.Reading
  live : .failed ∉ rest
  fits : s.exited = none →
    Fits (ascii '\n') longest s.text (rest.filterMap SerialRead.got)
  all : s.lines ++ (if s.exited = none then
    upTo isQuit (frames (ascii '\n') s.text (rest.filterMap SerialRead.got)) else []) = total

theorem Ahead.inside {total : List (List UInt8)} {rest : List SerialRead} {s : Emu}
    (h : Ahead total rest s) (running : s.exited = none) : s.p < bufSize := by
  obtain ⟨whole, _⟩ := h.reading running
  rw [bufSize] at *
  omega

theorem Ahead.newline {total : List (List UInt8)} {rest : List SerialRead} {s : Emu} {b : UInt8}
    (h : Ahead total (.byte b :: rest) s) (running : s.exited = none) (ends : s.EndsLine b) :
    b = ascii '\n' := by
  obtain ⟨whole, _⟩ := h.reading running
  by_contra other
  have last : s.rem ≤ 1 := ends.resolve_left other
  have fits := h.fits running
  simp only [List.filterMap_cons, SerialRead.got, Fits, if_neg other] at fits
  have length := fits.2.length
  simp only [text, List.length_append, Memory.bytes_length, List.length_singleton, longest,
    bufSize] at *
  omega

theorem asked_of_quit {buf : Memory} (quits : buf.cstring 0 bufSize = quitText) :
    buf 1 = ascii 'u' ∧ asked buf = none := by
  have second : buf 1 = ascii 'u' := ((quit_iff buf).mp quits).1 1 (by decide)
  have letter : Letter.ofByte (buf 1) = .u := by rw [second]; rfl
  refine ⟨second, ?_⟩
  unfold asked
  rw [letter]

theorem HandsOver.of_newline {s s' : Emu} (running : s.exited = none)
    (more : s'.lines = s.lines ++ [s.text]) : s.HandsOver (.byte (ascii '\n')) s' := by
  obtain ⟨_, front, nul⟩ := handed_newline s
  have length : s.text.length = s.p := Memory.bytes_length s.buf s.p
  constructor
  · exact fun _ => ⟨rfl, s.text, more, by rw [length]; exact front, by rw [length]; exact nul⟩
  · exact fun passes => absurd ⟨running, ascii '\n', rfl, .inl rfl⟩ passes

theorem Ahead.of_newline {total : List (List UInt8)} {rest : List SerialRead} {s s' : Emu}
    (h : Ahead total (.byte (ascii '\n') :: rest) s) (running : s.exited = none)
    (awake : s'.Awake) (reading : s'.Reading) (more : s'.lines = s.lines ++ [s.text])
    (text : s'.exited = none → s'.text = [])
    (quits : s'.exited = none ↔ isQuit s.text = false) : Ahead total rest s' := by
  have fits := h.fits running
  have all := h.all
  simp only [List.filterMap_cons, SerialRead.got, Fits, if_true] at fits
  simp only [List.filterMap_cons, SerialRead.got, frames, if_true, if_pos running, upTo] at all
  refine ⟨awake, reading, fun mem => h.live (List.mem_cons_of_mem _ mem), ?_, ?_⟩
  · intro running'
    rw [text running']
    exact fits.2
  · rw [more, List.append_assoc]
    by_cases running' : s'.exited = none
    · rw [if_pos running', text running']
      rw [if_neg (by simp [quits.mp running'])] at all
      exact all
    · have quit : isQuit s.text = true := by
        rw [← Bool.not_eq_false]
        exact fun plain => running' (quits.mpr plain)
      rw [if_neg running']
      rw [if_pos quit] at all
      exact all

theorem step_ahead (env : Env W) {total : List (List UInt8)} {r : SerialRead}
    {rest : List SerialRead} {s s' : Emu} {w w' : W} (h : Ahead total (r :: rest) s)
    (hs : (s.step env r).run w = some (s', w')) : s.HandsOver r s' ∧ Ahead total rest s' := by
  have awake' := step_awake env h.awake r w s' w' hs
  have reading' := step_reading env h.awake h.reading r w s' w' hs
  have live' : .failed ∉ rest := fun mem => h.live (List.mem_cons_of_mem r mem)
  have fits := h.fits
  have all := h.all
  cases step_cases env h.awake r w s' w' hs with
  | ended gone =>
    refine ⟨⟨fun enters => absurd enters.1 gone, fun _ => rfl⟩, awake', reading', live',
      fun running => absurd running gone, ?_⟩
    rw [if_neg gone] at all ⊢
    exact all
  | unconnected _ _ | waited _ _ _ _ | expired _ _ _ _ _ =>
    exact ⟨⟨fun enters => absurd enters (not_switches_silent rfl), fun _ => rfl⟩,
      awake', reading', live', fits, all⟩
  | portFailed _ _ => exact absurd (List.mem_cons_self ..) h.live
  | @inLine b running more =>
    have plain : b ≠ ascii '\n' := (not_or.mp more).1
    have fits := fits running
    simp only [List.filterMap_cons, SerialRead.got, Fits, if_neg plain] at fits
    simp only [List.filterMap_cons, SerialRead.got, frames, if_neg plain, if_pos running] at all
    have passes : ¬ s.Switches (.byte b) := by
      rintro ⟨_, c, byte, ends⟩
      obtain rfl := SerialRead.byte.inj byte
      exact more ends
    refine ⟨⟨fun enters => absurd enters passes, fun _ => rfl⟩, awake', reading', live', ?_, ?_⟩
    · intro _
      rw [text_stored]
      exact fits.2
    · rw [if_pos (show (s.stored b).exited = none from running), text_stored]
      exact all
  | @served b op s₁ _ running ends asks serves =>
    obtain rfl := h.newline running ends
    have more : s₁.nextLine.lines = s.lines ++ [s.text] :=
      (serve_lines serves).trans (handed_newline s).1
    have goes : s₁.nextLine.exited = none :=
      (serve_frame serves).2.2.trans ((handed_frame s _).2.2.trans running)
    refine ⟨.of_newline running more, h.of_newline running awake' reading' more (fun _ => rfl) ?_⟩
    refine iff_of_true goes ?_
    rw [← Bool.not_eq_true, ← handed_quit (h.inside running)]
    intro quits
    rw [(asked_of_quit quits).2] at asks
    contradiction
  | @skipped b running ends asks other =>
    obtain rfl := h.newline running ends
    have more : (s.handed (ascii '\n')).nextLine.lines = s.lines ++ [s.text] :=
      (handed_newline s).1
    have goes : (s.handed (ascii '\n')).nextLine.exited = none :=
      (handed_frame s _).2.2.trans running
    refine ⟨.of_newline running more, h.of_newline running awake' reading' more (fun _ => rfl) ?_⟩
    refine iff_of_true goes ?_
    rw [← Bool.not_eq_true, ← handed_quit (h.inside running)]
    intro quits
    rcases other with text | letter
    · exact text quits
    · exact letter (asked_of_quit quits).1
  | @quits b _ running ends _ text _ =>
    obtain rfl := h.newline running ends
    refine ⟨.of_newline running (handed_newline s).1, h.of_newline running awake' reading'
      (handed_newline s).1 (fun live => by contradiction) ?_⟩
    refine iff_of_false (fun live => by contradiction) ?_
    rw [Bool.not_eq_false, ← handed_quit (h.inside running)]
    exact text

theorem start_ahead (buf : Memory) {rs : List SerialRead} {ls : List Line}
    (delivered : Delivers rs ls) (short : ∀ l ∈ ls, l.bytes.length ≤ longest) :
    Ahead (upTo isQuit (ls.map Line.bytes)) rs (start buf) := by
  have plain : ∀ l ∈ ls.map Line.bytes, ascii '\n' ∉ l := by
    intro l mem
    obtain ⟨line, _, rfl⟩ := List.mem_map.mp mem
    exact fun newline => line.plain _ newline rfl
  have lengths : ∀ l ∈ ls.map Line.bytes, l.length ≤ longest := by
    intro l mem
    obtain ⟨line, inside, rfl⟩ := List.mem_map.mp mem
    exact short line inside
  refine ⟨start_awake buf, start_reading buf, delivered.live, fun _ => ?_, ?_⟩
  · rw [delivered.got]
    exact fits_join plain lengths
  · rw [if_pos (show (start buf).exited = none from rfl), delivered.got]
    exact congrArg (upTo isQuit) (frames_join plain)

/-- Against any library and device: what has been handed over at the end of a run that returns,
and how each step of any run hands over. -/
structure Framed (env : Env W) (buf : Memory) (w : W) (rs : List SerialRead)
    (lines : List (List UInt8)) : Prop where
  handed : (main env buf rs).Ensures w (fun s _ => s.lines = lines)
  each : Runs.EachStep (step env) (fun s _ r s' _ => s.HandsOver r s') (start buf) w rs

theorem framed (env : Env W) (buf : Memory) (w : W) {rs : List SerialRead} {ls : List Line}
    (delivered : Delivers rs ls) (short : ∀ l ∈ ls, l.bytes.length ≤ longest) :
    Framed env buf w rs (upTo isQuit (ls.map Line.bytes)) := by
  obtain ⟨each, last⟩ := Runs.eachStep_of_ahead (I := fun rest s (_ : W) =>
      Ahead (upTo isQuit (ls.map Line.bytes)) rest s)
    (fun _ _ _ _ _ _ ahead hs => step_ahead env ahead hs) rs (w := w)
    (start_ahead buf delivered short)
  refine ⟨fun s w' reached => ?_, each⟩
  have all := (last s w' reached).all
  simpa [frames, upTo] using all

end Emu

/-- Lines that fit are handed over one by one, up to the first quit; and whatever the client
sends, the buffer is written only inside its bounds. -/
theorem lines_framed :
    (∀ (rs : List SerialRead) (ls : List Line), Delivers rs ls →
      (∀ l ∈ ls, l.bytes.length ≤ 1022) →
      (∀ (W : Type) (env : Env W) (buf : Memory) (w : W),
        Emu.Framed env buf w rs (upTo Emu.isQuit (ls.map Line.bytes))) ∧
      ∀ (b : Behaviour) (buf : Memory) (dev : Device),
        (Emu.main (Device.env b) buf rs).Returns dev (fun s _ =>
          s.lines = upTo Emu.isQuit (ls.map Line.bytes))) ∧
    ∀ (W : Type) (env : Env W) (buf : Memory) (rs : List SerialRead) (w : W),
      Runs.EachStep (Emu.step env) (fun s _ _ s' _ => s.InBounds s') (Emu.start buf) w rs := by
  constructor
  · intro rs ls delivered short
    constructor
    · exact fun W env buf w => Emu.framed env buf w delivered short
    · intro b buf dev
      obtain ⟨s, dev', reached, _⟩ := Emu.main_halts b buf dev rs
      exact ⟨s, dev', reached, (Emu.framed _ buf dev delivered short).handed s dev' reached⟩
  · intro W env buf rs w
    apply Runs.eachStep_of_keeps (I := fun s _ => s.Awake ∧ s.Reading)
    · intro s w r ⟨awake, reading⟩ s' w' hs
      exact ⟨Emu.step_awake env awake r w s' w' hs, Emu.step_reading env awake reading r w s' w' hs⟩
    · intro s w r s' w' ⟨awake, reading⟩ hs
      exact Emu.step_inBounds env awake reading r w s' w' hs
    · exact ⟨Emu.start_awake buf, Emu.start_reading buf⟩

def Line.quit : Line where
  bytes := Emu.quitText
  plain := by
    rintro b mem rfl
    exact absurd mem (by decide)

def Line.state : Line where
  bytes := [ascii 'x', ascii 'S']
  plain := by
    rintro b mem rfl
    exact absurd mem (by decide)

def slowly (ls : List Line) : List SerialRead :=
  (join (ascii '\n') (ls.map Line.bytes)).flatMap fun b => [.byte b, .timedOut]

theorem slowly_delivers (ls : List Line) : Delivers (slowly ls) ls := by
  constructor
  · rw [slowly, List.filterMap_flatMap]
    simp [SerialRead.got, List.filterMap_cons]
  · simp [slowly]

theorem lines_not_always_framed : Delivers (slowly [.quit, .state]) [.quit, .state] ∧
    ¬ (Emu.main (Device.env .steady) (fun _ => 0) (slowly [.quit, .state])).Ensures
      (Device.idle 0) (fun s _ => s.lines = [Line.quit, .state].map Line.bytes) := by
  refine ⟨slowly_delivers _, fun all => ?_⟩
  have framed := Emu.framed (Device.env .steady) (fun _ => 0) (Device.idle 0)
    (slowly_delivers [.quit, .state]) (by decide)
  obtain ⟨s, dev, reached, _⟩ := Emu.main_halts .steady (fun _ => 0) (Device.idle 0)
    (slowly [.quit, .state])
  exact absurd ((framed.handed s dev reached).symm.trans (all s dev reached)) (by decide)

theorem lines_framed_slowly :
    (Emu.main (Device.env .steady) (fun _ => 0) (slowly [.state, .quit])).Returns
      (Device.idle 0) (fun s _ => s.lines = upTo Emu.isQuit ([Line.state, .quit].map Line.bytes)) :=
  (lines_framed.1 _ _ (slowly_delivers [.state, .quit]) (by decide)).2 .steady (fun _ => 0)
    (Device.idle 0)

end FlatPanel
