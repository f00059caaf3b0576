import FlatPanel.Acknowledge
import FlatPanel.Faultless
import FlatPanel.Frame
import FlatPanel.Reader

/-! Whether a line of the client is one request, decided by its own bytes. The switch looks
at `buf[1]`, and a B request at `buf[2]` to `buf[4]`, however many bytes there were, and a
line that fills the buffer is handed over without the NUL and in several pieces. -/
namespace FlatPanel

open Program CString

variable {W : Type}

/-- The bytes of a line, without the newline that ends it. -/
structure Line where
  bytes : List UInt8
  plain : ∀ b ∈ bytes, b ≠ ascii '\n'

def SerialRead.got : SerialRead → Option UInt8
  | .byte b => some b
  | .timedOut | .failed => none

/-- The reads deliver the line and its newline, whatever else happens in between. -/
def Line.SentBy (l : Line) (rs : List SerialRead) : Prop :=
  rs.filterMap SerialRead.got = l.bytes ++ [ascii '\n']

def Act.isRequest : Act → Bool
  | .request _ => true
  | _ => false

namespace Emu

def dispatches (s : Emu) : Nat := s.log.countP Act.isRequest

/-- The switch, and the branch it takes, look at nothing but what was stored since the line
began. A line that is handed over in two pieces is not one request to begin with. -/
def OwnBytes (s : Emu) (r : SerialRead) (s' : Emu) : Prop :=
  ∀ b, r = .byte b → s.exited = none → s.EndsLine b →
    ∀ j, (s.handed b).Reads (s'.responses ≠ s.responses) j → j ≤ s.p

/-- What a line does from a state in which it begins: it is one request; its own bytes decide
which; and over any other buffer, after any other past, the same is done and answered. -/
structure Decided (env : Env W) (rs : List SerialRead) (s : Emu) (w : W) : Prop where
  once : (Runs.run (step env) s rs).Ensures w (fun s' _ => s'.dispatches ≤ s.dispatches + 1)
  own : Runs.EachStep (step env) (fun s _ r s' _ => s.OwnBytes r s') s w rs
  same : ∀ m past, (Runs.run (step env) s rs).Ensures w (fun s' w' => ∃ acts m',
    s'.log = acts ++ s.log ∧
    (Runs.run (step env) { s with buf := m, log := past } rs).run w =
      some ({ s' with buf := m', log := acts ++ past }, w'))

end Emu

/-- In every run of main that gets to the start of the line. -/
def Line.OneRequest (l : Line) : Prop :=
  ∀ (W : Type) (env : Env W) (buf : Memory) (before rs : List SerialRead) (w w₁ : W) (s : Emu),
    (Emu.main env buf before).run w = some (s, w₁) → s.exited = none → s.p = 0 →
    l.SentBy rs → s.Decided env rs w₁

/-- The line fits into the buffer, is not empty and is not a level of one digit; or it is a
quit followed by a NUL, after which nothing more is read. -/
def Line.SelfContained (l : Line) : Prop :=
  1 ≤ l.bytes.length ∧ l.bytes.length < bufSize - 1 ∧
    (∀ c d, isDigit d = true → l.bytes ≠ [c, ascii 'B', d]) ∨
  bufSize - 1 ≤ l.bytes.length ∧ l.bytes.take 5 = Emu.quitText ++ [0]

namespace Emu

theorem handed_dispatches (s : Emu) (b : UInt8) :
    (s.handed b).dispatches = s.dispatches + 1 := by
  obtain ⟨line, log⟩ := handed_log s b
  rw [dispatches, log]
  exact List.countP_cons_of_pos rfl

theorem serve_dispatches {env : Env W} {s s' : Emu} {w w' : W} {op : Option SetOp}
    {answer : Memory → AlnitakEmu → List UInt8}
    (h : (s.serve env op answer).run w = some (s', w')) : s'.dispatches = s.dispatches := by
  apply counted_of_log _ (serve_log h)
  intro a inside
  cases a <;> first | contradiction | exact Bool.false_ne_true

def Switches (s : Emu) (r : SerialRead) : Prop :=
  s.exited = none ∧ ∃ b, r = .byte b ∧ s.EndsLine b

/-- Entries of the switch are counted, and nothing else is; a byte that stays in the line does
not end main. -/
structure Counted (s : Emu) (r : SerialRead) (s' : Emu) : Prop where
  entered : s.Switches r → s'.dispatches = s.dispatches + 1
  passed : ¬ s.Switches r → s'.dispatches = s.dispatches
  inside : ¬ s.Switches r → s.exited = none → r ≠ .failed → s'.exited = none

theorem Counted.of_entered {s s' : Emu} {r : SerialRead} (enters : s.Switches r)
    (more : s'.dispatches = s.dispatches + 1) : Counted s r s' :=
  ⟨fun _ => more, fun passes => absurd enters passes, fun passes => absurd enters passes⟩

theorem Counted.of_passed {s s' : Emu} {r : SerialRead} (passes : ¬ s.Switches r)
    (same : s'.dispatches = s.dispatches)
    (inside : s.exited = none → r ≠ .failed → s'.exited = none) : Counted s r s' :=
  ⟨fun enters => absurd enters passes, fun _ => same, fun _ => inside⟩

theorem not_switches_silent {s : Emu} {r : SerialRead} (silent : r.got = none) :
    ¬ s.Switches r := by
  rintro ⟨_, b, rfl, _⟩
  contradiction

theorem step_counted (env : Env W) {s : Emu} (awake : s.Awake) (r : SerialRead) (w : W) :
    (s.step env r).Ensures w (fun s' _ => s.Counted r s') := by
  refine (step_cases env awake r w).mono ?_
  intro s' w' way
  cases way with
  | ended gone => exact .of_passed (fun enters => gone enters.1) rfl fun running _ => running
  | unconnected _ _ | waited _ _ _ _ =>
    exact .of_passed (not_switches_silent rfl) rfl fun running _ => running
  | expired _ _ _ _ _ => exact .of_passed (not_switches_silent rfl) rfl fun running _ => running
  | portFailed _ _ => exact .of_passed (not_switches_silent rfl) rfl fun _ live => absurd rfl live
  | inLine _ more =>
    refine .of_passed ?_ rfl fun running _ => running
    rintro ⟨_, b, byte, ends⟩
    obtain rfl := SerialRead.byte.inj byte
    exact more ends
  | @served b _ _ _ running ends _ serves =>
    exact .of_entered ⟨running, b, rfl, ends⟩
      ((serve_dispatches serves).trans (handed_dispatches s b))
  | @skipped b running ends _ _ =>
    exact .of_entered ⟨running, b, rfl, ends⟩ (handed_dispatches s b)
  | @quits b _ running ends _ _ _ =>
    exact .of_entered ⟨running, b, rfl, ends⟩ (handed_dispatches s b)

/-- Two runs that differ only in what the buffer held before the line and in what was done
before it. -/
structure Alike (past past' : List Act) (s : Emu) (w : W) (t : Emu) (w' : W) : Prop where
  awake : s.Awake
  world : w' = w
  since : ∃ (u : Emu) (m : Memory), s = u.frame u.buf past ∧ t = u.frame m past' ∧
    (s.exited = none → ∀ j, j < s.p → m j = s.buf j)

theorem step_agree (env : Env W) {s : Emu} {m : Memory} (awake : s.Awake)
    (running : s.exited = none) (agree : ∀ j, j < s.p → m j = s.buf j) (r : SerialRead) (w : W) :
    (s.step env r).Ensures w (fun s' _ => s'.buf = into s.buf s.p r ∧
      (s'.exited = none → ∀ j, j < s'.p → into m s.p r j = s'.buf j)) := by
  refine (step_cases env awake r w).mono ?_
  intro s' w' way
  cases way with
  | ended gone => exact absurd running gone
  | unconnected _ _ | waited _ _ _ _ => exact ⟨rfl, fun _ => agree⟩
  | expired _ _ _ _ _ => exact ⟨rfl, fun _ => agree⟩
  | portFailed _ _ => exact ⟨rfl, fun live => by contradiction⟩
  | @inLine b _ more =>
    have plain : b ≠ ascii '\n' := (not_or.mp more).1
    have written : (s.stored b).buf = into s.buf s.p (.byte b) := by
      simp only [into, if_neg plain]
      rfl
    refine ⟨written, fun _ j lt => ?_⟩
    rw [written]
    exact into_agree agree b (Nat.le_of_lt_succ lt)
  | @served b _ _ _ _ _ _ serves =>
    exact ⟨(serve_frame serves).1.trans (lineRead_buf s b), fun _ j lt => absurd lt (Nat.not_lt_zero j)⟩
  | @skipped b _ _ _ _ =>
    exact ⟨lineRead_buf s b, fun _ j lt => absurd lt (Nat.not_lt_zero j)⟩
  | @quits b _ _ _ _ _ _ => exact ⟨lineRead_buf s b, fun live => by contradiction⟩

/-- The bytes that could be read, were the request answered, belong to the line. -/
def OwnRequest (s : Emu) (r : SerialRead) : Prop :=
  ∀ b, r = .byte b → s.exited = none → s.EndsLine b →
    ∀ j, (s.handed b).Reads (asked (s.handed b).buf ≠ none) j → j ≤ s.p

theorem step_alike (env : Env W) {past past' : List Act} {s s' t : Emu} {w w₁ w' : W}
    {r : SerialRead} (h : Alike past past' s w t w₁) (own : s.OwnRequest r)
    (hs : (s.step env r).run w = some (s', w')) :
    (t.step env r).Returns w₁ (Alike past past' s' w') := by
  have awake' := step_awake env h.awake r w s' w' hs
  obtain ⟨awake, rfl, u, m, rfl, rfl, agree⟩ := h
  cases running : u.exited with
  | some code =>
    have gone : u.exited ≠ none := by simp [running]
    rw [step_gone env (s := u.frame u.buf past) gone] at hs
    rw [step_gone env (s := u.frame m past') gone]
    obtain ⟨rfl, rfl⟩ := (run_pure_eq _ _ _ _).mp hs
    exact returns_pure ⟨awake, rfl, u, m, rfl, rfl, agree⟩
  | none =>
    have own (b : UInt8) (byte : r = .byte b) (ends : u.EndsLine b) (j : Nat)
        (reads : (u.handed b).Reads (asked (u.handed b).buf ≠ none) j) : j ≤ u.p := by
      apply own b byte running ends j
      rw [handed_frame_eq past b fun _ _ => rfl]
      rw [← lineRead_buf u b]
      exact reads
    have left := step_frame_eq env past running (fun _ _ => rfl) own
    have right := step_frame_eq env past' running (agree running) own
    rw [left] at hs
    obtain ⟨u', hu, rfl⟩ := (run_map_eq _ _ w₁ w' s').mp hs
    obtain ⟨written, agree'⟩ :=
      step_agree env (s := u) awake running (agree running) r w₁ u' w' hu
    have follows := (run_map_eq _ (fun x => x.frame (into m u.p r) past') w₁ w' _).mpr ⟨u', hu, rfl⟩
    rw [← right] at follows
    refine ⟨_, w', follows, awake', rfl, u', _, ?_, rfl, ?_⟩
    · exact congrArg (u'.frame · past) written.symm
    · exact fun live j lt => (agree' live j lt).trans (congrFun written j)

/-- If every byte that is read belongs to the line, what was there before makes no
difference. -/
theorem same_of_own (env : Env W) {rs : List SerialRead} {s : Emu} {w : W} (awake : s.Awake)
    (fresh : s.p = 0)
    (own : Runs.EachStep (step env) (fun s _ r _ _ => s.OwnRequest r) s w rs) (m : Memory)
    (past : List Act) : (Runs.run (step env) s rs).Ensures w (fun s' w' => ∃ acts m',
      s'.log = acts ++ s.log ∧
      (Runs.run (step env) { s with buf := m, log := past } rs).run w =
        some ({ s' with buf := m', log := acts ++ past }, w')) := by
  intro s' w' reached
  have begin : Alike s.log past s w { s with buf := m, log := past } w :=
    ⟨awake, rfl, { s with log := [] }, m, rfl, rfl,
      fun _ j lt => absurd (fresh ▸ lt) (Nat.not_lt_zero j)⟩
  obtain ⟨t, v, follows, alike⟩ := Runs.run_relation (fun r => [r])
    (fun s w t v r s' w' h hs own => by
      simp only [Runs.run, bind_pure]
      exact step_alike env h own hs) rs begin own reached
  obtain ⟨_, rfl, u, m', rfl, rfl, _⟩ := alike
  rw [List.flatMap_singleton'] at follows
  exact ⟨u.log, m', rfl, follows⟩

/-- The bytes `text` of a line have been stored. -/
structure InText (s : Emu) (text : List UInt8) : Prop where
  running : s.exited = none
  p : s.p = text.length
  rem : s.rem = bufSize - 1 - text.length
  stored : ∀ j (h : j < text.length), s.buf j = text[j]

/-- While a line is read: a part of it has been stored, or it has been handed over. -/
inductive Phase (l : Line) (first : Nat) : List SerialRead → Emu → Prop where
  | within {text rest : List UInt8} {rs : List SerialRead} {s : Emu} : s.InText text →
      l.bytes = text ++ rest → rs.filterMap SerialRead.got = rest ++ [ascii '\n'] →
      text.length < bufSize - 1 → s.dispatches = first → Phase l first rs s
  | handedOver {rs : List SerialRead} {s : Emu} :
      (s.exited = none → rs.filterMap SerialRead.got = []) → s.dispatches ≤ first + 1 →
      Phase l first rs s

theorem handed_text {s : Emu} {text : List UInt8} (h : s.InText text) (b : UInt8) {j : Nat}
    (lt : j < text.length) : (s.handed b).buf j = text[j] := by
  have before : j ≠ s.p := Nat.ne_of_lt (h.p ▸ lt)
  change (s.lineRead b).buf j = _
  rw [lineRead_buf, ← h.stored j lt]
  simp only [into]
  split <;> simp [before]

theorem handed_nul {s : Emu} {text : List UInt8} (h : s.InText text) :
    (s.handed (ascii '\n')).buf text.length = 0 := by
  change (s.lineRead (ascii '\n')).buf text.length = 0
  rw [lineRead_buf, ← h.p]
  simp [into]

theorem handed_number {s : Emu} {text : List UInt8} (h : s.InText text) (two : 2 ≤ text.length)
    (room : text.length < bufSize - 1) :
    numberText (s.handed (ascii '\n')).buf = (text.drop 2).takeWhile (· ≠ 0) := by
  apply Memory.cstring_stored
  · rw [List.length_drop]
    omega
  · intro j lt
    rw [List.length_drop] at lt
    rw [handed_text h _ (by omega), List.getElem_drop]
  · rw [List.length_drop, Nat.add_sub_cancel' two]
    exact handed_nul h

theorem three_bytes {text : List UInt8} {b d : UInt8} (second : text[1]? = some b)
    (short : text.length < 4) (third : d ∈ text.drop 2) : ∃ c, text = [c, b, d] := by
  match text, second with
  | [c, e], _ => simp at third
  | [c, e, f], second =>
    obtain rfl : e = b := by simpa using second
    obtain rfl : d = f := by simpa using third
    exact ⟨c, rfl⟩
  | c :: e :: f :: g :: rest, _ =>
    simp only [List.length_cons] at short
    omega

theorem own_line {s : Emu} {text : List UInt8} (h : s.InText text) (one : 1 ≤ text.length)
    (room : text.length < bufSize - 1)
    (level : ∀ c d, isDigit d = true → text ≠ [c, ascii 'B', d]) :
    s.OwnRequest (.byte (ascii '\n')) := by
  intro b byte _ _ j reads
  obtain rfl := SerialRead.byte.inj byte
  rw [h.p]
  have nul := handed_nul h
  by_contra past
  have past : text.length < j := Nat.lt_of_not_le past
  have two {letter : Letter} (known : letter ≠ .other)
      (first : Letter.ofByte ((s.handed (ascii '\n')).buf 1) = letter) : 2 ≤ text.length := by
    by_contra less
    have last : text.length = 1 := by omega
    rw [← last, nul] at first
    exact known first.symm
  rcases reads with rfl | ⟨letter, _, before⟩ | ⟨_, before⟩ | ⟨letter, asks, _, le⟩
  · omega
  · exact before text.length (two (by decide) letter) past nul
  · have matched := List.mem_of_getElem? (before text.length past)
    rw [nul] at matched
    exact absurd matched (by decide)
  · have two := two (by decide) letter
    have number : scanUnsigned (numberText (s.handed (ascii '\n')).buf) ≠ none := by
      intro none
      simp [asked, letter, none] at asks
    rw [handed_number h two room] at number
    obtain ⟨d, hd, digit⟩ := scanUnsigned_digit number
    have third : d ∈ text.drop 2 := (List.takeWhile_subset _) hd
    have second : text[1]? = some (ascii 'B') := by
      rw [List.getElem?_eq_getElem two, ← handed_text h (ascii '\n') two,
        Letter.byte_of_ofByte (by decide) letter]
      rfl
    obtain ⟨c, short⟩ := three_bytes second (by omega) third
    exact level c d digit short

/-- What the switch finds at the front of a quit that fills the buffer. -/
structure Quits (buf : Memory) : Prop where
  asks : asked buf = none
  text : buf.cstring 0 bufSize = quitText
  letter : Letter.ofByte (buf 1) = .u
  nul : buf quitText.length = 0

theorem quits_of_front {buf : Memory} (front : ∀ j (h : j < (quitText ++ [0]).length),
    buf j = (quitText ++ [0])[j]) : Quits buf := by
  have letter : Letter.ofByte (buf 1) = .u := by rw [front 1 (by decide)]; rfl
  refine ⟨by unfold asked; rw [letter], ?_, letter, front 4 (by decide)⟩
  rw [quit_iff]
  refine ⟨fun j h => ?_, front 4 (by decide)⟩
  rw [front j (by simp; omega), List.getElem_append_left h]

theorem Quits.own {s : Emu} {j : Nat} (h : Quits s.buf)
    (reads : s.Reads (asked s.buf ≠ none) j) : j ≤ quitText.length := by
  have letter := h.letter
  rcases reads with rfl | ⟨level, _⟩ | ⟨_, before⟩ | ⟨level, _⟩
  · decide
  · rw [letter] at level
    contradiction
  · by_contra past
    have matched := before quitText.length (Nat.lt_of_not_le past)
    rw [h.nul] at matched
    exact absurd matched (by decide)
  · rw [letter] at level
    contradiction

theorem quits_handed {s : Emu} {text rest : List UInt8} (h : s.InText text) (b : UInt8)
    (long : 5 ≤ text.length) (front : (text ++ rest).take 5 = quitText ++ [0]) :
    Quits (s.handed b).buf := by
  apply quits_of_front
  intro j lt
  have lt : j < 5 := lt
  simp only [← front]
  rw [List.getElem_take, List.getElem_append_left (by omega), handed_text h b (by omega)]

theorem front_of_quit {s : Emu} {text : List UInt8} (h : s.InText text) {b : UInt8}
    (long : 5 ≤ text.length) (quits : (s.handed b).buf.cstring 0 bufSize = quitText)
    (rest : List UInt8) : (text ++ rest).take 5 = quitText ++ [0] := by
  obtain ⟨front, nul⟩ := (quit_iff _).mp quits
  apply List.ext_getElem
  · simp only [List.length_take, List.length_append]
    exact Nat.min_eq_left (by omega)
  · intro j _ lt
    have lt : j < 5 := lt
    rw [List.getElem_take, List.getElem_append_left (by omega), ← handed_text h b (by omega)]
    rcases Nat.lt_succ_iff_lt_or_eq.mp lt with before | rfl
    · rw [front j before, List.getElem_append_left before]
    · exact nul

theorem InText.of_locals {s s' : Emu} {text : List UInt8} (h : s.InText text)
    (same : s'.locals = s.locals) : s'.InText text := by
  simp only [locals, Prod.mk.injEq] at same
  obtain ⟨buf, p, rem, _, exited⟩ := same
  exact ⟨exited.trans h.running, p.trans h.p, rem.trans h.rem, by rw [buf]; exact h.stored⟩

theorem InText.snoc {s : Emu} {text : List UInt8} (h : s.InText text) (b : UInt8) :
    (s.stored b).InText (text ++ [b]) := by
  refine ⟨h.running, ?_, ?_, fun j lt => ?_⟩
  · simp [Emu.stored, h.p]
  · simp only [Emu.stored, h.rem, List.length_append, List.length_singleton]
    omega
  · rw [List.length_append, List.length_singleton] at lt
    simp only [Emu.stored, h.p]
    rcases Nat.lt_succ_iff_lt_or_eq.mp lt with before | rfl
    · rw [Memory.store_other _ _ (Nat.ne_of_lt before), List.getElem_append_left before]
      exact h.stored j before
    · simp

theorem step_waits (env : Env W) {s : Emu} (awake : s.Awake) (w : W) :
    (s.step env .timedOut).Ensures w (fun s' _ => s'.locals = s.locals) := by
  refine (step_cases env awake .timedOut w).mono ?_
  intro s' w' way
  cases way <;> rfl

theorem own_newline {l : Line} (own : l.SelfContained) {s : Emu} (h : s.InText l.bytes)
    (room : l.bytes.length < bufSize - 1) : s.OwnRequest (.byte (ascii '\n')) := by
  rcases own with ⟨one, _, level⟩ | ⟨full, _⟩
  · exact own_line h one room level
  · omega

theorem step_full (env : Env W) {l : Line} (own : l.SelfContained) {s s' : Emu} {w w' : W}
    {text rest : List UInt8} {b : UInt8} (awake : s.Awake) (h : s.InText text)
    (line : l.bytes = text ++ b :: rest) (full : text.length + 1 = bufSize - 1)
    (ends : s.EndsLine b) (hs : (s.step env (.byte b)).run w = some (s', w')) :
    s.OwnRequest (.byte b) ∧ s'.exited ≠ none := by
  have long : 5 ≤ text.length := by
    rw [bufSize] at full
    omega
  have front : (text ++ b :: rest).take 5 = quitText ++ [0] := by
    rcases own with ⟨_, short, _⟩ | ⟨_, front⟩
    · rw [line, List.length_append, List.length_cons] at short
      omega
    · rw [← line, front]
  have quits := quits_handed h b long front
  constructor
  · intro c byte _ _ j reads
    obtain rfl := SerialRead.byte.inj byte
    have within := quits.own reads
    rw [h.p]
    exact within.trans (Nat.le_of_lt long)
  · rcases step_ends h.running awake ends hs with ⟨_, _, asks, _⟩ | ⟨_, other, _⟩ | ⟨_, _, rfl⟩
    · rw [quits.asks] at asks
      contradiction
    · rcases other with text | letter
      · exact absurd quits.text text
      · exact absurd (Letter.byte_of_ofByte (by decide) quits.letter) letter
    · exact fun live => by contradiction

theorem step_over (env : Env W) {l : Line} {first : Nat} {r : SerialRead}
    {rs : List SerialRead} {s s' : Emu} {w w' : W} (counted : s.Counted r s')
    (quiet : s.exited = none → (r :: rs).filterMap SerialRead.got = [])
    (count : s.dispatches ≤ first + 1) (hs : (s.step env r).run w = some (s', w')) :
    s.OwnRequest r ∧ Phase l first rs s' := by
  have silent (running : s.exited = none) : r.got = none := by
    have none := List.filterMap_eq_nil_iff.mp (quiet running)
    exact none r (by simp)
  have passes : ¬ s.Switches r := fun enters =>
    not_switches_silent (silent enters.1) enters
  refine ⟨fun b byte running ends => absurd ⟨running, b, byte, ends⟩ passes, ?_⟩
  refine .handedOver (fun live => ?_) ((counted.passed passes).le.trans count)
  have running : s.exited = none := by
    by_contra gone
    rw [step_gone env gone] at hs
    obtain ⟨rfl, _⟩ := (run_pure_eq _ _ _ _).mp hs
    exact gone live
  simpa [silent running] using quiet running

theorem step_phase (env : Env W) {l : Line} (own : l.SelfContained) {first : Nat}
    {r : SerialRead} {rs : List SerialRead} {s s' : Emu} {w w' : W} (awake : s.Awake)
    (h : Phase l first (r :: rs) s) (hs : (s.step env r).run w = some (s', w')) :
    s.OwnRequest r ∧ Phase l first rs s' := by
  have counted := step_counted env awake r w s' w' hs
  cases h with
  | handedOver quiet count => exact step_over env counted quiet count hs
  | @within text rest _ _ stored line sent room count =>
    have running := stored.running
    cases r with
    | timedOut =>
      refine ⟨fun _ byte => by contradiction, ?_⟩
      have waits := step_waits env awake w s' w' hs
      have silent : ¬ s.Switches .timedOut := not_switches_silent rfl
      exact .within (stored.of_locals waits) line sent room ((counted.passed silent).trans count)
    | failed =>
      refine ⟨fun _ byte => by contradiction, ?_⟩
      rw [step_failed env running] at hs
      obtain ⟨rfl, _⟩ := leave_cases env 1 s w s' w' hs
      exact .handedOver (fun live => by contradiction) (by rw [← count]; exact Nat.le_succ _)
    | byte b =>
      rw [List.filterMap_cons_some (show SerialRead.got (.byte b) = some b from rfl)] at sent
      cases rest with
      | nil =>
        obtain ⟨rfl, none⟩ := List.cons.inj sent
        rw [List.append_nil] at line
        rw [← line] at stored room
        refine ⟨own_newline own stored room, .handedOver (fun _ => none) ?_⟩
        rw [counted.entered ⟨running, _, rfl, .inl rfl⟩, count]
      | cons c rest =>
        obtain ⟨rfl, tail⟩ := List.cons.inj sent
        by_cases ends : s.EndsLine b
        · have full : text.length + 1 = bufSize - 1 := by
            have filled := ends.resolve_left (l.plain b (by simp [line]))
            rw [stored.rem] at filled
            omega
          obtain ⟨own, gone⟩ := step_full env own awake stored line full ends hs
          refine ⟨own, .handedOver (fun live => absurd live gone) ?_⟩
          rw [counted.entered ⟨running, _, rfl, ends⟩, count]
        · refine ⟨fun c byte _ ends' => ?_, ?_⟩
          · obtain rfl := SerialRead.byte.inj byte
            exact absurd ends' ends
          · have same := counted.passed fun ⟨_, c, byte, ends'⟩ => by
              obtain rfl := SerialRead.byte.inj byte
              exact ends ends'
            rw [step_stored env running ends] at hs
            obtain ⟨rfl, _⟩ := (run_pure_eq _ _ _ _).mp hs
            refine .within (stored.snoc b) (by simp [line]) tail ?_ (same.trans count)
            have left : ¬ s.rem ≤ 1 := fun full => ends (.inr full)
            rw [stored.rem] at left
            rw [List.length_append, List.length_singleton]
            omega

theorem unasked_silent (env : Env W) {s : Emu} {b : UInt8} (running : s.exited = none)
    (ends : s.EndsLine b) (asks : asked (s.handed b).buf = none) (w : W) :
    (s.step env (.byte b)).Ensures w (fun s' _ => s'.responses = s.responses) := by
  have silent : (s.handed b).ignored.responses = s.responses := by
    rw [← handed_responses s b]
    exact responses_of_log (ignored_log _)
  intro s' w' hs
  rw [step_unasked env running ends asks] at hs
  split at hs
  · obtain ⟨rfl, _⟩ := leave_cases env 0 _ w s' w' hs
    exact (responses_of_log (gone_log _ 0)).trans silent
  · obtain ⟨rfl, _⟩ := (run_pure_eq _ _ _ _).mp hs
    exact (responses_of_log (nextLine_log _)).trans silent

theorem decided_of_selfContained (env : Env W) {l : Line} (own : l.SelfContained)
    {rs : List SerialRead} {s : Emu} {w : W} (awake : s.Awake) (at_line : s.AtLine)
    (sent : l.SentBy rs) : s.Decided env rs w := by
  have empty : s.InText [] :=
    ⟨at_line.running, at_line.p, at_line.rem, fun j lt => by contradiction⟩
  have begin : Phase l s.dispatches rs s := .within empty rfl sent room_for_line rfl
  have keeps (r : SerialRead) (rest : List SerialRead) (t : Emu) (v : W) (t' : Emu) (v' : W)
      (h : t.Awake ∧ Phase l s.dispatches (r :: rest) t)
      (ht : (t.step env r).run v = some (t', v')) :
      t.OwnRequest r ∧ t'.Awake ∧ Phase l s.dispatches rest t' := by
    obtain ⟨own', phase⟩ := step_phase env own h.1 h.2 ht
    exact ⟨own', step_awake env h.1 r v t' v' ht, phase⟩
  obtain ⟨each, last⟩ := Runs.eachStep_of_ahead
    (I := fun rest t _ => t.Awake ∧ Phase l s.dispatches rest t) keeps rs ⟨awake, begin⟩
  refine ⟨?_, ?_, same_of_own env awake at_line.p each⟩
  · refine last.mono ?_
    rintro t _ ⟨_, phase⟩
    cases phase with
    | within _ _ none _ _ => simp at none
    | handedOver _ count => exact count
  · refine each.mono ?_
    intro t v r t' v' ht own' b byte running ends j reads
    apply own' b byte running ends j
    rw [byte] at ht
    exact reads.mono fun answered unasked =>
      answered (unasked_silent env running ends unasked v t' v' ht)

def sending (bytes : List UInt8) : List SerialRead := bytes.map .byte

theorem sent_by (l : Line) : l.SentBy (sending l.bytes ++ [.byte (ascii '\n')]) := by
  unfold Line.SentBy sending
  rw [List.filterMap_append, List.filterMap_map]
  have each : SerialRead.got ∘ SerialRead.byte = some := rfl
  rw [each, List.filterMap_some]
  rfl

theorem run_gone (env : Env W) {s : Emu} (gone : s.exited ≠ none) (rs : List SerialRead) :
    Runs.run (step env) s rs = pure s := by
  induction rs with
  | nil => rfl
  | cons r rest ih => rw [Runs.run, step_gone env gone r, pure_bind, ih]

theorem newline_counted (env : Env W) (text : List UInt8) {s : Emu} {w : W} (awake : s.Awake)
    (running : s.exited = none) :
    (Runs.run (step env) s (sending text ++ [.byte (ascii '\n')])).Ensures w
      (fun s' _ => s.dispatches < s'.dispatches) := by
  induction text generalizing s w with
  | nil =>
    apply ensures_bind
    intro s₁ w₁ h₁
    have counted := step_counted env awake _ w s₁ w₁ h₁
    apply ensures_pure
    rw [counted.entered ⟨running, _, rfl, .inl rfl⟩]
    exact Nat.lt_succ_self _
  | cons b rest ih =>
    apply ensures_bind
    intro s₁ w₁ h₁
    have counted := step_counted env awake _ w s₁ w₁ h₁
    have awake₁ := step_awake env awake _ w s₁ w₁ h₁
    by_cases enters : s.Switches (.byte b)
    · have more := counted.entered enters
      cases live : s₁.exited with
      | none =>
        refine (ih awake₁ live).mono fun t _ later => ?_
        omega
      | some code =>
        have gone : s₁.exited ≠ none := by simp [live]
        rw [run_gone env gone]
        apply ensures_pure
        omega
    · have live := counted.inside enters running (by simp)
      rw [← counted.passed enters]
      exact ih awake₁ live

theorem afterText_inText {s : Emu} (at_line : s.AtLine) (text : List UInt8) :
    (s.afterText text).InText text :=
  ⟨at_line.running, rfl, rfl, fun _ lt => Memory.fill_inside _ _ lt⟩

/-- The line, sent to a main that has just started, with a dimmer that does as it is told. -/
def Trial (l : Line) : Prop :=
  (start fun _ => 0).Decided (Device.env .steady) (sending l.bytes ++ [.byte (ascii '\n')])
    (Device.idle 0)

theorem start_atLine (buf : Memory) : (start buf).AtLine := ⟨rfl, rfl, rfl⟩

theorem start_trial : (start fun _ => 0).Coupled (Device.idle 0) := start_coupled _ (by decide)

theorem empty_not_decided {l : Line} (empty : l.bytes = []) : ¬ Trial l := by
  intro trial
  obtain ⟨s, dev, hs, _⟩ :=
    step_returns Behaviour.steady_faultless _ _ (.byte (ascii '\n')) start_trial
  have own := trial.own
  rw [empty] at own
  have first := (own s dev hs).1 _ rfl rfl (.inl rfl) 1 (.inl rfl)
  exact absurd first (by decide)

theorem digit_not_decided {l : Line} {c d : UInt8} (digit : isDigit d = true)
    (level : l.bytes = [c, ascii 'B', d]) : ¬ Trial l := by
  intro trial
  let s := (start fun _ => 0).afterText l.bytes
  have read : Runs.run (step (Device.env .steady)) (start fun _ => 0) (sending l.bytes) = pure s :=
    read_text _ (start_atLine _) l.plain (by rw [level]; simp [bufSize])
  have own := (Runs.eachStep_append.mp trial.own).2 s (Device.idle 0)
    (by rw [read]; exact (run_pure_eq _ _ _ _).mpr ⟨rfl, rfl⟩)
  have stored : s.InText l.bytes := afterText_inText (start_atLine _) _
  have three : l.bytes.length = 3 := by rw [level]; rfl
  have letter : Letter.ofByte ((s.handed (ascii '\n')).buf 1) = .B := by
    rw [handed_text stored _ (by omega)]
    simp only [level]
    rfl
  have text : numberText (s.handed (ascii '\n')).buf = [d] ++ [] := by
    rw [handed_number stored (by omega) (by rw [three]; decide)]
    simp [level, digit_ne_zero digit]
  have asks : asked (s.handed (ascii '\n')).buf = some (some (.brightness (decimalValue [d] % 2 ^ 32).toUInt8)) := by
    unfold asked
    rw [letter, text, scanUnsigned_digits (by simpa using digit) (by simp) rfl]
    rfl
  have coupled : s.Coupled (Device.idle 0) := start_trial.of_panel (fun _ => rfl) rfl rfl
  obtain ⟨s₁, dev₁, serves, carried⟩ := serve_carried Behaviour.steady_faultless
    (handed_coupled coupled (ascii '\n')) _ (reply (s.handed (ascii '\n')).buf)
  have hs := step_served (Device.env .steady) rfl coupled.awake (.inl rfl) asks serves
  have answered : s₁.nextLine.responses ≠ s.responses := by
    have more := carried.responses
    rw [handed_responses] at more
    exact more
  have within := (own _ _ hs).1 _ rfl rfl (.inl rfl) 4
    (.inr (.inr (.inr ⟨letter, answered, by decide, le_rfl⟩)))
  rw [stored.p, three] at within
  exact absurd within (by decide)

theorem full_not_decided {l : Line} (full : bufSize - 1 ≤ l.bytes.length)
    (other : l.bytes.take 5 ≠ quitText ++ [0]) : ¬ Trial l := by
  intro trial
  have steady := Behaviour.steady_faultless
  -- the bytes up to the one that fills the buffer
  obtain ⟨text, b, rest, line, length⟩ : ∃ text b rest, l.bytes = text ++ b :: rest ∧
      text.length = bufSize - 2 := by
    have inside : bufSize - 2 < l.bytes.length := Nat.lt_of_lt_of_le (by decide) full
    refine ⟨l.bytes.take (bufSize - 2), l.bytes[bufSize - 2], l.bytes.drop (bufSize - 2 + 1), ?_, ?_⟩
    · rw [List.getElem_cons_drop, List.take_append_drop]
    · rw [List.length_take]
      omega
  let s := (start fun _ => 0).afterText text
  have read : Runs.run (step (Device.env .steady)) (start fun _ => 0) (sending text) = pure s :=
    read_text _ (start_atLine _) (fun c hc => l.plain c (by simp [line, hc]))
      (by rw [length]; decide)
  have stored : s.InText text := afterText_inText (start_atLine _) _
  have ends : s.EndsLine b := by
    right
    rw [stored.rem, length]
    decide
  have coupled : s.Coupled (Device.idle 0) := start_trial.of_panel (fun _ => rfl) rfl rfl
  obtain ⟨s₁, dev₁, hs, coupled₁⟩ := step_returns steady s (Device.idle 0) (.byte b) coupled
  have counted := step_counted _ coupled.awake _ _ _ _ hs
  have more := counted.entered ⟨rfl, b, rfl, ends⟩
  have live : s₁.exited = none := by
    rcases step_ends rfl coupled.awake ends hs with
      ⟨_, _, _, serves, rfl⟩ | ⟨_, _, rfl⟩ | ⟨_, quits, _⟩
    · exact (serve_frame serves).2.2.trans (handed_frame s b).2.2
    · exact (handed_frame s b).2.2
    · have front := front_of_quit stored (by rw [length]; decide) quits (b :: rest)
      rw [← line] at front
      exact absurd front other
  -- the rest, with the newline, reaches it once more
  obtain ⟨t, dev₂, later, _⟩ := Runs.returns_run (step_returns steady)
    (sending rest ++ [.byte (ascii '\n')]) coupled₁
  have again := newline_counted _ rest coupled₁.awake live t dev₂ later
  have whole : (Runs.run (step (Device.env .steady)) (start fun _ => 0)
      (sending l.bytes ++ [.byte (ascii '\n')])).run (Device.idle 0) = some (t, dev₂) := by
    have parts : sending l.bytes ++ [.byte (ascii '\n')] =
        sending text ++ (.byte b :: (sending rest ++ [.byte (ascii '\n')])) := by
      simp [line, sending]
    rw [parts, Runs.run_append, read, pure_bind]
    exact (Runs.run_cons_eq _ _ _ _ _ _).mpr ⟨s₁, dev₁, hs, later⟩
  have once := trial.once t dev₂ whole
  have same : s.dispatches = (start fun _ => 0).dispatches := rfl
  omega

theorem trial_of_oneRequest {l : Line} (h : l.OneRequest) : Trial l :=
  h Device (Device.env .steady) _ [] _ _ _ _ rfl rfl rfl (sent_by l)

theorem not_selfContained {l : Line} (h : ¬ l.SelfContained) : l.bytes = [] ∨
    (∃ c d, isDigit d = true ∧ l.bytes = [c, ascii 'B', d]) ∨
    bufSize - 1 ≤ l.bytes.length ∧ l.bytes.take 5 ≠ quitText ++ [0] := by
  obtain ⟨short, long⟩ := not_or.mp h
  rcases Nat.lt_or_ge l.bytes.length (bufSize - 1) with room | full
  · cases empty : l.bytes with
    | nil => exact .inl rfl
    | cons c rest =>
      right; left
      by_contra none
      refine short ⟨by simp [empty], room, fun c d digit level => none ⟨c, d, digit, ?_⟩⟩
      rw [← empty, level]
  · exact .inr (.inr ⟨full, fun front => long ⟨full, front⟩⟩)

/-- Which lines are one request each, decided by their own bytes. -/
theorem oneRequest_iff (l : Line) : l.OneRequest ↔ l.SelfContained := by
  constructor
  · intro decided
    have trial := trial_of_oneRequest decided
    by_contra other
    rcases not_selfContained other with empty | ⟨c, d, digit, level⟩ | ⟨full, front⟩
    · exact empty_not_decided empty trial
    · exact digit_not_decided digit level trial
    · exact full_not_decided full front trial
  · intro own W env buf before rs w w₁ s reached running fresh sent
    obtain ⟨awake, at_line⟩ := main_atLine reached running fresh
    exact decided_of_selfContained env own awake at_line sent

theorem not_always_oneRequest : ¬ ∀ l : Line, l.OneRequest := by
  intro claim
  have trial := trial_of_oneRequest (claim ⟨[], fun b hb => by contradiction⟩)
  exact empty_not_decided rfl trial

end Emu
end FlatPanel
