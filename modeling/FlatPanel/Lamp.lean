import FlatPanel.Faultless
import FlatPanel.Framing
import FlatPanel.Idle
import FlatPanel.Transparency

/-! What the emulator is for: a lamp that is told its level and switched by lines of text.
`Lamp` is that lamp, with no buffer, no handle and no clock. Main against a dimmer that does
as it is told is shown to be one: whatever lines it is sent, however slowly, its answers and
the light are the lamp's. -/
namespace FlatPanel

open Program CString Framing

/-- What a line asks for. The answer to a level repeats the client's text. -/
inductive Request where
  | state
  | light (on : Bool)
  | level (v : UInt8) (text : List UInt8)
  | query
  | version

namespace Request

/-- The letter is the second byte of the line, and a number starts at the third. -/
def ofLine (l : List UInt8) : Option Request :=
  match Letter.ofByte (l.getD 1 0) with
  | .S => some .state
  | .L => some (.light true)
  | .D => some (.light false)
  | .B => (scanUnsigned ((l.drop 2).takeWhile (· ≠ 0))).map fun n => .level n.toUInt8 (l.drop 2)
  | .J => some .query
  | .V => some .version
  | .u | .other => none

end Request

/-- What a connected lamp keeps: whether it says that it is lit, the level it says it has, and
the intensity it would be lit with. -/
structure Told where
  light : Bool
  blvl : UInt8
  level : Nat

namespace Told

/-- A dimmer that is dark when it is found would be lit with its default. -/
def found (inten : Nat) : Told :=
  let level := if 0 < inten then inten else defaultBrightness.toNat
  ⟨decide (0 < inten), sMap.alnitakVal level, level⟩

/-- A switched lamp shows its level; a new level shows at once only on a lamp that is lit. -/
def apply (t : Told) (inten : Nat) : Request → Nat × Told
  | .light on => (if on then t.level else 0, { t with light := on })
  | .level v _ =>
    (if inten = 0 then 0 else IntenMap.level v.toNat,
      { t with blvl := v, level := IntenMap.level v.toNat })
  | .state | .query | .version => (inten, t)

/-- The text that is sent ends at a NUL, and data that is missing is one. -/
def text (cmd : Char) (data : List UInt8) : List UInt8 :=
  [ascii '*', ascii cmd, ascii '1', ascii '0', data.getD 0 0, data.getD 1 0, data.getD 2 0,
    ascii '\n'].takeWhile (· ≠ 0)

def answer (t : Told) : Request → List UInt8
  | .state => text 'S' [ascii '0', if t.light then ascii '1' else ascii '0', ascii '0']
  | .light on => text (if on then 'L' else 'D') [ascii '0', ascii '0', ascii '0']
  | .level _ data => text 'B' data
  | .query => text 'J' ((format03u t.blvl.toNat).take 2)
  | .version => text 'V' [ascii '9', ascii '9', ascii '9']

end Told

/-- The intensity that is shown, what the lamp keeps while somebody has it open, and what it
has answered, the last answer first. -/
structure Lamp where
  inten : Nat
  told : Option Told
  answers : List (List UInt8)

namespace Lamp

inductive Event where
  | line (l : List UInt8)
  | idle

def Event.line? : Event → Option (List UInt8)
  | .line l => some l
  | .idle => none

def Event.isIdle : Event → Bool
  | .line _ => false
  | .idle => true

def away (inten : Nat) : Lamp := ⟨inten, none, []⟩

def ask (m : Lamp) (q : Request) : Lamp :=
  let r := (m.told.getD (.found m.inten)).apply m.inten q
  ⟨r.1, some r.2, r.2.answer q :: m.answers⟩

/-- A lamp that is left goes on showing what it shows, and keeps nothing else. -/
def leave (m : Lamp) : Lamp := { m with told := none }

def next (m : Lamp) : Event → Lamp
  | .idle => m.leave
  | .line l =>
    if Emu.isQuit l then m.leave
    else
      match Request.ofLine l with
      | some q => m.ask q
      | none => m

end Lamp

def Request.op : Request → Option SetOp
  | .state | .query | .version => none
  | .light on => some (.light on)
  | .level v _ => some (.brightness v)

namespace AlnitakEmu

def told (p : AlnitakEmu) : Told := ⟨p.light, p.blvl, p.dimmer.mBrightness.toNat⟩

theorem found_told (p : AlnitakEmu) (handle : Handle) {inten : Nat} (word : inten < 65536) :
    (p.found handle inten).told = .found inten := by
  have level : (USBDimmer.opened handle inten).mBrightness.toNat =
      if 0 < inten then inten else defaultBrightness.toNat := by
    simp only [USBDimmer.opened]
    split <;> split <;> omega
  have unsigned : (USBDimmer.asUnsigned (USBDimmer.opened handle inten).mBrightness).toNat =
      (USBDimmer.opened handle inten).mBrightness.toNat := by
    have cached : (USBDimmer.opened handle inten).Cached inten :=
      USBDimmer.opened_cached handle (by omega) (by omega)
    rw [USBDimmer.asUnsigned_of_nonneg cached.nonneg cached.word]
  simp only [told, found, Told.found, unsigned, level]
  simp

theorem carried_told {read : Int} {p : AlnitakEmu} {dev : Device} (h : Mirrors read p.dimmer dev)
    (q : Request) : (p.carried q.op).told = (p.told.apply dev.inten q).2 ∧
      (p.carried q.op).dimmer.shown = (p.told.apply dev.inten q).1 := by
  have shows := h.shows
  have nonneg := h.cached.nonneg
  have lit := h.cached.lit
  cases q with
  | state | query | version => exact ⟨rfl, shows.symm⟩
  | light on =>
    refine ⟨rfl, ?_⟩
    cases on with
    | false => rfl
    | true =>
      simp only [Request.op, carried, acknowledged_dimmer, SetOp.call, USBDimmer.after,
        USBDimmer.shown, Told.apply, told, if_true, decide_eq_true_eq]
      split <;> omega
  | level v data =>
    have level := clamp_byte v
    constructor
    · simp only [Request.op, carried, acknowledged, SetOp.call, USBDimmer.after, told, Told.apply,
        level, Int.toNat_natCast]
    · simp only [Request.op, carried, acknowledged_dimmer, SetOp.call, USBDimmer.after,
        USBDimmer.shown, Told.apply, level]
      cases on : p.dimmer.mOn with
      | false =>
        rw [USBDimmer.shown, on, if_neg Bool.false_ne_true] at shows
        simp [Int.natCast_eq_zero.mp shows]
      | true =>
        rw [USBDimmer.shown, on, if_pos rfl] at shows
        have bright : dev.inten ≠ 0 := by
          have := lit on
          omega
        have dark : ¬ IntenMap.level v.toNat = 0 → ¬ (IntenMap.level v.toNat : Int) = 0 := by omega
        simp only [if_neg bright]
        split
        · simp_all
        · rfl

theorem takeWhile_snoc_zero (l : List UInt8) :
    (l ++ [0]).takeWhile (· ≠ 0) = l.takeWhile (· ≠ 0) := by
  induction l with
  | nil => rfl
  | cons b l ih =>
    by_cases nul : b = 0
    · simp [nul]
    · simpa [nul] using ih

/-- An answer is cut at a NUL, so what lies after one may be anything. -/
theorem responseStr_text (p : AlnitakEmu) (cmd : Char) {data : Memory} {text : List UInt8}
    (first : data 0 = text.getD 0 0) (second : data 0 ≠ 0 → data 1 = text.getD 1 0)
    (third : data 0 ≠ 0 → data 1 ≠ 0 → data 2 = text.getD 2 0) :
    p.responseStr (ascii cmd) data = Told.text cmd text := by
  rw [responseStr_eq, Told.text, ← first]
  refine (takeWhile_snoc_zero [ascii '*', ascii cmd, ascii '1', ascii '0', data 0, data 1,
    data 2, ascii '\n']).trans ?_
  by_cases nul : data 0 = 0
  · simp [nul, List.takeWhile_cons]
  rw [← second nul]
  by_cases nul' : data 1 = 0
  · simp [nul', List.takeWhile_cons]
  rw [third nul nul']

end AlnitakEmu

namespace Emu

variable {W : Type}

theorem handed_at {s : Emu} {l : List UInt8} (h : s.InText l) {j : Nat} (le : j ≤ l.length) :
    (s.handed (ascii '\n')).buf j = l.getD j 0 := by
  rcases Nat.eq_or_lt_of_le le with rfl | lt
  · simp [handed_nul h]
  · simp [handed_text h _ lt, lt]

theorem two_of_letter {l : List UInt8} (known : Letter.ofByte (l.getD 1 0) ≠ .other) :
    2 ≤ l.length := by
  by_contra short
  have missing : l.getD 1 0 = 0 := by simp [show l.length ≤ 1 by omega]
  rw [missing] at known
  exact known rfl

/-- The switch asks for what the line does. -/
theorem asked_ofLine {s : Emu} {l : List UInt8} (h : s.InText l) (one : 1 ≤ l.length)
    (room : l.length < bufSize - 1) :
    asked (s.handed (ascii '\n')).buf = (Request.ofLine l).map Request.op := by
  unfold asked Request.ofLine
  rw [handed_at h one]
  cases letter : Letter.ofByte (l.getD 1 0) with
  | S | L | D | J | V | u | other => rfl
  | B =>
    have two : 2 ≤ l.length := two_of_letter (by rw [letter]; decide)
    simp only [handed_number h two room, Option.map_map]
    rfl

/-- And answers what the lamp answers. -/
theorem reply_answer {s : Emu} {l : List UInt8} (h : s.InText l) (one : 1 ≤ l.length)
    {q : Request} (asks : Request.ofLine l = some q) (stack : Memory) (p : AlnitakEmu) :
    reply (s.handed (ascii '\n')).buf stack p = p.told.answer q := by
  unfold Request.ofLine at asks
  unfold reply
  rw [handed_at h one]
  cases letter : Letter.ofByte (l.getD 1 0) with
  | u | other => rw [letter] at asks; contradiction
  | S =>
    obtain ⟨_, cover, motor⟩ := p.constructed
    simp only [letter, Option.some.injEq] at asks
    subst asks
    simp only [stateReply, AlnitakEmu.stateStr, cover, motor]
    exact p.responseStr_text 'S' rfl (fun _ => rfl) (fun _ _ => rfl)
  | L | D | V =>
    simp only [letter, Option.some.injEq] at asks
    subst asks
    exact p.responseStr_text _ rfl (fun _ => rfl) (fun _ _ => rfl)
  | J =>
    simp only [letter, Option.some.injEq] at asks
    subst asks
    obtain ⟨c, d, e, digits⟩ : ∃ c d e, format03u p.blvl.toNat = [c, d, e] :=
      ⟨_, _, _, format03u_small _ p.blvl.toNat_lt⟩
    simp only [levelReply, AlnitakEmu.getBrightness, Told.answer, AlnitakEmu.told, digits]
    exact p.responseStr_text 'J' rfl (fun _ => rfl) (fun _ _ => rfl)
  | B =>
    simp only [letter, Option.map_eq_some_iff] at asks
    obtain ⟨n, number, rfl⟩ := asks
    have two : 2 ≤ l.length := two_of_letter (by rw [letter]; decide)
    have past {j : Nat} (le : j ≤ l.length) (more : (s.handed (ascii '\n')).buf j ≠ 0) :
        j + 1 ≤ l.length := by
      rcases Nat.eq_or_lt_of_le le with rfl | lt
      · exact absurd (handed_nul h) more
      · exact lt
    have data {j : Nat} (le : 2 + j ≤ l.length) :
        (s.handed (ascii '\n')).buf (2 + j) = (l.drop 2).getD j 0 := by
      rw [handed_at h le]
      simp
    exact p.responseStr_text 'B' (data two) (fun more => data (past two more))
      (fun more more' => data (past (past two more) more'))

/-- The lamp that main and its dimmer are. -/
def lamp (s : Emu) (dev : Device) : Lamp where
  inten := dev.inten
  told := if s.panel.isConnected then some s.panel.told else none
  answers := s.responses

theorem Ahead.inText {total : List (List UInt8)} {rest : List SerialRead} {s : Emu}
    (h : Ahead total rest s) (running : s.exited = none) :
    s.InText s.text ∧ s.text.length < bufSize - 1 := by
  obtain ⟨whole, room⟩ := h.reading running
  have length : s.text.length = s.p := Memory.bytes_length s.buf s.p
  refine ⟨⟨running, length.symm, ?_, fun j lt => ?_⟩, ?_⟩
  · rw [length]
    omega
  · simp [text, Memory.bytes]
  · rw [length]
    omega

theorem Ahead.text_mem {total : List (List UInt8)} {rest : List SerialRead} {s : Emu}
    (h : Ahead total (.byte (ascii '\n') :: rest) s) (running : s.exited = none) :
    s.text ∈ total := by
  rw [← h.all, if_pos running]
  simp only [List.filterMap_cons, SerialRead.got, frames, if_true, upTo]
  split <;> simp

theorem Ahead.asked_goes {total : List (List UInt8)} {rest : List SerialRead} {s : Emu}
    {op : Option SetOp} (h : Ahead total rest s) (running : s.exited = none)
    (asks : asked (s.handed (ascii '\n')).buf = some op) : isQuit s.text = false := by
  rw [← Bool.not_eq_true, ← handed_quit (h.inside running)]
  intro quits
  rw [(asked_of_quit quits).2] at asks
  contradiction

theorem Ahead.skipped_goes {total : List (List UInt8)} {rest : List SerialRead} {s : Emu}
    (h : Ahead total rest s) (running : s.exited = none)
    (other : (s.handed (ascii '\n')).buf.cstring 0 bufSize ≠ quitText ∨
      (s.handed (ascii '\n')).buf 1 ≠ ascii 'u') : isQuit s.text = false := by
  rw [← Bool.not_eq_true, ← handed_quit (h.inside running)]
  intro quits
  rcases other with text | letter
  · exact text quits
  · exact letter (asked_of_quit quits).1

theorem ready_told {s t : Emu} {dev : Device} (h : s.Coupled dev) (ready : s.Ready dev.inten t) :
    (s.lamp dev).told.getD (.found dev.inten) = t.panel.told := by
  cases ready with
  | already up => simp [lamp, up]
  | opened handle now down =>
    simp only [lamp, down, Bool.false_eq_true, if_false, Option.getD_none]
    exact (AlnitakEmu.found_told _ handle h.word).symm

theorem carried_lamp {s s₁ : Emu} {dev dev' : Device} {q : Request}
    {answer : Memory → AlnitakEmu → List UInt8} (h : s.Coupled dev)
    (answers : ∀ stack p, answer stack p = p.told.answer q)
    (carried : Carried q.op answer s dev s₁ dev') : s₁.lamp dev' = (s.lamp dev).ask q := by
  obtain ⟨t, now, stack, ready, rfl, read, before, after⟩ := carried
  have told := ready_told h ready
  obtain ⟨keeps, shown⟩ := AlnitakEmu.carried_told before q
  rw [← carry_panel] at keeps shown
  have inten : dev'.inten = (t.panel.told.apply dev.inten q).1 :=
    Int.ofNat.inj (after.shows.trans shown)
  have up : (t.carry q.op).panel.isConnected = true := after.cached.connected
  have before' : (t.carry q.op).responses = s.responses := carry_responses ready q.op
  simp only [Lamp.ask]
  rw [show (s.lamp dev).inten = dev.inten from rfl, told, ← keeps, ← inten, ← answers stack,
    show (s.lamp dev).answers = s.responses from rfl, ← before']
  exact congrArg (fun told => Lamp.mk dev'.inten told _) (if_pos up)

theorem handed_lamp (s : Emu) (c : UInt8) (dev : Device) : (s.handed c).lamp dev = s.lamp dev := by
  simp only [lamp, (handed_frame s c).1, handed_responses]

theorem step_lamp {b : Behaviour} (all : b.Faultless) {total : List (List UInt8)}
    {r : SerialRead} {rest : List SerialRead} {s s' : Emu} {dev dev' : Device}
    (h : Ahead total (r :: rest) s) (coupled : s.Coupled dev) (ones : ∀ l ∈ total, 1 ≤ l.length)
    (hs : (s.step (Device.env b) r).run dev = some (s', dev')) :
    ∃ es : List Lamp.Event, s'.lamp dev' = es.foldl Lamp.next (s.lamp dev) ∧
      s'.lines = s.lines ++ es.filterMap Lamp.Event.line? ∧
      s'.idles.length = s.idles.length + es.countP Lamp.Event.isIdle ∧
      es.countP Lamp.Event.isIdle ≤ [r].count .timedOut := by
  cases step_cases (Device.env b) h.awake r dev s' dev' hs with
  | ended _ | unconnected _ _ => exact ⟨[], rfl, (List.append_nil _).symm, rfl, Nat.zero_le _⟩
  | waited _ _ clock _ =>
    refine ⟨[], ?_, (List.append_nil _).symm, rfl, Nat.zero_le _⟩
    simp only [lamp, Device.time64_run clock, List.foldl_nil]
  | expired _ _ clock _ closes =>
    obtain rfl := closes.panel
    refine ⟨[.idle], ?_, (List.append_nil _).symm, rfl, Nat.le_refl 1⟩
    have same := closes.inten.trans (Device.time64_run clock)
    simp only [lamp, same]
    rfl
  | portFailed _ _ => exact absurd (List.mem_cons_self ..) h.live
  | @inLine c running more => exact ⟨[], rfl, (List.append_nil _).symm, rfl, Nat.zero_le _⟩
  | @served c op s₁ _ running ends asks serves =>
    obtain rfl := h.newline running ends
    obtain ⟨stored, room⟩ := h.inText running
    have one := ones _ (h.text_mem running)
    have goes := h.asked_goes running asks
    obtain ⟨q, line, rfl⟩ := Option.map_eq_some_iff.mp ((asked_ofLine stored one room).symm.trans asks)
    have carried := (serve_carried all (handed_coupled coupled _) _ _).ensures s₁ dev' serves
    have played := carried_lamp (handed_coupled coupled _) (reply_answer stored one line) carried
    refine ⟨[.line s.text], ?_, (serve_lines serves).trans (handed_newline s).1,
      congrArg List.length ((serve_idles serves).trans (handed_deadline s _).2.2), Nat.zero_le _⟩
    rw [handed_lamp] at played
    simp only [List.foldl_cons, List.foldl_nil, Lamp.next, goes, Bool.false_eq_true, if_false, line]
    exact played
  | @skipped c running ends asks other =>
    obtain rfl := h.newline running ends
    obtain ⟨stored, room⟩ := h.inText running
    have asks' := (asked_ofLine stored (ones _ (h.text_mem running)) room).symm.trans asks
    have none := Option.map_eq_none_iff.mp asks'
    have goes := h.skipped_goes running other
    refine ⟨[.line s.text], ?_, (handed_newline s).1,
      congrArg List.length (handed_deadline s _).2.2, Nat.zero_le _⟩
    simp only [List.foldl_cons, List.foldl_nil, Lamp.next, goes, Bool.false_eq_true, if_false, none]
    exact handed_lamp s _ dev
  | @quits c _ running ends _ quit closes =>
    obtain rfl := h.newline running ends
    have goes : isQuit s.text = true := (handed_quit (h.inside running)).mp quit
    refine ⟨[.line s.text], ?_, (handed_newline s).1,
      congrArg List.length (handed_deadline s _).2.2, Nat.zero_le _⟩
    simp only [List.foldl_cons, List.foldl_nil, Lamp.next, goes, if_true]
    simp only [lamp, closes.inten]
    rfl

/-- The lines that were read whole, up to the first quit. -/
def wholeLines (rs : List SerialRead) : List (List UInt8) :=
  upTo isQuit (frames (ascii '\n') [] (rs.filterMap SerialRead.got))

/-- No `Read` failed, and what was read is lines that fit and are not empty, the last of which
need not be over. -/
structure Legible (rs : List SerialRead) : Prop where
  live : .failed ∉ rs
  fits : Fits (ascii '\n') longest [] (rs.filterMap SerialRead.got)
  ones : ∀ l ∈ frames (ascii '\n') [] (rs.filterMap SerialRead.got), 1 ≤ l.length

theorem delivers_legible {rs : List SerialRead} {ls : List Line} (delivered : Delivers rs ls)
    (fits : ∀ l ∈ ls, 1 ≤ l.bytes.length ∧ l.bytes.length ≤ longest) :
    Legible rs ∧ wholeLines rs = upTo isQuit (ls.map Line.bytes) := by
  have plain : ∀ l ∈ ls.map Line.bytes, ascii '\n' ∉ l := by
    intro l mem
    obtain ⟨line, _, rfl⟩ := List.mem_map.mp mem
    exact fun newline => line.plain _ newline rfl
  have lengths : ∀ l ∈ ls.map Line.bytes, 1 ≤ l.length ∧ l.length ≤ longest := by
    intro l mem
    obtain ⟨line, inside, rfl⟩ := List.mem_map.mp mem
    exact fits line inside
  have framed : frames (ascii '\n') [] (rs.filterMap SerialRead.got) = ls.map Line.bytes := by
    rw [delivered.got, frames_join plain]
  refine ⟨⟨delivered.live, ?_, ?_⟩, congrArg (upTo isQuit) framed⟩
  · rw [delivered.got]
    exact fits_join plain fun l mem => (lengths l mem).2
  · rw [framed]
    exact fun l mem => (lengths l mem).1

/-- The events that the lamp has had in a run. -/
structure Plays (m : Lamp) (waits : Nat) (rest : List SerialRead) (s : Emu) (dev : Device)
    (es : List Lamp.Event) : Prop where
  lamp : s.lamp dev = es.foldl Lamp.next m
  lines : s.lines = es.filterMap Lamp.Event.line?
  idles : s.idles.length = es.countP Lamp.Event.isIdle
  waits : es.countP Lamp.Event.isIdle + rest.count .timedOut ≤ waits

def Playing (m : Lamp) (waits : Nat) (total : List (List UInt8)) (rest : List SerialRead)
    (s : Emu) (dev : Device) : Prop :=
  Ahead total rest s ∧ s.Coupled dev ∧ ∃ es, Plays m waits rest s dev es

theorem step_playing {b : Behaviour} (all : b.Faultless) {total : List (List UInt8)} {m : Lamp}
    {waits : Nat} {r : SerialRead} {rest : List SerialRead} {s s' : Emu} {dev dev' : Device}
    (ones : ∀ l ∈ total, 1 ≤ l.length) (h : Playing m waits total (r :: rest) s dev)
    (hs : (s.step (Device.env b) r).run dev = some (s', dev')) :
    Playing m waits total rest s' dev' := by
  obtain ⟨ahead, coupled, es, plays⟩ := h
  obtain ⟨more, lamp, lines, idles, waits⟩ := step_lamp all ahead coupled ones hs
  refine ⟨(step_ahead _ ahead hs).2, step_coupled all s dev r coupled s' dev' hs, es ++ more,
    ?_, ?_, ?_, ?_⟩
  · rw [lamp, plays.lamp, List.foldl_append]
  · rw [lines, plays.lines, List.filterMap_append]
  · rw [idles, plays.idles, List.countP_append]
  · have before := plays.waits
    rw [List.count_cons] at before
    rw [List.count_singleton] at waits
    rw [List.countP_append]
    omega

theorem legible_ahead (buf : Memory) {rs : List SerialRead} (legible : Legible rs) :
    Ahead (wholeLines rs) rs (start buf) :=
  ⟨start_awake buf, start_reading buf, legible.live, fun _ => legible.fits, rfl⟩

theorem Ahead.over {total : List (List UInt8)} {s : Emu} (h : Ahead total [] s) :
    s.lines = total := by
  have whole := h.all
  simpa [frames, upTo] using whole

/-- Main goes on after any line but a quit, and after that it has returned 0. -/
structure Status (s : Emu) : Prop where
  running : s.exited = none → ∀ l ∈ s.lines, isQuit l = false
  returned : s.exited ≠ none → s.exited = some 0 ∧ ∃ l ∈ s.lines, isQuit l = true

theorem Status.next {s s' : Emu} (h : s.Status) (running : s.exited = none)
    (more : s'.lines = s.lines ++ [s.text])
    (goes : s'.exited = none ∧ isQuit s.text = false ∨
      s'.exited = some 0 ∧ isQuit s.text = true) : s'.Status := by
  rcases goes with ⟨on, plain⟩ | ⟨off, quit⟩
  · refine ⟨fun _ l mem => ?_, fun gone => absurd on gone⟩
    rw [more] at mem
    rcases List.mem_append.mp mem with before | last
    · exact h.running running l before
    · rw [List.mem_singleton.mp last]
      exact plain
  · refine ⟨fun on => absurd (off.symm.trans on) (by simp), fun _ => ⟨off, s.text, ?_, quit⟩⟩
    rw [more]
    exact List.mem_append_right _ (List.mem_singleton_self _)

theorem step_status (env : Env W) {total : List (List UInt8)} {r : SerialRead}
    {rest : List SerialRead} {s s' : Emu} {w w' : W} (ahead : Ahead total (r :: rest) s)
    (h : s.Status) (hs : (s.step env r).run w = some (s', w')) : s'.Status := by
  cases step_cases env ahead.awake r w s' w' hs with
  | ended _ | unconnected _ _ | waited _ _ _ _ | expired _ _ _ _ _ | inLine _ _ =>
    exact ⟨h.running, h.returned⟩
  | portFailed _ _ => exact absurd (List.mem_cons_self ..) ahead.live
  | @served c op s₁ _ running ends asks serves =>
    obtain rfl := ahead.newline running ends
    have on := (serve_frame serves).2.2.trans ((handed_frame s _).2.2.trans running)
    exact h.next running ((serve_lines serves).trans (handed_newline s).1)
      (.inl ⟨on, ahead.asked_goes running asks⟩)
  | @skipped c running ends asks other =>
    obtain rfl := ahead.newline running ends
    have on := (handed_frame s (ascii '\n')).2.2.trans running
    exact h.next running (handed_newline s).1 (.inl ⟨on, ahead.skipped_goes running other⟩)
  | @quits c _ running ends _ quit closes =>
    obtain rfl := ahead.newline running ends
    exact h.next running (handed_newline s).1
      (.inr ⟨rfl, (handed_quit (ahead.inside running)).mp quit⟩)

/-- Main has taken the lines in, and returns at the first quit only. -/
theorem main_status (env : Env W) (buf : Memory) (w : W) {rs : List SerialRead}
    (legible : Legible rs) :
    (main env buf rs).Ensures w (fun s _ => s.lines = wholeLines rs ∧ s.Status) := by
  obtain ⟨_, last⟩ := Runs.eachStep_of_ahead (R := fun _ _ _ _ _ => True)
    (I := fun rest s (_ : W) => Ahead (wholeLines rs) rest s ∧ s.Status)
    (fun _ _ _ _ _ _ h hs => ⟨trivial, (step_ahead env h.1 hs).2, step_status env h.1 h.2 hs⟩)
    rs (w := w) ⟨legible_ahead buf legible, fun _ _ mem => by contradiction,
      fun gone => absurd rfl gone⟩
  exact last.mono fun s _ h => ⟨h.1.over, h.2⟩

theorem main_playing {b : Behaviour} (all : b.Faultless) (buf : Memory) {dev : Device}
    (word : dev.inten < 65536) {rs : List SerialRead} (legible : Legible rs) :
    (main (Device.env b) buf rs).Returns dev (fun s dev' => s.lines = wholeLines rs ∧
      ∃ es, Plays (.away dev.inten) (rs.count .timedOut) [] s dev' es) := by
  obtain ⟨s, dev', reached, _⟩ := main_returns all buf word rs
  have ahead := legible_ahead buf legible
  have ones : ∀ l ∈ wholeLines rs, 1 ≤ l.length :=
    fun l mem => legible.ones l (upTo_subset _ _ mem)
  have start : Plays (.away dev.inten) (rs.count .timedOut) rs (start buf) dev [] :=
    ⟨rfl, rfl, rfl, Nat.le_of_eq (Nat.zero_add _)⟩
  obtain ⟨_, last⟩ := Runs.eachStep_of_ahead (R := fun _ _ _ _ _ => True)
    (I := Playing (.away dev.inten) (rs.count .timedOut) (wholeLines rs))
    (fun _ _ _ _ _ _ playing hs => ⟨trivial, step_playing all ones playing hs⟩) rs
    ⟨ahead, start_coupled buf word, [], start⟩
  obtain ⟨handed, _, plays⟩ := last s dev' reached
  exact ⟨s, dev', reached, handed.over, plays⟩

theorem main_plays {b : Behaviour} (all : b.Faultless) (buf : Memory) {dev : Device}
    (word : dev.inten < 65536) {rs : List SerialRead} {ls : List Line} (delivered : Delivers rs ls)
    (fits : ∀ l ∈ ls, 1 ≤ l.bytes.length ∧ l.bytes.length ≤ longest) :
    (main (Device.env b) buf rs).Returns dev (fun s dev' =>
      s.lines = upTo isQuit (ls.map Line.bytes) ∧
      ∃ es, Plays (.away dev.inten) (rs.count .timedOut) [] s dev' es) := by
  obtain ⟨legible, whole⟩ := delivers_legible delivered fits
  rw [← whole]
  exact main_playing all buf word legible

end Emu

/-- Main and a dimmer that does as it is told are the lamp: with lines that fit, the lamp that
hears the same lines up to the first quit, and is left as often as main closes the panel at a
time-out, has given the same answers, shows the same and keeps the same. -/
theorem Lamp.main_is_lamp {b : Behaviour} (all : b.Faultless) (buf : Memory) {dev : Device}
    (word : dev.inten < 65536) {rs : List SerialRead} {ls : List Line} (delivered : Delivers rs ls)
    (fits : ∀ l ∈ ls, 1 ≤ l.bytes.length ∧ l.bytes.length ≤ longest) :
    (Emu.main (Device.env b) buf rs).Returns dev (fun s dev' => ∃ es : List Event,
      s.lamp dev' = es.foldl next (.away dev.inten) ∧
      es.filterMap Event.line? = upTo Emu.isQuit (ls.map Line.bytes) ∧
      es.countP Event.isIdle = s.idles.length ∧ s.idles.length ≤ rs.count .timedOut) := by
  refine (Emu.main_plays all buf word delivered fits).mono ?_
  rintro s dev' ⟨handed, es, plays⟩
  exact ⟨es, plays.lamp, plays.lines.symm.trans handed, plays.idles.symm,
    plays.idles.le.trans plays.waits⟩

theorem Lamp.main_is_lamp_slowly :
    (Emu.main (Device.env .steady) (fun _ => 0) (slowly [.state, .quit])).Returns (Device.idle 0)
      (fun s dev' => ∃ es : List Event, s.lamp dev' = es.foldl next (.away 0) ∧
        es.filterMap Event.line? = upTo Emu.isQuit ([Line.state, .quit].map Line.bytes) ∧
        es.countP Event.isIdle = s.idles.length ∧
        s.idles.length ≤ (slowly [.state, .quit]).count .timedOut) :=
  main_is_lamp Behaviour.steady_faultless _ (by decide) (slowly_delivers _) (by decide)

end FlatPanel
