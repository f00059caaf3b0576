import FlatPanel.Script

/-! The reports themselves, all five bytes of them. A command sets two to four bytes of a
report; the others are what the buffer held, from the stack or from earlier responses. -/
namespace FlatPanel

open Program

def Event.report : Event → Option (List UInt8)
  | .write report => some report
  | .read => none

def Wire.reports (w : Wire) : List (List UInt8) := w.events.filterMap Event.report

theorem Wire.wrote_reports (w : Wire) (report : List UInt8) :
    (w.wrote report).reports = w.reports ++ [report] := by
  rw [reports, wrote, List.filterMap_append]
  rfl

theorem Wire.looked_reports (w : Wire) : w.looked.reports = w.reports := by
  rw [reports, looked, List.filterMap_append]
  exact List.append_nil _

/-- The buffer once `set_inten` has put its `k`-th request into it. -/
def request (inten k : Nat) (buf : Memory) : Memory :=
  match k with
  | 0 => (((buf.store 0 0x0).store 1 cmdSetInten).store 2 (UInt8.ofInt inten)).store 3
      (UInt8.ofInt ((inten : Int) >>> (8 : Nat)))
  | 1 => ((buf.store 0 0x0).store 1 cmdSetState).store 2 3
  | _ => (buf.store 0 0x0).store 1 cmdGetState

/-- The first byte of the `k`-th report that the request leaves as it is. -/
def unset : Nat → Nat
  | 0 => 4
  | 1 => 3
  | _ => 2

theorem two_le_unset (k : Nat) : 2 ≤ unset k := by
  match k with
  | 0 => decide
  | 1 => decide
  | k + 2 => exact le_rfl

theorem request_unset {inten k i : Nat} (stale : unset k ≤ i) (buf : Memory) :
    request inten k buf i = buf i := by
  match k with
  | 0 =>
    simp only [unset] at stale
    simp (disch := omega) only [request, Memory.store_other]
  | 1 =>
    simp only [unset] at stale
    simp (disch := omega) only [request, Memory.store_other]
  | k + 2 =>
    simp only [unset] at stale
    simp (disch := omega) only [request, Memory.store_other]

theorem request_set {inten k i : Nat} (set : i < unset k) (buf buf' : Memory) :
    request inten k buf i = request inten k buf' i := by
  match k with
  | 0 =>
    simp only [unset] at set
    rcases (by omega : i = 0 ∨ i = 1 ∨ i = 2 ∨ i = 3) with rfl | rfl | rfl | rfl <;>
      simp [request]
  | 1 =>
    simp only [unset] at set
    rcases (by omega : i = 0 ∨ i = 1 ∨ i = 2) with rfl | rfl | rfl <;> simp [request]
  | k + 2 =>
    simp only [unset] at set
    rcases (by omega : i = 0 ∨ i = 1) with rfl | rfl <;> simp [request]

namespace Script

/-- The buffer when `set_inten` writes its `k`-th report. -/
def held (s : Script) (inten : Nat) : Nat → Memory
  | 0 => request inten 0 s.uninit
  | k + 1 => request inten (k + 1) ((s.held inten k).fill ((s.read k).data 5))

def report (s : Script) (inten k : Nat) : List UInt8 := (s.held inten k).bytes 5

/-- The conversation up to the writing of the `k`-th report. -/
structure Sent (s : Script) (inten k : Nat) (w : Wire) : Prop where
  reports : w.reports = (List.range k).map (s.report inten)
  writes : w.writes = k
  reads : w.reads = k
  before : ∀ j < k, s.Passes j

/-- The conversation that the `k`-th exchange ended. -/
structure Stopped (s : Script) (inten k : Nat) (w : Wire) : Prop where
  reports : w.reports = (List.range (k + 1)).map (s.report inten)
  before : ∀ j < k, s.Passes j
  here : ¬ s.Passes k

theorem exchange_sent (s : Script) (bound : Nat) (handle : Handle) {inten k : Nat} {w : Wire}
    (sent : s.Sent inten k w) :
    (exchange (s.env bound) handle (s.held inten k) 1).Returns w
      (s.Answered k (s.held inten k) (fun w' => s.Passes k → s.Sent inten (k + 1) w')
        (fun w' => w'.reports = (List.range (k + 1)).map (s.report inten))) := by
  have written : (w.wrote (s.report inten k)).reports =
      (List.range (k + 1)).map (s.report inten) := by
    rw [Wire.wrote_reports, sent.reports, List.range_succ, List.map_append, List.map_singleton]
  have heard := (Wire.looked_reports _).trans written
  apply exchange_answered s bound handle sent.writes sent.reads _ written heard
  intro pass
  exact ⟨heard, congrArg (· + 1) sent.writes, congrArg (· + 1) sent.reads,
    before_succ sent.before pass⟩

/-- A trip of the loop that is about to make the `k`-th request. -/
def Polls (s : Script) (inten k : Nat) (buf : Memory) (w : Wire) : Prop :=
  s.Sent inten k w ∧ 2 ≤ k ∧ request inten k buf = s.held inten k

theorem pollState_sent (s : Script) (bound : Nat) (handle : Handle) {inten k : Nat}
    {buf : Memory} {w : Wire} (h : s.Polls inten k buf w) :
    (pollState (s.env bound) handle buf).Returns w
      (Trip (s.Polls inten (k + 1)) (fun _ => s.Stopped inten k)) := by
  obtain ⟨sent, poll, next⟩ := h
  obtain ⟨m, rfl⟩ : ∃ m, k = m + 2 := ⟨k - 2, by omega⟩
  have asked : (buf.store 0 0x0).store 1 cmdGetState = s.held inten (m + 2) := next
  have answered := exchange_sent s bound handle sent
  rw [← asked] at answered
  refine (pollState_answered s bound handle answered).mono ?_
  rintro (buf₁ | ret) w₁ out
  · obtain ⟨rfl, goes_on, pass⟩ := out
    refine ⟨goes_on pass, by omega, ?_⟩
    rw [asked]
    rfl
  · obtain ⟨reports, ended⟩ := out
    refine ⟨reports, sent.before, fun pass => ?_⟩
    rcases ended with ⟨-, -, done⟩ | ⟨-, fault⟩
    · exact pass.2 poll done
    · exact fault pass.1

/-- The reports of `set_inten`, stopped after `n` trips of its loop, in the order they are
written: there is a `k`-th one exactly if every exchange before it was passed. -/
def Transcript (s : Script) (inten n : Nat) (w : Wire) : Prop :=
  ∃ m, w.reports = (List.range m).map (s.report inten) ∧
    ∀ k, k < m ↔ k < n + 2 ∧ ∀ j < k, s.Passes j

theorem Stopped.transcript {s : Script} {inten k n : Nat} {w : Wire} (h : s.Stopped inten k w)
    (within : k < n + 2) : s.Transcript inten n w := by
  refine ⟨k + 1, h.reports, fun l => ⟨fun lt => ?_, fun ⟨_, passed⟩ => ?_⟩⟩
  · exact ⟨by omega, fun j before => h.before j (by omega)⟩
  · by_contra past
    exact h.here (passed k (by omega))

theorem Sent.transcript {s : Script} {inten n : Nat} {w : Wire} (h : s.Sent inten (n + 2) w) :
    s.Transcript inten n w := by
  refine ⟨n + 2, h.reports, fun l => ⟨fun lt => ⟨lt, fun j before => ?_⟩, fun ⟨lt, _⟩ => lt⟩⟩
  exact h.before j (by omega)

theorem setIntenFor_transcript (s : Script) (bound : Nat) (handle : Handle) (inten n : Nat) :
    (setIntenFor (s.env bound) handle inten n).Returns .quiet (fun _ w =>
      s.Transcript inten n w) := by
  have start : s.Sent inten 0 .quiet := ⟨rfl, rfl, rfl, fun j lt => absurd lt (by omega)⟩
  apply returns_bind
  refine ⟨s.uninit, .quiet, rfl, ?_⟩
  apply returns_bind
  refine (exchange_sent s bound handle start).mono ?_
  rintro (_ | buf₁) w₁ out₁
  · have stopped : s.Stopped inten 0 w₁ := ⟨out₁.1, start.before, fun pass => out₁.2 pass.1⟩
    exact returns_pure (stopped.transcript (by omega))
  · obtain ⟨-, ok₀, rfl, goes_on₁⟩ := out₁
    have sent₁ := goes_on₁ ⟨ok₀, fun late => absurd late (by decide)⟩
    apply returns_bind
    refine (exchange_sent s bound handle sent₁).mono ?_
    rintro (_ | buf₂) w₂ out₂
    · have stopped : s.Stopped inten 1 w₂ := ⟨out₂.1, sent₁.before, fun pass => out₂.2 pass.1⟩
      exact returns_pure (stopped.transcript (by omega))
    · obtain ⟨-, ok₁, rfl, goes_on₂⟩ := out₂
      have sent₂ := goes_on₂ ⟨ok₁, fun late => absurd late (by decide)⟩
      apply returns_bind
      refine (returns_trips (I := s.Polls inten) (Q := fun k _ => s.Stopped inten k)
        (fun k buf w h => pollState_sent s bound handle h) n ⟨sent₂, by decide, rfl⟩).mono ?_
      rintro (buf₃ | ret) w₃ out
      · have count : 2 + n = n + 2 := Nat.add_comm 2 n
        exact returns_pure (count ▸ out.1).transcript
      · obtain ⟨k, lt, stopped⟩ := out
        exact returns_pure (stopped.transcript (by omega))

end Script

/-- The two commands that talk to the panel, with what is asked for. -/
inductive Command where
  | getInten
  | setInten (inten : Nat)

namespace Script

/-- The `k`-th report of a run of the command. A run of `set_inten` that goes on is seen as
far as it has got. -/
def Writes (s : Script) (handle : Handle) : Command → Nat → List UInt8 → Prop
  | .getInten, k, report => (FlatPanel.getInten (s.env 0) handle).Returns .quiet
      (fun _ w => w.reports[k]? = some report)
  | .setInten inten, k, report => ∃ n, (setIntenFor (s.env n) handle inten n).Returns .quiet
      (fun _ w => w.reports[k]? = some report)

theorem writes_setInten (s : Script) (handle : Handle) (inten k : Nat) (report : List UInt8) :
    s.Writes handle (.setInten inten) k report ↔
      (∀ j < k, s.Passes j) ∧ report = s.report inten k := by
  have kth (m : Nat) : ((List.range m).map (s.report inten))[k]? = some report ↔
      k < m ∧ report = s.report inten k := by
    rcases Nat.lt_or_ge k m with lt | ge
    · simp [lt, eq_comm]
    · simp [Nat.not_lt.mpr ge]
  constructor
  · rintro ⟨n, _, w, ran, written⟩
    obtain ⟨m, reports, sent⟩ := (setIntenFor_transcript s n handle inten n).ensures _ _ ran
    rw [reports, kth] at written
    exact ⟨((sent k).mp written.1).2, written.2⟩
  · rintro ⟨before, rfl⟩
    refine ⟨k, (setIntenFor_transcript s k handle inten k).mono ?_⟩
    rintro _ w ⟨m, reports, sent⟩
    rw [reports, kth]
    exact ⟨(sent k).mpr ⟨by omega, before⟩, rfl⟩

def asking (s : Script) : List UInt8 := ((s.uninit.store 0 0x0).store 1 cmdGetInten).bytes 5

theorem getInten_reports (s : Script) (bound : Nat) (handle : Handle) :
    (FlatPanel.getInten (s.env bound) handle).Returns .quiet (fun _ w =>
      w.reports = [s.asking]) := by
  apply returns_bind
  refine ⟨s.uninit, .quiet, rfl, ?_⟩
  apply returns_bind
  refine (exchange_exchanged s bound handle 3 rfl rfl _).mono ?_
  rintro _ _ (lost | ⟨sent, short⟩ | ⟨sent, long⟩)
  · exact returns_pure rfl
  · exact returns_pure rfl
  · exact returns_pure rfl

theorem writes_getInten (s : Script) (handle : Handle) (k : Nat) (report : List UInt8) :
    s.Writes handle .getInten k report ↔ k = 0 ∧ report = s.asking := by
  have decided := getInten_reports s 0 handle
  apply Returns.holds_iff
  refine decided.mono ?_
  rintro _ w reports
  rw [reports]
  cases k with
  | zero => simp [eq_comm]
  | succ k => simp

/-- The byte last read into place `i` by the exchanges from number `start` up to the `k`-th,
or `default` if no response was long enough to reach the place. -/
def latest (s : Script) (i start k : Nat) (default : UInt8) : UInt8 :=
  ((List.range' start (k - start)).filterMap fun j => ((s.read j).data 5)[i]?).getLast?.getD default

/-- What stands in a place that the `k`-th request of `set_inten` leaves as it is: a byte of
some earlier response, or what an earlier request put there, or what the buffer held. -/
def stale (s : Script) (inten k : Nat) : Nat → UInt8
  | 2 => s.latest 2 1 k 3
  | 3 => s.latest 3 0 k (UInt8.ofInt ((inten : Int) >>> (8 : Nat)))
  | i => s.latest i 0 k (s.uninit i)

theorem latest_start (s : Script) (i start : Nat) (default : UInt8) :
    s.latest i start start default = default := by
  simp [latest]

theorem latest_succ (s : Script) (i : Nat) {start k : Nat} (le : start ≤ k) (default : UInt8) :
    s.latest i start (k + 1) default =
      (((s.read k).data 5)[i]?).getD (s.latest i start k default) := by
  obtain ⟨n, rfl⟩ : ∃ n, k = start + n := ⟨k - start, by omega⟩
  have next : start + n + 1 - start = n + 1 := by omega
  have here : start + n - start = n := by omega
  simp only [latest, next, here, List.range'_1_concat, List.filterMap_append]
  cases found : ((s.read (start + n)).data 5)[i]? with
  | none => simp [found]
  | some b => simp [found]

theorem held_latest {s : Script} {inten i start : Nat} {default : UInt8}
    (first : s.held inten start i = default) (later : ∀ k, start < k → unset k ≤ i) {k : Nat}
    (le : start ≤ k) : s.held inten k i = s.latest i start k default := by
  induction k, le using Nat.le_induction with
  | base => rw [first, latest_start]
  | succ k le ih =>
    rw [held, request_unset (later (k + 1) (by omega)), latest_succ s i le, Memory.fill,
      List.getD_eq_getElem?_getD, ih]

theorem held_stale (s : Script) (inten : Nat) {k i : Nat} (place : unset k ≤ i) :
    s.held inten k i = s.stale inten k i := by
  match i with
  | 0 => exact absurd (le_trans (two_le_unset k) place) (by decide)
  | 1 => exact absurd (le_trans (two_le_unset k) place) (by decide)
  | 2 =>
    match k with
    | 0 => exact absurd place (by decide)
    | 1 => exact absurd place (by decide)
    | k + 2 =>
      apply held_latest
      · simp [held, request]
      · rintro (_ | _ | k) late
        · omega
        · omega
        · exact le_rfl
      · omega
  | 3 =>
    match k with
    | 0 => exact absurd place (by decide)
    | k + 1 =>
      apply held_latest
      · simp [held, request]
      · rintro (_ | _ | k) late
        · omega
        · exact le_rfl
        · exact Nat.le_succ 2
      · omega
  | i + 4 =>
    apply held_latest
    · exact request_unset (Nat.le_add_left 4 i) s.uninit
    · rintro (_ | _ | k) late
      · omega
      · exact Nat.le_add_left 3 (i + 1)
      · exact Nat.le_add_left 2 (i + 2)
    · omega

theorem held_set (s s' : Script) (inten : Nat) {k i : Nat} (set : i < unset k) :
    s.held inten k i = s'.held inten k i := by
  cases k with
  | zero => exact request_set set _ _
  | succ k => exact request_set set _ _

theorem report_eq_iff (s s' : Script) (inten k : Nat) : s.report inten k = s'.report inten k ↔
    ∀ i, unset k ≤ i → i < 5 → s.stale inten k i = s'.stale inten k i := by
  rw [report, report, Memory.bytes_eq_iff]
  constructor
  · intro same i place inside
    rw [← held_stale s inten place, ← held_stale s' inten place, same i inside]
  · intro same i inside
    rcases Nat.lt_or_ge i (unset k) with set | place
    · exact held_set s s' inten set
    · rw [held_stale s inten place, held_stale s' inten place, same i place inside]

/-- Whenever two runs both write a `k`-th report, it is the same one. -/
def SameReports (s s' : Script) (handle : Handle) (c : Command) : Prop :=
  ∀ k report report', s.Writes handle c k report → s'.Writes handle c k report' →
    report = report'

/-- The bytes that the requests leave as they are agree. -/
def Agree (s s' : Script) : Command → Prop
  | .getInten => ∀ i, 2 ≤ i → i < 5 → s.uninit i = s'.uninit i
  | .setInten inten => ∀ k, (∀ j < k, s.Passes j ∧ s'.Passes j) →
      ∀ i, unset k ≤ i → i < 5 → s.stale inten k i = s'.stale inten k i

/-- Two runs that differ in what the buffer held and in the bytes of the responses alone:
each call of hidapi returns the same in both. -/
structure DifferInBytes (s s' : Script) : Prop where
  write : ∀ k, s.write k = s'.write k
  ret : ∀ k, (s.read k).ret 5 = (s'.read k).ret 5

/-- The last byte of the first report, and the bytes of each response that the next request
does not overwrite, agree. -/
def AgreeBytes (s s' : Script) : Prop :=
  s.uninit 4 = s'.uninit 4 ∧ ∀ j, (∀ i ≤ j, s.Passes i ∧ s'.Passes i) →
    ∀ i, unset (j + 1) ≤ i → i < 5 → ((s.read j).data 5)[i]? = ((s'.read j).data 5)[i]?

theorem sameReports_iff (s s' : Script) (handle : Handle) (c : Command) :
    SameReports s s' handle c ↔ Agree s s' c := by
  cases c with
  | getInten =>
    have same : SameReports s s' handle .getInten ↔ s.asking = s'.asking := by
      simp only [SameReports, writes_getInten]
      constructor
      · exact fun h => h 0 _ _ ⟨rfl, rfl⟩ ⟨rfl, rfl⟩
      · rintro h k _ _ ⟨-, rfl⟩ ⟨-, rfl⟩
        exact h
    rw [same, asking, asking, Memory.bytes_eq_iff]
    constructor
    · intro h i place inside
      have here := h i inside
      simp (disch := omega) only [Memory.store_other] at here
      exact here
    · intro h i inside
      rcases (by omega : i = 0 ∨ i = 1 ∨ 2 ≤ i) with rfl | rfl | place
      · simp
      · simp
      · simp (disch := omega) only [Memory.store_other]
        exact h i place inside
  | setInten inten =>
    simp only [SameReports, writes_setInten, Agree]
    constructor
    · intro h k passed
      exact (report_eq_iff s s' inten k).mp (h k _ _ ⟨fun j lt => (passed j lt).1, rfl⟩
        ⟨fun j lt => (passed j lt).2, rfl⟩)
    · rintro h k _ _ ⟨before, rfl⟩ ⟨before', rfl⟩
      exact (report_eq_iff s s' inten k).mpr (h k fun j lt => ⟨before j lt, before' j lt⟩)

theorem DifferInBytes.length {s s' : Script} (h : DifferInBytes s s') (k : Nat) :
    ((s.read k).data 5).length = ((s'.read k).data 5).length := by
  have same := h.ret k
  cases found : s.read k with
  | error =>
    cases found' : s'.read k with
    | error => rfl
    | bytes bs' =>
      simp only [found, found', Input.ret] at same
      omega
  | bytes bs =>
    cases found' : s'.read k with
    | error =>
      simp only [found, found', Input.ret] at same
      omega
    | bytes bs' =>
      simp only [found, found', Input.ret] at same
      exact Int.ofNat_inj.mp same

theorem latest_congr {s s' : Script} {i start k : Nat} {default default' : UInt8}
    (same : default = default')
    (bytes : ∀ j, start ≤ j → j < k → ((s.read j).data 5)[i]? = ((s'.read j).data 5)[i]?) :
    s.latest i start k default = s'.latest i start k default' := by
  have read : ∀ j ∈ List.range' start (k - start),
      ((s.read j).data 5)[i]? = ((s'.read j).data 5)[i]? := by
    intro j member
    obtain ⟨lo, hi⟩ := List.mem_range'_1.mp member
    exact bytes j lo (by omega)
  rw [latest, latest, List.filterMap_congr read, same]

theorem agree_of_bytes {s s' : Script} (h : AgreeBytes s s') (inten : Nat) :
    Agree s s' (.setInten inten) := by
  intro k passed i place inside
  have read (start : Nat) (later : ∀ j, start ≤ j → unset (j + 1) ≤ i) :
      ∀ j, start ≤ j → j < k → ((s.read j).data 5)[i]? = ((s'.read j).data 5)[i]? := by
    intro j ge lt
    exact h.2 j (fun l le => passed l (by omega)) i (later j ge) inside
  match i with
  | 0 => exact absurd (le_trans (two_le_unset k) place) (by decide)
  | 1 => exact absurd (le_trans (two_le_unset k) place) (by decide)
  | 2 =>
    apply latest_congr rfl (read 1 _)
    rintro (_ | j) ge
    · omega
    · exact le_rfl
  | 3 =>
    apply latest_congr rfl (read 0 _)
    rintro (_ | j) ge
    · exact le_rfl
    · exact Nat.le_succ 2
  | 4 =>
    apply latest_congr h.1 (read 0 _)
    rintro (_ | j) ge
    · exact Nat.le_succ 3
    · exact Nat.le_add_left 2 2

theorem stale_read {s : Script} {inten j i : Nat} {b : UInt8} (place : unset (j + 1) ≤ i)
    (found : ((s.read j).data 5)[i]? = some b) : s.stale inten (j + 1) i = b := by
  rw [← held_stale s inten place, held, request_unset place, Memory.fill,
    List.getD_eq_getElem?_getD, found, Option.getD_some]

theorem bytes_of_agree {s s' : Script} (differ : DifferInBytes s s') {inten : Nat}
    (h : Agree s s' (.setInten inten)) : AgreeBytes s s' := by
  constructor
  · exact h 0 (fun j lt => absurd lt (by omega)) 4 (by decide) (by decide)
  · intro j passed i place inside
    have same := h (j + 1) (fun l lt => passed l (by omega)) i place inside
    have length := differ.length j
    rcases Nat.lt_or_ge i ((s.read j).data 5).length with long | short
    · have found := List.getElem?_eq_getElem long
      have found' := List.getElem?_eq_getElem (length ▸ long)
      rw [stale_read place found, stale_read place found'] at same
      rw [found, found', same]
    · rw [List.getElem?_eq_none short, List.getElem?_eq_none (length ▸ short)]

/-- Two runs write the same reports exactly if the bytes that no request sets agree. Where
hidapi's calls return the same in both, those are bytes 2 to 4 of the uninitialised buffer for
`get_inten`; for `set_inten` they are its byte 4, bytes 3 and 4 of the first response and bytes
2 to 4 of every later one that a report follows. -/
theorem reports_same_iff (s s' : Script) (handle : Handle) :
    (∀ c, SameReports s s' handle c ↔ Agree s s' c) ∧
    (DifferInBytes s s' → ∀ inten,
      (SameReports s s' handle (.setInten inten) ↔ AgreeBytes s s')) := by
  refine ⟨sameReports_iff s s' handle, fun differ inten => ?_⟩
  rw [sameReports_iff]
  exact ⟨bytes_of_agree differ, fun h => agree_of_bytes h inten⟩

/-- A panel that is quick, with a mark at each end of its responses and of the buffer. -/
def marked (front back : UInt8) : Script where
  write := fun _ => 5
  read := fun _ => .bytes [front, 0, 0, 0, back]
  uninit := fun i => if i = 0 then front else back

theorem marked_differ (front back front' back' : UInt8) :
    DifferInBytes (marked front back) (marked front' back') :=
  ⟨fun _ => rfl, fun _ => rfl⟩

theorem reports_not_always_same : DifferInBytes (marked 0 0) (marked 0 1) ∧
    ¬ SameReports (marked 0 0) (marked 0 1) 0 .getInten ∧
    ¬ SameReports (marked 0 0) (marked 0 1) 0 (.setInten 512) := by
  refine ⟨marked_differ 0 0 0 1, fun same => ?_, fun same => ?_⟩
  · have agree := (sameReports_iff _ _ _ _).mp same 2 (by decide) (by decide)
    exact absurd agree (by decide)
  · have agree := (sameReports_iff _ _ _ _).mp same 0 (fun j lt => absurd lt (by omega)) 4
      (by decide) (by decide)
    exact absurd agree (by decide)

theorem reports_same_iff_marked : SameReports (marked 0 1) (marked 9 1) 0 (.setInten 512) := by
  apply ((reports_same_iff (marked 0 1) (marked 9 1) 0).2 (marked_differ 0 1 9 1) 512).mpr
  refine ⟨rfl, fun j _ i place inside => ?_⟩
  obtain ⟨i, rfl⟩ : ∃ l, i = l + 1 := ⟨i - 1, by have := two_le_unset (j + 1); omega⟩
  rfl

end Script
end FlatPanel
