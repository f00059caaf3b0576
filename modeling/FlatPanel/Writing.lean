import FlatPanel.Serial

/-! The writes of a port whose `OVERLAPPED` remembers how the last of them ended. -/
namespace FlatPanel

open Program

inductive IoStatus where
  | success
  | pending
  | failed (error : Nat)
  deriving DecidableEq

/-- What the port is connected to. `written` has the bytes of every `WriteFile`, oldest first,
and no decision is taken from it but the outcome of the next. -/
structure SerialLine where
  status : IoStatus
  lastError : Nat
  written : List (List UInt8)
  deriving DecidableEq

inductive LineEvent where
  | write (bs : List UInt8)
  | completes (result : IoStatus)

namespace SerialLine

def idle : SerialLine := ⟨.success, 0, []⟩

/-- An operation that is reported as this: the value returned, and the error left behind. -/
def report (status : IoStatus) (waiting : Nat) (l : SerialLine) : Bool × SerialLine :=
  match status with
  | .success => (true, l)
  | .pending => (false, { l with lastError := waiting })
  | .failed error => (false, { l with lastError := error })

/-- The write number `n` stands as `outcome n` when its `WriteFile` returns. Nothing comes in,
so every read runs into its time-out. -/
def transfer (outcome : Nat → IoStatus) : WinTransfer SerialLine where
  readFile := fun _ _ _ l => some (report .pending errorIoPending l)
  writeFile := fun _ bs _ l =>
    let status := outcome l.written.length
    some (report status errorIoPending { l with status := status, written := l.written ++ [bs] })
  getOverlappedResult := fun _ ov _ l =>
    match ov with
    | .rd => some (some [], l)
    | .wr =>
      let (ok, l) := report l.status errorIoIncomplete l
      some (if ok then some [] else none, l)
  flushFileBuffers := fun _ l => some ((), l)
  getLastError := fun l => some (l.lastError, l)

/-- The status changes only if there is a write to complete. -/
def completed (result : IoStatus) (l : SerialLine) : SerialLine :=
  if l.status = .pending then { l with status := result } else l

def step (outcome : Nat → IoStatus) (d : SerialPort) :
    LineEvent → Program SerialLine SerialPort
  | .write bs => do
    let _ ← d.write (transfer outcome) bs
    return d
  | .completes result => fun l => some (d, l.completed result)

/-- A write is made if there is none pending, and none is made if there is. -/
structure Sent (bs : List UInt8) (l l' : SerialLine) : Prop where
  free : l.status ≠ .pending → l'.written = l.written ++ [bs]
  busy : l.status = .pending → l'.written = l.written

def Clean (l : SerialLine) : Prop := ∀ error, l.status ≠ .failed error

variable {outcome : Nat → IoStatus} {d d' : SerialPort} {l l' : SerialLine}

theorem report_keeps (status : IoStatus) (waiting : Nat) (l : SerialLine) :
    (report status waiting l).2.status = l.status ∧
      (report status waiting l).2.written = l.written := by
  cases status <;> exact ⟨rfl, rfl⟩

theorem asked_success {bs : List UInt8}
    (asked : ((transfer outcome).getOverlappedResult d.mFd .wr false).run l = some (some bs, l')) :
    l.status = .success ∧ l' = l := by
  obtain ⟨status, error, written⟩ := l
  cases status with
  | success => exact ⟨rfl, (congrArg Prod.snd (Option.some.inj asked)).symm⟩
  | pending => cases asked
  | failed => cases asked

theorem asked_other
    (asked : ((transfer outcome).getOverlappedResult d.mFd .wr false).run l = some (none, l')) :
    l.status ≠ .success ∧ l'.status = l.status ∧ l'.written = l.written := by
  obtain ⟨status, error, written⟩ := l
  cases status with
  | success => cases asked
  | pending | failed =>
    cases asked
    exact ⟨nofun, rfl, rfl⟩

theorem failed_keeps {ok bad : Bool} {expected : Nat}
    (why : ((transfer outcome).failed ok expected).run l = some (bad, l')) : l' = l := by
  cases ok with
  | true => exact ((run_pure_eq _ _ _ _).mp why).2.symm
  | false =>
    obtain ⟨err, w, got, ends⟩ := (run_bind_eq _ _ _ _ _).mp why
    have same := (run_pure_eq _ _ _ _).mp ends
    cases got
    exact same.2.symm

theorem writeFile_cases {ok : Bool} {bs : List UInt8}
    (write : ((transfer outcome).writeFile d.mFd bs .wr).run l = some (ok, l')) :
    l'.status = outcome l.written.length ∧ l'.written = l.written ++ [bs] := by
  obtain rfl : _ = l' := congrArg Prod.snd (Option.some.inj write)
  exact report_keeps (outcome l.written.length) errorIoPending
    { l with status := outcome l.written.length, written := l.written ++ [bs] }

/-- What a `Write` does is decided by the status alone. -/
theorem write_line (outcome : Nat → IoStatus) (d : SerialPort) (bs : List UInt8)
    (l : SerialLine) : (d.write (transfer outcome) bs).Ensures l (fun ok l' =>
      l.status = .success ∧ l'.written = l.written ++ [bs] ∧
        l'.status = outcome l.written.length ∨
      l.status ≠ .success ∧ ok = false ∧ l'.written = l.written ∧ l'.status = l.status) := by
  intro ok l' hs
  cases SerialPort.write_cases (transfer outcome) d bs l ok l' hs with
  | dropped asked why =>
    obtain rfl := failed_keeps why
    obtain ⟨other, status, written⟩ := asked_other asked
    exact .inr ⟨other, rfl, written, status⟩
  | failed asked write why =>
    obtain rfl := failed_keeps why
    obtain ⟨free, rfl⟩ := asked_success asked
    obtain ⟨status, written⟩ := writeFile_cases write
    exact .inl ⟨free, written, status⟩
  | sent asked write why flush =>
    obtain rfl := failed_keeps why
    obtain ⟨free, rfl⟩ := asked_success asked
    obtain ⟨status, written⟩ := writeFile_cases write
    cases flush
    exact .inl ⟨free, written, status⟩

theorem failed_returns (ok : Bool) (expected : Nat) (l : SerialLine) :
    ((transfer outcome).failed ok expected).Returns l (fun _ _ => True) := by
  cases ok with
  | true => exact returns_pure trivial
  | false => exact returns_bind ⟨l.lastError, l, rfl, returns_pure trivial⟩

theorem write_returns (outcome : Nat → IoStatus) (d : SerialPort) (bs : List UInt8)
    (l : SerialLine) : (d.write (transfer outcome) bs).Returns l (fun _ _ => True) := by
  apply returns_bind
  refine ⟨_, _, rfl, ?_⟩
  apply returns_bind
  apply (failed_returns _ _ _).mono
  intro failed l₁ _
  apply returns_ite (fun _ => returns_pure trivial)
  intro _
  apply returns_ite (fun _ => returns_pure trivial)
  intro _
  apply returns_bind
  refine ⟨_, _, rfl, ?_⟩
  apply returns_bind
  apply (failed_returns _ _ _).mono
  intro failed l₂ _
  apply returns_ite (fun _ => returns_pure trivial)
  intro _
  exact returns_bind ⟨(), l₂, rfl, returns_pure trivial⟩

theorem run_returns (outcome : Nat → IoStatus) (d : SerialPort) (events : List LineEvent)
    (l : SerialLine) : (Runs.run (step outcome) d events).Returns l (fun _ _ => True) := by
  apply Runs.returns_run (I := fun _ _ => True) _ events trivial
  intro d l e _
  cases e with
  | write bs => exact returns_bind ((write_returns outcome d bs l).mono fun _ _ _ => returns_pure trivial)
  | completes result => exact ⟨d, l.completed result, rfl, trivial⟩

theorem step_write {bs : List UInt8}
    (hs : (step outcome d (.write bs)).run l = some (d', l')) :
    l.status = .success ∧ l'.written = l.written ++ [bs] ∧
      l'.status = outcome l.written.length ∨
    l.status ≠ .success ∧ l'.written = l.written ∧ l'.status = l.status := by
  obtain ⟨ok, w, writes, ends⟩ := (run_bind_eq _ _ _ _ _).mp hs
  obtain ⟨_, rfl⟩ := (run_pure_eq _ _ _ _).mp ends
  rcases write_line outcome d bs l ok w writes with sent | ⟨held, _, kept⟩
  · exact .inl sent
  · exact .inr ⟨held, kept⟩

theorem step_sent {bs : List UInt8} (hs : (step outcome d (.write bs)).run l = some (d', l')) :
    Sent bs l l' ↔ l.Clean := by
  constructor
  · intro sent error failed
    have more := sent.free (by rw [failed]; nofun)
    rcases step_write hs with ⟨free, _⟩ | ⟨_, same, _⟩
    · rw [failed] at free
      contradiction
    · simp [same] at more
  · intro clean
    rcases step_write hs with ⟨free, more, _⟩ | ⟨held, same, _⟩
    · exact ⟨fun _ => more, fun busy => by rw [free] at busy; contradiction⟩
    · refine ⟨fun idle => ?_, fun _ => same⟩
      cases status : l.status with
      | success => exact absurd status held
      | pending => exact absurd status idle
      | failed error => exact absurd status (clean error)

end SerialLine

open SerialLine

/-- In every run, each write is made when the line is free and none when it is not, if and only
if no write is attempted after one that ended in an error. -/
theorem writes_sent_iff (outcome : Nat → IoStatus) (d : SerialPort) (events : List LineEvent) :
    (Runs.run (step outcome) d events).Returns idle (fun _ _ => True) ∧
      (Runs.EachStep (step outcome) (fun _ l e _ l' => ∀ bs, e = .write bs → Sent bs l l')
          d idle events ↔
        Runs.EachStep (step outcome) (fun _ l e _ _ => ∀ bs, e = .write bs → l.Clean)
          d idle events) := by
  constructor
  · exact run_returns outcome d events idle
  · apply Runs.eachStep_iff (I := fun _ _ => True) _ _ events trivial
    · intro d l e d' l' _ hs clean
      refine ⟨trivial, ?_⟩
      rintro bs rfl
      exact (step_sent hs).mpr (clean bs rfl)
    · rintro d l e d' l' _ hs sent bs rfl
      exact (step_sent hs).mp (sent bs rfl)

/-- The first write completes with an error. The line is free then, and the second write is
dropped. -/
theorem writes_not_always_sent :
    ¬ ∀ (outcome : Nat → IoStatus) (d : SerialPort) (events : List LineEvent),
      Runs.EachStep (step outcome) (fun _ l e _ l' => ∀ bs, e = .write bs → Sent bs l l')
        d idle events := by
  intro claim
  have each := claim (fun _ => .pending) .init
    [.write [ascii 'a'], .completes (.failed 995), .write [ascii 'b']]
  obtain ⟨_, each⟩ := each _ _ rfl
  obtain ⟨_, each⟩ := each _ _ rfl
  have more := ((each _ _ rfl).1 _ rfl).free (by decide)
  exact absurd more (by decide)

end FlatPanel
