import FlatPanel.Apart

/-! What the port delivered, and what main made of it. Each `ReadFile` is written down where it
is called, with what the calls after it say of it. Main is the one that was given these results:
it drops none and makes none up, and it returns without a read only if it has no port. -/
namespace FlatPanel

open Program

variable {V W : Type}

/-- A `ReadFile`: whether it succeeded at once, the error that was asked for if it did not, and
what the operation came to once it was waited for. -/
structure Fetch where
  ok : Bool
  error : Option Nat
  result : Option (Option (List UInt8))

namespace Fetch

/-- There was nothing to wait for. -/
def Refused (f : Fetch) : Prop := f.ok = false ∧ f.error ≠ some errorIoPending

instance (f : Fetch) : Decidable f.Refused := inferInstanceAs (Decidable (_ ∧ _))

/-- A failure at once or later, nothing in time, or a byte. -/
def outcome (f : Fetch) : SerialRead :=
  if f.Refused then .failed
  else
    match f.result with
    | some (some []) => .timedOut
    | some (some (b :: _)) => .byte b
    | some none | none => .failed

/-- What was read by these, the last of which comes first. -/
def outcomes (fs : List Fetch) : List SerialRead := (fs.map outcome).reverse

def began (fs : List Fetch) (ok : Bool) : List Fetch := ⟨ok, none, none⟩ :: fs

/-- The writes ask for errors too, but not between a `ReadFile` and its result. -/
def noteError (fs : List Fetch) (error : Nat) : List Fetch :=
  match fs with
  | ⟨false, none, none⟩ :: rest => ⟨false, some error, none⟩ :: rest
  | fs => fs

def noteResult (ov : Overlapped) (fs : List Fetch) (result : Option (List UInt8)) : List Fetch :=
  match ov, fs with
  | .rd, f :: rest => { f with result := some result } :: rest
  | _, fs => fs

def line (line : WinTransfer W) : WinTransfer (List Fetch × W) where
  readFile := fun fd len ov => noting began (line.readFile fd len ov)
  writeFile := fun fd bs ov => onSnd (line.writeFile fd bs ov)
  getOverlappedResult := fun fd ov wait =>
    noting (noteResult ov) (line.getOverlappedResult fd ov wait)
  flushFileBuffers := fun fd => onSnd (line.flushFileBuffers fd)
  getLastError := noting noteError line.getLastError

/-- An error that comes late changes nothing. -/
theorem noteError_outcome (fs : List Fetch) (error : Nat) :
    (noteError fs error).map outcome = fs.map outcome := by
  unfold noteError
  split
  · simp [outcome, Refused]
  · rfl

theorem got_outcome {f : Fetch} (going : ¬ f.Refused) (bs : List UInt8) :
    { f with result := some (some bs) }.outcome = SerialRead.ofRead bs.length bs := by
  have going : ¬ { f with result := some (some bs) }.Refused := going
  rw [outcome, if_neg going]
  cases bs with
  | nil => rfl
  | cons b bs =>
    have length : ((b :: bs).length : Int) = bs.length + 1 := by simp
    rw [SerialRead.ofRead, if_neg (by omega), if_neg (by omega)]
    rfl

end Fetch

def Calls.fetching (calls : Calls W) : Calls (List Fetch × W) where
  win := calls.win.lift onSnd
  line := Fetch.line calls.line
  hid := calls.hid.lift onSnd Prod.snd

namespace Process

open Fetch

variable {calls : Calls W} {t t' : List Fetch × W}

theorem fetching_records (calls : Calls W) : Calls.Records Prod.snd calls.fetching calls := by
  refine ⟨calls.win.along, ⟨?_, fun _ _ _ => onSnd_within _, ?_, fun _ => onSnd_within _, ?_⟩,
    calls.hid.along⟩
  · exact fun _ _ _ => noting_follows began _
  · exact fun _ ov _ => noting_follows (noteResult ov) _
  · exact noting_follows noteError _

theorem fetching_win (calls : Calls W) (fs : List Fetch) :
    WinOpen.Records (fun w => (fs, w)) calls.win calls.fetching.win :=
  calls.win.lift_records fun m => onSnd_follows fs m

theorem fetching_hid (calls : Calls W) (fs : List Fetch) :
    Env.Records (fun w => (fs, w)) calls.hid calls.fetching.hid :=
  calls.hid.lift_records (fun m => onSnd_follows fs m) fun _ => rfl

/-- The operation was refused at once, or there is a result to wait for. -/
theorem fetch_begins {d : SerialPort} {len : Nat} {ok bad : Bool} {t₁ t₂ : List Fetch × W}
    (begins : (calls.fetching.line.readFile d.mFd len .rd).run t = some (ok, t₁))
    (why : (calls.fetching.line.failed ok errorIoPending).run t₁ = some (bad, t₂)) :
    ∃ f, t₂.1 = f :: t.1 ∧ (f.Refused ↔ bad = true) := by
  have first : t₁.1 = ⟨ok, none, none⟩ :: t.1 :=
    noting_ensures began (calls.line.readFile d.mFd len .rd) t ok t₁ begins
  cases ok with
  | true =>
    obtain ⟨rfl, rfl⟩ := (run_pure_eq _ _ _ _).mp why
    exact ⟨_, first, by simp [Refused]⟩
  | false =>
    obtain ⟨error, _, asks, out⟩ := (run_bind_eq _ _ _ _ _).mp why
    obtain ⟨rfl, rfl⟩ := (run_pure_eq _ _ _ _).mp out
    have second := noting_ensures noteError calls.line.getLastError t₁ error _ asks
    rw [first] at second
    exact ⟨_, second, by simp [Refused]⟩

/-- What one `Read` of the port returns is what its `ReadFile` came to. -/
theorem read_fetches (d : SerialPort) (len : Nat) (t : List Fetch × W) :
    (d.read calls.fetching.line len).Ensures t (fun r t' =>
      t'.1.map outcome = SerialRead.ofRead r.1 r.2 :: t.1.map outcome) := by
  have waited {result : Option (List UInt8)} {t₂ t' : List Fetch × W}
      (waits : (calls.fetching.line.getOverlappedResult d.mFd .rd true).run t₂ =
        some (result, t')) : t'.1 = noteResult .rd t₂.1 result :=
    noting_ensures (noteResult .rd) (calls.line.getOverlappedResult d.mFd .rd true) t₂ result t'
      waits
  intro r t' reads
  cases SerialPort.read_cases calls.fetching.line d len t r t' reads with
  | failed begins why =>
    obtain ⟨f, head, refused⟩ := fetch_begins begins why
    have outcome : f.outcome = .failed := if_pos (refused.mpr rfl)
    rw [head, List.map_cons, outcome]
    rfl
  | lost begins why waits =>
    obtain ⟨f, head, refused⟩ := fetch_begins begins why
    have going : ¬ { f with result := some none }.Refused := fun out => nomatch refused.mp out
    have outcome : { f with result := some none }.outcome = .failed := if_neg going
    rw [waited waits, head, noteResult, List.map_cons, outcome]
    rfl
  | @got _ _ _ _ bs begins why waits =>
    obtain ⟨f, head, refused⟩ := fetch_begins begins why
    have going : ¬ f.Refused := fun out => nomatch refused.mp out
    rw [waited waits, head, noteResult, List.map_cons, got_outcome going]

/-- No other call says anything of a read. -/
theorem failed_fetches (ok : Bool) (expected : Nat) (t : List Fetch × W) :
    (calls.fetching.line.failed ok expected).Ensures t (fun _ t' =>
      t'.1.map outcome = t.1.map outcome) := by
  apply ensures_ite
  · exact fun _ => ensures_pure rfl
  · intro _
    apply ensures_bind
    refine (noting_ensures noteError calls.line.getLastError t).mono ?_
    intro error t' noted
    apply ensures_pure
    rw [noted, noteError_outcome]

theorem respond_fetches (d : SerialPort) (resp : Option (List UInt8)) (t : List Fetch × W) :
    (respond calls.fetching.line d resp).Ensures t (fun _ t' =>
      t'.1.map outcome = t.1.map outcome) := by
  have asked (t : List Fetch × W) :
      (calls.fetching.line.getOverlappedResult d.mFd .wr false).Ensures t
        (fun _ t' => t'.1 = t.1) :=
    (noting_ensures (noteResult .wr) (calls.line.getOverlappedResult d.mFd .wr false) t).mono
      fun _ _ same => by simpa [noteResult] using same
  cases resp with
  | none => exact ensures_pure rfl
  | some bs =>
    apply ensures_bind
    intro ok t' hs
    apply ensures_pure
    cases SerialPort.write_cases calls.fetching.line d bs t ok t' hs with
    | dropped asks why => rw [failed_fetches _ _ _ _ t' why, asked t _ _ asks]
    | failed asks write why =>
      rw [failed_fetches _ _ _ _ t' why, onSnd_ensures _ _ _ _ write, asked t _ _ asks]
    | sent asks write why flush =>
      rw [onSnd_ensures _ _ _ t' flush, failed_fetches _ _ _ _ _ why, onSnd_ensures _ _ _ _ write,
        asked t _ _ asks]

theorem leave_fetches (code : Int) (s : Process) (t : List Fetch × W) :
    (s.leave calls.fetching code).Ensures t (fun s' t' => s'.reads = s.reads ∧ t'.1 = t.1) := by
  apply ensures_bind
  refine (((fetching_win calls t.1).close s.dev).of_snd t.2).mono ?_
  rintro dev t₁ ⟨_, same⟩
  apply ensures_bind
  refine (((fetching_hid calls t₁.1).leave code s.emu).of_snd t₁.2).mono ?_
  rintro emu t₂ ⟨_, same₂⟩
  exact ensures_pure ⟨rfl, same₂.trans same⟩

theorem step_fetches (s : Process) (r : SerialRead) (t : List Fetch × W) :
    (s.step calls.fetching r).Ensures t (fun q t' =>
      (Sum.elim id id q).reads = s.reads ∧ t'.1.map outcome = t.1.map outcome) := by
  have switch {b : UInt8} {emu : Emu} {t₁ t₂ : List Fetch × W}
      (acts : ((s.emu.handed b).dispatch calls.fetching.hid).run t = some (emu, t₁))
      (sends : (respond calls.fetching.line s.dev (told (s.emu.lineRead b) emu)).run t₁ =
        some ((), t₂)) : t₂.1.map outcome = t.1.map outcome := by
    obtain ⟨_, same⟩ := ((fetching_hid calls t.1).dispatch _).of_snd t.2 emu t₁ acts
    rw [respond_fetches s.dev _ t₁ _ t₂ sends, same]
  intro q t' hs
  cases step_cases _ s r t q t' hs with
  | @waited emu _ looks =>
    obtain ⟨_, same⟩ := ((fetching_hid calls t.1).readTimedOut s.emu).of_snd t.2 emu t' looks
    exact ⟨rfl, congrArg _ same⟩
  | failed leaves =>
    obtain ⟨reads, same⟩ := leave_fetches 1 s t _ t' leaves
    exact ⟨reads, congrArg _ same⟩
  | inLine more => exact ⟨rfl, rfl⟩
  | switched ends acts sends goes => exact ⟨rfl, switch acts sends⟩
  | quits ends acts sends stops leaves =>
    obtain ⟨reads, same⟩ := leave_fetches 0 _ _ _ t' leaves
    exact ⟨reads, (congrArg _ same).trans (switch acts sends)⟩

theorem trip_fetches {s : Process} (h : s.reads = t.1.map outcome) :
    (trip calls.fetching s).Ensures t (fun q t' =>
      (Sum.elim id id q).reads = t'.1.map outcome) := by
  apply ensures_bind
  refine (read_fetches s.dev 1 t).mono ?_
  rintro ⟨nread, bs⟩ t₁ fetched
  let r := SerialRead.ofRead nread bs
  refine (step_fetches { s with reads := r :: s.reads } r t₁).mono ?_
  rintro q t' ⟨reads, kept⟩
  rw [reads, kept, fetched, ← h]

/-- The reads that main knows of are what the port's own came to. -/
theorem main_fetching (calls : Calls W) (buf : Memory) (args : List (List UInt8)) (n : Nat)
    (w : W) : (main calls.fetching buf args n).Ensures ([], w) (fun q t =>
      (Sum.elim id id q).reads = t.1.map outcome) := by
  have refused : ((Emu.start buf).leave calls.fetching.hid 1).Ensures ([], w)
      (fun _ t => t.1 = []) := by
    refine (((fetching_hid calls []).leave 1 _).of_snd w).mono ?_
    exact fun _ _ same => same.2
  match args with
  | [_, port] =>
    apply ensures_bind
    refine (((fetching_win calls []).open _ _ _ _ _).of_snd w).mono ?_
    rintro ⟨ret, dev⟩ ⟨_, w₁⟩ ⟨_, rfl⟩
    apply ensures_ite
    · intro bad
      apply ensures_bind
      refine (leave_fetches 1 _ _).mono ?_
      rintro s t ⟨reads, none⟩
      apply ensures_pure
      change s.reads = _
      rw [reads, none]
      rfl
    · intro good
      refine (ensures_trips (I := fun _ s t => s.reads = t.1.map outcome)
        (Q := fun s t => s.reads = t.1.map outcome) ?_ n (k := 0) rfl).mono ?_
      · intro _ s t h
        refine (trip_fetches h).mono ?_
        rintro (s' | s') t' reads
        · exact reads
        · exact reads
      · rintro (s | s) t reads
        · exact reads
        · exact reads
  | [] | [_] | _ :: _ :: _ :: _ =>
    apply ensures_bind
    refine refused.mono ?_
    rintro emu t none
    apply ensures_pure
    rw [none]
    rfl

/-- What main knows, and what the library was made to do, are those of main given these results. -/
def AsFetched (env : Env W) (buf : Memory) (w : W) (fs : List Fetch) (s : Process) (w' : W) :
    Prop :=
  (Emu.main env buf (outcomes fs)).run w = some (s.emu, w')

theorem AsMain.fetched {env : Env W} {buf : Memory} {w w' : W} {fs : List Fetch} {s : Process}
    (h : AsMain env buf w s w') (reads : s.reads = fs.map outcome) :
    AsFetched env buf w fs s w' := by
  unfold AsMain at h
  rwa [reads] at h

/-- Main stopped after so many reads has made them all, or has returned; and it has returned
before the first exactly when it has no port, and then has done nothing. -/
def Attends (win : WinOpen V) (env : Env W) (buf : Memory) (args : List (List UInt8)) (n : Nat)
    (v : V) (w : W) (q : Process ⊕ Process) (fs : List Fetch) (w' : W) : Prop :=
  match q with
  | .inl s => Opens win args v ∧ s.emu.exited = none ∧ fs.length = n ∧ AsFetched env buf w fs s w'
  | .inr s => s.emu.exited ≠ none ∧ (Opens win args v ∧ fs ≠ [] ∧ AsFetched env buf w fs s w' ∨
      ¬ Opens win args v ∧ fs = [] ∧ s.emu = (Emu.start buf).gone 1 ∧ w' = w)

theorem main_attends {win : WinOpen V} {line : WinTransfer V} {env : Env W}
    {buf : Memory} {args : List (List UInt8)} {n : Nat} {v : V} {w : W} {q : Process ⊕ Process}
    {fs : List Fetch} {t : V × W} (reads : (Sum.elim id id q).reads = fs.map outcome)
    (reached : (main (.apart win line env) buf args n).run (v, w) = some (q, t)) :
    Attends win env buf args n v w q fs t.2 := by
  have served := main_serving win line env buf args n v w q t reached
  cases q with
  | inl s =>
    obtain ⟨opens, serving⟩ := served
    have length := congrArg List.length reads
    rw [List.length_map] at length
    exact ⟨opens, serving.running, length.symm.trans serving.length, serving.main.fetched reads⟩
  | inr s =>
    change s.reads = _ at reads
    obtain ⟨exited, ⟨opens, some_read, main⟩ | ⟨shut, unread, gone, same⟩⟩ := served
    · refine ⟨exited, .inl ⟨opens, fun empty => some_read ?_, main.fetched reads⟩⟩
      rw [reads, empty]
      rfl
    · refine ⟨exited, .inr ⟨shut, ?_, gone, same⟩⟩
      rw [unread] at reads
      exact List.map_eq_nil_iff.mp reads.symm

/-- Whatever the port does, for any arguments and at any time, and the record changes nothing:
main has done what it does for the results of its reads, all of them and in their order. -/
theorem main_apart (win : WinOpen V) (line : WinTransfer V) (env : Env W) (buf : Memory)
    (args : List (List UInt8)) (n : Nat) (v : V) (w : W) :
    Follows Prod.snd (main (Calls.apart win line env).fetching buf args n)
        (main (.apart win line env) buf args n) ∧
      (main (Calls.apart win line env).fetching buf args n).Ensures ([], v, w) (fun q t =>
        Attends win env buf args n v w q t.1 t.2.2) := by
  have records := (fetching_records (.apart win line env)).main buf args n
  refine ⟨records, fun q t reached => ?_⟩
  exact main_attends (main_fetching _ buf args n (v, w) q t reached) (records.run_eq reached)

end Process
end FlatPanel
