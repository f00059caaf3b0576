import FlatPanel.Process

/-! The port and the HID library apart. The process calls both, and neither sees the other; so
what the library is made to do by the process is what main makes it do for the bytes that were
read, whatever the port does. -/
namespace FlatPanel

open Program

variable {V W : Type} {part : V → W}

structure WinOpen.Records (part : V → W) (big : WinOpen V) (win : WinOpen W) : Prop where
  createFileA : ∀ name, Follows part (big.createFileA name) (win.createFileA name)
  setCommState : ∀ fd dcb, Follows part (big.setCommState fd dcb) (win.setCommState fd dcb)
  createEvent : Follows part big.createEvent win.createEvent
  setCommTimeouts : ∀ fd cto,
    Follows part (big.setCommTimeouts fd cto) (win.setCommTimeouts fd cto)
  setupComm : ∀ fd m n, Follows part (big.setupComm fd m n) (win.setupComm fd m n)
  closeHandle : ∀ h, Follows part (big.closeHandle h) (win.closeHandle h)

structure WinTransfer.Records (part : V → W) (big : WinTransfer V) (line : WinTransfer W) :
    Prop where
  readFile : ∀ fd len ov, Follows part (big.readFile fd len ov) (line.readFile fd len ov)
  writeFile : ∀ fd bs ov, Follows part (big.writeFile fd bs ov) (line.writeFile fd bs ov)
  getOverlappedResult : ∀ fd ov wait,
    Follows part (big.getOverlappedResult fd ov wait) (line.getOverlappedResult fd ov wait)
  flushFileBuffers : ∀ fd, Follows part (big.flushFileBuffers fd) (line.flushFileBuffers fd)
  getLastError : Follows part big.getLastError line.getLastError

structure Calls.Records (part : V → W) (big : Calls V) (calls : Calls W) : Prop where
  win : WinOpen.Records part big.win calls.win
  line : WinTransfer.Records part big.line calls.line
  hid : Env.Records part big.hid calls.hid

namespace WinOpen

variable {big : WinOpen V} {win : WinOpen W} (h : WinOpen.Records part big win)
include h

theorem Records.close (d : SerialPort) : Follows part (d.close big) (d.close win) := by
  apply Follows.ite
  · apply (h.closeHandle _).bind
    intro _
    apply (h.closeHandle _).bind
    intro _
    exact (h.closeHandle _).bind fun _ => follows_pure _
  · exact follows_pure d

theorem Records.openDevice (devname : List UInt8) (dcs : SerialPortDCS) (d : SerialPort) :
    Follows part (d.openDevice big devname dcs) (d.openDevice win devname dcs) := by
  apply (h.createFileA devname).bind
  intro fd
  apply (follows_pure _).ite
  apply (h.setCommState _ _).bind
  intro ok
  apply (follows_pure _).ite
  apply h.createEvent.bind
  intro rd
  apply (follows_pure _).ite
  apply h.createEvent.bind
  intro wr
  apply (follows_pure _).ite
  apply (h.setCommTimeouts _ _).bind
  intro ok
  apply (follows_pure _).ite
  apply (h.setupComm _ _ _).bind
  intro ok
  exact (follows_pure _).ite (follows_pure _)

theorem Records.open (portname : List UInt8) (baudrate : BitVec 32) (protocol : List UInt8)
    (flowControl : FlowControl) (d : SerialPort) :
    Follows part (d.open big portname baudrate protocol flowControl)
      (d.open win portname baudrate protocol flowControl) := by
  unfold SerialPort.open
  cases SerialPort.settings baudrate protocol flowControl with
  | none => exact follows_pure _
  | some dcs => exact h.openDevice portname dcs d

end WinOpen

namespace WinTransfer

variable {big : WinTransfer V} {line : WinTransfer W} (h : WinTransfer.Records part big line)
include h

theorem Records.failed (ok : Bool) (expected : Nat) :
    Follows part (big.failed ok expected) (line.failed ok expected) :=
  (follows_pure _).ite (h.getLastError.bind fun _ => follows_pure _)

theorem Records.read (d : SerialPort) (len : Nat) :
    Follows part (d.read big len) (d.read line len) := by
  apply (h.readFile _ _ _).bind
  intro ok
  apply (h.failed ok _).bind
  intro failed
  apply (follows_pure _).ite
  apply (h.getOverlappedResult _ _ _).bind
  intro result
  cases result with
  | none => exact follows_pure _
  | some bs => exact follows_pure _

theorem Records.write (d : SerialPort) (bs : List UInt8) :
    Follows part (d.write big bs) (d.write line bs) := by
  apply (h.getOverlappedResult _ _ _).bind
  intro result
  apply (h.failed _ _).bind
  intro failed
  apply (follows_pure _).ite
  apply (follows_pure _).ite
  apply (h.writeFile _ _ _).bind
  intro ok
  apply (h.failed ok _).bind
  intro failed
  apply (follows_pure _).ite
  exact (h.flushFileBuffers _).bind fun _ => follows_pure _

theorem Records.respond (dev : SerialPort) (resp : Option (List UInt8)) :
    Follows part (Process.respond big dev resp) (Process.respond line dev resp) := by
  cases resp with
  | none => exact follows_pure _
  | some bs => exact (h.write dev bs).bind fun _ => follows_pure _

end WinTransfer

namespace Calls

variable {big : Calls V} {calls : Calls W} (h : Calls.Records part big calls)
include h

theorem Records.leave (code : Int) (s : Process) :
    Follows part (s.leave big code) (s.leave calls code) := by
  apply (h.win.close s.dev).bind
  intro dev
  exact (h.hid.leave code s.emu).bind fun _ => follows_pure _

theorem Records.endOfLine (s : Process) :
    Follows part (s.endOfLine big) (s.endOfLine calls) := by
  apply (h.hid.dispatch _).bind
  intro emu
  apply (h.line.respond s.dev _).bind
  intro _
  apply Follows.ite
  · exact (h.leave 0 _).bind fun _ => follows_pure _
  · exact follows_pure _

theorem Records.step (s : Process) (r : SerialRead) :
    Follows part (s.step big r) (s.step calls r) := by
  cases r with
  | timedOut => exact (h.hid.readTimedOut s.emu).bind fun _ => follows_pure _
  | failed => exact (h.leave 1 s).bind fun _ => follows_pure _
  | byte b =>
    apply Follows.ite
    · exact h.endOfLine _
    · exact (follows_pure _).ite (h.endOfLine _)

theorem Records.main (buf : Memory) (args : List (List UInt8)) (n : Nat) :
    Follows part (Process.main big buf args n) (Process.main calls buf args n) := by
  have trips (n : Nat) (s : Process) :
      Follows part (trips (Process.trip big) n s) (trips (Process.trip calls) n s) := by
    apply Follows.trips
    intro s
    exact (h.line.read s.dev 1).bind fun _ => h.step _ _
  have refused (emu : Emu) :
      Follows part (emu.leave big.hid 1) (emu.leave calls.hid 1) := h.hid.leave 1 emu
  match args with
  | [_, port] =>
    apply (h.win.open _ _ _ _ _).bind
    intro r
    apply Follows.ite
    · exact (h.leave 1 _).bind fun _ => follows_pure _
    · exact trips n _
  | [] | [_] | _ :: _ :: _ :: _ => exact (refused _).bind fun _ => follows_pure _

end Calls

/-! The same calls on a larger state. -/

section Lift

variable (on : {α : Type} → Program V α → Program W α)

def WinOpen.lift (win : WinOpen V) : WinOpen W where
  createFileA := fun name => on (win.createFileA name)
  setCommState := fun fd dcb => on (win.setCommState fd dcb)
  createEvent := on win.createEvent
  setCommTimeouts := fun fd cto => on (win.setCommTimeouts fd cto)
  setupComm := fun fd m n => on (win.setupComm fd m n)
  closeHandle := fun h => on (win.closeHandle h)

def WinTransfer.lift (line : WinTransfer V) : WinTransfer W where
  readFile := fun fd len ov => on (line.readFile fd len ov)
  writeFile := fun fd bs ov => on (line.writeFile fd bs ov)
  getOverlappedResult := fun fd ov wait => on (line.getOverlappedResult fd ov wait)
  flushFileBuffers := fun fd => on (line.flushFileBuffers fd)
  getLastError := on line.getLastError

def Env.lift (view : W → V) (env : Env V) : Env W where
  hidOpen := on env.hidOpen
  hidWrite := fun handle report => on (env.hidWrite handle report)
  hidReadTimeout := fun handle => on (env.hidReadTimeout handle)
  hidClose := fun handle => on (env.hidClose handle)
  sleep := fun ms => on (env.sleep ms)
  time64 := on env.time64
  uninit := fun w => env.uninit (view w)
  pollBound := fun w => env.pollBound (view w)

variable {on} (follows : ∀ {α : Type} (m : Program V α), Follows part m (on m))
include follows

theorem WinOpen.lift_records (win : WinOpen V) : WinOpen.Records part win (win.lift on) :=
  ⟨fun _ => follows _, fun _ _ => follows _, follows _, fun _ _ => follows _,
    fun _ _ _ => follows _, fun _ => follows _⟩

theorem WinTransfer.lift_records (line : WinTransfer V) :
    WinTransfer.Records part line (line.lift on) :=
  ⟨fun _ _ _ => follows _, fun _ _ _ => follows _, fun _ _ _ => follows _, fun _ => follows _,
    follows _⟩

theorem Env.lift_records {view : W → V} (sees : ∀ v, view (part v) = v) (env : Env V) :
    Env.Records part env (env.lift on view) :=
  ⟨follows _, fun _ _ => follows _, fun _ => follows _, fun _ => follows _, fun _ => follows _,
    follows _, fun v => congrArg env.uninit (sees v).symm,
    fun v => congrArg env.pollBound (sees v).symm⟩

end Lift

/-- A record beside the state, which these calls do not touch. -/
theorem WinOpen.along (win : WinOpen W) :
    WinOpen.Records (Prod.snd : V × W → W) (win.lift onSnd) win :=
  ⟨fun _ => onSnd_within _, fun _ _ => onSnd_within _, onSnd_within _, fun _ _ => onSnd_within _,
    fun _ _ _ => onSnd_within _, fun _ => onSnd_within _⟩

theorem Env.along (env : Env W) :
    Env.Records (Prod.snd : V × W → W) (env.lift onSnd Prod.snd) env :=
  ⟨onSnd_within _, fun _ _ => onSnd_within _, fun _ => onSnd_within _, fun _ => onSnd_within _,
    fun _ => onSnd_within _, onSnd_within _, fun _ => rfl, fun _ => rfl⟩

/-- Windows on one state and the HID library on another. -/
def Calls.apart (win : WinOpen V) (line : WinTransfer V) (env : Env W) : Calls (V × W) where
  win := win.lift onFst
  line := line.lift onFst
  hid := env.lift onSnd Prod.snd

namespace Process

section Apart

variable (win : WinOpen V) (line : WinTransfer V) (env : Env W)

theorem apart_win (w : W) : WinOpen.Records (fun v => (v, w)) win (Calls.apart win line env).win :=
  win.lift_records fun m => onFst_follows w m

theorem apart_line (w : W) :
    WinTransfer.Records (fun v => (v, w)) line (Calls.apart win line env).line :=
  line.lift_records fun m => onFst_follows w m

theorem apart_hid (v : V) : Env.Records (fun w => (v, w)) env (Calls.apart win line env).hid :=
  env.lift_records (fun m => onSnd_follows v m) fun _ => rfl

/-- What a step of the process makes of main and of the library. -/
structure Took (s : Process) (r : SerialRead) (w : W) (s' : Process) (w' : W) : Prop where
  reads : s'.reads = s.reads
  emu : (s.emu.step env r).run w = some (s'.emu, w')

theorem leave_apart (code : Int) (s : Process) (v : V) (w : W) :
    (s.leave (.apart win line env) code).Ensures (v, w) (fun s' t =>
      s'.reads = s.reads ∧ s'.emu = s.emu.gone code ∧
        (s.emu.leave env code).run w = some (s'.emu, t.2)) := by
  apply ensures_bind
  refine (((apart_win win line env w).close s.dev).of_fst v).mono ?_
  rintro dev ⟨v₁, _⟩ ⟨_, rfl⟩
  apply ensures_bind
  refine (((apart_hid win line env v₁).leave code s.emu).of_snd _).mono ?_
  rintro emu t ⟨leaves, _⟩
  exact ensures_pure ⟨rfl, (Emu.leave_cases env code s.emu _ emu _ leaves).1, leaves⟩

theorem step_apart {s : Process} (running : s.emu.exited = none) (r : SerialRead)
    (v : V) (w : W) :
    (s.step (.apart win line env) r).Ensures (v, w) (Trip
      (fun s' t => Took env s r w s' t.2 ∧ s'.emu.exited = none)
      (fun s' t => Took env s r w s' t.2 ∧ s'.emu.exited ≠ none)) := by
  have on : ¬ s.emu.exited.isSome = true := by simp [running]
  intro q t hs
  cases step_cases _ s r (v, w) q t hs with
  | @waited emu _ looks =>
    obtain ⟨looks, _⟩ := ((apart_hid win line env v).readTimedOut s.emu).of_snd w _ t looks
    refine ⟨⟨rfl, ?_⟩, (readTimedOut_silent env s.emu w emu t.2 looks).1.trans running⟩
    rw [Emu.step, if_neg on]
    exact looks
  | failed leaves =>
    obtain ⟨reads, emu, leaves⟩ := leave_apart win line env 1 s v w _ t leaves
    refine ⟨⟨reads, ?_⟩, by simp [emu, Emu.gone]⟩
    rw [Emu.step, if_neg on]
    exact leaves
  | inLine more =>
    refine ⟨⟨rfl, ?_⟩, running⟩
    rw [Emu.step_stored env running more]
    rfl
  | @switched b emu w₁ _ ends acts sends goes =>
    obtain ⟨acts, left⟩ := ((apart_hid win line env v).dispatch _).of_snd w emu w₁ acts
    obtain ⟨v₁, w₁⟩ := w₁
    obtain ⟨_, same⟩ := ((apart_line win line env w₁).respond s.dev _).of_fst v₁ _ t sends
    have kept := (dispatch_once env _ w emu w₁ acts).1
    refine ⟨⟨rfl, ?_⟩, kept.trans ((Emu.handed_frame s.emu b).2.2.trans running)⟩
    rw [Emu.endOfLine_run env running ends acts, if_neg (by simp [goes]), same]
    rfl
  | @quits b emu s' w₁ w₂ _ ends acts sends stops leaves =>
    obtain ⟨acts, left⟩ := ((apart_hid win line env v).dispatch _).of_snd w emu w₁ acts
    obtain ⟨v₁, w₁⟩ := w₁
    obtain ⟨_, same⟩ := ((apart_line win line env w₁).respond s.dev _).of_fst v₁ _ w₂ sends
    obtain ⟨v₂, w₂⟩ := w₂
    obtain rfl : w₂ = w₁ := same
    obtain ⟨reads, gone, leaves⟩ := leave_apart win line env 0 _ v₂ w₂ s' t leaves
    refine ⟨⟨reads, ?_⟩, by simp [gone, Emu.gone]⟩
    rw [Emu.endOfLine_run env running ends acts, if_pos stops]
    exact leaves

end Apart

/-- The library was made to do what main makes it do for the reads that are recorded. -/
def AsMain (env : Env W) (buf : Memory) (w : W) (s : Process) (w' : W) : Prop :=
  (Emu.main env buf s.reads.reverse).run w = some (s.emu, w')

theorem AsMain.took {env : Env W} {buf : Memory} {w w₁ w' : W} {s s' : Process} {r : SerialRead}
    (h : AsMain env buf w s w₁)
    (took : Took env { s with reads := r :: s.reads } r w₁ s' w') : AsMain env buf w s' w' := by
  unfold AsMain Emu.main at *
  rw [took.reads, List.reverse_cons, Runs.run_append_of_run h]
  exact (Runs.run_cons_eq _ _ _ _ _ _).mpr ⟨_, _, took.emu, rfl⟩

theorem leave_start (env : Env W) (code : Int) (buf : Memory) (w : W) :
    ((Emu.start buf).leave env code).Ensures w (fun s' w' =>
      s' = (Emu.start buf).gone code ∧ w' = w) := by
  refine (Emu.leave_cases env code _ w).mono ?_
  rintro s' w' ⟨gone, closes⟩
  cases closes with
  | already _ => exact ⟨gone, rfl⟩
  | closes opens _ => contradiction

/-- Main goes on after so many reads, and has done what it does for them. -/
structure Serving (env : Env W) (buf : Memory) (w : W) (k : Nat) (s : Process) (w' : W) :
    Prop where
  running : s.emu.exited = none
  length : s.reads.length = k
  main : AsMain env buf w s w'

theorem trip_apart (win : WinOpen V) (line : WinTransfer V) {env : Env W} {buf : Memory} {w : W}
    {k : Nat} {s : Process} {t : V × W} (h : Serving env buf w k s t.2) :
    (trip (.apart win line env) s).Ensures t (Trip
      (fun s' t' => Serving env buf w (k + 1) s' t'.2)
      (fun s' t' => s'.emu.exited ≠ none ∧ s'.reads ≠ [] ∧ AsMain env buf w s' t'.2)) := by
  apply ensures_bind
  refine (((apart_line win line env t.2).read s.dev 1).of_fst t.1).mono ?_
  rintro ⟨nread, bs⟩ ⟨v₁, w₁⟩ ⟨_, rfl⟩
  let r := SerialRead.ofRead nread bs
  have steps := step_apart win line env (s := { s with reads := r :: s.reads }) h.running r v₁ t.2
  refine steps.mono ?_
  rintro (s' | s') t' ⟨took, exited⟩
  · refine ⟨exited, ?_, h.main.took took⟩
    rw [took.reads, List.length_cons, h.length]
  · exact ⟨exited, by simp [took.reads], h.main.took took⟩

/-- Two arguments, and the port that they name can be opened. -/
def Opens (win : WinOpen V) (args : List (List UInt8)) (v : V) : Prop :=
  ∃ tool port, args = [tool, port] ∧
    (SerialPort.init.open win (devname port) 9600 [ascii '8', ascii 'N', ascii '1'] .none).Returns v
      (fun r _ => r.1 = 0)

theorem opens_iff {win : WinOpen V} {tool port : List UInt8} {v v₁ : V} {r : Int × SerialPort}
    (opened : (SerialPort.init.open win (devname port) 9600 [ascii '8', ascii 'N', ascii '1']
      .none).run v = some (r, v₁)) : Opens win [tool, port] v ↔ r.1 = 0 := by
  constructor
  · rintro ⟨_, _, same, returns⟩
    obtain ⟨rfl, rfl⟩ := by simpa using same
    exact returns.ensures r v₁ opened
  · exact fun good => ⟨tool, port, rfl, r, v₁, opened, good⟩

theorem not_opens {win : WinOpen V} {args : List (List UInt8)} {v : V} (other : args.length ≠ 2) :
    ¬ Opens win args v := by
  rintro ⟨tool, port, rfl, _⟩
  exact other rfl

/-- Main with any arguments, stopped after so many reads: it is serving, or it has returned, and
that before it read only if it has no port. -/
theorem main_serving (win : WinOpen V) (line : WinTransfer V) (env : Env W) (buf : Memory)
    (args : List (List UInt8)) (n : Nat) (v : V) (w : W) :
    (main (.apart win line env) buf args n).Ensures (v, w) (Trip
      (fun s t => Opens win args v ∧ Serving env buf w n s t.2)
      (fun s t => s.emu.exited ≠ none ∧
        (Opens win args v ∧ s.reads ≠ [] ∧ AsMain env buf w s t.2 ∨
          ¬ Opens win args v ∧ s.reads = [] ∧ s.emu = (Emu.start buf).gone 1 ∧ t.2 = w))) := by
  have refused (v : V) : ((Emu.start buf).leave (Calls.apart win line env).hid 1).Ensures (v, w)
      (fun emu t => emu = (Emu.start buf).gone 1 ∧ t.2 = w) := by
    refine (((apart_hid win line env v).leave 1 _).of_snd w).mono ?_
    rintro emu t ⟨leaves, _⟩
    exact leave_start env 1 buf w emu t.2 leaves
  match args with
  | [tool, port] =>
    apply ensures_bind
    refine (((apart_win win line env w).open _ _ _ _ _).of_fst v).mono ?_
    rintro ⟨ret, dev⟩ ⟨v₁, w₁⟩ ⟨opened, rfl⟩
    have decides : Opens win [tool, port] v ↔ ret = 0 := opens_iff opened
    apply ensures_ite
    · intro bad
      apply ensures_bind
      refine (leave_apart win line env 1 _ v₁ w₁).mono ?_
      rintro s t ⟨reads, gone, leaves⟩
      apply ensures_pure
      exact ⟨by simp [gone, Emu.gone], .inr ⟨fun opens => bad (decides.mp opens), reads, gone,
        (leave_start env 1 buf w₁ _ _ leaves).2⟩⟩
    · intro good
      have opens := decides.mpr (not_not.mp good)
      have start : Serving env buf w₁ 0 ⟨dev, .start buf, []⟩ w₁ :=
        ⟨rfl, rfl, rfl⟩
      refine (ensures_trips (I := fun k s t => Serving env buf w₁ k s t.2)
        (fun k s t h => trip_apart win line h) n (w := (v₁, w₁)) start).mono ?_
      rintro (s | s) t ends
      · have serving : Serving env buf w₁ (0 + n) s t.2 := ends
        rw [Nat.zero_add] at serving
        exact ⟨opens, serving⟩
      · exact ⟨ends.1, .inl ⟨opens, ends.2⟩⟩
  | [] | [_] | _ :: _ :: _ :: _ =>
    apply ensures_bind
    refine (refused v).mono ?_
    rintro emu t ⟨rfl, same⟩
    exact ensures_pure ⟨nofun, .inr ⟨not_opens (by simp), rfl, rfl, same⟩⟩

end Process
end FlatPanel
