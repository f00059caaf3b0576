import FlatPanel.Apart
import FlatPanel.Opening

/-! The handles of Windows that a whole process has. However it ends none is left open; what is
closed without being open is each event that was not made. -/
namespace FlatPanel

open Program WinState

variable {V : Type}

/-- The null events that `Close` is given: one for each that cannot be created, and both if the
port refuses its settings before they are. -/
def strays (fails : Nat → Bool) : Nat :=
  if fails 0 then 0
  else if fails 1 then 2
  else (if fails 2 then 1 else 0) + (if fails 3 then 1 else 0)

/-- The calls whose failure `Open` notices, all but the making of the events. -/
def Noticed (fails : Nat → Bool) : Prop := fails 0 ∨ fails 1 ∨ fails 4 ∨ fails 5

/-- Closing the port leaves nothing open, and closes so much that was not. -/
structure Left (d : SerialPort) (t : Handles) (k : Nat) : Prop where
  shut : d.mFd = .invalid → t = ⟨∅, k⟩
  opened : d.mFd ≠ .invalid →
    release (release (release t d.mOvRd) d.mOvWr) d.mFd = ⟨∅, k⟩

variable {alloc : Allocator} {fails : Nat → Bool}

theorem Left.closes {d : SerialPort} {a : WinState} {k : Nat} (h : Left d a.handles k) :
    (d.close (win alloc fails)).Ensures a (fun _ a' => a'.handles = ⟨∅, k⟩) := by
  by_cases shut : d.mFd = .invalid
  · refine ((close_shut alloc fails a shut).ensures).mono ?_
    rintro d' a' ⟨_, rfl⟩
    exact h.shut shut
  · refine ((close_gives alloc fails a shut).ensures).mono ?_
    rintro d' a' ⟨_, same⟩
    exact same.trans (h.opened shut)

theorem left_file {d : SerialPort} {t : Handles} {f k : Nat} (fd : d.mFd = .object f)
    (events : release (release t d.mOvRd) d.mOvWr = Handles.give ⟨∅, k⟩ f) : Left d t k := by
  refine ⟨fun shut => by rw [fd] at shut; contradiction, fun _ => ?_⟩
  rw [events, fd]
  exact Handles.take_give (Finset.notMem_empty f)

/-- Whether `Open` succeeds, and what its port will leave, from the calls that fail. -/
theorem open_leaves (portname : List UInt8) (baudrate : BitVec 32) (protocol : List UInt8)
    (flowControl : FlowControl) {dcs : SerialPortDCS}
    (valid : SerialPort.settings baudrate protocol flowControl = some dcs) :
    (SerialPort.init.open (win alloc fails) portname baudrate protocol flowControl).Ensures .start
      (fun r a => Left r.2 a.handles (strays fails) ∧
        (r.1 ≠ 0 ↔ Noticed fails)) := by
  unfold SerialPort.open
  rw [valid]
  have goes {d : SerialPort} {t : Handles} (first : fails 0 = false) (second : fails 1 = false)
      (left : Left d t (strays fails)) : (d.setUp (win alloc fails)).Ensures ⟨t, 4⟩ (fun r a =>
        Left r.2 a.handles (strays fails) ∧ (r.1 ≠ 0 ↔ Noticed fails)) := by
    refine (setUp_ends d ⟨t, 4⟩).mono ?_
    rintro r a ⟨rfl, same, zero⟩
    rw [same]
    refine ⟨left, (not_congr zero).trans ?_⟩
    simp [Noticed, first, second, Classical.or_iff_not_imp_left]
  apply ensures_create
  · intro bad
    have bad : fails 0 = true := bad
    have none : strays fails = 0 := by simp [strays, bad]
    apply ensures_pure
    refine ⟨⟨fun _ => ?_, fun other => absurd rfl other⟩, by simp [Noticed, bad]⟩
    rw [none]
    rfl
  intro f first unused
  have first : fails 0 = false := first
  apply ensures_attempt
  cases second : fails 1 with
  | true =>
    rw [show fails (WinState.start.calls + 1) = true from second]
    have both : strays fails = 2 := by simp [strays, first, second]
    apply ensures_pure
    rw [both]
    exact ⟨left_file rfl rfl, by simp [Noticed, second]⟩
  | false =>
    rw [show fails (WinState.start.calls + 1) = false from second]
    have counts : strays fails = (if fails 2 then 1 else 0) + (if fails 3 then 1 else 0) := by
      simp [strays, first, second]
    apply ensures_create
    · intro third
      rw [show fails 2 = true from third] at counts
      apply ensures_create
      · intro fourth
        rw [show fails 3 = true from fourth] at counts
        refine goes first second ?_
        rw [counts]
        apply left_file rfl
        rfl
      · intro e fourth other
        rw [show fails 3 = false from fourth] at counts
        refine goes first second ?_
        rw [counts]
        apply left_file rfl
        exact Handles.take_give (t := Handles.give ⟨∅, 1⟩ f) other
    · intro r third other
      rw [show fails 2 = false from third] at counts
      have read := Handles.take_give (t := Handles.give ⟨∅, 0⟩ f) other
      apply ensures_create
      · intro fourth
        rw [show fails 3 = true from fourth] at counts
        refine goes first second ?_
        rw [counts]
        apply left_file rfl
        exact congrArg (release · .null) read
      · intro e fourth others
        rw [show fails 3 = false from fourth] at counts
        refine goes first second ?_
        rw [counts]
        apply left_file rfl
        have apart : r ≠ e := fun same => others (same ▸ Finset.mem_insert_self r _)
        have file : e ∉ (Handles.give ⟨∅, 0⟩ f).opened :=
          fun mem => others (Finset.mem_insert_of_mem mem)
        calc ((((Handles.give ⟨∅, 0⟩ f).give r).give e).take r).take e
            = ((((Handles.give ⟨∅, 0⟩ f).give r).take r).give e).take e := by
              rw [Handles.take_give_other apart]
          _ = ((Handles.give ⟨∅, 0⟩ f).give e).take e := by rw [read]
          _ = Handles.give ⟨∅, 0⟩ f := Handles.take_give file

section Held

variable (alloc fails) (line : WinTransfer V) (env : Env V)

/-- The opening and closing calls of Windows, whose handles are counted, beside all the others. -/
def Calls.held : Calls (WinState × V) where
  win := (WinState.win alloc fails).lift onFst
  line := line.lift onSnd
  hid := env.lift onSnd Prod.snd

namespace Process

theorem held_win (v : V) :
    WinOpen.Records (fun a => (a, v)) (win alloc fails) (Calls.held alloc fails line env).win :=
  (win alloc fails).lift_records fun m => onFst_follows v m

theorem held_line (a : WinState) :
    WinTransfer.Records (fun v => (a, v)) line (Calls.held alloc fails line env).line :=
  line.lift_records fun m => onSnd_follows a m

theorem held_hid (a : WinState) :
    Env.Records (fun v => (a, v)) env (Calls.held alloc fails line env).hid :=
  env.lift_records (fun m => onSnd_follows a m) fun _ => rfl

theorem leave_held {k : Nat} (code : Int) {s : Process} {t : WinState × V}
    (h : Left s.dev t.1.handles k) :
    (s.leave (.held alloc fails line env) code).Ensures t (fun _ t' =>
      t'.1.handles = ⟨∅, k⟩) := by
  apply ensures_bind
  have closes := ((held_win alloc fails line env t.2).close s.dev).ensures_iff (v := t.1)
    (Q := fun _ t' => t'.1.handles = ⟨∅, k⟩)
  refine (closes.mp h.closes).mono ?_
  intro dev t₁ closed
  apply ensures_bind
  refine (((held_hid alloc fails line env t₁.1).leave code s.emu).of_snd t₁.2).mono ?_
  rintro emu t₂ ⟨_, same⟩
  apply ensures_pure
  rw [same]
  exact closed

/-- The port stays as it was opened, and so do the handles. -/
theorem step_held {k : Nat} (s : Process) (r : SerialRead) {t : WinState × V}
    (h : Left s.dev t.1.handles k) :
    (s.step (.held alloc fails line env) r).Ensures t (Trip
      (fun s' t' => Left s'.dev t'.1.handles k) (fun _ t' => t'.1.handles = ⟨∅, k⟩)) := by
  have switch {b : UInt8} {emu : Emu} {t₁ t₂ : WinState × V}
      (acts : ((s.emu.handed b).dispatch (Calls.held alloc fails line env).hid).run t =
        some (emu, t₁))
      (sends : (respond (Calls.held alloc fails line env).line s.dev
        (told (s.emu.lineRead b) emu)).run t₁ = some ((), t₂)) : t₂.1 = t.1 := by
    have acted := (((held_hid alloc fails line env t.1).dispatch _).of_snd t.2 emu t₁ acts).2
    have sent := (((held_line alloc fails line env t₁.1).respond s.dev _).of_snd t₁.2 _ t₂ sends).2
    exact sent.trans acted
  intro q t' hs
  cases step_cases _ s r t q t' hs with
  | waited looks =>
    have same := (((held_hid alloc fails line env t.1).readTimedOut s.emu).of_snd t.2 _ t' looks).2
    change Left s.dev t'.1.handles k
    exact same ▸ h
  | failed leaves => exact leave_held alloc fails line env 1 h _ t' leaves
  | inLine more => exact h
  | switched ends acts sends goes =>
    change Left s.dev t'.1.handles k
    exact switch acts sends ▸ h
  | quits ends acts sends stops leaves =>
    exact leave_held alloc fails line env 0 (switch acts sends ▸ h) _ t' leaves

/-- For any arguments, any calls that fail and whatever is read: a process that goes on has
noticed no failure, and one that returns leaves no handle of Windows open, having closed a null
one for each event that could not be made. -/
theorem main_leaves (buf : Memory) (args : List (List UInt8)) (n : Nat) (v : V) :
    (main (.held alloc fails line env) buf args n).Ensures (.start, v) (fun r t =>
      match r with
      | .inl _ => ¬ Noticed fails
      | .inr _ => t.1.handles.opened = ∅ ∧
          t.1.handles.stray = if args.length = 2 then strays fails else 0) := by
  have refused : ((Emu.start buf).leave (Calls.held alloc fails line env).hid 1).Ensures (.start, v)
      (fun _ t => t.1.handles = ⟨∅, 0⟩) := by
    refine (((held_hid alloc fails line env .start).leave 1 _).of_snd v).mono ?_
    rintro emu t ⟨_, same⟩
    rw [same]
    rfl
  match args with
  | [_, port] =>
    have opens := ((held_win alloc fails line env v).open (devname port) 9600
      [ascii '8', ascii 'N', ascii '1'] .none SerialPort.init).ensures_iff (v := WinState.start)
      (Q := fun r t => Left r.2 t.1.handles (strays fails) ∧ (r.1 ≠ 0 ↔ Noticed fails))
    apply ensures_bind
    refine (opens.mp (open_leaves _ _ _ _ rfl)).mono ?_
    rintro ⟨ret, dev⟩ t ⟨left, ends⟩
    apply ensures_ite
    · intro bad
      apply ensures_bind
      refine (leave_held alloc fails line env 1 (s := ⟨dev, _, _⟩) left).mono ?_
      intro s t' none
      apply ensures_pure
      rw [none]
      exact ⟨rfl, rfl⟩
    · intro good
      refine (ensures_trips (I := fun _ s t => Left s.dev t.1.handles (strays fails))
        (Q := fun _ t => t.1.handles = ⟨∅, strays fails⟩) ?_ n (k := 0) left).mono ?_
      · intro _ s t left
        apply ensures_bind
        refine (((held_line alloc fails line env t.1).read s.dev 1).of_snd t.2).mono ?_
        rintro ⟨nread, bs⟩ t₁ ⟨_, same⟩
        let r := SerialRead.ofRead nread bs
        exact step_held alloc fails line env { s with reads := r :: s.reads } r (same ▸ left)
      · rintro (s | s) t' ends'
        · exact fun noticed => good (ends.mpr noticed)
        · rw [show t'.1.handles = _ from ends']
          exact ⟨rfl, rfl⟩
  | [] | [_] | _ :: _ :: _ :: _ =>
    apply ensures_bind
    refine refused.mono ?_
    intro emu t none
    apply ensures_pure
    rw [none]
    exact ⟨rfl, by simp⟩

end Process
end Held
end FlatPanel
