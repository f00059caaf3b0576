import FlatPanel.Library.Handles
import FlatPanel.Library.Runs
import FlatPanel.Serial

/-! The handles of a port object that is opened and closed, whichever of the calls fail. -/
namespace FlatPanel

open Program

/-- The handles that are out, and the number of calls made so far that may fail. -/
structure WinState where
  handles : Handles
  calls : Nat

inductive PortCall where
  | opens (portname : List UInt8) (baudrate : BitVec 32) (protocol : List UInt8)
      (flowControl : FlowControl)
  | closes

namespace WinState

def start : WinState := ⟨.empty, 0⟩

/-- Closing what is not a handle counts as closing one that is not open. -/
def release (t : Handles) : WinHandle → Handles
  | .object n => t.take n
  | _ => { t with stray := t.stray + 1 }

def attempt (fails : Nat → Bool) : Program WinState Bool := fun a =>
  some (!fails a.calls, { a with calls := a.calls + 1 })

def create (alloc : Allocator) (fails : Nat → Bool) (none : WinHandle) :
    Program WinState WinHandle := fun a =>
  let h := alloc.fresh a.handles.opened
  if fails a.calls then some (none, { a with calls := a.calls + 1 })
  else some (.object h, { handles := a.handles.give h, calls := a.calls + 1 })

/-- The call number `n` fails where `fails n`. -/
def win (alloc : Allocator) (fails : Nat → Bool) : WinOpen WinState where
  createFileA := fun _ => create alloc fails .invalid
  setCommState := fun _ _ => attempt fails
  createEvent := create alloc fails .null
  setCommTimeouts := fun _ _ => attempt fails
  setupComm := fun _ _ _ => attempt fails
  closeHandle := fun h a => some ((), { a with handles := release a.handles h })

variable {α : Type} {alloc : Allocator} {fails : Nat → Bool} {a : WinState}

theorem ensures_create {none : WinHandle} {f : WinHandle → Program WinState α}
    {Q : α → WinState → Prop}
    (failed : fails a.calls = true → (f none).Ensures ⟨a.handles, a.calls + 1⟩ Q)
    (made : ∀ h, fails a.calls = false → h ∉ a.handles.opened →
      (f (.object h)).Ensures ⟨a.handles.give h, a.calls + 1⟩ Q) :
    (create alloc fails none >>= f).Ensures a Q := by
  apply ensures_bind
  intro h a' hs
  have created : (if fails a.calls then some (none, ⟨a.handles, a.calls + 1⟩)
    else some (.object (alloc.fresh a.handles.opened),
      ⟨a.handles.give (alloc.fresh a.handles.opened), a.calls + 1⟩)) = some (h, a') := hs
  cases bad : fails a.calls with
  | true =>
    rw [if_pos bad] at created
    obtain ⟨rfl, rfl⟩ := Prod.mk.inj (Option.some.inj created)
    exact failed bad
  | false =>
    rw [if_neg (by simp [bad])] at created
    obtain ⟨rfl, rfl⟩ := Prod.mk.inj (Option.some.inj created)
    exact made _ bad (alloc.unused _)

theorem win_total (alloc : Allocator) (fails : Nat → Bool) : (win alloc fails).Total := by
  have creates (none : WinHandle) (a : WinState) :
      (create alloc fails none).Returns a (fun _ _ => True) := by
    cases bad : fails a.calls with
    | true => exact ⟨none, ⟨a.handles, a.calls + 1⟩, if_pos bad, trivial⟩
    | false => exact ⟨_, _, if_neg (by simp [bad]), trivial⟩
  constructor
  · exact fun _ => creates .invalid
  · exact fun _ _ _ => ⟨_, _, rfl, trivial⟩
  · exact creates .null
  · exact fun _ _ _ => ⟨_, _, rfl, trivial⟩
  · exact fun _ _ _ _ => ⟨_, _, rfl, trivial⟩
  · exact fun _ _ => ⟨_, _, rfl, trivial⟩

theorem ensures_attempt {f : Bool → Program WinState α} {Q : α → WinState → Prop}
    (h : (f (!fails a.calls)).Ensures { a with calls := a.calls + 1 } Q) :
    (attempt fails >>= f).Ensures a Q := by
  apply ensures_bind
  intro ok a' hs
  obtain ⟨rfl, rfl⟩ := Prod.mk.inj (Option.some.inj hs)
  exact h

end WinState

open WinState

variable {alloc : Allocator} {fails : Nat → Bool} {a a' : WinState} {d d' : SerialPort}

theorem setUp_ends (d : SerialPort) (a : WinState) :
    (d.setUp (win alloc fails)).Ensures a (fun r a' =>
      r.2 = d ∧ a'.handles = a.handles ∧
        (r.1 = 0 ↔ fails a.calls = false ∧ fails (a.calls + 1) = false)) := by
  apply ensures_attempt
  cases first : fails a.calls with
  | true => exact ensures_pure ⟨rfl, rfl, by simp⟩
  | false =>
    apply ensures_attempt
    cases second : fails (a.calls + 1) with
    | true => exact ensures_pure ⟨rfl, rfl, by simp⟩
    | false => exact ensures_pure ⟨rfl, rfl, by simp⟩

/-- The ways `OpenDevice` can go: no file, a file and something else that fails, or no failure. -/
inductive Opening (fails : Nat → Bool) (a : WinState) : Int × SerialPort → WinState → Prop
  | noFile {d : SerialPort} {a' : WinState} (bad : fails a.calls = true)
      (fd : d.mFd = .invalid) (same : a'.handles = a.handles) : Opening fails a (-1, d) a'
  | unready {ret : Int} {d : SerialPort} {a' : WinState} (k : Nat) (within : 1 ≤ k ∧ k ≤ 5)
      (good : fails a.calls = false) (bad : fails (a.calls + k) = true)
      (fd : d.mFd ≠ .invalid) (event : ret = 0 → d.mOvRd = .null ∨ d.mOvWr = .null) :
      Opening fails a (ret, d) a'
  | ready {d : SerialPort} {a' : WinState} {f r e : Nat}
      (good : ∀ k ≤ 5, fails (a.calls + k) = false)
      (fd : d.mFd = .object f) (rd : d.mOvRd = .object r) (wr : d.mOvWr = .object e)
      (file : f ∉ a.handles.opened) (reads : r ∉ insert f a.handles.opened)
      (writes : e ∉ insert r (insert f a.handles.opened))
      (given : a'.handles = ((a.handles.give f).give r).give e) : Opening fails a (0, d) a'

theorem setUp_unready {a₁ : WinState} (k : Nat) (within : 1 ≤ k ∧ k ≤ 5)
    (good : fails a.calls = false) (bad : fails (a.calls + k) = true) (fd : d.mFd ≠ .invalid)
    (event : d.mOvRd = .null ∨ d.mOvWr = .null) :
    (d.setUp (win alloc fails)).Ensures a₁ (Opening fails a) := by
  intro ⟨ret, d'⟩ a' hs
  obtain ⟨rfl, _⟩ := setUp_ends d a₁ _ a' hs
  exact .unready k within good bad fd fun _ => event

theorem openDevice_cases (devname : List UInt8) (dcs : SerialPortDCS) (d : SerialPort)
    (a : WinState) :
    (d.openDevice (win alloc fails) devname dcs).Ensures a (Opening fails a) := by
  apply ensures_create
  · exact fun bad => ensures_pure (.noFile bad rfl rfl)
  intro f file unused
  apply ensures_attempt
  cases state : fails (a.calls + 1) with
  | true => exact ensures_pure (.unready 1 (by decide) file state nofun nofun)
  | false =>
    apply ensures_create
    · intro bad
      apply ensures_create
      · exact fun _ => setUp_unready 2 (by decide) file bad nofun (.inl rfl)
      · exact fun _ _ _ => setUp_unready 2 (by decide) file bad nofun (.inl rfl)
    · intro r reads unused'
      apply ensures_create
      · exact fun bad => setUp_unready 3 (by decide) file bad nofun (.inr rfl)
      · intro e writes unused'' ⟨ret, d'⟩ a' hs
        obtain ⟨rfl, given, ends⟩ := setUp_ends _ _ _ _ hs
        by_cases zero : ret = 0
        · subst zero
          obtain ⟨first, second⟩ := ends.mp rfl
          refine .ready ?_ rfl rfl rfl unused unused' unused'' given
          intro k small
          interval_cases k <;> assumption
        · cases first : fails (a.calls + 4) with
          | true => exact .unready 4 (by decide) file first nofun (fun done => absurd done zero)
          | false =>
            cases second : fails (a.calls + 5) with
            | true => exact .unready 5 (by decide) file second nofun (fun done => absurd done zero)
            | false => exact absurd (ends.mpr ⟨first, second⟩) zero

/-- The port is closed and nothing is open, or it is open and has all there is. -/
inductive Holds (d : SerialPort) (a : WinState) : Prop where
  | shut (fd : d.mFd = .invalid) (own : a.handles.Owned ∅)
  | whole {f r e : Nat} (fd : d.mFd = .object f) (rd : d.mOvRd = .object r)
      (wr : d.mOvWr = .object e) (distinct : r ≠ f ∧ e ≠ r ∧ e ≠ f)
      (own : a.handles.Owned (insert e (insert r (insert f ∅))))

theorem close_shut (alloc : Allocator) (fails : Nat → Bool) (a : WinState)
    (fd : d.mFd = .invalid) :
    (d.close (win alloc fails)).Returns a (fun d' a' => d' = d ∧ a' = a) := by
  apply returns_ite
  · exact fun other => absurd fd other
  · exact fun _ => returns_pure ⟨rfl, rfl⟩

theorem close_gives (alloc : Allocator) (fails : Nat → Bool) (a : WinState)
    (fd : d.mFd ≠ .invalid) :
    (d.close (win alloc fails)).Returns a (fun d' a' => d'.mFd = .invalid ∧
      a'.handles = release (release (release a.handles d.mOvRd) d.mOvWr) d.mFd) := by
  apply returns_ite
  · exact fun _ => ⟨_, _, rfl, rfl, rfl⟩
  · exact fun shut => absurd fd shut

theorem close_holds (h : Holds d a) : (d.close (win alloc fails)).Ensures a (fun d' a' =>
    d'.mFd = .invalid ∧ a'.handles.Owned ∅) := by
  cases h with
  | shut fd own =>
    intro d' a' hs
    obtain ⟨rfl, rfl⟩ := (close_shut alloc fails a fd).ensures d' a' hs
    exact ⟨fd, own⟩
  | @whole f r e fd rd wr distinct own =>
    intro d' a' hs
    obtain ⟨shut, given⟩ := (close_gives alloc fails a (by rw [fd]; nofun)).ensures d' a' hs
    obtain ⟨rf, er, ef⟩ := distinct
    have events := (own.take (h := r) (by simp)).take (h := e) (by simp [er])
    have all := events.take (h := f) (by simp [rf.symm, ef.symm])
    rw [fd, rd, wr] at given
    refine ⟨shut, ?_⟩
    rw [given]
    have none : (((insert e (insert r (insert f ∅)) : Finset Nat).erase r).erase e).erase f = ∅ := by
      ext k
      simp
      tauto
    rwa [none] at all

namespace PortCall

/-- The state of the caller: what the last `Open` returned, and the port. -/
def step (alloc : Allocator) (fails : Nat → Bool) (s : Int × SerialPort) :
    PortCall → Program WinState (Int × SerialPort)
  | .opens portname baudrate protocol flowControl =>
    s.2.open (win alloc fails) portname baudrate protocol flowControl
  | .closes => do
    let d ← s.2.close (win alloc fails)
    return (s.1, d)

def Made (a a' : WinState) (h : WinHandle) : Prop :=
  ∃ n, h = .object n ∧ n ∈ a'.handles.opened ∧ n ∉ a.handles.opened

/-- An open leaves all three handles or none of its own, and a close, the one made here or one
that would be made next, closes what is open and leaves nothing. -/
structure AllOrNothing (alloc : Allocator) (fails : Nat → Bool) (a : WinState) (c : PortCall)
    (s' : Int × SerialPort) (a' : WinState) : Prop where
  opened : c ≠ .closes → s'.1 = 0 →
    Made a a' s'.2.mFd ∧ Made a a' s'.2.mOvRd ∧ Made a a' s'.2.mOvWr
  failed : c ≠ .closes → s'.1 ≠ 0 →
    a'.handles.opened ⊆ a.handles.opened ∧ s'.2.mFd = .invalid
  closed : c = .closes → a'.handles.opened = ∅ ∧ a'.handles.stray = a.handles.stray
  closing : (s'.2.close (win alloc fails)).Ensures a' (fun _ a'' =>
    a''.handles.opened = ∅ ∧ a''.handles.stray = a'.handles.stray)

/-- The port is closed before an open, and either the open does not get as far as having a file,
or everything after the file succeeds. -/
def Sound (fails : Nat → Bool) (s : Int × SerialPort) (a : WinState) : PortCall → Prop
  | .opens _ baudrate protocol flowControl =>
    s.2.mFd = .invalid ∧
      (SerialPort.settings baudrate protocol flowControl = none ∨ fails a.calls = true ∨
        ∀ k, 1 ≤ k → k ≤ 5 → fails (a.calls + k) = false)
  | .closes => True

variable {s s' : Int × SerialPort}

theorem closing_of_holds (h : Holds d a) :
    (d.close (win alloc fails)).Ensures a (fun _ a' =>
      a'.handles.opened = ∅ ∧ a'.handles.stray = a.handles.stray) := by
  intro d' a' hs
  obtain ⟨_, own⟩ := close_holds h d' a' hs
  refine ⟨own.opened, own.stray.trans ?_⟩
  cases h with
  | shut _ before | whole _ _ _ _ before => exact before.stray.symm

theorem close_step (h : Holds s.2 a)
    (hs : (step alloc fails s .closes).run a = some (s', a')) :
    Holds s'.2 a' ∧ AllOrNothing alloc fails a .closes s' a' := by
  obtain ⟨d, a₁, closes, ends⟩ := (run_bind_eq _ _ _ _ _).mp hs
  obtain ⟨rfl, rfl⟩ := (run_pure_eq _ _ _ _).mp ends
  obtain ⟨fd, own⟩ := close_holds h d a₁ closes
  have left : Holds d a₁ := .shut fd own
  refine ⟨left, fun other => absurd rfl other, fun other => absurd rfl other, fun _ => ?_,
    closing_of_holds left⟩
  exact closing_of_holds h d a₁ closes

theorem open_cases {portname : List UInt8} {baudrate : BitVec 32} {protocol : List UInt8}
    {flowControl : FlowControl} (hs : (step alloc fails s
      (.opens portname baudrate protocol flowControl)).run a = some (s', a')) :
    (SerialPort.settings baudrate protocol flowControl = none ∧ s' = (-1, s.2) ∧ a' = a) ∨
      (SerialPort.settings baudrate protocol flowControl ≠ none ∧ Opening fails a s' a') := by
  have opens : (s.2.open (win alloc fails) portname baudrate protocol flowControl).run a =
    some (s', a') := hs
  unfold SerialPort.open at opens
  cases read : SerialPort.settings baudrate protocol flowControl with
  | none =>
    rw [read] at opens
    obtain ⟨rfl, rfl⟩ := (run_pure_eq _ _ _ _).mp opens
    exact .inl ⟨rfl, rfl, rfl⟩
  | some dcs =>
    rw [read] at opens
    exact .inr ⟨nofun, openDevice_cases portname dcs s.2 a s' a' opens⟩

theorem all_of_failed {c : PortCall} (other : c ≠ .closes) (bad : s'.1 ≠ 0)
    (fd : s'.2.mFd = .invalid) (own : a'.handles.Owned ∅) :
    Holds s'.2 a' ∧ AllOrNothing alloc fails a c s' a' := by
  have left : Holds s'.2 a' := .shut fd own
  refine ⟨left, fun _ zero => absurd zero bad, fun _ _ => ⟨?_, fd⟩, fun closes => absurd closes other,
    closing_of_holds left⟩
  rw [own.opened]
  exact Finset.empty_subset _

theorem made_of_given {f r e : Nat} {t : Handles} (own : t.Owned ∅)
    (reads : r ∉ insert f t.opened) (writes : e ∉ insert r (insert f t.opened)) :
    (r ≠ f ∧ e ≠ r ∧ e ≠ f) ∧
      (((t.give f).give r).give e).Owned (insert e (insert r (insert f ∅))) := by
  constructor
  · simp only [Finset.mem_insert, not_or] at reads writes
    exact ⟨reads.1, writes.1, writes.2.1⟩
  · exact ((own.give f).give r).give e

theorem open_step {c : PortCall} (h : Holds s.2 a) (other : c ≠ .closes)
    (sound : Sound fails s a c) (hs : (step alloc fails s c).run a = some (s', a')) :
    Holds s'.2 a' ∧ AllOrNothing alloc fails a c s' a' := by
  cases c with
  | closes => contradiction
  | opens portname baudrate protocol flowControl =>
    obtain ⟨shut, clean⟩ := sound
    cases h with
    | whole fd => rw [shut] at fd; contradiction
    | shut _ own =>
      rcases open_cases hs with ⟨_, rfl, rfl⟩ | ⟨read, opening⟩
      · exact all_of_failed other (by simp) shut own
      cases opening with
      | noFile _ fd same =>
        rw [← same] at own
        exact all_of_failed other (by simp) fd own
      | unready k within good bad =>
        rcases clean with none | first | rest
        · contradiction
        · rw [good] at first
          contradiction
        · rw [rest k within.1 within.2] at bad
          contradiction
      | @ready d _ f r e _ fd rd wr file reads writes given =>
        obtain ⟨distinct, all⟩ := made_of_given own reads writes
        rw [← given] at all
        have left : Holds d a' := .whole fd rd wr distinct all
        have new {n : Nat} (mem : n ∈ insert e (insert r (insert f (∅ : Finset Nat)))) :
            n ∈ a'.handles.opened ∧ n ∉ a.handles.opened := by
          rw [all.opened, own.opened]
          exact ⟨mem, Finset.notMem_empty n⟩
        refine ⟨left, fun _ _ => ⟨⟨f, fd, new (by simp)⟩, ⟨r, rd, new (by simp)⟩,
          ⟨e, wr, new (by simp)⟩⟩, fun _ bad => absurd rfl bad, fun closes => by contradiction,
          closing_of_holds left⟩

theorem held_of_whole (h : Holds s.2 a) (again : s.2.mFd ≠ .invalid) :
    ∃ f, f ∈ a.handles.opened := by
  cases h with
  | shut fd => contradiction
  | @whole f _ _ _ _ _ _ own =>
    refine ⟨f, ?_⟩
    rw [own.opened]
    simp

theorem still_open {t : Handles} {h f r e : Nat} (mem : h ∈ t.opened) (file : f ∉ t.opened)
    (reads : r ∉ insert f t.opened) (writes : e ∉ insert r (insert f t.opened)) :
    h ∈ ((((((t.give f).give r).give e).take r).take e).take f).opened := by
  have given := Handles.mem_give (k := e) (Handles.mem_give (k := r) (Handles.mem_give (k := f) mem))
  simp only [Finset.mem_insert, not_or] at reads writes
  have notFile : h ≠ f := fun same => file (same ▸ mem)
  have notReads : h ≠ r := fun same => reads.2 (same ▸ mem)
  have notWrites : h ≠ e := fun same => writes.2.2 (same ▸ mem)
  exact Handles.mem_take (Handles.mem_take (Handles.mem_take given notReads) notWrites) notFile

/-- Any other open leaves something behind, or says that it is done when it is not. -/
theorem open_spoils {c : PortCall} (h : Holds s.2 a) (other : c ≠ .closes)
    (hs : (step alloc fails s c).run a = some (s', a'))
    (all : AllOrNothing alloc fails a c s' a') : Sound fails s a c := by
  cases c with
  | closes => contradiction
  | opens portname baudrate protocol flowControl =>
    rcases open_cases hs with ⟨none, rfl, rfl⟩ | ⟨_, opening⟩
    · exact ⟨(all.failed other (by simp)).2, .inl none⟩
    cases opening with
    | @noFile d _ bad fd same =>
      refine ⟨?_, .inr (.inl bad)⟩
      by_contra again
      obtain ⟨f, mem⟩ := held_of_whole h again
      obtain ⟨_, _, closes, _, rfl⟩ := close_shut alloc fails a' fd
      have none := (all.closing _ _ closes).1
      rw [same] at none
      simp [none] at mem
    | @unready ret d _ k within good bad fd event =>
      by_cases zero : ret = 0
      · obtain ⟨_, ⟨r, rd, _⟩, ⟨e, wr, _⟩⟩ := all.opened other zero
        rcases event zero with null | null
        · rw [null] at rd
          contradiction
        · rw [null] at wr
          contradiction
      · exact absurd (all.failed other zero).2 fd
    | @ready d _ f r e good fd rd wr file reads writes given =>
      refine ⟨?_, .inr (.inr fun k _ high => good k high)⟩
      by_contra again
      obtain ⟨held, mem⟩ := held_of_whole h again
      obtain ⟨_, a'', closes, _, left⟩ := close_gives alloc fails a' (d := d) (by rw [fd]; nofun)
      have none := (all.closing _ a'' closes).1
      rw [left, given, fd, rd, wr] at none
      have still := still_open mem file reads writes
      exact absurd (none ▸ still) (Finset.notMem_empty held)

theorem run_returns (alloc : Allocator) (fails : Nat → Bool) (calls : List PortCall)
    (s : Int × SerialPort) (a : WinState) :
    (Runs.run (step alloc fails) s calls).Returns a (fun _ _ => True) := by
  apply Runs.returns_run (I := fun _ _ => True) _ calls trivial
  intro s a c _
  cases c with
  | opens portname baudrate protocol flowControl =>
    exact SerialPort.open_returns (win_total alloc fails) portname baudrate protocol flowControl s.2 a
  | closes =>
    apply returns_bind
    apply (SerialPort.close_returns (win_total alloc fails) s.2 a).mono
    exact fun _ _ _ => returns_pure trivial

end PortCall

open PortCall

/-- For any calls and any pattern of failures: opening is all or nothing in every step if and
only if every open is of a closed port, and fails before it has a file or not at all. -/
theorem port_all_or_nothing_iff (alloc : Allocator) (fails : Nat → Bool)
    (calls : List PortCall) :
    (Runs.run (step alloc fails) (0, .init) calls).Returns .start (fun _ _ => True) ∧
      (Runs.EachStep (step alloc fails) (fun _ a c s' a' => AllOrNothing alloc fails a c s' a')
          (0, .init) .start calls ↔
        Runs.EachStep (step alloc fails) (fun s a c _ _ => Sound fails s a c)
          (0, .init) .start calls) := by
  have start : Holds (0, SerialPort.init).2 .start := .shut rfl Handles.empty_owned
  refine ⟨run_returns alloc fails calls _ _, ?_⟩
  apply Runs.eachStep_iff (I := fun s a => Holds s.2 a) _ _ calls start
  · intro s a c s' a' h hs sound
    cases c with
    | closes => exact close_step h hs
    | opens => exact open_step h nofun sound hs
  · intro s a c s' a' h hs all
    cases c with
    | closes => trivial
    | opens => exact open_spoils h nofun hs all

theorem port_not_always_all_or_nothing :
    ¬ ∀ (alloc : Allocator) (fails : Nat → Bool) (calls : List PortCall),
      Runs.EachStep (step alloc fails) (fun _ a c s' a' => AllOrNothing alloc fails a c s' a')
        (0, .init) .start calls := by
  intro claim
  have each := claim .next (fun n => n == 2)
    [.opens [] 9600 [ascii '8', ascii 'N', ascii '1'] .none]
  obtain ⟨_, ⟨r, null, _⟩, _⟩ := ((each _ _ rfl).1).opened nofun rfl
  contradiction

end FlatPanel
