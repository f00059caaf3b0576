import FlatPanel.Exchanges
import FlatPanel.Library.Handles
import FlatPanel.Library.Runs

/-! The HID handles of one object over any calls a client of the DLL makes. `Connect` opens a
handle without looking whether there is one, so a client that connects twice loses the first. -/
namespace FlatPanel

open Program

variable {W : Type}

/-- A call of the DLL on an object that `USBD_Open` made. -/
inductive UsbdCall where
  | connect
  | disconnect
  | use (c : Call)

/-- `new USBDimmer()`: only the handle is set. -/
def usbdOpen (brightness : Int) (on : Bool) : USBDimmer := ⟨none, brightness, on⟩

/-- The destructor disconnects. -/
def usbdClose (env : Env W) (d : USBDimmer) : Program W USBDimmer := d.disconnect env

def UsbdCall.step (env : Env W) (d : USBDimmer) : UsbdCall → Program W USBDimmer
  | .connect => do
    let (_, d) ← d.connect env
    return d
  | .disconnect => d.disconnect env
  | .use c => do
    let (_, d) ← c.run env d
    return d

/-- The library's state, and the handles it has given out. -/
structure Audited (W : Type) where
  world : W
  handles : Handles

namespace Audited

/-- A call that neither opens nor closes. -/
def lift {α : Type} (m : Program W α) : Program (Audited W) α := fun a =>
  (m.run a.world).map fun r => (r.1, { a with world := r.2 })

def hidOpen (alloc : Allocator) (env : Env W) : Program (Audited W) (Option Handle) := fun a =>
  (env.hidOpen.run a.world).map fun r =>
    match r.1 with
    | none => (none, { a with world := r.2 })
    | some _ =>
      let h := alloc.fresh a.handles.opened
      (some h, { world := r.2, handles := a.handles.give h })

def hidClose (env : Env W) (h : Handle) : Program (Audited W) Unit := fun a =>
  ((env.hidClose h).run a.world).map fun r => (r.1, { world := r.2, handles := a.handles.take h })

/-- The same library with its handles recorded. Which of its opens fail is up to it. -/
def env (alloc : Allocator) (env : Env W) : Env (Audited W) where
  hidOpen := hidOpen alloc env
  hidWrite := fun h report => lift (env.hidWrite h report)
  hidReadTimeout := fun h => lift (env.hidReadTimeout h)
  hidClose := hidClose env
  sleep := fun ms => lift (env.sleep ms)
  time64 := lift env.time64
  uninit := fun a => env.uninit a.world
  pollBound := fun a => env.pollBound a.world

theorem lift_keeps {α : Type} (m : Program W α) (a : Audited W) :
    (lift m).Ensures a (fun _ a' => a'.handles = a.handles) :=
  ensures_within rfl (ensures_true m a.world) fun _ _ _ => rfl

theorem hidOpen_cases (alloc : Allocator) (env : Env W) (a : Audited W) :
    (hidOpen alloc env).Ensures a (fun r a' =>
      r = none ∧ a'.handles = a.handles ∨
      ∃ h, r = some h ∧ h ∉ a.handles.opened ∧ a'.handles = a.handles.give h) := by
  refine ensures_within rfl (ensures_true env.hidOpen a.world) ?_
  intro found w' _
  cases found with
  | none => exact .inl ⟨rfl, rfl⟩
  | some _ => exact .inr ⟨_, rfl, alloc.unused _, rfl⟩

theorem hidClose_takes (env : Env W) (h : Handle) (a : Audited W) :
    (hidClose env h).Ensures a (fun _ a' => a'.handles = a.handles.take h) :=
  ensures_within rfl (ensures_true (env.hidClose h) a.world) fun _ _ _ => rfl

variable (alloc : Allocator) (lib : Env W)

theorem exchanges_keep (handles : Handles) :
    ExchangesKeep (env alloc lib) (fun a => a.handles = handles) where
  write _ _ a same := (lift_keeps _ a).mono fun _ _ kept => kept.trans same
  read _ a same := (lift_keeps _ a).mono fun _ _ kept => kept.trans same
  sleep _ a same := (lift_keeps _ a).mono fun _ _ kept => kept.trans same

theorem set_keeps (c : SetCall) (d : USBDimmer) (a : Audited W) :
    (c.run (env alloc lib) d).Ensures a (fun r a' =>
      r.2.mHandle = d.mHandle ∧ a'.handles = a.handles) := by
  intro r a' hs
  have handle := (SetCall.run_keeps (env alloc lib) c d a r a' hs).2
  exact ⟨handle, (exchanges_keep alloc lib a.handles).set c d rfl r a' hs⟩

end Audited

open Audited

/-- The handles that are open are that of the object, if it has one, no handle was closed that
was not open, and closing the object now leaves none. -/
structure HandlesOwned (env : Env (Audited W)) (d : USBDimmer) (a : Audited W) : Prop where
  opened : ∀ h, h ∈ a.handles.opened ↔ d.mHandle = some h
  once : a.handles.stray = 0
  closed : (usbdClose env d).Ensures a (fun _ a' =>
    a'.handles.opened = ∅ ∧ a'.handles.stray = 0)

def Owns (d : USBDimmer) (a : Audited W) : Prop := a.handles.Owned d.mHandle.toFinset

variable {alloc : Allocator} {lib : Env W} {d : USBDimmer} {a : Audited W}

theorem disconnect_owns (h : Owns d a) : (d.disconnect (env alloc lib)).Ensures a (fun d' a' =>
    d'.mHandle = none ∧ a'.handles.Owned ∅) := by
  unfold USBDimmer.disconnect
  cases opens : d.mHandle with
  | none =>
    rw [Owns, opens] at h
    exact ensures_pure ⟨opens, h⟩
  | some handle =>
    rw [Owns, opens, Option.toFinset_some] at h
    apply ensures_bind
    refine (hidClose_takes lib handle a).mono ?_
    intro _ a' taken
    have left := h.take (Finset.mem_singleton_self handle)
    rw [Finset.erase_singleton, ← taken] at left
    exact ensures_pure ⟨rfl, left⟩

theorem Owns.handlesOwned (h : Owns d a) : HandlesOwned (env alloc lib) d a := by
  constructor
  · intro k
    rw [h.opened, Option.mem_toFinset, Option.mem_def]
  · exact h.stray
  · exact (disconnect_owns h).mono fun _ _ left => ⟨left.2.opened, left.2.stray⟩

theorem connect_handles (alloc : Allocator) (lib : Env W) (d : USBDimmer) (a : Audited W) :
    (d.connect (env alloc lib)).Ensures a (fun r a' =>
      r.2.mHandle = none ∧ a'.handles = a.handles ∨
      ∃ h, r.2.mHandle = some h ∧ h ∉ a.handles.opened ∧ a'.handles = a.handles.give h) := by
  intro r a' hs
  cases USBDimmer.connect_cases (env alloc lib) d a r a' hs with
  | noDevice hopen =>
    rcases hidOpen_cases alloc lib a _ a' hopen with ⟨_, same⟩ | ⟨h, found, _⟩
    · exact .inl ⟨rfl, same⟩
    · contradiction
  | @noAnswer handle _ a₁ _ hopen hread _ | @read handle _ a₁ _ hopen hread _ =>
    rcases hidOpen_cases alloc lib a _ a₁ hopen with ⟨none, _⟩ | ⟨h, found, unused, given⟩
    · contradiction
    · obtain rfl := Option.some.inj found
      have kept := (exchanges_keep alloc lib a₁.handles).getInten handle rfl _ a' hread
      exact .inr ⟨_, rfl, unused, kept.trans given⟩

theorem use_owns (c : Call) (h : Owns d a) :
    (c.run (env alloc lib) d).Ensures a (fun r a' => Owns r.2 a') := by
  cases c with
  | set c =>
    refine (set_keeps alloc lib c d a).mono ?_
    rintro r a' ⟨handle, same⟩
    rw [Owns, handle, same]
    exact h
  | getBrightness => exact ensures_pure h
  | isLightOn => exact ensures_pure h

theorem step_owns (d : USBDimmer) (a : Audited W) (c : UsbdCall) (h : Owns d a)
    (fresh : c = .connect → d.mHandle = none) :
    (c.step (env alloc lib) d).Ensures a Owns := by
  cases c with
  | connect =>
    rw [Owns, fresh rfl] at h
    apply ensures_bind
    refine (connect_handles alloc lib d a).mono ?_
    rintro r a' (⟨none, same⟩ | ⟨handle, opens, _, given⟩)
    · apply ensures_pure
      rw [Owns, none, same]
      exact h
    · apply ensures_pure
      rw [Owns, opens, given]
      exact h.give handle
  | disconnect =>
    refine (disconnect_owns h).mono ?_
    rintro d' a' ⟨none, left⟩
    rw [Owns, none]
    exact left
  | use c =>
    apply ensures_bind
    exact (use_owns c h).mono fun _ _ kept => ensures_pure kept

theorem connect_leaks (d : USBDimmer) (a : Audited W) (c : UsbdCall) (h : Owns d a)
    (again : ¬ (c = .connect → d.mHandle = none)) :
    (c.step (env alloc lib) d).Ensures a (fun d' a' => ¬ HandlesOwned (env alloc lib) d' a') := by
  obtain ⟨rfl, connected⟩ := Classical.not_imp.mp again
  obtain ⟨handle, opens⟩ := Option.ne_none_iff_exists'.mp connected
  have held : handle ∈ a.handles.opened := by
    rw [h.opened, opens]
    exact Finset.mem_singleton_self handle
  apply ensures_bind
  refine (connect_handles alloc lib d a).mono ?_
  rintro r a' (⟨none, same⟩ | ⟨other, opens', unused, given⟩)
  · apply ensures_pure
    intro owned
    rw [← same, owned.opened, none] at held
    contradiction
  · apply ensures_pure
    intro owned
    have still := Handles.mem_give (k := other) held
    rw [← given, owned.opened, opens'] at still
    obtain rfl := Option.some.inj still
    exact unused held

/-- Over any calls, whichever opens and exchanges fail, no handle is lost or closed twice if
and only if the object is never connected while it has a handle. -/
theorem handles_owned_iff (alloc : Allocator) (lib : Env W) (w : W) (brightness : Int) (on : Bool)
    (calls : List UsbdCall) :
    Runs.Always (UsbdCall.step (env alloc lib)) (HandlesOwned (env alloc lib))
        (usbdOpen brightness on) ⟨w, .empty⟩ calls ↔
      Runs.EachStep (UsbdCall.step (env alloc lib))
        (fun d _ c _ _ => c = .connect → d.mHandle = none)
        (usbdOpen brightness on) ⟨w, .empty⟩ calls := by
  have start : Owns (usbdOpen brightness on) ⟨w, .empty⟩ := Handles.empty_owned
  exact Runs.always_iff_eachStep (I := Owns)
    (fun _ _ h => h.handlesOwned)
    (fun d a c h fresh => step_owns d a c h fresh)
    (fun d a c h again => connect_leaks d a c h again) calls start

theorem handles_not_always_owned :
    ¬ ∀ (W : Type) (alloc : Allocator) (lib : Env W) (w : W) (brightness : Int) (on : Bool)
      (calls : List UsbdCall), Runs.Always (UsbdCall.step (env alloc lib))
        (HandlesOwned (env alloc lib)) (usbdOpen brightness on) ⟨w, .empty⟩ calls := by
  intro claim
  have always := claim Device .next (Device.env .steady) (Device.idle 500) 0 false
    [.connect, .connect]
  have last := (Runs.always_iff_prefix _ _ _).mp always _ List.prefix_rfl _ _ rfl
  have lost := (last.opened 1).mp (by decide)
  exact absurd lost (by decide)

end FlatPanel
