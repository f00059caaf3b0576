import FlatPanel.Ownership

/-! Clients of the DLL with several objects, whose calls come in any order. -/
namespace FlatPanel

open Program Audited

variable {W : Type}

/-- The objects in the order of `USBD_Open`; one that was closed is gone. -/
abbrev Objects := List (Option USBDimmer)

inductive ApiCall where
  | usbdOpen (brightness : Int) (on : Bool)
  | usbdClose (usbd : Option Nat)
  | call (usbd : Nat) (c : UsbdCall)

namespace Objects

def object (os : Objects) (i : Nat) : Option USBDimmer := os[i]?.join

def handle (os : Objects) (i : Nat) : Option Handle := (os.object i).bind USBDimmer.mHandle

/-- What is done to an object that is not there is undefined, and has no next state. -/
def withObject (os : Objects) (i : Nat) (act : USBDimmer → Program W (Option USBDimmer)) :
    Program W Objects :=
  match os.object i with
  | none => fun _ => none
  | some d => do
    let o ← act d
    return os.set i o

def step (env : Env W) (os : Objects) : ApiCall → Program W Objects
  | .usbdOpen brightness on => return os ++ [some (usbdOpen brightness on)]
  | .usbdClose none => return os
  | .usbdClose (some i) => os.withObject i fun d => do
    let _ ← usbdClose env d
    return none
  | .call i c => os.withObject i fun d => do
    let d ← c.step env d
    return some d

theorem ensures_withObject {os : Objects} {i : Nat} {act : USBDimmer → Program W (Option USBDimmer)}
    {w : W} {Q : Objects → W → Prop} (h : ∀ d, os.object i = some d →
      (act d).Ensures w (fun o w' => Q (os.set i o) w')) : (os.withObject i act).Ensures w Q := by
  unfold withObject
  cases here : os.object i with
  | none => exact fun _ _ none => absurd none nofun
  | some d =>
    apply ensures_bind
    exact (h d here).mono fun _ _ hq => ensures_pure hq

theorem handle_usbdOpen (os : Objects) (brightness : Int) (on : Bool) :
    handle (os ++ [some (usbdOpen brightness on)]) = os.handle := by
  funext j
  unfold handle object
  by_cases old : j < os.length
  · rw [List.getElem?_append_left old]
  · rw [List.getElem?_append_right (Nat.le_of_not_lt old), List.getElem?_eq_none (Nat.le_of_not_lt old)]
    cases j - os.length with
    | zero => rfl
    | succ k => rfl

theorem handle_set {os : Objects} {i : Nat} {d : USBDimmer} (here : os.object i = some d)
    (o : Option USBDimmer) :
    handle (os.set i o) = Function.update os.handle i (o.bind USBDimmer.mHandle) := by
  have inside : i < os.length := by
    by_contra beyond
    rw [object, List.getElem?_eq_none (Nat.le_of_not_lt beyond)] at here
    contradiction
  funext j
  by_cases same : j = i
  · subst same
    simp [handle, object, inside]
  · rw [Function.update_of_ne same]
    unfold handle object
    rw [List.getElem?_set_ne (Ne.symm same)]

end Objects

/-- What a call does to the handle of its object and to the table. -/
inductive Moved (d d' : USBDimmer) (t t' : Handles) : Prop
  | kept (same : d'.mHandle = d.mHandle) (table : t' = t)
  | opens {h : Handle} (none : d.mHandle = none) (unused : h ∉ t.opened)
      (now : d'.mHandle = some h) (table : t' = t.give h)
  | closes {h : Handle} (had : d.mHandle = some h) (now : d'.mHandle = none)
      (table : t' = t.take h)

theorem Moved.shared {d d' : USBDimmer} {t t' : Handles} (moved : Moved d d' t t')
    {os : Objects} {i : Nat} (here : os.object i = some d) (own : t.Shared os.handle) :
    t'.Shared (Function.update os.handle i d'.mHandle) := by
  have held : os.handle i = d.mHandle := by
    rw [Objects.handle, here]
    rfl
  cases moved with
  | kept same table =>
    rwa [table, same, ← held, Function.update_eq_self]
  | opens none unused now table =>
    rw [table, now]
    exact own.give (held.trans none) unused
  | closes had now table =>
    rw [table, now]
    exact own.take (held.trans had)

variable (alloc : Allocator) (lib : Env W)

theorem disconnect_moves (d : USBDimmer) (a : Audited W) :
    (d.disconnect (env alloc lib)).Ensures a (fun d' a' =>
      d'.mHandle = none ∧ Moved d d' a.handles a'.handles) := by
  unfold USBDimmer.disconnect
  cases opens : d.mHandle with
  | none => exact ensures_pure ⟨opens, .kept rfl rfl⟩
  | some handle =>
    apply ensures_bind
    refine (hidClose_takes lib handle a).mono ?_
    exact fun _ _ taken => ensures_pure ⟨rfl, .closes opens rfl taken⟩

theorem step_moves (d : USBDimmer) (a : Audited W) (c : UsbdCall)
    (fresh : c = .connect → d.mHandle = none) :
    (c.step (env alloc lib) d).Ensures a (fun d' a' => Moved d d' a.handles a'.handles) := by
  cases c with
  | connect =>
    apply ensures_bind
    refine (connect_handles alloc lib d a).mono ?_
    rintro r a' (⟨none, same⟩ | ⟨h, now, unused, given⟩)
    · exact ensures_pure (.kept (none.trans (fresh rfl).symm) same)
    · exact ensures_pure (.opens (fresh rfl) unused now given)
  | disconnect => exact (disconnect_moves alloc lib d a).mono fun _ _ moved => moved.2
  | use c =>
    apply ensures_bind
    cases c with
    | set c =>
      refine (set_keeps alloc lib c d a).mono ?_
      exact fun _ _ same => ensures_pure (.kept same.1 same.2)
    | getBrightness | isLightOn => exact ensures_pure (ensures_pure (.kept rfl rfl))

namespace Objects

/-- The call does not connect an object that has a handle. -/
def Fresh (os : Objects) (c : ApiCall) : Prop :=
  ∀ i, c = .call i .connect → os.handle i = none

theorem step_shared (os : Objects) (a : Audited W) (c : ApiCall)
    (own : a.handles.Shared os.handle) (fresh : os.Fresh c) :
    (os.step (env alloc lib) c).Ensures a (fun os' a' => a'.handles.Shared os'.handle) := by
  cases c with
  | usbdOpen brightness on =>
    apply ensures_pure
    rw [handle_usbdOpen]
    exact own
  | usbdClose usbd =>
    cases usbd with
    | none => exact ensures_pure own
    | some i =>
      apply ensures_withObject
      intro d here
      apply ensures_bind
      refine (disconnect_moves alloc lib d a).mono ?_
      rintro d' a' ⟨none, moved⟩
      have shared := moved.shared here own
      apply ensures_pure
      rw [handle_set here]
      rwa [none] at shared
  | call i c =>
    apply ensures_withObject
    intro d here
    have fresh' : c = .connect → d.mHandle = none := by
      rintro rfl
      have none := fresh i rfl
      rwa [handle, here] at none
    apply ensures_bind
    refine (step_moves alloc lib d a c fresh').mono ?_
    intro d' a' moved
    apply ensures_pure
    rw [handle_set here]
    exact moved.shared here own

/-- A second connect loses the handle of the first, whether it succeeds or not. -/
theorem step_loses (os : Objects) (a : Audited W) (c : ApiCall)
    (own : a.handles.Shared os.handle) (again : ¬ os.Fresh c) :
    (os.step (env alloc lib) c).Ensures a (fun os' a' => ¬ a'.handles.Shared os'.handle) := by
  obtain ⟨i, rfl, connected⟩ : ∃ i, c = .call i .connect ∧ os.handle i ≠ none := by
    simpa [Fresh] using again
  obtain ⟨h, has⟩ := Option.ne_none_iff_exists'.mp connected
  have held : h ∈ a.handles.opened := (own.opened h).mpr ⟨i, has⟩
  apply ensures_withObject
  intro d here
  apply ensures_bind
  apply ensures_bind
  refine (connect_handles alloc lib d a).mono ?_
  rintro r a' (⟨none, same⟩ | ⟨k, opens, unused, given⟩)
  · apply ensures_pure
    apply ensures_pure
    rw [handle_set here, Option.bind_some, none, same]
    exact own.lost has held nofun
  · apply ensures_pure
    apply ensures_pure
    rw [handle_set here, Option.bind_some, opens, given]
    refine own.lost has (Handles.mem_give held) ?_
    rintro same
    obtain rfl := Option.some.inj same
    exact unused held

/-- Over any calls on any objects, in any order and whichever opens and exchanges fail: at every
point each handle that is open is that of one object that is there, and none was closed that was
not open, if and only if no object is connected while it has a handle. -/
theorem handles_shared_iff (alloc : Allocator) (lib : Env W) (w : W) (calls : List ApiCall) :
    Runs.Always (step (env alloc lib)) (fun os (a : Audited W) => a.handles.Shared (handle os)) []
        ⟨w, .empty⟩ calls ↔
      Runs.EachStep (step (env alloc lib)) (fun os _ c _ _ => Fresh os c) []
        ⟨w, .empty⟩ calls :=
  Runs.always_iff_eachStep (C := fun os _ c => Fresh os c) (fun _ _ own => own)
    (step_shared alloc lib) (step_loses alloc lib) calls (Handles.empty_shared fun _ => rfl)

end Objects
end FlatPanel
