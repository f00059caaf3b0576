import Mathlib.Data.Finset.Basic
import Mathlib.Data.Finset.Lattice.Fold
import Mathlib.Order.Interval.Finset.Nat
import Mathlib.Order.Lattice.Nat

/-! Handles that a library gives out and takes back. The table is kept beside the program:
it knows which handles are open, and counts the ones taken back when they were not. -/

structure Handles where
  opened : Finset Nat
  stray : Nat

/-- A handle given out is none of those that are open; one that was closed may come again. -/
structure Allocator where
  fresh : Finset Nat → Nat
  unused : ∀ s, fresh s ∉ s

namespace Handles

def empty : Handles := ⟨∅, 0⟩

def give (t : Handles) (h : Nat) : Handles := { t with opened := insert h t.opened }

def take (t : Handles) (h : Nat) : Handles :=
  if h ∈ t.opened then { t with opened := t.opened.erase h }
  else { t with stray := t.stray + 1 }

/-- These are open and no others, and nothing was closed that was not open. -/
structure Owned (t : Handles) (s : Finset Nat) : Prop where
  opened : t.opened = s
  stray : t.stray = 0

theorem empty_owned : empty.Owned ∅ := ⟨rfl, rfl⟩

variable {t : Handles} {s : Finset Nat} {h k : Nat}

theorem Owned.give (own : t.Owned s) (h : Nat) : (t.give h).Owned (insert h s) :=
  ⟨congrArg (insert h) own.opened, own.stray⟩

theorem Owned.take (own : t.Owned s) (mem : h ∈ s) : (t.take h).Owned (s.erase h) := by
  have here : h ∈ t.opened := by
    rw [own.opened]
    exact mem
  rw [Handles.take, if_pos here]
  exact ⟨congrArg (Finset.erase · h) own.opened, own.stray⟩

theorem mem_give (mem : h ∈ t.opened) : h ∈ (t.give k).opened := Finset.mem_insert_of_mem mem

theorem mem_take (mem : h ∈ t.opened) (other : h ≠ k) : h ∈ (t.take k).opened := by
  unfold take
  split
  · exact Finset.mem_erase_of_ne_of_mem other mem
  · exact mem

/-- A handle that was given and taken back leaves the table as it was. -/
theorem take_give (unused : h ∉ t.opened) : (t.give h).take h = t := by
  have mem : h ∈ (t.give h).opened := Finset.mem_insert_self h t.opened
  rw [take, if_pos mem]
  simp only [give, Finset.erase_insert unused]

theorem take_give_other (other : h ≠ k) : (t.give k).take h = (t.take h).give k := by
  unfold take
  by_cases mem : h ∈ t.opened
  · rw [if_pos mem, if_pos (mem_give mem)]
    simp only [give, Finset.erase_insert_of_ne other.symm]
  · rw [if_neg mem, if_neg (by simp [give, other, mem])]
    rfl

/-- The open handles are divided among owners, each of whom has one at most. -/
structure Shared {ι : Type} (t : Handles) (f : ι → Option Nat) : Prop where
  opened : ∀ h, h ∈ t.opened ↔ ∃ i, f i = some h
  apart : ∀ i j h, f i = some h → f j = some h → i = j
  stray : t.stray = 0

section Shared

variable {ι : Type} {f : ι → Option Nat} {i : ι}

theorem empty_shared (none : ∀ i, f i = none) : empty.Shared f := by
  refine ⟨fun h => ?_, fun i j h has => ?_, rfl⟩
  · simp [empty, none]
  · rw [none i] at has
    contradiction

variable [DecidableEq ι]

theorem Shared.give (own : t.Shared f) (none : f i = none) (unused : h ∉ t.opened) :
    (t.give h).Shared (Function.update f i (some h)) := by
  have free (j : ι) : f j ≠ some h := fun has => unused ((own.opened h).mpr ⟨j, has⟩)
  refine ⟨fun k => ?_, fun j l k has has' => ?_, own.stray⟩
  · rw [Handles.give, Finset.mem_insert, own.opened k]
    constructor
    · rintro (rfl | ⟨j, has⟩)
      · exact ⟨i, Function.update_self ..⟩
      · have other : j ≠ i := by
          rintro rfl
          rw [none] at has
          contradiction
        exact ⟨j, (Function.update_of_ne other ..).trans has⟩
    · rintro ⟨j, has⟩
      by_cases here : j = i
      · rw [here, Function.update_self] at has
        exact .inl (Option.some.inj has).symm
      · rw [Function.update_of_ne here] at has
        exact .inr ⟨j, has⟩
  · by_cases here : j = i
    · rw [here, Function.update_self] at has
      obtain rfl := Option.some.inj has
      by_contra other
      rw [Function.update_of_ne (by rintro rfl; exact other here)] at has'
      exact free l has'
    · rw [Function.update_of_ne here] at has
      by_cases here' : l = i
      · rw [here', Function.update_self] at has'
        obtain rfl := Option.some.inj has'
        exact absurd has (free j)
      · rw [Function.update_of_ne here'] at has'
        exact own.apart j l k has has'

theorem Shared.take (own : t.Shared f) (has : f i = some h) :
    (t.take h).Shared (Function.update f i none) := by
  have here : h ∈ t.opened := (own.opened h).mpr ⟨i, has⟩
  have kept {j : ι} {k : Nat} (now : Function.update f i none j = some k) :
      j ≠ i ∧ f j = some k := by
    by_cases same : j = i
    · rw [same, Function.update_self] at now
      contradiction
    · rw [Function.update_of_ne same] at now
      exact ⟨same, now⟩
  rw [Handles.take, if_pos here]
  refine ⟨fun k => ?_, fun j l k has has' => own.apart j l k (kept has).2 (kept has').2, own.stray⟩
  rw [Finset.mem_erase, own.opened k]
  constructor
  · rintro ⟨other, j, has'⟩
    have away : j ≠ i := by
      rintro rfl
      exact other (Option.some.inj (has'.symm.trans has))
    exact ⟨j, (Function.update_of_ne away ..).trans has'⟩
  · rintro ⟨j, now⟩
    obtain ⟨away, has'⟩ := kept now
    refine ⟨?_, j, has'⟩
    rintro rfl
    exact away (own.apart j i k has' has)

/-- A handle that is still open when its owner has none, or another, is nobody's. -/
theorem Shared.lost (own : t.Shared f) (has : f i = some h) {t' : Handles}
    (still : h ∈ t'.opened) {o : Option Nat} (other : o ≠ some h) :
    ¬ t'.Shared (Function.update f i o) := by
  intro own'
  obtain ⟨j, has'⟩ := (own'.opened h).mp still
  by_cases here : j = i
  · rw [here, Function.update_self] at has'
    exact other has'
  · rw [Function.update_of_ne here] at has'
    exact here (own.apart j i h has' has)

end Shared

end Handles

/-- The number after the largest that is open. -/
def Allocator.next : Allocator where
  fresh := fun s => s.sup id + 1
  unused := by
    intro s mem
    have le : s.sup id + 1 ≤ s.sup id := Finset.le_sup (f := id) mem
    omega
