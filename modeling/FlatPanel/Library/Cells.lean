import FlatPanel.Library.Runs

/-! An array as C code indexes it. The words go on before and after the array, and every
access leaves its index behind, so that staying inside the array is a fact about a run. -/

structure Cells (α : Type) where
  words : Int → α
  indices : List Int

namespace Cells

variable {α A : Type}

def get (i : Int) : Program (Cells α) α := fun c =>
  some (c.words i, ⟨c.words, c.indices ++ [i]⟩)

def set (i : Int) (v : α) : Program (Cells α) Unit := fun c =>
  some ((), ⟨Function.update c.words i v, c.indices ++ [i]⟩)

/-- Every access so far was to one of the array's `n` words. -/
def Within (n : Nat) (c : Cells α) : Prop := ∀ i ∈ c.indices, 0 ≤ i ∧ i < n

/-- Between `c` and `c'` all accesses were inside exactly if `ok`. -/
def Kept (n : Nat) (ok : Prop) (c c' : Cells α) : Prop := c'.Within n ↔ c.Within n ∧ ok

theorem within_untouched (n : Nat) (words : Int → α) : Within n ⟨words, []⟩ := by
  intro i touched
  cases touched

theorem kept_snoc (n : Nat) (c : Cells α) (words : Int → α) (i : Int) :
    Kept n (0 ≤ i ∧ i < n) c ⟨words, c.indices ++ [i]⟩ := by
  constructor
  · intro within
    exact ⟨fun j touched => within j (List.mem_append_left _ touched),
      within i (List.mem_append_right _ (List.mem_singleton.mpr rfl))⟩
  · rintro ⟨within, inside⟩ j touched
    rcases List.mem_append.mp touched with before | now
    · exact within j before
    · rwa [List.mem_singleton.mp now]

theorem Kept.rfl {n : Nat} {c : Cells α} : Kept n True c c := (and_iff_left trivial).symm

theorem Kept.trans {n : Nat} {ok ok' : Prop} {c c₁ c₂ : Cells α} (h : Kept n ok c c₁)
    (h' : Kept n ok' c₁ c₂) : Kept n (ok ∧ ok') c c₂ := by
  unfold Kept at h h' ⊢
  rw [h', h, and_assoc]

theorem Kept.congr {n : Nat} {ok ok' : Prop} {c c' : Cells α} (h : Kept n ok c c')
    (same : ok ↔ ok') : Kept n ok' c c' := by
  unfold Kept at h ⊢
  rw [h, same]

theorem get_returns (n : Nat) (i : Int) (c : Cells α) :
    (get i).Returns c (fun v c' => v = c.words i ∧ c'.words = c.words ∧
      Kept n (0 ≤ i ∧ i < n) c c') :=
  ⟨c.words i, ⟨c.words, c.indices ++ [i]⟩, rfl, rfl, rfl, kept_snoc n c c.words i⟩

theorem set_returns (n : Nat) (i : Int) (v : α) (c : Cells α) :
    (set i v).Returns c (fun _ c' => c'.words = Function.update c.words i v ∧
      Kept n (0 ≤ i ∧ i < n) c c') :=
  ⟨(), ⟨Function.update c.words i v, c.indices ++ [i]⟩, rfl, rfl, kept_snoc n c _ i⟩

/-- A run stays inside the array exactly if each of its operations does. -/
theorem run_kept {n : Nat} {step : Unit → A → Program (Cells α) Unit} {ok : A → Prop}
    (each : ∀ a c, (step () a).Returns c (fun _ c' => Kept n (ok a) c c'))
    (as : List A) (c : Cells α) :
    (Runs.run step () as).Returns c (fun _ c' => Kept n (∀ a ∈ as, ok a) c c') := by
  induction as generalizing c with
  | nil => exact Program.returns_pure (Kept.rfl.congr (by simp))
  | cons a rest ih =>
    apply Program.returns_bind
    refine (each a c).mono fun _ c₁ here => ?_
    exact (ih c₁).mono fun _ c₂ later => (here.trans later).congr (by simp)

end Cells
