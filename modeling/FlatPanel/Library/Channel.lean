import Mathlib.Tactic

/-! A link on which every request is answered by one response, in order, sooner or later.
Requests are numbered as they are written and a response carries the number of the request it
answers. Who reads a response without waiting for it to come reads an older one from then on;
who writes only when nothing is outstanding reads the answer to what was written. -/

/-- The requests that wait for an answer and the responses that wait to be read, both with the
oldest first. No number has been given that was not written. -/
structure Channel (Q R : Type) where
  written : Nat
  waiting : List (Nat × Q)
  arrived : List (Nat × R)
  past : ∀ n ∈ arrived.map Prod.fst ++ waiting.map Prod.fst, n ≤ written

namespace Channel

variable {D Q R : Type}

def empty : Channel Q R := ⟨0, [], [], fun _ h => absurd h List.not_mem_nil⟩

/-- The requests whose responses have not been read. -/
def outstanding (c : Channel Q R) : List Nat := c.arrived.map Prod.fst ++ c.waiting.map Prod.fst

def write (c : Channel Q R) (q : Q) : Channel Q R where
  written := c.written + 1
  waiting := c.waiting ++ [(c.written + 1, q)]
  arrived := c.arrived
  past := by
    intro n h
    rw [List.map_append, ← List.append_assoc] at h
    rcases List.mem_append.mp h with old | new
    · exact Nat.le_succ_of_le (c.past n old)
    · exact (List.mem_singleton.mp new).le

/-- The other party, in state `d`, answers the oldest request, if there is one. -/
def answer (react : D → Q → D × R) : D × Channel Q R → D × Channel Q R
  | (d, ⟨written, [], arrived, past⟩) => (d, ⟨written, [], arrived, past⟩)
  | (d, ⟨written, (n, q) :: rest, arrived, past⟩) =>
    ((react d q).1, ⟨written, rest, arrived ++ [(n, (react d q).2)], by simpa using past⟩)

def settle (react : D → Q → D × R) : Nat → D × Channel Q R → D × Channel Q R
  | 0, x => x
  | k + 1, x => settle react k (answer react x)

def read : Channel Q R → Option ((Nat × R) × Channel Q R)
  | ⟨_, _, [], _⟩ => none
  | ⟨written, waiting, a :: rest, past⟩ =>
    some (a, ⟨written, waiting, rest, fun n h => past n (List.mem_cons_of_mem a.1 h)⟩)

@[simp] theorem outstanding_empty : (empty : Channel Q R).outstanding = [] := rfl

@[simp] theorem outstanding_write (c : Channel Q R) (q : Q) :
    (c.write q).outstanding = c.outstanding ++ [c.written + 1] := by
  simp [outstanding, write]

@[simp] theorem written_write (c : Channel Q R) (q : Q) : (c.write q).written = c.written + 1 := rfl

theorem answer_keeps (react : D → Q → D × R) (x : D × Channel Q R) :
    (answer react x).2.outstanding = x.2.outstanding ∧
    (answer react x).2.written = x.2.written := by
  obtain ⟨d, written, waiting, arrived, past⟩ := x
  cases waiting with
  | nil => exact ⟨rfl, rfl⟩
  | cons q rest => exact ⟨by simp [answer, outstanding], rfl⟩

theorem settle_keeps (react : D → Q → D × R) (k : Nat) (x : D × Channel Q R) :
    (settle react k x).2.outstanding = x.2.outstanding ∧
    (settle react k x).2.written = x.2.written := by
  induction k generalizing x with
  | zero => exact ⟨rfl, rfl⟩
  | succ k ih =>
    obtain ⟨outstanding, written⟩ := answer_keeps react x
    exact ⟨(ih _).1.trans outstanding, (ih _).2.trans written⟩

@[simp] theorem outstanding_settle (react : D → Q → D × R) (k : Nat) (x : D × Channel Q R) :
    (settle react k x).2.outstanding = x.2.outstanding := (settle_keeps react k x).1

@[simp] theorem written_settle (react : D → Q → D × R) (k : Nat) (x : D × Channel Q R) :
    (settle react k x).2.written = x.2.written := (settle_keeps react k x).2

theorem answer_arrived (react : D → Q → D × R) (x : D × Channel Q R) :
    (answer react x).2.arrived = [] ↔ x.2.arrived = [] ∧ x.2.waiting = [] := by
  obtain ⟨d, written, waiting, arrived, past⟩ := x
  cases waiting <;> simp [answer]

theorem answer_idle (react : D → Q → D × R) {x : D × Channel Q R} (idle : x.2.waiting = []) :
    answer react x = x := by
  obtain ⟨d, written, waiting, arrived, past⟩ := x
  obtain rfl : waiting = [] := idle
  rfl

theorem settle_arrived (react : D → Q → D × R) (k : Nat) (x : D × Channel Q R) :
    (settle react k x).2.arrived = [] ↔ x.2.arrived = [] ∧ (k = 0 ∨ x.2.waiting = []) := by
  induction k generalizing x with
  | zero => simp [settle]
  | succ k ih =>
    rw [settle, ih, answer_arrived]
    constructor
    · rintro ⟨⟨arrived, waiting⟩, _⟩
      exact ⟨arrived, .inr waiting⟩
    · rintro ⟨arrived, zero | waiting⟩
      · contradiction
      · rw [answer_idle react waiting]
        exact ⟨⟨arrived, waiting⟩, .inr waiting⟩

/-- When a response to what was outstanding before a write has come by the time of the read
after it. -/
theorem arrives_iff (react : D → Q → D × R) (k l : Nat) (d d' : D) {c : Channel Q R} (q : Q)
    (late : c.outstanding ≠ []) :
    (settle react l (d', (settle react k (d, c)).2.write q)).2.arrived = [] ↔
      c.arrived = [] ∧ k = 0 ∧ l = 0 := by
  have left : c.arrived = [] → c.waiting ≠ [] := by
    intro arrived waiting
    exact late (by simp [outstanding, arrived, waiting])
  rw [settle_arrived]
  simp only [write, settle_arrived, List.append_eq_nil_iff, List.cons_ne_nil, and_false, or_false]
  constructor
  · rintro ⟨⟨arrived, zero | waiting⟩, last⟩
    · exact ⟨arrived, zero, last⟩
    · exact absurd waiting (left arrived)
  · rintro ⟨arrived, zero, last⟩
    exact ⟨⟨arrived, .inl zero⟩, last⟩

theorem read_eq_none {c : Channel Q R} : c.read = none ↔ c.arrived = [] := by
  obtain ⟨written, waiting, arrived, past⟩ := c
  cases arrived <;> simp [read]

theorem read_outstanding {c c' : Channel Q R} {a : Nat × R} (h : c.read = some (a, c')) :
    c.outstanding = a.1 :: c'.outstanding ∧ c'.written = c.written := by
  obtain ⟨written, waiting, arrived, past⟩ := c
  cases arrived with
  | nil => contradiction
  | cons b rest =>
    obtain ⟨rfl, rfl⟩ := Prod.mk.inj (Option.some.inj h)
    exact ⟨rfl, rfl⟩

/-- Who writes when nothing is outstanding reads the answer, and nothing is then left. -/
theorem own_response {c sent c' : Channel Q R} {a : Nat × R} (clean : c.outstanding = [])
    (one : sent.outstanding = c.outstanding ++ [sent.written]) (h : sent.read = some (a, c')) :
    a.1 = c'.written ∧ c'.outstanding = [] := by
  obtain ⟨taken, written⟩ := read_outstanding h
  rw [one, clean, List.nil_append, List.cons.injEq] at taken
  exact ⟨taken.1.symm.trans written.symm, taken.2.symm⟩

/-- Who writes when something is outstanding reads an older answer. -/
theorem late_response {c sent c' : Channel Q R} {a : Nat × R} (late : c.outstanding ≠ [])
    (one : sent.outstanding = c.outstanding ++ [sent.written])
    (next : sent.written = c.written + 1) (h : sent.read = some (a, c')) : a.1 < c'.written := by
  obtain ⟨taken, written⟩ := read_outstanding h
  obtain ⟨n, rest, older⟩ := List.exists_cons_of_ne_nil late
  rw [one, older, List.cons_append, List.cons.injEq] at taken
  have before : n ≤ c.written := c.past n (by rw [← outstanding, older]; simp)
  omega

end Channel
