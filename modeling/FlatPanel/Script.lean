import FlatPanel.Dimmer

/-! `set_inten` as a party to a conversation: what it says on the wire, and which answers end
it. The other side is a script of answers, so that every theorem is about every series of
results of `hid_write` and `hid_read_timeout`. -/
namespace FlatPanel

open Program

variable {W : Type}

/-- The answer to the `k`-th `hid_write`, and what the `k`-th `hid_read_timeout` finds. -/
structure Script where
  write : Nat → Int
  read : Nat → Input
  uninit : Memory

inductive Event where
  | write (report : List UInt8)
  | read

structure Wire where
  events : List Event
  writes : Nat
  reads : Nat

def Wire.quiet : Wire := ⟨[], 0, 0⟩

namespace Script

def hidWrite (s : Script) (report : List UInt8) : Program Wire Int := fun w =>
  some (s.write w.writes, ⟨w.events ++ [.write report], w.writes + 1, w.reads⟩)

def hidReadTimeout (s : Script) : Program Wire Input := fun w =>
  some (s.read w.reads, ⟨w.events ++ [.read], w.writes, w.reads + 1⟩)

def env (s : Script) (bound : Nat) : Env Wire where
  hidOpen := pure (some 0)
  hidWrite := fun _ => s.hidWrite
  hidReadTimeout := fun _ => s.hidReadTimeout
  hidClose := fun _ => pure ()
  sleep := fun _ => pure ()
  time64 := pure 0
  uninit := fun _ => s.uninit
  pollBound := fun _ => bound

def Ok (s : Script) (k : Nat) : Prop := 0 ≤ s.write k ∧ 0 < (s.read k).ret 5

/-- The `k`-th response has a second byte, and it is zero. -/
def Done (s : Script) (k : Nat) : Prop := ∃ bs, s.read k = .bytes bs ∧ bs[1]? = some 0

/-- The `k`-th exchange is not the last: it goes through, and if it asks for the state the
answer is not the word that ends the loop. -/
def Passes (s : Script) (k : Nat) : Prop := s.Ok k ∧ (2 ≤ k → ¬ s.Done k)

end Script

/-- The meaningful bytes of the `k`-th report. -/
def saying (inten k : Nat) : List UInt8 :=
  match k with
  | 0 => [0, 0x20, (inten % 256).toUInt8, (inten / 256).toUInt8]
  | 1 => [0, 0x10, 3]
  | _ => [0, 0x11]

/-- A write, in its place in the conversation, or a read. -/
def Event.Fits (inten i : Nat) : Event → Prop
  | .write report => i % 2 = 0 ∧ saying inten (i / 2) <+: report
  | .read => i % 2 = 1

/-- Writes and reads alternate, and the reports are those of the protocol, in order. -/
def Spoken (inten : Nat) (events : List Event) : Prop :=
  ∀ i e, events[i]? = some e → Event.Fits inten i e

theorem Spoken.snoc {inten : Nat} {events : List Event} {e : Event} (h : Spoken inten events)
    (fits : Event.Fits inten events.length e) : Spoken inten (events ++ [e]) := by
  intro i f at_i
  rcases Nat.lt_trichotomy i events.length with before | here | after
  · rw [List.getElem?_append_left before] at at_i
    exact h i f at_i
  · rw [here, List.getElem?_concat_length] at at_i
    obtain rfl := Option.some.inj at_i
    rw [here]
    exact fits
  · rw [List.getElem?_eq_none (by simp; omega)] at at_i
    contradiction

/-- The conversation after `k` exchanges. -/
structure Wire.At (inten k : Nat) (w : Wire) : Prop where
  length : w.events.length = 2 * k
  writes : w.writes = k
  reads : w.reads = k
  spoken : Spoken inten w.events

def Wire.wrote (w : Wire) (report : List UInt8) : Wire :=
  ⟨w.events ++ [Event.write report], w.writes + 1, w.reads⟩

def Wire.looked (w : Wire) : Wire := ⟨w.events ++ [Event.read], w.writes, w.reads + 1⟩

/-- The ways the `k`-th exchange can go, with the buffer it leaves and what the wire has carried. -/
inductive Script.Exchanged (s : Script) (least : Int) (k : Nat) (w : Wire) (buf : Memory) :
    Option Memory → Wire → Prop where
  | lost : s.write k < 0 → Script.Exchanged s least k w buf none (w.wrote (buf.bytes 5))
  | silent : 0 ≤ s.write k → (s.read k).ret 5 < least →
      Script.Exchanged s least k w buf none (w.wrote (buf.bytes 5)).looked
  | heard : 0 ≤ s.write k → least ≤ (s.read k).ret 5 →
      Script.Exchanged s least k w buf (some (buf.fill ((s.read k).data 5)))
        (w.wrote (buf.bytes 5)).looked

theorem exchange_exchanged (s : Script) (bound : Nat) (handle : Handle) (least : Int) {k : Nat}
    {w : Wire} (writes : w.writes = k) (reads : w.reads = k) (buf : Memory) :
    (exchange (s.env bound) handle buf least).Returns w (s.Exchanged least k w buf) := by
  subst writes
  apply returns_bind
  refine ⟨s.write w.writes, w.wrote (buf.bytes 5), rfl, ?_⟩
  apply returns_ite
  · exact fun lost => returns_pure (.lost lost)
  · intro sent
    apply returns_bind
    refine ⟨((s.read w.reads).ret 5, buf.fill ((s.read w.reads).data 5)),
      (w.wrote (buf.bytes 5)).looked, rfl, ?_⟩
    rw [reads]
    apply returns_ite
    · exact fun short => returns_pure (.silent (by omega) short)
    · exact fun long => returns_pure (.heard (by omega) (by omega))

/-- An exchange after which the conversation stands at `I` if it went through, and is told by
`Stop` in any case. -/
def Script.Answered (s : Script) (k : Nat) (buf : Memory) (I Stop : Wire → Prop) :
    Option Memory → Wire → Prop
  | none, w => Stop w ∧ ¬ s.Ok k
  | some buf', w => Stop w ∧ s.Ok k ∧ buf' = buf.fill ((s.read k).data 5) ∧ I w

theorem exchange_answered (s : Script) (bound : Nat) (handle : Handle) {k : Nat} {w : Wire}
    (writes : w.writes = k) (reads : w.reads = k) (buf : Memory) {I Stop : Wire → Prop}
    (written : Stop (w.wrote (buf.bytes 5))) (heard : Stop (w.wrote (buf.bytes 5)).looked)
    (next : I (w.wrote (buf.bytes 5)).looked) :
    (exchange (s.env bound) handle buf 1).Returns w (s.Answered k buf I Stop) := by
  refine (exchange_exchanged s bound handle 1 writes reads buf).mono ?_
  rintro _ _ (lost | ⟨sent, short⟩ | ⟨sent, long⟩)
  · exact ⟨written, fun ok => absurd ok.1 (by omega)⟩
  · exact ⟨heard, fun ok => absurd ok.2 (by omega)⟩
  · exact ⟨heard, ⟨sent, by omega⟩, rfl, next⟩

theorem Wire.At.wrote {inten k : Nat} {w : Wire} (here : w.At inten k) {report : List UInt8}
    (opens : saying inten k <+: report) : Spoken inten (w.wrote report).events := by
  apply here.spoken.snoc
  rw [here.length]
  refine ⟨by omega, ?_⟩
  rwa [Nat.mul_div_cancel_left k (by decide)]

theorem Wire.At.looked {inten k : Nat} {w : Wire} (here : w.At inten k) {report : List UInt8}
    (opens : saying inten k <+: report) : (w.wrote report).looked.At inten (k + 1) := by
  have length : (w.wrote report).events.length = 2 * k + 1 := by
    simp only [Wire.wrote, List.length_append, here.length, List.length_singleton]
  refine ⟨?_, congrArg (· + 1) here.writes, congrArg (· + 1) here.reads, ?_⟩
  · simp only [Wire.looked, List.length_append, length, List.length_singleton]
    omega
  · apply (here.wrote opens).snoc
    simp only [Event.Fits, length]
    omega

theorem exchange_script (s : Script) (bound : Nat) (handle : Handle) {inten k : Nat} {w : Wire}
    (here : w.At inten k) {buf : Memory} (opens : saying inten k <+: buf.bytes 5) :
    (exchange (s.env bound) handle buf 1).Returns w
      (s.Answered k buf (Wire.At inten (k + 1)) (fun w' => Spoken inten w'.events)) :=
  exchange_answered s bound handle here.writes here.reads buf (here.wrote opens)
    (here.looked opens).spoken (here.looked opens)

theorem saying_inten {inten : Nat} {buf : Memory} (zero : buf 0 = 0)
    (cmd : buf 1 = cmdSetInten) (low : buf 2 = UInt8.ofInt inten)
    (high : buf 3 = UInt8.ofInt ((inten : Int) >>> (8 : Nat))) :
    saying inten 0 <+: buf.bytes 5 := by
  have low_byte : UInt8.ofInt inten = (inten % 256).toUInt8 := by
    rw [← UInt8.toNat_inj]
    simp [UInt8.ofInt]
    omega
  have high_byte : UInt8.ofInt ((inten : Int) >>> (8 : Nat)) = (inten / 256).toUInt8 := by
    have shift : (inten : Int) >>> (8 : Nat) = (inten : Int) / 256 := by
      simp [Int.shiftRight_eq_div_pow]
    rw [← UInt8.toNat_inj, shift]
    simp [UInt8.ofInt]
    omega
  refine ⟨[buf 4], ?_⟩
  rw [low_byte] at low
  rw [high_byte] at high
  simp [saying, Memory.bytes, List.range_succ, zero, cmd, low, high, cmdSetInten]

theorem saying_goto (inten : Nat) {buf : Memory} (zero : buf 0 = 0) (cmd : buf 1 = cmdSetState)
    (goto : buf 2 = 3) : saying inten 1 <+: buf.bytes 5 := by
  refine ⟨[buf 3, buf 4], ?_⟩
  simp [saying, Memory.bytes, List.range_succ, zero, cmd, goto, cmdSetState]

theorem saying_poll (inten : Nat) {k : Nat} (poll : 2 ≤ k) {buf : Memory} (zero : buf 0 = 0)
    (cmd : buf 1 = cmdGetState) : saying inten k <+: buf.bytes 5 := by
  obtain ⟨j, rfl⟩ : ∃ j, k = j + 2 := ⟨k - 2, by omega⟩
  refine ⟨[buf 2, buf 3, buf 4], ?_⟩
  simp [saying, Memory.bytes, List.range_succ, zero, cmd, cmdGetState]

/-- The byte that is looked at is the request's own, which is not zero, unless the response was
long enough to overwrite it. -/
theorem Input.stopped_iff {r : Input} {buf : Memory} (cmd : buf 1 = cmdGetState) :
    (buf.fill (r.data 5)) 1 = 0 ↔ ∃ bs, r = .bytes bs ∧ bs[1]? = some 0 := by
  have stale : cmdGetState ≠ 0 := by decide
  cases r with
  | error => simp [Input.data, Memory.fill, cmd, stale]
  | bytes bs =>
    have second : (bs.take 5)[1]? = bs[1]? := List.getElem?_take_of_lt (by decide)
    simp only [Input.data, Memory.fill, Input.bytes.injEq, exists_eq_left',
      List.getD_eq_getElem?_getD, second]
    cases bs[1]? with
    | none => simp [cmd, stale]
    | some b => simp

theorem done_iff {s : Script} {k : Nat} {buf : Memory} (cmd : buf 1 = cmdGetState) :
    (buf.fill ((s.read k).data 5)) 1 = 0 ↔ s.Done k := Input.stopped_iff cmd

inductive Script.Ends (s : Script) (n : Nat) : Option Int → Prop where
  | done {k : Nat} : 2 ≤ k → k < n + 2 → (∀ j < k, s.Passes j) → s.Ok k → s.Done k →
      Script.Ends s n (some usbdSuccess)
  | failed {k : Nat} : k < n + 2 → (∀ j < k, s.Passes j) → ¬ s.Ok k →
      Script.Ends s n (some usbdCommError)
  | going : (∀ j < n + 2, s.Passes j) → Script.Ends s n none

/-- `set_inten`, stopped after so many trips of its polling loop. -/
def setIntenFor (env : Env W) (handle : Handle) (inten : Int) (trips : Nat) :
    Program W (Option Int) := do
  let buf ← uninitialised env
  let buf := (buf.store 0 0x0).store 1 cmdSetInten
  let buf := (buf.store 2 (UInt8.ofInt inten)).store 3 (UInt8.ofInt (inten >>> (8 : Nat)))
  match ← exchange env handle buf 1 with
  | none => return some usbdCommError
  | some buf =>
    let buf := ((buf.store 0 0x0).store 1 cmdSetState).store 2 3
    match ← exchange env handle buf 1 with
    | none => return some usbdCommError
    | some buf =>
      match ← Program.trips (pollState env handle) trips buf with
      | .inl _ => return none
      | .inr ret => return some ret

/-- Where the bound on trips is all that stops it, the two are the same. -/
theorem setInten_eq_for {env : Env W} {n : Nat} (bound : ∀ w, env.pollBound w = n)
    (handle : Handle) (inten : Int) :
    setInten env handle inten = setIntenFor env handle inten n >>= fun r =>
      match r with
      | none => fun _ => none
      | some ret => pure ret := by
  have polls (buf : Memory) : pollUntilDone env handle buf =
      Program.loop (pollState env handle) n buf := by
    funext w
    rw [pollUntilDone, bound w]
    rfl
  simp only [setInten, setIntenFor, bind_assoc]
  congr 1
  funext buf
  congr 1
  funext first
  cases first with
  | none => simp only [pure_bind]
  | some buf₁ =>
    simp only [bind_assoc]
    congr 1
    funext second
    cases second with
    | none => simp only [pure_bind]
    | some buf₂ =>
      simp only [bind_assoc, polls, loop_eq_trips]
      congr 1
      funext r
      cases r with
      | inl _ => simp only [pure_bind]
      | inr _ => simp only [pure_bind]

structure Polling (s : Script) (inten k : Nat) (w : Wire) : Prop where
  here : w.At inten k
  poll : 2 ≤ k
  before : ∀ j < k, s.Passes j

/-- How the `k`-th exchange can end the loop. -/
structure PollOver (s : Script) (inten k : Nat) (ret : Int) (w : Wire) : Prop where
  spoken : Spoken inten w.events
  poll : 2 ≤ k
  before : ∀ j < k, s.Passes j
  word : ret = usbdSuccess ∧ s.Ok k ∧ s.Done k ∨ ret = usbdCommError ∧ ¬ s.Ok k

theorem Script.before_succ {s : Script} {k : Nat} (before : ∀ j < k, s.Passes j)
    (here : s.Passes k) : ∀ j < k + 1, s.Passes j := by
  intro j lt
  rcases Nat.lt_succ_iff_lt_or_eq.mp lt with earlier | rfl
  · exact before j earlier
  · exact here

/-- A trip of the loop around an exchange of which something is known. -/
theorem pollState_answered (s : Script) (bound : Nat) (handle : Handle) {k : Nat} {w : Wire}
    {buf : Memory} {I Stop : Wire → Prop}
    (answered : (exchange (s.env bound) handle ((buf.store 0 0x0).store 1 cmdGetState) 1).Returns w
      (s.Answered k ((buf.store 0 0x0).store 1 cmdGetState) I Stop)) :
    (pollState (s.env bound) handle buf).Returns w (Trip
      (fun buf' w' => buf' = ((buf.store 0 0x0).store 1 cmdGetState).fill ((s.read k).data 5) ∧
        I w' ∧ s.Passes k)
      (fun ret w' => Stop w' ∧
        (ret = usbdSuccess ∧ s.Ok k ∧ s.Done k ∨ ret = usbdCommError ∧ ¬ s.Ok k))) := by
  have cmd : ((buf.store 0 0x0).store 1 cmdGetState) 1 = cmdGetState := by simp
  apply returns_bind
  refine answered.mono ?_
  rintro (_ | buf₁) w₁ out
  · exact returns_pure ⟨out.1, .inr ⟨rfl, out.2⟩⟩
  · obtain ⟨told, ok, rfl, next⟩ := out
    apply returns_ite
    · intro zero
      exact returns_pure ⟨told, .inl ⟨rfl, ok, (done_iff cmd).mp zero⟩⟩
    · intro moving
      have pass : s.Passes k := ⟨ok, fun _ done => moving ((done_iff cmd).mpr done)⟩
      apply returns_bind
      exact ⟨(), w₁, rfl, returns_pure ⟨rfl, next, pass⟩⟩

theorem pollState_script (s : Script) (bound : Nat) (handle : Handle) {inten k : Nat} {w : Wire}
    (h : Polling s inten k w) (buf : Memory) :
    (pollState (s.env bound) handle buf).Returns w
      (Trip (fun _ => Polling s inten (k + 1)) (PollOver s inten k)) := by
  have opens : saying inten k <+: ((buf.store 0 0x0).store 1 cmdGetState).bytes 5 :=
    saying_poll inten h.poll (by simp) (by simp)
  refine (pollState_answered s bound handle (exchange_script s bound handle h.here opens)).mono ?_
  rintro (buf₁ | ret) w₁ out
  · obtain ⟨-, next, pass⟩ := out
    exact ⟨next, Nat.le_succ_of_le h.poll, Script.before_succ h.before pass⟩
  · exact ⟨out.1, h.poll, h.before, out.2⟩

theorem polls_script (s : Script) (bound : Nat) (handle : Handle) {inten k : Nat} {w : Wire}
    (h : Polling s inten k w) (buf : Memory) (n : Nat) :
    (Program.trips (pollState (s.env bound) handle) n buf).Returns w
      (Trip (fun _ => Polling s inten (k + n))
        (fun ret w' => ∃ j < k + n, PollOver s inten j ret w')) := by
  apply returns_trips (I := fun k _ w => Polling s inten k w) (Q := PollOver s inten)
  · exact fun k buf w h => pollState_script s bound handle h buf
  · exact h

theorem at_start (inten : Nat) : Wire.quiet.At inten 0 :=
  ⟨rfl, rfl, rfl, fun _ _ none => by simp [Wire.quiet] at none⟩

theorem setIntenFor_script (s : Script) (bound : Nat) (handle : Handle) (inten n : Nat) :
    (setIntenFor (s.env bound) handle inten n).Returns .quiet (fun r w =>
      Spoken inten w.events ∧ s.Ends n r) := by
  apply returns_bind
  refine ⟨s.uninit, .quiet, rfl, ?_⟩
  apply returns_bind
  generalize first : (((s.uninit.store 0 0x0).store 1 cmdSetInten).store 2
    (UInt8.ofInt inten)).store 3 (UInt8.ofInt ((inten : Int) >>> (8 : Nat))) = buf
  have opens : saying inten 0 <+: buf.bytes 5 := by
    apply saying_inten <;> simp [← first]
  refine (exchange_script s bound handle (at_start inten) opens).mono ?_
  rintro (_ | buf₁) w₁ out₁
  · obtain ⟨spoken, fault⟩ := out₁
    exact returns_pure ⟨spoken, .failed (by omega) (fun j lt => absurd lt (by omega)) fault⟩
  · obtain ⟨_, ok₀, _, at₁⟩ := out₁
    have pass₀ : s.Passes 0 := ⟨ok₀, fun late => absurd late (by decide)⟩
    have before₁ : ∀ j < 1, s.Passes j := Script.before_succ (fun j lt => absurd lt (by omega)) pass₀
    have goto : saying inten 1 <+: (((buf₁.store 0 0x0).store 1 cmdSetState).store 2 3).bytes 5 := by
      apply saying_goto <;> simp
    apply returns_bind
    refine (exchange_script s bound handle at₁ goto).mono ?_
    rintro (_ | buf₂) w₂ out₂
    · obtain ⟨spoken, fault⟩ := out₂
      exact returns_pure ⟨spoken, .failed (by omega) before₁ fault⟩
    · obtain ⟨_, ok₁, _, at₂⟩ := out₂
      have pass₁ : s.Passes 1 := ⟨ok₁, fun late => absurd late (by decide)⟩
      have before₂ : ∀ j < 2, s.Passes j := Script.before_succ before₁ pass₁
      apply returns_bind
      refine (polls_script s bound handle ⟨at₂, by decide, before₂⟩ buf₂ n).mono ?_
      rintro (buf₃ | ret) w₃ out
      · have count : 2 + n = n + 2 := Nat.add_comm 2 n
        exact returns_pure ⟨out.here.spoken, .going (count ▸ out.before)⟩
      · obtain ⟨k, lt, ended⟩ := out
        refine returns_pure ⟨ended.spoken, ?_⟩
        rcases ended.word with ⟨rfl, ok, done⟩ | ⟨rfl, fault⟩
        · exact .done ended.poll (by omega) ended.before ok done
        · exact .failed (by omega) ended.before fault

/-- `set_inten` with its loop bounded returns what is known by then. -/
theorem setInten_script (s : Script) (handle : Handle) (inten n : Nat) :
    ∃ r, s.Ends n r ∧ match r with
      | none => (setInten (s.env n) handle inten).run .quiet = none
      | some ret => (setInten (s.env n) handle inten).Returns .quiet (fun ret' w =>
          ret' = ret ∧ Spoken inten w.events) := by
  obtain ⟨r, w, hrun, spoken, ends⟩ := setIntenFor_script s n handle inten n
  refine ⟨r, ends, ?_⟩
  rw [setInten_eq_for (fun _ => rfl)]
  cases r with
  | none => exact run_bind_of_run hrun
  | some ret => exact returns_bind ⟨some ret, w, hrun, returns_pure ⟨rfl, spoken⟩⟩

namespace Script

theorem passes_iff {s : Script} {k : Nat} : (∀ j < k, s.Passes j) ↔
    (∀ j < k, s.Ok j) ∧ ∀ j, 2 ≤ j → j < k → ¬ s.Done j := by
  constructor
  · exact fun pass => ⟨fun j lt => (pass j lt).1, fun j poll lt => (pass j lt).2 poll⟩
  · exact fun ⟨ok, busy⟩ j lt => ⟨ok j lt, fun poll => busy j poll lt⟩

/-- The first exchange that is not passed decides, and there is only one. -/
theorem Ends.first {s : Script} {n k : Nat} {r : Option Int} (ends : s.Ends n r)
    (within : k < n + 2) (before : ∀ j < k, s.Passes j) (here : ¬ s.Passes k) :
    (r = some usbdSuccess ∧ s.Ok k) ∨ (r = some usbdCommError ∧ ¬ s.Ok k) := by
  cases ends with
  | @done m poll _ earlier ok done =>
    rcases Nat.lt_trichotomy k m with lt | rfl | gt
    · exact absurd (earlier k lt) here
    · exact .inl ⟨rfl, ok⟩
    · exact absurd done ((before m gt).2 poll)
  | @failed m _ earlier fault =>
    rcases Nat.lt_trichotomy k m with lt | rfl | gt
    · exact absurd (earlier k lt) here
    · exact .inr ⟨rfl, fault⟩
    · exact absurd (before m gt).1 fault
  | going all => exact absurd (all k within) here

/-- The code returns `ret`: so it does for every bound on its loop that is large enough. -/
def Gives (s : Script) (handle : Handle) (inten : Nat) (ret : Int) : Prop :=
  ∃ N, ∀ n ≥ N, (setInten (s.env n) handle inten).Returns .quiet (fun ret' _ => ret' = ret)

def Hangs (s : Script) (handle : Handle) (inten : Nat) : Prop :=
  ∀ n, (setInten (s.env n) handle inten).run .quiet = none

theorem Gives.of_first {s : Script} {k : Nat} (handle : Handle) (inten : Nat) {ret : Int}
    (stops : ∀ n r, k < n + 2 → s.Ends n r → r = some ret) : s.Gives handle inten ret := by
  refine ⟨k, fun n enough => ?_⟩
  obtain ⟨r, ends, out⟩ := setInten_script s handle inten n
  obtain rfl := stops n r (by omega) ends
  exact out.mono fun _ _ h => h.1

theorem Gives.ends {s : Script} {handle : Handle} {inten : Nat} {ret : Int}
    (gives : s.Gives handle inten ret) : ∃ n, s.Ends n (some ret) := by
  obtain ⟨n, returns⟩ := gives
  obtain ⟨ret', w, hrun, rfl⟩ := returns n (Nat.le_refl n)
  obtain ⟨r, ends, out⟩ := setInten_script s handle inten n
  cases r with
  | none => rw [hrun] at out; contradiction
  | some ret =>
    obtain ⟨rfl, _⟩ := out.ensures _ _ hrun
    exact ⟨n, ends⟩

theorem gives_success (s : Script) (handle : Handle) (inten : Nat) :
    s.Gives handle inten usbdSuccess ↔ ∃ k ≥ 2, (∀ j ≤ k, s.Ok j) ∧ s.Done k ∧
      ∀ j, 2 ≤ j → j < k → ¬ s.Done j := by
  constructor
  · intro gives
    obtain ⟨n, ends⟩ := gives.ends
    generalize hr : some usbdSuccess = r at ends
    cases ends with
    | @done k poll _ before ok done =>
      obtain ⟨oks, busy⟩ := passes_iff.mp before
      refine ⟨k, poll, fun j le => ?_, done, busy⟩
      rcases Nat.lt_or_eq_of_le le with lt | rfl
      · exact oks j lt
      · exact ok
    | failed _ _ _ => exact absurd (Option.some.inj hr) success_ne_commError
    | going _ => contradiction
  · rintro ⟨k, poll, oks, done, busy⟩
    apply Gives.of_first (k := k)
    intro n r within ends
    have before := passes_iff.mpr ⟨fun j lt => oks j (Nat.le_of_lt lt), busy⟩
    rcases ends.first within before (fun pass => pass.2 poll done) with ⟨success, _⟩ | ⟨_, fault⟩
    · exact success
    · exact absurd (oks k (Nat.le_refl k)) fault

theorem gives_commError (s : Script) (handle : Handle) (inten : Nat) :
    s.Gives handle inten usbdCommError ↔ ∃ k, (∀ j < k, s.Ok j) ∧ ¬ s.Ok k ∧
      ∀ j, 2 ≤ j → j < k → ¬ s.Done j := by
  constructor
  · intro gives
    obtain ⟨n, ends⟩ := gives.ends
    generalize hr : some usbdCommError = r at ends
    cases ends with
    | done _ _ _ _ _ => exact absurd (Option.some.inj hr).symm success_ne_commError
    | @failed k _ before fault =>
      obtain ⟨oks, busy⟩ := passes_iff.mp before
      exact ⟨k, oks, fault, busy⟩
    | going _ => contradiction
  · rintro ⟨k, oks, fault, busy⟩
    apply Gives.of_first (k := k)
    intro n r within ends
    rcases ends.first within (passes_iff.mpr ⟨oks, busy⟩) (fun pass => fault pass.1) with
      ⟨_, ok⟩ | ⟨failed, _⟩
    · exact absurd ok fault
    · exact failed

theorem gives_of_stop {s : Script} {k : Nat} (handle : Handle) (inten : Nat)
    (before : ∀ j < k, s.Passes j) (here : ¬ s.Passes k) :
    s.Gives handle inten usbdSuccess ∨ s.Gives handle inten usbdCommError := by
  obtain ⟨oks, busy⟩ := passes_iff.mp before
  by_cases ok : s.Ok k
  · have last : 2 ≤ k ∧ s.Done k := by
      by_contra more
      exact here ⟨ok, fun poll done => more ⟨poll, done⟩⟩
    refine .inl ((gives_success s handle inten).mpr ⟨k, last.1, fun j le => ?_, last.2, busy⟩)
    rcases Nat.lt_or_eq_of_le le with lt | rfl
    · exact oks j lt
    · exact ok
  · exact .inr ((gives_commError s handle inten).mpr ⟨k, oks, ok, busy⟩)

theorem passes_or_stops (s : Script) :
    (∀ k, s.Passes k) ∨ ∃ k, (∀ j < k, s.Passes j) ∧ ¬ s.Passes k := by
  classical
  by_cases all : ∀ k, s.Passes k
  · exact .inl all
  · have stop := not_forall.mp all
    exact .inr ⟨Nat.find stop, fun j lt => not_not.mp (Nat.find_min stop lt), Nat.find_spec stop⟩

theorem hangs_of_passes {s : Script} (handle : Handle) (inten : Nat) (all : ∀ k, s.Passes k) :
    s.Hangs handle inten := by
  intro n
  obtain ⟨r, ends, out⟩ := setInten_script s handle inten n
  cases ends with
  | done poll _ _ _ done => exact absurd done ((all _).2 poll)
  | failed _ _ fault => exact absurd (all _).1 fault
  | going _ => exact out

theorem Gives.not_hangs {s : Script} {handle : Handle} {inten : Nat} {ret : Int}
    (gives : s.Gives handle inten ret) : ¬ s.Hangs handle inten := by
  intro hangs
  obtain ⟨n, returns⟩ := gives
  obtain ⟨_, _, hrun, _⟩ := returns n (Nat.le_refl n)
  rw [hangs n] at hrun
  contradiction

end Script

/-- What `set_inten` says, and when it returns what. -/
structure Speaks (s : Script) (handle : Handle) (inten : Nat) : Prop where
  returned : ∀ n, (setInten (s.env n) handle inten).Ensures .quiet (fun _ w =>
    Spoken inten w.events)
  so_far : ∀ n, (setIntenFor (s.env n) handle inten n).Returns .quiet (fun _ w =>
    Spoken inten w.events)
  success : s.Gives handle inten usbdSuccess ↔ ∃ k ≥ 2, (∀ j ≤ k, s.Ok j) ∧ s.Done k ∧
    ∀ j, 2 ≤ j → j < k → ¬ s.Done j
  commError : s.Gives handle inten usbdCommError ↔ ∃ k, (∀ j < k, s.Ok j) ∧ ¬ s.Ok k ∧
    ∀ j, 2 ≤ j → j < k → ¬ s.Done j
  hangs : s.Hangs handle inten ↔ ∀ k, s.Ok k ∧ (2 ≤ k → ¬ s.Done k)
  total : s.Gives handle inten usbdSuccess ∨ s.Gives handle inten usbdCommError ∨
    s.Hangs handle inten

theorem setInten_speaks (s : Script) (handle : Handle) (inten : Nat) : Speaks s handle inten where
  returned n := by
    obtain ⟨r, _, out⟩ := setInten_script s handle inten n
    cases r with
    | none => exact fun ret w hrun => absurd (out.symm.trans hrun) (by simp)
    | some _ => exact (out.mono fun _ _ h => h.2).ensures
  so_far n := (setIntenFor_script s n handle inten n).mono fun _ _ h => h.1
  success := s.gives_success handle inten
  commError := s.gives_commError handle inten
  hangs := by
    constructor
    · intro hangs
      rcases s.passes_or_stops with all | ⟨k, before, here⟩
      · exact all
      · rcases Script.gives_of_stop handle inten before here with gives | gives
        · exact absurd hangs gives.not_hangs
        · exact absurd hangs gives.not_hangs
    · exact Script.hangs_of_passes handle inten
  total := by
    rcases s.passes_or_stops with all | ⟨k, before, here⟩
    · exact .inr (.inr (Script.hangs_of_passes handle inten all))
    · rcases Script.gives_of_stop handle inten before here with gives | gives
      · exact .inl gives
      · exact .inr (.inl gives)

/-- A panel that takes its time, and an answer of one byte on the way: the zero that would have
been its second byte is not there. -/
def Script.patient : Script where
  write := fun _ => 5
  read := fun k => .bytes (if k = 3 then [0] else if k < 5 then [0, 1, 0] else [0, 0, 0])
  uninit := fun _ => 0

example : ¬ Script.patient.Done 3 ∧ Script.patient.Done 5 := by
  simp [Script.Done, Script.patient]

end FlatPanel
