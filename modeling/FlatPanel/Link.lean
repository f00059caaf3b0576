import FlatPanel.Connection
import FlatPanel.Library.Channel

/-! The HID link as two queues. The device answers every report, in order, but a read may give
up before the answer has come; the answer then stays in the queue of the handle. -/
namespace FlatPanel

open Program

/-- What the device answers, and all that happens by chance: which calls of `hid_open` and
`hid_write` succeed, and how many reports are answered before each call. A polling loop that
never ends is also one that ends at any write, since any write may fail. -/
structure Schedule (D : Type) where
  react : D → List UInt8 → D × List UInt8
  opens : Nat → Bool
  writes : Nat → Bool
  answers : Nat → Nat
  clock : Nat → Int
  uninit : Nat → Memory
  pollBound : Nat → Nat

/-- The device, the queues of each handle, and for each response that was read, newest first,
the report it answers and the report written last on the same handle. -/
structure Link (D : Type) where
  device : D
  calls : Nat
  channel : Handle → Channel (List UInt8) (List UInt8)
  taken : List (Nat × Nat)

namespace Link

variable {D : Type}

def new (d : D) : Link D := ⟨d, 0, fun _ => .empty, []⟩

def tick (l : Link D) : Link D := { l with calls := l.calls + 1 }

def put (l : Link D) (h : Handle) (c : Channel (List UInt8) (List UInt8)) : Link D :=
  { l with channel := Function.update l.channel h c }

/-- The device gets so far with the reports of a handle. -/
def settle (sch : Schedule D) (l : Link D) (h : Handle) : Link D :=
  let (d, c) := Channel.settle sch.react (sch.answers l.calls) (l.device, l.channel h)
  { l with device := d }.put h c

def hidOpen (sch : Schedule D) : Program (Link D) (Option Handle) := fun l =>
  some (if sch.opens l.calls then (some l.calls, (l.put l.calls .empty).tick) else (none, l.tick))

def hidWrite (sch : Schedule D) (h : Handle) (report : List UInt8) : Program (Link D) Int :=
  fun l =>
    let l := l.settle sch h
    some (if sch.writes l.calls then (report.length, (l.put h ((l.channel h).write report)).tick)
      else (-1, l.tick))

/-- The oldest response, or a time-out if none has arrived. -/
def hidReadTimeout (sch : Schedule D) (h : Handle) : Program (Link D) Input := fun l =>
  let l := l.settle sch h
  match (l.channel h).read with
  | none => some (.bytes [], l.tick)
  | some ((n, r), c) =>
    some (.bytes r, ({ l with taken := (n, c.written) :: l.taken }.put h c).tick)

def hidClose (h : Handle) : Program (Link D) Unit := fun l => some ((), (l.put h .empty).tick)

def env (sch : Schedule D) : Env (Link D) where
  hidOpen := hidOpen sch
  hidWrite := hidWrite sch
  hidReadTimeout := hidReadTimeout sch
  hidClose := hidClose
  sleep := fun _ l => some ((), l.tick)
  time64 := fun l => some (sch.clock l.calls, l.tick)
  uninit := fun l => sch.uninit l.calls
  pollBound := fun l => sch.pollBound l.calls

/-- Every response that was read answers the report written just before. -/
def Matched (l : Link D) : Prop := ∀ t ∈ l.taken, t.1 = t.2

def Clean (l : Link D) (h : Handle) : Prop := (l.channel h).outstanding = []

/-- A response to an earlier report comes in time for the read after the next write. -/
def Late (sch : Schedule D) (l : Link D) (h : Handle) : Prop :=
  ¬ l.Clean h ∧ sch.writes l.calls = true ∧
    ((l.channel h).arrived ≠ [] ∨ 0 < sch.answers l.calls + sch.answers (l.calls + 1))

/-- The queues when the read looks, if the write before it succeeds. -/
def sent (sch : Schedule D) (l : Link D) (h : Handle) (report : List UInt8) : Link D :=
  let l := l.settle sch h
  (l.put h ((l.channel h).write report)).tick.settle sch h

inductive Swapped (sch : Schedule D) (l : Link D) (h : Handle) (report : List UInt8) :
    Option Memory → Link D → Prop where
  | unsent {l' : Link D} : sch.writes l.calls = false → l'.taken = l.taken →
      (l'.channel h).outstanding = (l.channel h).outstanding → Swapped sch l h report none l'
  | timedOut {l' : Link D} : sch.writes l.calls = true →
      ((l.sent sch h report).channel h).read = none → l'.taken = l.taken →
      Swapped sch l h report none l'
  | took {ans : Option Memory} {l' : Link D} {a : Nat × List UInt8} :
      sch.writes l.calls = true →
      ((l.sent sch h report).channel h).read = some (a, l'.channel h) →
      l'.taken = (a.1, (l'.channel h).written) :: l.taken → Swapped sch l h report ans l'

@[simp] theorem tick_channel (l : Link D) : l.tick.channel = l.channel := rfl
@[simp] theorem tick_taken (l : Link D) : l.tick.taken = l.taken := rfl
@[simp] theorem put_taken (l : Link D) (h : Handle) (c : Channel (List UInt8) (List UInt8)) :
    (l.put h c).taken = l.taken := rfl
@[simp] theorem put_channel (l : Link D) (h : Handle) (c : Channel (List UInt8) (List UInt8)) :
    (l.put h c).channel h = c := Function.update_self ..
@[simp] theorem settle_taken (sch : Schedule D) (l : Link D) (h : Handle) :
    (l.settle sch h).taken = l.taken := rfl
@[simp] theorem settle_calls (sch : Schedule D) (l : Link D) (h : Handle) :
    (l.settle sch h).calls = l.calls := rfl

theorem settle_channel (sch : Schedule D) (l : Link D) (h : Handle) :
    (l.settle sch h).channel h =
      (Channel.settle sch.react (sch.answers l.calls) (l.device, l.channel h)).2 :=
  put_channel ..

theorem hidWrite_cases (sch : Schedule D) (l : Link D) (h : Handle) (report : List UInt8) :
    ((env sch).hidWrite h report).Ensures l (fun ret l' =>
      sch.writes l.calls = false ∧ ret < 0 ∧ l' = (l.settle sch h).tick ∨
      sch.writes l.calls = true ∧ 0 ≤ ret ∧
        l' = ((l.settle sch h).put h (((l.settle sch h).channel h).write report)).tick) := by
  intro ret l' hs
  have result := Option.some.inj hs
  cases sends : sch.writes l.calls with
  | false =>
    rw [settle_calls, sends] at result
    obtain ⟨rfl, rfl⟩ := Prod.mk.inj result
    exact .inl ⟨rfl, by decide, rfl⟩
  | true =>
    rw [settle_calls, sends] at result
    obtain ⟨rfl, rfl⟩ := Prod.mk.inj result
    exact .inr ⟨rfl, Int.natCast_nonneg _, rfl⟩

theorem hidRead_cases (sch : Schedule D) (l : Link D) (h : Handle) :
    ((env sch).hidReadTimeout h).Ensures l (fun r l' =>
      ((l.settle sch h).channel h).read = none ∧ r = .bytes [] ∧ l'.taken = l.taken ∨
      ∃ a, ((l.settle sch h).channel h).read = some (a, l'.channel h) ∧
        l'.taken = (a.1, (l'.channel h).written) :: l.taken) := by
  intro r l' hs
  change (match ((l.settle sch h).channel h).read with
    | none => _
    | some ((n, r), c) => _) = _ at hs
  cases looks : ((l.settle sch h).channel h).read with
  | none =>
    rw [looks] at hs
    obtain ⟨rfl, rfl⟩ := Prod.mk.inj (Option.some.inj hs)
    exact .inl ⟨rfl, rfl, rfl⟩
  | some got =>
    obtain ⟨⟨n, bs⟩, c⟩ := got
    rw [looks] at hs
    obtain ⟨rfl, rfl⟩ := Prod.mk.inj (Option.some.inj hs)
    exact .inr ⟨(n, bs), by simp, by simp⟩

theorem exchange_swapped (sch : Schedule D) (l : Link D) (h : Handle) (buf : Memory) {least : Int}
    (positive : 0 < least) :
    (exchange (env sch) h buf least).Ensures l (Swapped sch l h (buf.bytes 5)) := by
  have reads {ret : Int} {l₁ l' : Link D} {r : Input}
      (writes : ((env sch).hidWrite h (buf.bytes 5)).run l = some (ret, l₁)) (sends : 0 ≤ ret)
      (reads : ((env sch).hidReadTimeout h).run l₁ = some (r, l')) (ans : Option Memory)
      (none : r = .bytes [] → ans = none) : Swapped sch l h (buf.bytes 5) ans l' := by
    rcases hidWrite_cases sch l h _ ret l₁ writes with ⟨_, lost, _⟩ | ⟨sends', _, rfl⟩
    · omega
    · rcases hidRead_cases sch _ h r l' reads with ⟨looks, silent, same⟩ | ⟨a, looks, more⟩
      · rw [none silent]
        exact .timedOut sends' looks same
      · exact .took sends' looks more
  intro ans l' hs
  cases exchange_cases (env sch) h buf least l ans l' hs with
  | unsent writes lost =>
    rcases hidWrite_cases sch l h _ _ l' writes with ⟨fails, _, rfl⟩ | ⟨_, sends, _⟩
    · refine .unsent fails rfl ?_
      rw [tick_channel, settle_channel, Channel.outstanding_settle]
    · omega
  | unread writes sends reads' _ => exact reads writes sends reads' none fun _ => rfl
  | answered writes sends reads' long =>
    refine reads writes sends reads' _ ?_
    rintro rfl
    exact absurd long (Int.not_le.mpr positive)

theorem sent_channel (sch : Schedule D) (l : Link D) (h : Handle) (report : List UInt8) :
    ∃ d, (l.sent sch h report).channel h =
      (Channel.settle sch.react (sch.answers (l.calls + 1)) (d,
        (Channel.settle sch.react (sch.answers l.calls) (l.device, l.channel h)).2.write
          report)).2 := by
  refine ⟨(l.settle sch h).device, ?_⟩
  unfold sent
  rw [settle_channel, tick_channel, put_channel, settle_channel]
  rfl

theorem sent_outstanding (sch : Schedule D) (l : Link D) (h : Handle) (report : List UInt8) :
    ((l.sent sch h report).channel h).outstanding = (l.channel h).outstanding ++
      [((l.sent sch h report).channel h).written] ∧
    ((l.sent sch h report).channel h).written = (l.channel h).written + 1 := by
  obtain ⟨d, channel⟩ := sent_channel sch l h report
  rw [channel]
  simp

theorem Swapped.broken {sch : Schedule D} {l l' : Link D} {h : Handle} {report : List UInt8}
    {ans : Option Memory} (way : Swapped sch l h report ans l') (bad : ¬ l.Matched) :
    ¬ l'.Matched := by
  cases way with
  | unsent _ same _ | timedOut _ _ same => rwa [Matched, same]
  | took _ _ more =>
    intro good
    rw [Matched, more] at good
    exact bad fun t ht => good t (List.mem_cons_of_mem _ ht)

/-- Over a clean handle the answer that is read is the answer to what was written, and the
handle is clean again if it was waited for. -/
theorem Swapped.clean {sch : Schedule D} {l l' : Link D} {h : Handle} {report : List UInt8}
    {ans : Option Memory} (way : Swapped sch l h report ans l') (clean : l.Clean h)
    (good : l.Matched) : l'.Matched ∧ (ans ≠ none → l'.Clean h) := by
  cases way with
  | unsent _ same _ | timedOut _ _ same =>
    exact ⟨by rwa [Matched, same], fun some => absurd rfl some⟩
  | took _ looks more =>
    obtain ⟨one, _⟩ := sent_outstanding sch l h report
    obtain ⟨own, left⟩ := Channel.own_response clean one looks
    refine ⟨?_, fun _ => left⟩
    rw [Matched, more]
    intro t ht
    rcases List.mem_cons.mp ht with rfl | old
    · exact own
    · exact good t old

/-- Over a handle that is not clean an older answer is read, or none. -/
theorem Swapped.late {sch : Schedule D} {l l' : Link D} {h : Handle} {report : List UInt8}
    {ans : Option Memory} (way : Swapped sch l h report ans l') (late : l.Late sch h) :
    ¬ l'.Matched := by
  obtain ⟨unclean, sends, comes⟩ := late
  cases way with
  | unsent fails _ _ => exact absurd (fails.symm.trans sends) Bool.false_ne_true
  | timedOut _ looks _ =>
    obtain ⟨d, channel⟩ := sent_channel sch l h report
    rw [Channel.read_eq_none, channel, Channel.arrives_iff _ _ _ _ _ _ unclean] at looks
    obtain ⟨arrived, before, after⟩ := looks
    rcases comes with some | some
    · exact absurd arrived some
    · omega
  | took _ looks more =>
    obtain ⟨one, next⟩ := sent_outstanding sch l h report
    have older := Channel.late_response unclean one next looks
    intro good
    rw [Matched, more] at good
    exact absurd (good _ List.mem_cons_self) (Nat.ne_of_lt older)

theorem Swapped.early {sch : Schedule D} {l l' : Link D} {h : Handle} {report : List UInt8}
    {ans : Option Memory} (way : Swapped sch l h report ans l') (unclean : ¬ l.Clean h)
    (early : ¬ l.Late sch h) : ans = none ∧ l'.taken = l.taken := by
  cases way with
  | unsent _ same _ | timedOut _ _ same => exact ⟨rfl, same⟩
  | took sends looks _ =>
    obtain ⟨d, channel⟩ := sent_channel sch l h report
    have comes : ¬ ((l.sent sch h report).channel h).arrived = [] := by
      intro none
      rw [← Channel.read_eq_none, looks] at none
      contradiction
    rw [channel, Channel.arrives_iff _ _ _ _ _ _ unclean] at comes
    refine absurd ⟨unclean, sends, ?_⟩ early
    by_contra none
    obtain ⟨arrived, zero⟩ := not_or.mp none
    exact comes ⟨not_not.mp arrived, by omega, by omega⟩

theorem Matched.of_taken {l l' : Link D} (good : l.Matched) (same : l'.taken = l.taken) :
    l'.Matched := by
  rwa [Matched, same]

theorem getInten_matched (sch : Schedule D) {l : Link D} {h : Handle} (clean : l.Clean h)
    (good : l.Matched) : (getInten (env sch) h).Ensures l (fun inten l' =>
      l'.Matched ∧ (0 ≤ inten → l'.Clean h)) := by
  apply ensures_uninit
  apply ensures_bind
  refine (exchange_swapped sch l h _ (by decide)).mono ?_
  intro ans l' way
  obtain ⟨kept, answered⟩ := way.clean clean good
  cases ans with
  | none => exact ensures_pure ⟨kept, fun nonneg => absurd nonneg (by decide)⟩
  | some buf => exact ensures_pure ⟨kept, fun _ => answered (by simp)⟩

theorem setInten_clean (sch : Schedule D) {l : Link D} {h : Handle} (clean : l.Clean h)
    (good : l.Matched) (inten : Int) :
    (setInten (env sch) h inten).Ensures l (fun _ l' => l'.Matched) := by
  have swap (buf : Memory) (l : Link D) (start : l.Clean h ∧ l.Matched) :
      (exchange (env sch) h buf 1).Ensures l (fun ans l' =>
        l'.Matched ∧ (ans ≠ none → l'.Clean h ∧ l'.Matched)) := by
    refine (exchange_swapped sch l h buf (by decide)).mono fun ans l' way => ?_
    obtain ⟨kept, answered⟩ := way.clean start.1 start.2
    exact ⟨kept, fun some => ⟨answered some, kept⟩⟩
  have pause (n : Nat) (l : Link D) (start : l.Clean h ∧ l.Matched) :
      ((env sch).sleep n).Ensures l (fun _ l' => l'.Clean h ∧ l'.Matched) := by
    intro _ l' hs
    obtain ⟨_, rfl⟩ := Prod.mk.inj (Option.some.inj hs)
    exact start
  have first (buf : Memory) := swap buf l ⟨clean, good⟩
  exact (setInten_exchanges swap pause inten first).mono fun _ _ out => out.1

/-- The first answer is an older one, and whatever follows does not make up for it. -/
theorem setInten_late (sch : Schedule D) {l : Link D} {h : Handle} (late : l.Late sch h)
    (inten : Int) : (setInten (env sch) h inten).Ensures l (fun _ l' => ¬ l'.Matched) := by
  have swap (buf : Memory) (l : Link D) (bad : ¬ l.Matched) :
      (exchange (env sch) h buf 1).Ensures l (fun ans l' =>
        ¬ l'.Matched ∧ (ans ≠ none → ¬ l'.Matched)) :=
    (exchange_swapped sch l h buf (by decide)).mono fun ans l' way =>
      ⟨way.broken bad, fun _ => way.broken bad⟩
  have pause (n : Nat) (l : Link D) (bad : ¬ l.Matched) :
      ((env sch).sleep n).Ensures l (fun _ l' => ¬ l'.Matched) := by
    intro _ l' hs
    obtain ⟨_, rfl⟩ := Prod.mk.inj (Option.some.inj hs)
    exact bad
  have first (buf : Memory) : (exchange (env sch) h buf 1).Ensures l (fun ans l' =>
      ¬ l'.Matched ∧ (ans ≠ none → ¬ l'.Matched)) :=
    (exchange_swapped sch l h buf (by decide)).mono fun ans l' way =>
      ⟨way.late late, fun _ => way.late late⟩
  exact (setInten_exchanges swap pause inten first).mono fun _ _ out => out.1

theorem setInten_early (sch : Schedule D) {l : Link D} {h : Handle} (unclean : ¬ l.Clean h)
    (early : ¬ l.Late sch h) (inten : Int) :
    (setInten (env sch) h inten).Ensures l (fun _ l' => l'.taken = l.taken) := by
  apply ensures_uninit
  apply ensures_bind
  refine (exchange_swapped sch l h _ (by decide)).mono ?_
  intro ans l' way
  obtain ⟨rfl, same⟩ := way.early unclean early
  exact ensures_pure same

theorem setInten_matched (sch : Schedule D) {l : Link D} {h : Handle} (good : l.Matched)
    (early : ¬ l.Late sch h) (inten : Int) :
    (setInten (env sch) h inten).Ensures l (fun _ l' => l'.Matched) := by
  by_cases clean : l.Clean h
  · exact setInten_clean sch clean good inten
  · exact (setInten_early sch clean early inten).mono fun _ _ same => good.of_taken same

theorem closed_taken {sch : Schedule D} {p p' : AlnitakEmu} {l l' : Link D}
    (h : AlnitakEmu.Closed (env sch) p l p' l') : l'.taken = l.taken := by
  cases h with
  | already _ => rfl
  | closes _ closes =>
    obtain ⟨_, rfl⟩ := Prod.mk.inj (Option.some.inj closes)
    rfl

theorem time64_taken {sch : Schedule D} {l l' : Link D} {now : Int}
    (h : (env sch).time64.run l = some (now, l')) : l'.taken = l.taken := by
  obtain ⟨_, rfl⟩ := Prod.mk.inj (Option.some.inj h)
  rfl

theorem hidOpen_cases (sch : Schedule D) (l : Link D) :
    (env sch).hidOpen.Ensures l (fun r l' =>
      l'.taken = l.taken ∧ ∀ h, r = some h → l'.Clean h) := by
  intro r l' hs
  have result := Option.some.inj hs
  cases opens : sch.opens l.calls with
  | false =>
    rw [opens] at result
    obtain ⟨rfl, rfl⟩ := Prod.mk.inj result
    exact ⟨rfl, fun h some => by contradiction⟩
  | true =>
    rw [opens] at result
    obtain ⟨rfl, rfl⟩ := Prod.mk.inj result
    refine ⟨rfl, fun h same => ?_⟩
    obtain rfl := Option.some.inj same
    rw [Clean, tick_channel, put_channel, Channel.outstanding_empty]

end Link

namespace Emu

open Link

variable {D : Type}

theorem connectPanel_matched {sch : Schedule D} {s t : Emu} {l l' : Link D} {ok : Bool}
    (good : l.Matched) (connects : (s.connectPanel (env sch)).run l = some ((ok, t), l')) :
    l'.Matched ∧ (ok = true → s.panel.isConnected = true ∧ t.panel = s.panel ∧ l' = l ∨
      ∃ h, t.panel.dimmer.mHandle = some h ∧ l'.Clean h) := by
  have way := connectPanel_cases (env sch) s l _ l' connects
  generalize hr : (ok, t) = r at way
  have opened {h : Handle} {inten : Int} {l₁ l₂ : Link D}
      (hopen : (env sch).hidOpen.run l = some (some h, l₁))
      (hread : (getInten (env sch) h).run l₁ = some (inten, l₂)) :
      l₂.Matched ∧ (0 ≤ inten → l₂.Clean h) := by
    obtain ⟨same, clean⟩ := hidOpen_cases sch l _ l₁ hopen
    exact getInten_matched sch (clean h rfl) (good.of_taken same) inten l₂ hread
  cases way with
  | already up =>
    obtain ⟨rfl, rfl⟩ := Prod.mk.inj hr
    exact ⟨good, fun _ => .inl ⟨up, rfl, rfl⟩⟩
  | failed _ way =>
    obtain ⟨rfl, rfl⟩ := Prod.mk.inj hr
    refine ⟨?_, fun no => absurd no Bool.false_ne_true⟩
    cases way with
    | noDevice hopen => exact good.of_taken (hidOpen_cases sch l _ _ hopen).1
    | noAnswer hopen hread _ => exact (opened hopen hread).1
  | @opened panel now l₁ _ _ way clock =>
    obtain ⟨rfl, rfl⟩ := Prod.mk.inj hr
    cases way with
    | @read h inten _ _ hopen hread nonneg =>
      obtain ⟨kept, clean⟩ := opened hopen hread
      refine ⟨kept.of_taken (time64_taken clock), fun _ => .inr ⟨h, rfl, ?_⟩⟩
      obtain ⟨_, rfl⟩ := Prod.mk.inj (Option.some.inj clock)
      exact clean nonneg

/-- The operation of a request writes while an older answer is outstanding that comes in time
to be taken for its own. -/
def TakesLate (sch : Schedule D) (p : AlnitakEmu) (l : Link D) (op : Option SetOp) : Prop :=
  ∃ o h inten, op = some o ∧ p.dimmer.mHandle = some h ∧ p.dimmer.target o.call = some inten ∧
    l.Late sch h

theorem applyOp_matched {sch : Schedule D} {s : Emu} {l l' : Link D} {op : Option SetOp}
    {r : Bool × Emu} (good : l.Matched) (up : s.panel.isConnected = true)
    (early : ¬ TakesLate sch s.panel l op)
    (applies : (s.applyOp (env sch) op).run l = some (r, l')) : l'.Matched := by
  cases applyOp_cases (env sch) op s l r l' applies with
  | asked => exact good
  | @set o r _ hs =>
    obtain ⟨h, opens⟩ := Option.isSome_iff_exists.mp up
    rcases SetCall.run_exchanges (env sch) o.call opens l r l' hs with
      ⟨_, rfl, _⟩ | ⟨inten, needed, sets⟩
    · exact good
    · exact setInten_matched sch good (fun late => early ⟨o, h, inten, rfl, opens, needed, late⟩)
        inten _ l' sets

theorem applyOp_late {sch : Schedule D} {s : Emu} {l l' : Link D} {op : Option SetOp}
    {r : Bool × Emu} (late : TakesLate sch s.panel l op)
    (applies : (s.applyOp (env sch) op).run l = some (r, l')) : ¬ l'.Matched := by
  obtain ⟨o, h, inten, rfl, opens, needed, late⟩ := late
  generalize hop : some o = op at applies
  cases applyOp_cases (env sch) op s l r l' applies with
  | asked => contradiction
  | @set o' r _ hs =>
    obtain rfl := Option.some.inj hop
    rcases SetCall.run_exchanges (env sch) o.call opens l r l' hs with
      ⟨needless, _⟩ | ⟨inten', _, sets⟩
    · rw [needed] at needless
      contradiction
    · exact setInten_late sch late inten' _ l' sets

theorem serve_matched {sch : Schedule D} {s s' : Emu} {l l' : Link D} {op : Option SetOp}
    {answer : Memory → AlnitakEmu → List UInt8} (good : l.Matched)
    (early : ¬ TakesLate sch s.panel l op)
    (serves : (s.serve (env sch) op answer).run l = some (s', l')) : l'.Matched := by
  have applied {t : Emu} {l₁ l₂ : Link D} {r : Bool × Emu}
      (connects : (s.connectPanel (env sch)).run l = some ((true, t), l₁))
      (applies : (t.applyOp (env sch) op).run l₁ = some (r, l₂)) : l₂.Matched := by
    obtain ⟨kept, way⟩ := connectPanel_matched good connects
    rcases way rfl with ⟨up, panel, rfl⟩ | ⟨h, opens, clean⟩
    · exact applyOp_matched kept (by rw [panel, up]) (by rw [panel]; exact early) applies
    · refine applyOp_matched kept (Option.isSome_iff_exists.mpr ⟨h, opens⟩) ?_ applies
      rintro ⟨_, _, _, _, opens', _, late⟩
      obtain rfl := Option.some.inj (opens.symm.trans opens')
      exact late.1 clean
  cases serve_cases (env sch) op answer s l s' l' serves with
  | noPanel connects => exact (connectPanel_matched good connects).1
  | answered connects applies clock => exact (applied connects applies).of_taken (time64_taken clock)
  | refused connects applies closes => exact (applied connects applies).of_taken (closed_taken closes)

theorem serve_late {sch : Schedule D} {s s' : Emu} {l l' : Link D} {op : Option SetOp}
    {answer : Memory → AlnitakEmu → List UInt8} (late : TakesLate sch s.panel l op)
    (serves : (s.serve (env sch) op answer).run l = some (s', l')) : ¬ l'.Matched := by
  have up : s.panel.isConnected = true := by
    obtain ⟨_, h, _, _, opens, _⟩ := late
    exact Option.isSome_iff_exists.mpr ⟨h, opens⟩
  have still {ok : Bool} {t : Emu} {l₁ : Link D}
      (connects : (s.connectPanel (env sch)).run l = some ((ok, t), l₁)) :
      (true, s) = (ok, t) ∧ l = l₁ := by
    rw [connectPanel, if_pos up] at connects
    exact (run_pure_eq _ _ _ _).mp connects
  cases serve_cases (env sch) op answer s l s' l' serves with
  | noPanel connects => exact absurd (Prod.mk.inj (still connects).1).1.symm Bool.false_ne_true
  | answered connects applies clock =>
    obtain ⟨same, rfl⟩ := still connects
    obtain ⟨_, rfl⟩ := Prod.mk.inj same
    rw [Matched, time64_taken clock]
    exact applyOp_late late applies
  | refused connects applies closes =>
    obtain ⟨same, rfl⟩ := still connects
    obtain ⟨_, rfl⟩ := Prod.mk.inj same
    rw [Matched, closed_taken closes]
    exact applyOp_late late applies

def ReadsLate (sch : Schedule D) (s : Emu) (l : Link D) (r : SerialRead) : Prop :=
  ∃ b op, r = .byte b ∧ s.exited = none ∧ s.EndsLine b ∧ asked (s.handed b).buf = some op ∧
    TakesLate sch s.panel l op

theorem step_matched (sch : Schedule D) {s : Emu} {l : Link D} {r : SerialRead} (awake : s.Awake)
    (good : l.Matched) (early : ¬ s.ReadsLate sch l r) :
    (s.step (env sch) r).Ensures l (fun _ l' => l'.Matched) := by
  intro s' l' hs
  cases step_cases (env sch) awake r l s' l' hs with
  | ended _ | unconnected _ _ | inLine _ _ | skipped _ _ _ _ => exact good
  | waited _ _ clock _ => exact good.of_taken (time64_taken clock)
  | expired _ _ clock _ closes =>
    exact good.of_taken ((closed_taken closes).trans (time64_taken clock))
  | portFailed _ closes | quits _ _ _ _ closes => exact good.of_taken (closed_taken closes)
  | @served b op s₁ _ running ends asks serves =>
    refine serve_matched good (fun late => early ⟨b, op, rfl, running, ends, asks, ?_⟩) serves
    rw [(handed_frame s b).1] at late
    exact late

theorem step_late (sch : Schedule D) {s : Emu} {l : Link D} {r : SerialRead} (awake : s.Awake)
    (late : s.ReadsLate sch l r) :
    (s.step (env sch) r).Ensures l (fun _ l' => ¬ l'.Matched) := by
  obtain ⟨b, op, rfl, running, ends, asks, late⟩ := late
  intro s' l' hs
  obtain ⟨s₁, serves, rfl⟩ := step_asked running awake ends asks hs
  rw [← (handed_frame s b).1] at late
  exact serve_late late serves

/-- In every run of main, whatever the bytes, the delays of the device and the calls that fail:
each response read answers the report written just before it, if and only if no request that
sets something finds an older answer that comes in time to be taken for its own. -/
theorem responses_matched_iff (sch : Schedule D) (d : D) (buf : Memory) (rs : List SerialRead) :
    Runs.Always (Emu.step (env sch)) (fun _ l => l.Matched) (start buf) (.new d) rs ↔
      Runs.EachStep (Emu.step (env sch)) (fun s l r _ _ => ¬ s.ReadsLate sch l r) (start buf)
        (.new d) rs := by
  have begin : (start buf).Awake ∧ (Link.new d).Matched :=
    ⟨start_awake buf, fun t ht => absurd ht List.not_mem_nil⟩
  refine Runs.always_iff_eachStep (I := fun (s : Emu) (l : Link D) => s.Awake ∧ l.Matched)
    (C := fun s l r => ¬ s.ReadsLate sch l r) (fun _ _ h => h.2) ?_ ?_ rs begin
  · intro s l r h early s' l' hs
    exact ⟨step_awake (env sch) h.1 r l s' l' hs, step_matched sch h.1 h.2 early s' l' hs⟩
  · intro s l r h late
    exact step_late sch h.1 (not_not.mp late)

/-- A dimmer that answers its first report only after the read for it has given up. -/
def slowFirst : Schedule Device where
  react := fun d report => (d.receive .steady report, (d.receive .steady report).answer)
  opens := fun _ => true
  writes := fun _ => true
  answers := fun n => if n = 4 then 1 else 0
  clock := fun _ => 0
  uninit := fun _ _ => 0
  pollBound := fun _ => 1

/-- The intensity that was asked for on connecting comes when `L` has sent its level, and is
taken for the acknowledgement. -/
theorem not_always_matched :
    ¬ ∀ (D : Type) (sch : Schedule D) (d : D) (buf : Memory) (rs : List SerialRead),
      Runs.Always (Emu.step (env sch)) (fun _ l => l.Matched) (start buf) (.new d) rs := by
  intro claim
  let rs : List SerialRead := [.byte (ascii 'x'), .byte (ascii 'S'), .byte (ascii '\n'),
    .byte (ascii 'x'), .byte (ascii 'L'), .byte (ascii '\n')]
  have always := claim Device slowFirst (Device.idle 500) (fun _ => 0) rs
  have last := (Runs.always_iff_prefix rs _ _).mp always rs List.prefix_rfl
  obtain ⟨⟨s, l⟩, reached, taken⟩ := Option.map_eq_some_iff.mp (show
    ((main (env slowFirst) (fun _ => 0) rs).run (.new (Device.idle 500))).map (fun r =>
      r.2.taken) = some [(1, 2)] by decide +kernel)
  have good := last s l reached (1, 2) (by rw [taken]; exact List.mem_singleton_self _)
  exact absurd good (by decide)

end Emu
end FlatPanel
