import FlatPanel.Delivery
import FlatPanel.Lamp
import FlatPanel.Receiving

/-! The whole program, between a serial line and a light. Whatever else the port does, what it
is given to write is what the lamp answers to the lines that it delivered. -/
namespace FlatPanel

open Program

variable {V W : Type}

namespace Process

section Halting

variable {win : WinOpen V} (opens : win.Total) {line : WinTransfer V} (transfers : line.Total)
  (b : Behaviour)
include opens

theorem leave_halts (code : Int) (s : Process) (t : V × Device) :
    (s.leave (.apart win line (Device.env b)) code).Returns t (fun _ _ => True) := by
  have closes := SerialPort.close_returns opens s.dev t.1
  apply returns_bind
  apply (((apart_win win line (Device.env b) t.2).close s.dev).ends_iff.mp closes).mono
  intro dev t₁ _
  have leaves := Emu.leave_returns b code s.emu t₁.2
  apply returns_bind
  apply (((apart_hid win line (Device.env b) t₁.1).leave code s.emu).ends_iff.mp leaves).mono
  exact fun _ _ _ => returns_pure trivial

include transfers

theorem endOfLine_halts (s : Process) (t : V × Device) :
    (s.endOfLine (.apart win line (Device.env b))).Returns t (fun _ _ => True) := by
  have responds (dev : SerialPort) (resp : Option (List UInt8)) (v : V) :
      (respond line dev resp).Returns v (fun _ _ => True) := by
    cases resp with
    | none => exact returns_pure trivial
    | some bs =>
      apply returns_bind
      exact (SerialPort.write_returns transfers dev bs v).mono fun _ _ _ => returns_pure trivial
  have acts := Emu.dispatch_halts b (s.emu.note (.request (s.emu.buf.bytes s.emu.p))) t.2
  apply returns_bind
  apply (((apart_hid win line (Device.env b) t.1).dispatch _).ends_iff.mp acts).mono
  intro emu t₁ _
  have sends := responds s.dev (told s.emu emu) t₁.1
  apply returns_bind
  apply (((apart_line win line (Device.env b) t₁.2).respond s.dev _).ends_iff.mp sends).mono
  intro _ t₂ _
  apply returns_ite
  · intro _
    apply returns_bind
    exact (leave_halts opens b 0 _ t₂).mono fun _ _ _ => returns_pure trivial
  · exact fun _ => returns_pure trivial

theorem step_halts {s : Process} (running : s.emu.exited = none) (r : SerialRead)
    (t : V × Device) :
    (s.step (.apart win line (Device.env b)) r).Returns t (fun _ _ => True) := by
  cases r with
  | timedOut =>
    have waits := Emu.readTimedOut_halts b running t.2
    apply returns_bind
    apply (((apart_hid win line (Device.env b) t.1).readTimedOut s.emu).ends_iff.mp waits).mono
    exact fun _ _ _ => returns_pure trivial
  | failed =>
    apply returns_bind
    exact (leave_halts opens b 1 s t).mono fun _ _ _ => returns_pure trivial
  | byte c =>
    by_cases ends : s.emu.EndsLine c
    · change (s.readByte _ c).Returns t _
      rw [readByte_ends _ ends]
      exact endOfLine_halts opens transfers b _ t
    · change (s.readByte _ c).Returns t _
      rw [readByte_more _ ends]
      exact returns_pure trivial

theorem trip_halts {s : Process} (running : s.emu.exited = none) (t : V × Device) :
    (trip (.apart win line (Device.env b)) s).Returns t (fun _ _ => True) := by
  have reads := SerialPort.read_returns transfers s.dev 1 t.1
  apply returns_bind
  apply (((apart_line win line (Device.env b) t.2).read s.dev 1).ends_iff.mp reads).mono
  rintro ⟨nread, bs⟩ t₁ _
  let r := SerialRead.ofRead nread bs
  exact step_halts (s := { s with reads := r :: s.reads }) opens transfers b running r t₁

/-- Whichever calls fail, main is back at its next `Read` or has returned. -/
theorem main_halts (buf : Memory) (args : List (List UInt8)) (n : Nat) (t : V × Device) :
    (main (.apart win line (Device.env b)) buf args n).Returns t (fun _ _ => True) := by
  have refused : ((Emu.start buf).leave (Calls.apart win line (Device.env b)).hid 1).Returns t
      (fun _ _ => True) :=
    ((apart_hid win line (Device.env b) t.1).leave 1 _).ends_iff.mp
      (Emu.leave_returns b 1 _ t.2)
  match args with
  | [_, port] =>
    have opened := SerialPort.open_returns opens (devname port) 9600
      [ascii '8', ascii 'N', ascii '1'] .none SerialPort.init t.1
    apply returns_bind
    apply (((apart_win win line (Device.env b) t.2).open _ _ _ _ _).ends_iff.mp opened).mono
    rintro ⟨ret, dev⟩ t₁ _
    apply returns_ite
    · intro bad
      apply returns_bind
      exact (leave_halts opens b 1 _ t₁).mono fun _ _ _ => returns_pure trivial
    · intro good
      have start : Serving (Device.env b) buf t₁.2 0 ⟨dev, .start buf, []⟩ t₁.2 :=
        ⟨rfl, rfl, rfl⟩
      refine (returns_trips (I := fun k s t => Serving (Device.env b) buf t₁.2 k s t.2)
        (Q := fun _ _ _ => True) ?_ n start).mono fun _ _ _ => trivial
      intro k s t serving
      refine ((trip_apart win line serving).mono ?_).returns
        (trip_halts opens transfers b serving.running t)
      rintro (s' | s') t' after
      · exact after
      · trivial
  | [] | [_] | _ :: _ :: _ :: _ =>
    apply returns_bind
    exact refused.mono fun _ _ _ => returns_pure trivial

end Halting

/-- What can be seen from outside after these reads is what a lamp shows and has answered that
heard their lines. -/
structure Shows (inten : Nat) (rs : List SerialRead) (sending : Sending) (dev : Device)
    (es : List Lamp.Event) : Prop where
  lines : es.filterMap Lamp.Event.line? = Emu.wholeLines rs
  idles : es.countP Lamp.Event.isIdle ≤ rs.count .timedOut
  light : dev.inten = (es.foldl Lamp.next (.away inten)).inten
  answers : sending.Delivers (es.foldl Lamp.next (.away inten)).answers
  free : (∀ free ∈ sending.asks, free = true) →
    sending.sent = (es.foldl Lamp.next (.away inten)).answers

theorem passed_free {resps : List (List UInt8)} {free : List Bool}
    (length : free.length = resps.length) (all : ∀ f ∈ free, f = true) :
    passed resps free = resps := by
  have kept : (resps.zip free).filter Prod.snd = resps.zip free := by
    rw [List.filter_eq_self]
    exact fun a mem => all a.2 (List.of_mem_zip mem).2
  rw [passed, kept, List.map_fst_zip length.ge]

theorem main_shows {b : Behaviour} (all : b.Faultless) {buf : Memory} {dev dev' : Device}
    (word : dev.inten < 65536) {s : Emu} {sending : Sending} {got : List SerialRead}
    (main : (Emu.main (Device.env b) buf got).run dev = some (s, dev'))
    (sent : sending.Delivers s.responses) (legible : Emu.Legible got) :
    ∃ es, Shows dev.inten got sending dev' es := by
  obtain ⟨lines, es, plays⟩ := (Emu.main_playing all buf word legible).ensures s dev' main
  have waits := plays.waits
  have answers : sending.Delivers (es.foldl Lamp.next (.away dev.inten)).answers := by
    rw [← plays.lamp]
    exact sent
  refine ⟨es, plays.lines.symm.trans lines, ?_, ?_, answers, fun free => ?_⟩
  · simpa using waits
  · rw [← plays.lamp]
    rfl
  · rw [answers.sent, passed_free answers.asks free]

/-- Main has its port, which has delivered this. It is at its next `Read` and was sent no quit,
or was sent one and has returned 0. -/
structure Serves (inten n : Nat) (q : Process ⊕ Process) (fs : List Fetch) (sending : Sending)
    (dev : Device) : Prop where
  reads : match q with
    | .inl _ => fs.length = n
    | .inr _ => fs ≠ []
  status : Emu.Legible (Fetch.outcomes fs) →
    match q with
    | .inl _ => ∀ l ∈ Emu.wholeLines (Fetch.outcomes fs), Emu.isQuit l = false
    | .inr s => s.emu.exited = some 0 ∧
        ∃ l ∈ Emu.wholeLines (Fetch.outcomes fs), Emu.isQuit l = true
  lamp : Emu.Legible (Fetch.outcomes fs) →
    ∃ es, Shows inten (Fetch.outcomes fs) sending dev es

/-- Main has no port: it has returned 1, and has touched nothing. -/
structure Refuses (dev : Device) (q : Process ⊕ Process) (fs : List Fetch) (sending : Sending)
    (dev' : Device) : Prop where
  exited : ∃ s, q = .inr s ∧ s.emu.exited = some 1
  unread : fs = []
  unsent : sending = .start
  kept : dev' = dev

theorem delivers_nothing {sending : Sending} (h : sending.Delivers []) : sending = .start := by
  obtain ⟨asks, sent⟩ := sending
  obtain rfl : asks = [] := List.length_eq_zero_iff.mp h.asks
  obtain rfl : sent = [] := h.sent
  rfl

/-- For any arguments, a port whose calls come back and a dimmer that does as it is told: main
comes to its next `Read` or returns, however many reads it is given, and returns before the first
exactly when it has no port. If no `Read` failed and the lines fit, the light is the lamp's that
heard the lines which the port delivered, and its answers were written, each once and whole, but
for those that the port was not free for. -/
theorem main_serves_lamp {b : Behaviour} (all : b.Faultless) {win : WinOpen V} (opens : win.Total)
    {line : WinTransfer V} (transfers : line.Total) (buf : Memory) (args : List (List UInt8))
    (n : Nat) (v : V) {dev : Device} (word : dev.inten < 65536) :
    (main (Calls.apart win line (Device.env b)).sending.fetching buf args n).Returns
      ([], .start, v, dev) (fun q t =>
        (Opens win args v → Serves dev.inten n q t.1 t.2.1 t.2.2.2) ∧
        (¬ Opens win args v → Refuses dev q t.1 t.2.1 t.2.2.2)) := by
  have sends := (sending_records (.apart win line (Device.env b))).main buf args n
  have fetches := (fetching_records (Calls.apart win line (Device.env b)).sending).main buf args n
  have halts := main_halts opens transfers b buf args n (v, dev)
  have ends := (fetches.ends_iff (v := ([], .start, v, dev))).mpr
    ((sends.ends_iff (v := (.start, v, dev))).mpr halts)
  refine Ensures.returns ?_ ends
  intro q t fetched
  have reads := main_fetching _ buf args n (.start, v, dev) q t fetched
  have reached := fetches.run_eq fetched
  have sent := main_sending _ buf args n (v, dev) q t.2 reached
  have attends := main_attends reads (sends.run_eq reached)
  cases q with
  | inl s =>
    obtain ⟨open', running, length, main⟩ := attends
    refine ⟨fun _ => ⟨length, fun legible => ?_, main_shows all word main sent⟩,
      fun shut => absurd open' shut⟩
    obtain ⟨lines, status⟩ := Emu.main_status _ buf dev legible s.emu _ main
    rw [← lines]
    exact status.running running
  | inr s =>
    obtain ⟨exited, ⟨open', some_read, main⟩ | ⟨shut, unread, gone, same⟩⟩ := attends
    · refine ⟨fun _ => ⟨some_read, fun legible => ?_, main_shows all word main sent⟩,
        fun shut => absurd open' shut⟩
      obtain ⟨lines, status⟩ := Emu.main_status _ buf dev legible s.emu _ main
      rw [← lines]
      exact status.returned exited
    · change t.2.1.Delivers s.emu.responses at sent
      rw [gone] at sent
      exact ⟨fun open' => absurd open' shut, fun _ => ⟨⟨s, rfl, by rw [gone]; rfl⟩, unread,
        delivers_nothing sent, same⟩⟩

def willing : WinOpen (List SerialRead) where
  createFileA := fun _ => pure (.object 0)
  setCommState := fun _ _ => pure true
  createEvent := pure (.object 1)
  setCommTimeouts := fun _ _ => pure true
  setupComm := fun _ _ _ => pure true
  closeHandle := fun _ => pure ()

/-- At the other end somebody types this, then nothing, and takes what is written. -/
def typing : WinTransfer (List SerialRead) where
  readFile := fun _ _ _ => pure true
  writeFile := fun _ _ _ => pure true
  getOverlappedResult := fun _ ov _ rest =>
    match ov, rest with
    | .wr, rest => some (some [], rest)
    | .rd, [] => some (some [], [])
    | .rd, .timedOut :: rest => some (some [], rest)
    | .rd, .failed :: rest => some (none, rest)
    | .rd, .byte b :: rest => some (some [b], rest)
  flushFileBuffers := fun _ => pure ()
  getLastError := pure 0

theorem willing_total : willing.Total :=
  ⟨fun _ _ => returns_pure trivial, fun _ _ _ => returns_pure trivial,
    fun _ => returns_pure trivial, fun _ _ _ => returns_pure trivial,
    fun _ _ _ _ => returns_pure trivial, fun _ _ => returns_pure trivial⟩

theorem typing_total : typing.Total := by
  refine ⟨fun _ _ _ _ => returns_pure trivial, fun _ _ _ _ => returns_pure trivial, ?_,
    fun _ _ => returns_pure trivial, fun _ => returns_pure trivial⟩
  rintro fd (_ | _) wait (_ | ⟨_ | _ | _, rest⟩) <;> exact ⟨_, _, rfl, trivial⟩

theorem willing_opens (rest : List SerialRead) (port : List UInt8) :
    Opens willing [[], port] rest := ⟨[], port, rfl, _, _, rfl, rfl⟩

theorem main_serves_lamp_typing :
    (main (Calls.apart willing typing (Device.env .steady)).sending.fetching (fun _ => 0)
      [[], [ascii 'x']] 6).Returns ([], .start, slowly [.state], Device.idle 0) (fun q t =>
        Serves 0 6 q t.1 t.2.1 t.2.2.2) :=
  (main_serves_lamp Behaviour.steady_faultless willing_total typing_total _ _ _ _ (by decide)).mono
    fun _ _ ends => ends.1 (willing_opens _ _)

example : ((main (Calls.apart willing typing (Device.env .steady)).sending.fetching (fun _ => 0)
    [[], [ascii 'x']] 6).run ([], .start, slowly [.state], Device.idle 0)).map
      (fun r => (Fetch.outcomes r.2.1, r.2.2.1.sent)) =
    some ((slowly [.state]).take 6, [[ascii '*', ascii 'S', ascii '1', ascii '0', ascii '0',
      ascii '0', ascii '0', ascii '\n']]) := by
  decide +kernel

end Process
end FlatPanel
