import FlatPanel.Apart

/-! What main responds and what is written. A response is written once and whole if the port is
done with the one before, and otherwise never. -/
namespace FlatPanel

open Program

variable {W : Type}

/-- A record of the writes, the last one first: whether the port was free each time it was
asked, and what was given to `WriteFile`. -/
structure Sending where
  asks : List Bool
  sent : List (List UInt8)

/-- Those of the strings that the port was free for. -/
def passed (resps : List (List UInt8)) (free : List Bool) : List (List UInt8) :=
  ((resps.zip free).filter Prod.snd).map Prod.fst

namespace Sending

def start : Sending := ⟨[], []⟩

def asked (t : Sending) (free : Bool) : Sending := { t with asks := free :: t.asks }

def wrote (t : Sending) (bs : List UInt8) : Sending := { t with sent := bs :: t.sent }

/-- Only the writes are asked about without waiting for the answer. -/
def noteAsked (ov : Overlapped) (t : Sending) (result : Option (List UInt8)) : Sending :=
  if ov = .wr then t.asked result.isSome else t

def line (line : WinTransfer W) : WinTransfer (Sending × W) where
  readFile := fun fd len ov => onSnd (line.readFile fd len ov)
  writeFile := fun fd bs ov => noting (fun t _ => t.wrote bs) (line.writeFile fd bs ov)
  getOverlappedResult := fun fd ov wait =>
    noting (noteAsked ov) (line.getOverlappedResult fd ov wait)
  flushFileBuffers := fun fd => onSnd (line.flushFileBuffers fd)
  getLastError := onSnd line.getLastError

/-- As many answers as strings, and the strings that were written are the ones with a yes. -/
structure Delivers (t : Sending) (resps : List (List UInt8)) : Prop where
  asks : t.asks.length = resps.length
  sent : t.sent = passed resps t.asks

theorem start_delivers : start.Delivers [] := ⟨rfl, rfl⟩

theorem Delivers.dropped {t : Sending} {resps : List (List UInt8)} (h : t.Delivers resps)
    (resp : List UInt8) : (t.asked false).Delivers (resp :: resps) :=
  ⟨congrArg Nat.succ h.asks, h.sent⟩

theorem Delivers.written {t : Sending} {resps : List (List UInt8)} (h : t.Delivers resps)
    (resp : List UInt8) : ((t.asked true).wrote resp).Delivers (resp :: resps) :=
  ⟨congrArg Nat.succ h.asks, congrArg (resp :: ·) h.sent⟩

end Sending

def Calls.sending (calls : Calls W) : Calls (Sending × W) where
  win := calls.win.lift onSnd
  line := Sending.line calls.line
  hid := calls.hid.lift onSnd Prod.snd

namespace Process

open Sending

variable {calls : Calls W} {t t' : Sending × W}

theorem sending_records (calls : Calls W) : Calls.Records Prod.snd calls.sending calls := by
  refine ⟨calls.win.along, ⟨fun _ _ _ => onSnd_within _, ?_, ?_, fun _ => onSnd_within _,
    onSnd_within _⟩, calls.hid.along⟩
  · exact fun _ bs _ => noting_follows (fun t _ => Sending.wrote t bs) _
  · exact fun _ ov _ => noting_follows (noteAsked ov) _

theorem sending_win (calls : Calls W) (t : Sending) :
    WinOpen.Records (fun w => (t, w)) calls.win calls.sending.win :=
  calls.win.lift_records fun m => onSnd_follows t m

theorem sending_hid (calls : Calls W) (t : Sending) :
    Env.Records (fun w => (t, w)) calls.hid calls.sending.hid :=
  calls.hid.lift_records (fun m => onSnd_follows t m) fun _ => rfl

theorem failed_keeps (ok : Bool) (expected : Nat) (t : Sending × W) :
    (calls.sending.line.failed ok expected).Ensures t (fun _ t' => t'.1 = t.1) := by
  apply ensures_ite
  · exact fun _ => ensures_pure rfl
  · intro _
    apply ensures_bind
    refine (onSnd_ensures calls.line.getLastError t).mono ?_
    exact fun _ _ same => ensures_pure same

theorem read_keeps (d : SerialPort) (len : Nat) (t : Sending × W) :
    (d.read calls.sending.line len).Ensures t (fun _ t' => t'.1 = t.1) := by
  apply ensures_bind
  refine (onSnd_ensures (calls.line.readFile d.mFd len .rd) t).mono ?_
  intro ok t₁ same
  apply ensures_bind
  refine (failed_keeps ok errorIoPending t₁).mono ?_
  intro failed t₂ same₂
  have kept := same₂.trans same
  apply ensures_ite
  · exact fun _ => ensures_pure kept
  · intro _
    apply ensures_bind
    refine (noting_ensures (noteAsked .rd) _ t₂).mono ?_
    rintro (_ | bs) t₃ same₃
    · exact ensures_pure (same₃.trans kept)
    · exact ensures_pure (same₃.trans kept)

theorem write_delivers {resps : List (List UInt8)} (d : SerialPort) (resp : List UInt8)
    (h : t.1.Delivers resps) : (d.write calls.sending.line resp).Ensures t (fun _ t' =>
      t'.1.Delivers (resp :: resps)) := by
  have asked (t : Sending × W) : (calls.sending.line.getOverlappedResult d.mFd .wr false).Ensures t
      (fun r t' => t'.1 = t.1.asked r.isSome) := noting_ensures (noteAsked .wr) _ t
  have written (t : Sending × W) : (calls.sending.line.writeFile d.mFd resp .wr).Ensures t
      (fun _ t' => t'.1 = t.1.wrote resp) := noting_ensures (fun t _ => Sending.wrote t resp) _ t
  intro ok t' hs
  cases SerialPort.write_cases calls.sending.line d resp t ok t' hs with
  | dropped asks why =>
    rw [failed_keeps _ _ _ _ t' why, asked t _ _ asks]
    exact h.dropped resp
  | failed asks write why =>
    rw [failed_keeps _ _ _ _ t' why, written _ _ _ write, asked t _ _ asks]
    exact h.written resp
  | sent asks write why flush =>
    rw [onSnd_ensures _ _ _ t' flush, failed_keeps _ _ _ _ _ why, written _ _ _ write,
      asked t _ _ asks]
    exact h.written resp

theorem respond_delivers (d : SerialPort) {s s' : Emu} (once : s'.responses = s.responses ∨
      ∃ resp, s'.responses = resp :: s.responses) (h : t.1.Delivers s.responses) :
    (respond calls.sending.line d (told s s')).Ensures t (fun _ t' =>
      t'.1.Delivers s'.responses) := by
  unfold told
  rcases once with same | ⟨resp, more⟩
  · rw [same, if_pos rfl]
    exact ensures_pure h
  · rw [more, if_neg (by simp)]
    apply ensures_bind
    refine (write_delivers d resp h).mono ?_
    exact fun _ t' delivers => ensures_pure delivers

theorem leave_delivers (code : Int) (s : Process) (h : t.1.Delivers s.emu.responses) :
    (s.leave calls.sending code).Ensures t (fun s' t' => t'.1.Delivers s'.emu.responses) := by
  apply ensures_bind
  refine (((sending_win calls t.1).close s.dev).of_snd t.2).mono ?_
  rintro dev ⟨_, w₁⟩ ⟨_, rfl⟩
  apply ensures_bind
  refine (((sending_hid calls t.1).leave code s.emu).of_snd w₁).mono ?_
  rintro emu t' ⟨leaves, same⟩
  obtain ⟨rfl, _⟩ := Emu.leave_cases calls.hid code s.emu w₁ emu t'.2 leaves
  apply ensures_pure
  rw [same]
  exact h

theorem step_delivers (s : Process) (r : SerialRead) (h : t.1.Delivers s.emu.responses) :
    (s.step calls.sending r).Ensures t (fun r t' =>
      t'.1.Delivers (Sum.elim id id r).emu.responses) := by
  have switch (b : UInt8) (emu : Emu) (t₁ : Sending × W)
      (acts : ((s.emu.handed b).dispatch calls.sending.hid).run t = some (emu, t₁)) :
      (respond calls.sending.line s.dev (told (s.emu.lineRead b) emu)).Ensures t₁ (fun _ t' =>
        t'.1.Delivers emu.responses) := by
    obtain ⟨acts, same⟩ := ((sending_hid calls t.1).dispatch _).of_snd t.2 emu t₁ acts
    have once := (dispatch_once calls.hid _ t.2 emu t₁.2 acts).2
    have silent := Emu.responses_of_log (Emu.lineRead_frame s.emu b).2.2.2
    rw [Emu.handed_responses, ← silent] at once
    rw [← silent, ← same] at h
    exact respond_delivers s.dev once h
  intro q t' hs
  cases step_cases _ s r t q t' hs with
  | @waited emu _ looks =>
    obtain ⟨looks, same⟩ := ((sending_hid calls t.1).readTimedOut s.emu).of_snd t.2 emu t' looks
    have silent := (readTimedOut_silent calls.hid s.emu t.2 emu t'.2 looks).2
    rw [same]
    exact silent ▸ h
  | failed leaves => exact leave_delivers 1 s h _ t' leaves
  | inLine more => exact h
  | switched ends acts sends goes => exact switch _ _ _ acts _ t' sends
  | quits ends acts sends stops leaves =>
    exact leave_delivers 0 _ (switch _ _ _ acts _ _ sends) _ t' leaves

theorem main_sending (calls : Calls W) (buf : Memory) (args : List (List UInt8)) (n : Nat)
    (w : W) : (main calls.sending buf args n).Ensures (.start, w) (fun r t =>
      t.1.Delivers (Sum.elim id id r).emu.responses) := by
  have refused : ((Emu.start buf).leave calls.sending.hid 1).Ensures (.start, w) (fun emu t =>
      t.1.Delivers emu.responses) := by
    refine (((sending_hid calls .start).leave 1 _).of_snd w).mono ?_
    rintro emu ⟨_, w'⟩ ⟨leaves, rfl⟩
    obtain ⟨rfl, _⟩ := Emu.leave_cases calls.hid 1 _ w emu w' leaves
    exact start_delivers
  match args with
  | [_, port] =>
    apply ensures_bind
    refine (((sending_win calls .start).open _ _ _ _ _).of_snd w).mono ?_
    rintro ⟨ret, dev⟩ ⟨_, w₁⟩ ⟨_, rfl⟩
    apply ensures_ite
    · intro bad
      apply ensures_bind
      refine (leave_delivers 1 _ start_delivers).mono ?_
      exact fun s t delivers => ensures_pure delivers
    · intro opened
      refine (ensures_trips (I := fun _ s t => t.1.Delivers s.emu.responses)
        (Q := fun s t => t.1.Delivers s.emu.responses) ?_ n (k := 0) start_delivers).mono ?_
      · intro _ s t h
        apply ensures_bind
        refine (read_keeps s.dev 1 t).mono ?_
        rintro ⟨nread, bs⟩ t₁ same
        rw [← same] at h
        let r := SerialRead.ofRead nread bs
        refine (step_delivers { s with reads := r :: s.reads } r h).mono ?_
        rintro (s' | s') t' delivers
        · exact delivers
        · exact delivers
      · rintro (s | s) t delivers
        · exact delivers
        · exact delivers
  | [] | [_] | _ :: _ :: _ :: _ =>
    apply ensures_bind
    refine refused.mono ?_
    exact fun emu t delivers => ensures_pure delivers

/-- The record changes nothing, and at any time, whatever the port and the library do: each
string that main responded was asked for once and, where the port was free, written whole. -/
theorem main_delivers (calls : Calls W) (buf : Memory) (args : List (List UInt8)) (n : Nat)
    (w : W) : Follows Prod.snd (main calls.sending buf args n) (main calls buf args n) ∧
      (main calls.sending buf args n).Ensures (.start, w) (fun r t =>
        t.1.Delivers (Sum.elim id id r).emu.responses) :=
  ⟨(sending_records calls).main buf args n, main_sending calls buf args n w⟩

end Process
end FlatPanel
