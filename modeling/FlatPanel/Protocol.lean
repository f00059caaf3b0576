import FlatPanel.Device

/-! What one intensity read and one intensity write do to the device, whichever of
their library calls fail. -/
namespace FlatPanel

open Program

namespace Behaviour

def Faultless (b : Behaviour) : Prop := ∀ n, b.fault n = .none

/-- A device that answers at once, and a clock that stands still. -/
def steady : Behaviour where
  fault := fun _ => .none
  filler := fun _ => 0
  moving := fun _ => 0
  clock := fun _ => 0
  uninit := fun _ _ => 0

theorem steady_faultless : steady.Faultless := fun _ => rfl

/-- The write and the read that begin with the `n`-th call go through. -/
def Swaps (b : Behaviour) (n : Nat) : Prop := b.fault n = .none ∧ b.fault (n + 1) = .none

/-- The calls of a `Connect`: the open, and the exchange that reads the intensity. -/
def Connects (b : Behaviour) (n : Nat) : Prop := b.fault n = .none ∧ b.Swaps (n + 1)

/-- The calls of a `set_inten`: SETINTEN, SETSTATE, and a GETSTATE with a pause after it for
every time the device says that it is moving, and a last one. -/
def Serves (b : Behaviour) (n : Nat) : Prop :=
  b.Swaps n ∧ b.Swaps (n + 2) ∧ ∀ k ≤ b.moving (n + 2), b.Swaps (n + 4 + 3 * k)

variable {b : Behaviour}

theorem Faultless.swaps (all : b.Faultless) (n : Nat) : b.Swaps n := ⟨all n, all (n + 1)⟩

theorem Faultless.connects (all : b.Faultless) (n : Nat) : b.Connects n :=
  ⟨all n, all.swaps (n + 1)⟩

theorem Faultless.serves (all : b.Faultless) (n : Nat) : b.Serves n :=
  ⟨all.swaps n, all.swaps (n + 2), fun _ _ => all.swaps _⟩

end Behaviour

namespace Device

theorem bytes_five (m : Memory) : m.bytes 5 = [m 0, m 1, m 2, m 3, m 4] := rfl

theorem receive_setInten (b : Behaviour) (d : Device) {buf : Memory}
    (cmd : buf 1 = cmdSetInten) : d.receive b (buf.bytes 5) =
      { d with
        level := (buf 2).toNat + 256 * (buf 3).toNat
        answer := [b.filler d.calls, cmdSetInten] } := by
  simp [receive, bytes_five, cmd, word]

theorem receive_setState (b : Behaviour) (d : Device) {buf : Memory}
    (cmd : buf 1 = cmdSetState) (goto : buf 2 = 3) : d.receive b (buf.bytes 5) =
      { d with
        inten := d.level
        gotos := d.gotos + 1
        moving := b.moving d.calls
        answer := [b.filler d.calls, cmdSetState] } := by
  have other : cmdSetState ≠ cmdSetInten := by decide
  simp [receive, bytes_five, cmd, goto, other]

theorem receive_getState (b : Behaviour) (d : Device) {buf : Memory}
    (cmd : buf 1 = cmdGetState) : d.receive b (buf.bytes 5) =
      { d with
        moving := d.moving - 1
        answer := [b.filler d.calls, if d.moving = 0 then 0 else 1, b.filler d.calls] } := by
  have set : cmdGetState ≠ cmdSetInten := by decide
  have goto : cmdGetState ≠ cmdSetState := by decide
  simp [receive, bytes_five, cmd, set, goto]

theorem receive_getInten (b : Behaviour) (d : Device) {buf : Memory}
    (cmd : buf 1 = cmdGetInten) : d.receive b (buf.bytes 5) =
      { d with
        answer := [b.filler d.calls, byte d.inten, byte (d.inten / 256), b.filler d.calls] } := by
  have set : cmdGetInten ≠ cmdSetInten := by decide
  have goto : cmdGetInten ≠ cmdSetState := by decide
  have state : cmdGetInten ≠ cmdGetState := by decide
  simp [receive, bytes_five, cmd, set, goto, state]

theorem usbdRead_run (b : Behaviour) (handle : Handle) (buf : Memory) (len : Nat) (d : Device) :
    (usbdRead (env b) handle buf len).run d =
      some (((d.found b).ret len, buf.fill ((d.found b).data len)), d.tick) := rfl

theorem found_fault {b : Behaviour} {d : Device} (fault : b.fault d.calls ≠ .none) (len : Nat) :
    (d.found b).ret len ≤ 0 := by
  unfold found
  split
  · contradiction
  · simp [Input.ret]
  · exact (by decide : (-1 : Int) ≤ 0)

@[simp] theorem tick_calls (d : Device) : d.tick.calls = d.calls + 1 := rfl

@[simp] theorem receive_calls (b : Behaviour) (d : Device) (report : List UInt8) :
    (d.receive b report).calls = d.calls := by
  simp only [receive]
  repeat' split
  all_goals rfl

/-- The three ways an exchange can end: the write fails, the read fails after the report
was received, or the answer comes back. -/
theorem exchange_returns {b : Behaviour} {d : Device} {buf : Memory} {least : Int}
    (handle : Handle) {Q : Option Memory → Device → Prop} (positive : 0 < least)
    (long : least ≤ ((d.receive b (buf.bytes 5)).answer.take 5).length)
    (unsent : ¬ b.Swaps d.calls → Q none d.tick)
    (unread : ¬ b.Swaps d.calls → Q none (d.receive b (buf.bytes 5)).tick.tick)
    (answered : b.Swaps d.calls →
      Q (some (buf.fill ((d.receive b (buf.bytes 5)).answer.take 5)))
        (d.receive b (buf.bytes 5)).tick.tick) :
    (exchange (env b) handle buf least).Returns d Q := by
  by_cases write : b.fault d.calls = .none
  · have sent : ((env b).hidWrite handle (buf.bytes 5)).run d =
        some (5, (d.receive b (buf.bytes 5)).tick) := by
      simp [env, hidWrite, StateT.run, write]
    have nonneg : ¬ (5 : Int) < 0 := by decide
    refine returns_bind ⟨_, _, sent, ?_⟩
    simp only [if_neg nonneg]
    refine returns_bind ⟨_, _, usbdRead_run b handle buf 5 _, ?_⟩
    by_cases read : b.fault (d.receive b (buf.bytes 5)).tick.calls = .none
    · have enough : ¬ (((d.receive b (buf.bytes 5)).answer.take 5).length : Int) < least :=
        Int.not_lt.mpr long
      simp only [found, read, Input.ret, Input.data, tick_answer, if_neg enough]
      rw [tick_calls, receive_calls] at read
      exact returns_pure (answered ⟨write, read⟩)
    · have short := found_fault read 5
      simp only [if_pos (lt_of_le_of_lt short positive)]
      rw [tick_calls, receive_calls] at read
      exact returns_pure (unread fun swaps => read swaps.2)
  · have lost : ((env b).hidWrite handle (buf.bytes 5)).run d = some (-1, d.tick) := by
      simp [env, hidWrite, StateT.run, write]
    exact returns_bind ⟨_, _, lost, returns_pure (unsent fun swaps => write swaps.1)⟩

structure Polled (d d' : Device) : Prop where
  inten : d'.inten = d.inten
  gotos : d'.gotos = d.gotos

theorem pollState_returns (b : Behaviour) (d : Device) (handle : Handle) (buf : Memory) :
    (pollState (env b) handle buf).Returns d (fun r d' => Polled d d' ∧
      match r with
      | .inl _ => d'.moving + 1 = d.moving ∧ d'.calls = d.calls + 3 ∧ b.Swaps d.calls
      | .inr ret => ret = usbdSuccess ∧ d.moving = 0 ∧ b.Swaps d.calls ∨
          ret = usbdCommError ∧ ¬ b.Swaps d.calls) := by
  have cmd : ((buf.store 0 0x0).store 1 cmdGetState) 1 = cmdGetState := by simp
  have got := receive_getState b d cmd
  apply returns_bind
  apply exchange_returns handle (by decide) (by rw [got]; simp)
  · exact fun fault => returns_pure ⟨⟨rfl, rfl⟩, .inr ⟨rfl, fault⟩⟩
  · exact fun fault => returns_pure ⟨by rw [got]; exact ⟨rfl, rfl⟩, .inr ⟨rfl, fault⟩⟩
  · intro swaps
    apply returns_ite
    · intro zero
      have still : d.moving = 0 := by
        by_contra moving
        rw [got] at zero
        simp [Memory.fill, moving] at zero
      exact returns_pure ⟨by rw [got]; exact ⟨rfl, rfl⟩, .inl ⟨rfl, still, swaps⟩⟩
    · intro nonzero
      refine returns_bind ⟨_, _, rfl, returns_pure ⟨by rw [got]; exact ⟨rfl, rfl⟩, ?_⟩⟩
      have moving : d.moving ≠ 0 := by
        intro none
        rw [got] at nonzero
        simp [Memory.fill, none] at nonzero
      rw [got]
      exact ⟨Nat.sub_add_cancel (Nat.pos_of_ne_zero moving), rfl, swaps⟩

/-- The loop asks as often as the device is moving, and once more. -/
theorem pollUntilDone_returns (b : Behaviour) (d : Device) (handle : Handle) (buf : Memory) :
    (pollUntilDone (env b) handle buf).Returns d (fun ret d' => Polled d d' ∧
      (ret = usbdSuccess ∨ ret = usbdCommError) ∧
      (ret = usbdSuccess ↔ ∀ k ≤ d.moving, b.Swaps (d.calls + 3 * k))) := by
  apply returns_loop
    (fun _ d' => Polled d d' ∧ ∃ k, d'.moving + k = d.moving ∧ d'.calls = d.calls + 3 * k ∧
      ∀ j < k, b.Swaps (d.calls + 3 * j))
    (fun _ d' => d'.moving)
  · rintro buf' d₁ ⟨same, k, left, calls, before⟩
    refine (pollState_returns b d₁ handle buf').mono ?_
    rintro r d₂ ⟨kept, out⟩
    have all : Polled d d₂ := ⟨kept.inten.trans same.inten, kept.gotos.trans same.gotos⟩
    rw [calls] at out
    cases r with
    | inl buf'' =>
      obtain ⟨fewer, next, swaps⟩ := out
      refine ⟨⟨all, k + 1, by omega, by omega, fun j lt => ?_⟩, by omega⟩
      rcases Nat.lt_succ_iff_lt_or_eq.mp lt with earlier | rfl
      · exact before j earlier
      · exact swaps
    | inr ret =>
      refine ⟨all, ?_⟩
      rcases out with ⟨rfl, still, swaps⟩ | ⟨rfl, fault⟩
      · refine ⟨.inl rfl, iff_of_true rfl fun j le => ?_⟩
        rcases Nat.lt_or_eq_of_le (show j ≤ k by omega) with earlier | rfl
        · exact before j earlier
        · exact swaps
      · exact ⟨.inr rfl, iff_of_false (by decide) fun every => fault (every k (by omega))⟩
  · exact ⟨⟨rfl, rfl⟩, 0, rfl, rfl, fun j lt => absurd lt (Nat.not_lt_zero j)⟩
  · exact Nat.lt_succ_self d.moving

theorem low_high (i : Int) :
    (UInt8.ofInt i).toNat + 256 * (UInt8.ofInt (i >>> (8 : Nat))).toNat = (i % 65536).toNat := by
  have shift : i >>> (8 : Nat) = i / 256 := by simp [Int.shiftRight_eq_div_pow]
  simp only [UInt8.ofInt, shift, UInt8.toNat_ofNat']
  omega

theorem or_shift (lo hi : UInt8) : lo.toNat ||| (hi.toNat <<< 8) = lo.toNat + 256 * hi.toNat := by
  have small : lo.toNat < 2 ^ 8 := lo.toNat_lt
  rw [Nat.or_comm, ← Nat.shiftLeft_add_eq_or_of_lt small, Nat.shiftLeft_eq]
  omega

theorem byte_pair (n : Nat) : (byte n).toNat + 256 * (byte (n / 256)).toNat = n % 65536 := by
  simp only [byte, Nat.toUInt8, UInt8.toNat_ofNat']
  omega

theorem getInten_returns (b : Behaviour) (d : Device) (handle : Handle) :
    (getInten (env b) handle).Returns d (fun ret d' => Polled d d' ∧
      (ret = (d.inten % 65536 : Nat) ∧ b.Swaps d.calls ∧ d'.calls = d.calls + 2 ∨
        ret = usbdCommError ∧ ¬ b.Swaps d.calls)) := by
  refine returns_bind ⟨b.uninit d.calls, d, rfl, returns_bind ?_⟩
  have cmd : (((b.uninit d.calls).store 0 0x0).store 1 cmdGetInten) 1 = cmdGetInten := by simp
  have got := receive_getInten b d cmd
  apply exchange_returns handle (by decide) (by rw [got]; simp)
  · exact fun fault => returns_pure ⟨⟨rfl, rfl⟩, .inr ⟨rfl, fault⟩⟩
  · exact fun fault => returns_pure ⟨by rw [got]; exact ⟨rfl, rfl⟩, .inr ⟨rfl, fault⟩⟩
  · refine fun swaps => returns_pure ⟨by rw [got]; exact ⟨rfl, rfl⟩, .inl ⟨?_, swaps, ?_⟩⟩
    · rw [or_shift, got]
      exact congrArg Nat.cast (byte_pair d.inten)
    · rw [got]
      rfl

/-- An intensity write stops before its SETSTATE reaches the device and changes nothing
that shows, or the device gets there and shows the target, whatever is then returned. -/
structure Written (d : Device) (target : Nat) (ret : Int) (d' : Device) : Prop where
  code : ret = usbdSuccess ∨ ret = usbdCommError
  moved : d'.gotos = d.gotos ∧ d'.inten = d.inten ∨
    d'.gotos = d.gotos + 1 ∧ d'.inten = target
  done : ret = usbdSuccess → d'.gotos = d.gotos + 1

theorem Written.shows {d d' : Device} {target : Nat} {ret : Int} (h : Written d target ret d')
    (ok : ret = usbdSuccess) : d'.inten = target := by
  rcases h.moved with ⟨same, _⟩ | ⟨_, there⟩
  · have := h.done ok; omega
  · exact there

theorem written_none {d d' : Device} (target : Nat) (gotos : d'.gotos = d.gotos)
    (inten : d'.inten = d.inten) : Written d target usbdCommError d' :=
  ⟨.inr rfl, .inl ⟨gotos, inten⟩, fun h => absurd h (by decide)⟩

theorem setInten_returns (b : Behaviour) (d : Device) (handle : Handle) (inten : Int) :
    (setInten (env b) handle inten).Returns d (fun ret d' =>
      Written d (inten % 65536).toNat ret d' ∧ (ret = usbdSuccess ↔ b.Serves d.calls)) := by
  have no (fault : ¬ b.Serves d.calls) : usbdCommError = usbdSuccess ↔ b.Serves d.calls :=
    iff_of_false (by decide) fault
  refine returns_bind ⟨b.uninit d.calls, d, rfl, returns_bind ?_⟩
  generalize hbuf : (((b.uninit d.calls).store 0 0x0).store 1 cmdSetInten).store 2
    (UInt8.ofInt inten) = buf
  have cmd : (buf.store 3 (UInt8.ofInt (inten >>> (8 : Nat)))) 1 = cmdSetInten := by simp [← hbuf]
  have low : (buf.store 3 (UInt8.ofInt (inten >>> (8 : Nat)))) 2 = UInt8.ofInt inten := by simp [← hbuf]
  have got := receive_setInten b d cmd
  apply exchange_returns handle (by decide) (by rw [got]; simp)
  · exact fun fault => returns_pure ⟨written_none _ rfl rfl, no fun serves => fault serves.1⟩
  · exact fun fault =>
      returns_pure ⟨by rw [got]; exact written_none _ rfl rfl, no fun serves => fault serves.1⟩
  · intro first
    rw [got, low, Memory.store_same, low_high]
    refine returns_bind ?_
    generalize htold : tick (tick { d with
      level := (inten % 65536).toNat, answer := [b.filler d.calls, cmdSetInten] }) = told
    have level : told.level = (inten % 65536).toNat := by rw [← htold]; rfl
    have shown : told.inten = d.inten := by rw [← htold]; rfl
    have count : told.gotos = d.gotos := by rw [← htold]; rfl
    have calls : told.calls = d.calls + 2 := by rw [← htold]; rfl
    generalize Memory.fill _ _ = buf₁
    have cmd₁ : (((buf₁.store 0 0x0).store 1 cmdSetState).store 2 3) 1 = cmdSetState := by simp
    have got₁ := receive_setState b told cmd₁ (by simp)
    apply exchange_returns handle (by decide) (by rw [got₁]; simp)
    · intro fault
      rw [calls] at fault
      exact returns_pure ⟨written_none _ count shown, no fun serves => fault serves.2.1⟩
    · intro fault
      rw [calls] at fault
      refine returns_pure ⟨⟨.inr rfl, .inr ?_, fun h => absurd h (by decide)⟩,
        no fun serves => fault serves.2.1⟩
      rw [got₁]
      exact ⟨congrArg Nat.succ count, level⟩
    · intro second
      rw [calls] at second
      refine (pollUntilDone_returns b _ handle _).mono ?_
      rintro ret d' ⟨kept, code, polls⟩
      have gotos : d'.gotos = d.gotos + 1 := by
        rw [kept.gotos, got₁]; exact congrArg Nat.succ count
      have inten : d'.inten = told.level := by rw [kept.inten, got₁]; rfl
      refine ⟨⟨code, .inr ⟨gotos, inten.trans level⟩, fun _ => gotos⟩, ?_⟩
      rw [got₁] at polls
      simp only [tick_calls, calls] at polls
      rw [polls]
      exact ⟨fun rest => ⟨first, second, rest⟩, fun serves => serves.2.2⟩

theorem disconnect_returns (b : Behaviour) (d : USBDimmer) (dev : Device) :
    (d.disconnect (Device.env b)).Returns dev (fun _ dev' => dev'.inten = dev.inten) := by
  unfold USBDimmer.disconnect
  cases d.mHandle with
  | none => exact returns_pure rfl
  | some handle => exact returns_bind ⟨(), dev.tick, rfl, returns_pure rfl⟩

end Device
end FlatPanel
