import BekenSdk.Base.OneToClear
import BekenSdk.I2c2.Driver

/-! What an interrupt does to the data of a call: whether it moves bytes, and whether it completes the transfer. -/

set_option autoImplicit false

namespace BekenSdk.I2c2

open BekenSdk.Base

/-- A master is not answered where it asks for an acknowledgement. -/
def refused (s : State) (stat ackWord : Word) : Prop :=
  stat &&& smbusSta ≠ 0 ∧ s.msg.ackCheck ≠ 0 ∧ ackWord &&& smbusAck = 0

/-- The address bytes are through. -/
def addressed (s : State) : Prop := s.msg.addrFlag &&& 0x10 ≠ 0

/-- A slave that writes is acknowledged, or its address is matched. -/
def answered (stat : Word) : Prop := matchAddr stat &&& smbusAck ≠ 0 ∧ matchAddr stat &&& txMode ≠ 0

instance (s : State) (stat ackWord : Word) : Decidable (refused s stat ackWord) := inferInstanceAs (Decidable (_ ∧ _ ∧ _))

instance (s : State) : Decidable (addressed s) := inferInstanceAs (Decidable (_ ≠ _))

instance (stat : Word) : Decidable (answered stat) := inferInstanceAs (Decidable (_ ∧ _))

/-- The number of bytes that an interrupt with a status word moves. -/
def moved (s : State) (stat again : Word) : WorkMode → Nat
  | .masterWrite =>
    if ¬refused s stat again ∧ addressed s ∧ s.transfer.remainDataCnt ≠ 0 ∧ stat &&& smbusAck ≠ 0 then 1 else 0
  | .masterRead => if ¬refused s stat stat ∧ addressed s ∧ stat &&& smbusSta = 0 then dataNum stat else 0
  | .slaveWrite => if stat &&& smbusStop = 0 ∧ answered stat then 1 else 0
  | .slaveRead => if stat &&& smbusStop = 0 ∧ stat &&& addrMatch = 0 then dataNum stat else 0

/-- The 16-bit rest of the transfer comes to zero when some bytes are moved. -/
def lastBytes (s : State) (n : Nat) : Prop := n ≠ 0 ∧ s.transfer.remainDataCnt - UInt16.ofNat n = 0

/-- A transfer is ended without bytes that are moved: a master that writes is refused or has nothing left to write, a slave
meets a stop. -/
def stopped (s : State) (stat again : Word) : WorkMode → Prop
  | .masterWrite => refused s stat again ∨ (addressed s ∧ s.transfer.remainDataCnt = 0)
  | .masterRead => False
  | .slaveWrite => stat &&& smbusStop ≠ 0
  | .slaveRead => stat &&& smbusStop ≠ 0

/-- An interrupt ends the transfer. -/
def ends (s : State) (stat again : Word) (mode : WorkMode) : Prop :=
  stopped s stat again mode ∨ lastBytes s (moved s stat again mode)

instance (s : State) (n : Nat) : Decidable (lastBytes s n) := inferInstanceAs (Decidable (_ ∧ _))

instance (s : State) (stat again : Word) : (mode : WorkMode) → Decidable (stopped s stat again mode)
  | .masterWrite => inferInstanceAs (Decidable (_ ∨ _))
  | .masterRead => inferInstanceAs (Decidable False)
  | .slaveWrite => inferInstanceAs (Decidable (_ ≠ _))
  | .slaveRead => inferInstanceAs (Decidable (_ ≠ _))

instance (s : State) (stat again : Word) (mode : WorkMode) : Decidable (ends s stat again mode) :=
  inferInstanceAs (Decidable (_ ∨ _))

/-! ## The interrupt mode -/

theorem dataNum_congr {a b : Word} (same : a &&& intModeMask = b &&& intModeMask) : dataNum a = dataNum b := by
  rw [dataNum, dataNum, same]

theorem mode_or {a b : Word} (apart : b &&& intModeMask = 0) : (a ||| b) &&& intModeMask = a &&& intModeMask := by
  rw [BitVec.and_or_distrib_right, apart]
  exact BitVec.or_zero

theorem mode_and {a b : Word} (inside : b &&& intModeMask = intModeMask) :
    (a &&& b) &&& intModeMask = a &&& intModeMask := by
  rw [BitVec.and_assoc, inside]

theorem intModeMask_getLsbD {k : Nat} (inside : k < 32) : intModeMask.getLsbD k = decide (6 ≤ k ∧ k < 8) :=
  @OneToClear.getLsbD_field 32 k 6 2 inside

/-- The four interrupt modes. -/
theorem mode_cases (stat : Word) : stat &&& intModeMask = 0x00#32 ∨ stat &&& intModeMask = 0x40#32 ∨
    stat &&& intModeMask = 0x80#32 ∨ stat &&& intModeMask = 0xC0#32 := by
  have bits : stat &&& intModeMask =
      (if stat.getLsbD 6 then 1#32 <<< 6 else 0#32) ||| (if stat.getLsbD 7 then 1#32 <<< 7 else 0#32) := by
    apply BitVec.eq_of_getLsbD_eq
    intro k inside
    rw [BitVec.getLsbD_and, intModeMask_getLsbD inside, BitVec.getLsbD_or, apply_ite (BitVec.getLsbD · k),
      apply_ite (BitVec.getLsbD · k), OneToClear.getLsbD_bit inside, OneToClear.getLsbD_bit inside, BitVec.getLsbD_zero]
    by_cases six : k = 6
    · subst six
      cases stat.getLsbD 6 <;> simp
    · by_cases seven : k = 7
      · subst seven
        cases stat.getLsbD 7 <;> simp
      · have outside : ¬(6 ≤ k ∧ k < 8) := by omega
        rw [decide_eq_false outside, decide_eq_false six, decide_eq_false seven]
        simp
  rw [bits]
  cases stat.getLsbD 6 <;> cases stat.getLsbD 7 <;> decide

theorem dataNum_pos (stat : Word) : 0 < dataNum stat := by
  unfold dataNum
  rcases mode_cases stat with same | same | same | same <;> rw [same] <;> decide

theorem dataNum_le (stat : Word) : dataNum stat ≤ 12 := by
  unfold dataNum
  rcases mode_cases stat with same | same | same | same <;> rw [same] <;> decide

/-! ## What an interrupt leaves of the data -/

/-- The bytes that an interrupt moves, one way or the other. -/
def moveBytes (mode : WorkMode) (data : Nat → UInt8) (n : Nat) (t : Transfer) : Transfer :=
  match mode with
  | .masterRead => t.storeBurst data n
  | .slaveRead => t.storeBurst data n
  | .masterWrite => if n = 0 then t else t.fetched
  | .slaveWrite => if n = 0 then t else t.fetched

/-- Some bytes are moved, and the transfer is completed if it has ended. -/
structure Effect (sema : Bool) (mode : WorkMode) (data : Nat → UInt8) (n : Nat) (ended : Prop) (t after : Transfer) :
    Prop where
  completed : ended → after = (moveBytes mode data n t).complete sema
  going : ¬ended → after = moveBytes mode data n t

theorem moveBytes_zero {mode : WorkMode} {data : Nat → UInt8} {t : Transfer} : moveBytes mode data 0 t = t := by
  cases mode <;> rfl

namespace Effect
variable {s : State} {stat again : Word} {mode : WorkMode} {data : Nat → UInt8} {after : Transfer}

/-- An interrupt that moves nothing, and ends the transfer or does not. -/
theorem of_none (idle : moved s stat again mode = 0) (halted : stopped s stat again mode → after = s.transfer.complete s.sema)
    (going : ¬stopped s stat again mode → after = s.transfer) :
    Effect s.sema mode data (moved s stat again mode) (ends s stat again mode) s.transfer after := by
  have exactly : ends s stat again mode ↔ stopped s stat again mode :=
    or_iff_left fun last => last.1 idle
  rw [exactly, idle]
  constructor
  · rw [moveBytes_zero]
    exact halted
  · rw [moveBytes_zero]
    exact going

/-- An interrupt that moves bytes, the last ones or not. -/
theorem of_bytes {n : Nat} (bytes : moved s stat again mode = n) (some' : n ≠ 0) (free : ¬stopped s stat again mode)
    (last : s.transfer.remainDataCnt - UInt16.ofNat n = 0 → after = (moveBytes mode data n s.transfer).complete s.sema)
    (going : s.transfer.remainDataCnt - UInt16.ofNat n ≠ 0 → after = moveBytes mode data n s.transfer) :
    Effect s.sema mode data (moved s stat again mode) (ends s stat again mode) s.transfer after := by
  have exactly : ends s stat again mode ↔ s.transfer.remainDataCnt - UInt16.ofNat n = 0 := by
    rw [ends, bytes]
    exact (or_iff_right free).trans (and_iff_right some')
  rw [exactly, bytes]
  exact ⟨last, going⟩

end Effect

/-- The address phase is none for the data of a call or its work mode. -/
structure Framed (s after : State) : Prop where
  transfer : after.transfer = s.transfer
  wkMode : after.msg.wkMode = s.msg.wkMode

theorem writeAddress_framed (s : State) : Framed s (writeAddress s) := by
  unfold writeAddress
  dsimp only
  split
  · split
    · split
      · split
        · exact ⟨rfl, rfl⟩
        · split <;> exact ⟨rfl, rfl⟩
      · exact ⟨rfl, rfl⟩
    · split
      · exact ⟨rfl, rfl⟩
      · split <;> exact ⟨rfl, rfl⟩
  · split
    · split <;> exact ⟨rfl, rfl⟩
    · exact ⟨rfl, rfl⟩

theorem readAddress_framed (s : State) (stat : Word) : Framed s (readAddress s stat).1 := by
  unfold readAddress
  dsimp only
  split
  · split
    · split
      · split
        · exact ⟨rfl, rfl⟩
        · split <;> exact ⟨rfl, rfl⟩
      · split <;> exact ⟨rfl, rfl⟩
    · split
      · exact ⟨rfl, rfl⟩
      · split
        · exact ⟨rfl, rfl⟩
        · split <;> exact ⟨rfl, rfl⟩
  · split
    · split <;> exact ⟨rfl, rfl⟩
    · exact ⟨rfl, rfl⟩

section
variable {s : State} {stat again : Word} {data : Nat → UInt8}

theorem slaveRead_effect : Effect s.sema .slaveRead data (moved s stat again .slaveRead) (ends s stat again .slaveRead)
    s.transfer (slaveRead s stat data).1.transfer := by
  have some' := Nat.ne_of_gt (dataNum_pos stat)
  unfold slaveRead
  dsimp only
  split
  next stop =>
    have idle : moved s stat again .slaveRead = 0 := if_neg fun both => stop both.1
    exact .of_none idle (fun _ => rfl) fun no => absurd stop no
  next noStop =>
    split
    next matched =>
      have idle : moved s stat again .slaveRead = 0 := if_neg fun both => matched both.2
      exact .of_none idle (fun stop => absurd stop noStop) fun _ => rfl
    next other =>
      have bytes : moved s stat again .slaveRead = dataNum stat := if_pos ⟨not_ne_iff.mp noStop, not_ne_iff.mp other⟩
      refine .of_bytes bytes some' noStop (fun last => ?_) fun more => ?_
      · rw [if_pos last]
        rfl
      · rw [if_neg more]
        split <;> rfl

theorem slaveWrite_effect : Effect s.sema .slaveWrite data (moved s stat again .slaveWrite) (ends s stat again .slaveWrite)
    s.transfer (slaveWrite s stat).1.transfer := by
  unfold slaveWrite
  dsimp only
  split
  next stop =>
    have idle : moved s stat again .slaveWrite = 0 := if_neg fun both => stop both.1
    exact .of_none idle (fun _ => rfl) fun no => absurd stop no
  next noStop =>
    split
    next receiving =>
      have idle : moved s stat again .slaveWrite = 0 := if_neg fun both => both.2.2 receiving
      exact .of_none idle (fun stop => absurd stop noStop) fun _ => rfl
    next sending =>
      split
      next acked =>
        have bytes : moved s stat again .slaveWrite = 1 := if_pos ⟨not_ne_iff.mp noStop, acked, sending⟩
        refine .of_bytes bytes Nat.one_ne_zero noStop (fun last => ?_) fun more => ?_
        · have zero : s.transfer.remainDataCnt - 1 = 0 := last
          rw [if_pos zero]
          rfl
        · have left : ¬s.transfer.remainDataCnt - 1 = 0 := more
          rw [if_neg left]
          rfl
      next quiet =>
        have idle : moved s stat again .slaveWrite = 0 := if_neg fun both => quiet both.2.1
        exact .of_none idle (fun stop => absurd stop noStop) fun _ => rfl

theorem clearedSta_ack (stat : Word) : stat &&& ~~~smbusSta &&& smbusAck = stat &&& smbusAck := by
  rw [BitVec.and_assoc]
  rfl

theorem masterWrite_effect : Effect s.sema .masterWrite data (moved s stat again .masterWrite)
    (ends s stat again .masterWrite) s.transfer (masterWrite s stat again).1.transfer := by
  unfold masterWrite
  dsimp only
  rw [clearedSta_ack]
  split
  next nack =>
    have idle : moved s stat again .masterWrite = 0 := if_neg fun both => both.1 nack
    exact .of_none idle (fun _ => rfl) fun no => absurd (.inl nack) no
  next answer =>
    split
    next through =>
      split
      next done =>
        have idle : moved s stat again .masterWrite = 0 := if_neg fun both => both.2.2.1 done
        exact .of_none idle (fun _ => rfl) fun no => absurd (.inr ⟨through, done⟩) no
      next rest =>
        have free : ¬stopped s stat again .masterWrite := fun halt => halt.elim answer fun none => rest none.2
        split
        next acked =>
          have bytes : moved s stat again .masterWrite = 1 := if_pos ⟨answer, through, rest, acked⟩
          refine .of_bytes bytes Nat.one_ne_zero free (fun last => ?_) fun more => ?_
          · have zero : (s.setErrorNO 0).transfer.remainDataCnt - 1 = 0 := last
            rw [if_pos zero]
            rfl
          · have left : ¬(s.setErrorNO 0).transfer.remainDataCnt - 1 = 0 := more
            rw [if_neg left]
            rfl
        next quiet =>
          have idle : moved s stat again .masterWrite = 0 := if_neg fun both => quiet both.2.2.2
          exact .of_none idle (fun halt => absurd halt free) fun _ => rfl
    next addressing =>
      have idle : moved s stat again .masterWrite = 0 := if_neg fun both => addressing both.2.1
      refine .of_none idle (fun halt => ?_) fun _ => (writeAddress_framed _).transfer
      exact halt.elim (fun nack => absurd nack answer) fun none => absurd none.1 addressing

theorem masterRead_effect : Effect s.sema .masterRead data (moved s stat again .masterRead) (ends s stat again .masterRead)
    s.transfer (masterRead s stat data).1.transfer := by
  have free : ¬stopped s stat again .masterRead := id
  have num : dataNum (stat &&& ~~~smbusSta) = dataNum stat := dataNum_congr (mode_and rfl)
  unfold masterRead
  dsimp only
  rw [num]
  split
  next nack =>
    have idle : moved s stat again .masterRead = 0 := if_neg fun both => both.1 nack
    exact .of_none idle (fun halt => halt.elim) fun _ => rfl
  next answer =>
    split
    next through =>
      split
      next starting =>
        have idle : moved s stat again .masterRead = 0 := if_neg fun both => starting both.2.2
        exact .of_none idle (fun halt => halt.elim) fun _ => rfl
      next under =>
        have bytes : moved s stat again .masterRead = dataNum stat := if_pos ⟨answer, through, not_ne_iff.mp under⟩
        refine .of_bytes bytes (Nat.ne_of_gt (dataNum_pos stat)) free (fun last => ?_) fun more => ?_
        · have zero : (s.setErrorNO 0).transfer.remainDataCnt - UInt16.ofNat (dataNum stat) = 0 := last
          rw [if_pos zero]
          rfl
        · have left : ¬(s.setErrorNO 0).transfer.remainDataCnt - UInt16.ofNat (dataNum stat) = 0 := more
          rw [if_neg left]
          split <;> rfl
    next addressing =>
      have idle : moved s stat again .masterRead = 0 := if_neg fun both => addressing both.2.1
      exact .of_none idle (fun halt => halt.elim) fun _ => (readAddress_framed _ _).transfer

/-! ## The interrupt mode that a reader leaves -/

theorem dataNum_or (stat : Word) {flag : Word} (apart : flag &&& intModeMask = 0) :
    dataNum (stat ||| flag) = dataNum stat :=
  dataNum_congr (mode_or apart)

theorem dataNum_and (stat : Word) {mask : Word} (inside : mask &&& intModeMask = intModeMask) :
    dataNum (stat &&& mask) = dataNum stat :=
  dataNum_congr (mode_and inside)

/-- All interrupt mode bits stand for one byte. -/
theorem dataNum_full (stat : Word) {flag : Word} (full : flag &&& intModeMask = intModeMask) :
    dataNum (stat ||| flag) = 1 := by
  have mode : (stat ||| flag) &&& intModeMask = intModeMask &&& intModeMask := by
    rw [BitVec.and_or_distrib_right, full, BitVec.and_self]
    apply BitVec.eq_of_getLsbD_eq
    intro k _
    rw [BitVec.getLsbD_or, BitVec.getLsbD_and]
    cases stat.getLsbD k <;> simp
  rw [dataNum_congr mode]
  rfl

/-- The bytes of the next interrupt: one when less than a burst is left. -/
def nextNum (s : State) (stat : Word) (n : Nat) : Nat :=
  if n ≠ 0 ∧ s.transfer.remainDataCnt - UInt16.ofNat n ≠ 0 ∧ (s.transfer.remainDataCnt - UInt16.ofNat n).toNat < n then 1
  else dataNum stat

theorem nextNum_zero : nextNum s stat 0 = dataNum stat := if_neg fun both => both.1 rfl

theorem readAddress_dataNum : dataNum (readAddress s stat).2 = dataNum stat := by
  have started := dataNum_or stat (show smbusSta &&& intModeMask = 0 from rfl)
  unfold readAddress
  dsimp only
  split
  · split
    · split
      · split
        · rfl
        · split <;> rfl
      · split
        · exact started
        · rfl
    · split
      · rfl
      · split
        · rfl
        · split
          · exact started
          · rfl
  · split
    · split
      · rfl
      · exact started
    · rfl

/-- The three ways out of a burst. -/
theorem burst_dataNum {lower again' shrunk : Word} (some' : dataNum stat ≠ 0) (final : dataNum lower = dataNum stat)
    (small : dataNum shrunk = 1) (more : dataNum again' = dataNum stat) {result : State × Word} {after completed : State}
    (eq : result = if s.transfer.remainDataCnt - UInt16.ofNat (dataNum stat) = 0 then (completed, lower)
      else if (s.transfer.remainDataCnt - UInt16.ofNat (dataNum stat)).toNat < dataNum stat then (after, shrunk)
      else (after, again')) : dataNum result.2 = nextNum s stat (dataNum stat) := by
  subst eq
  split
  next last => exact final.trans (if_neg fun both => both.2.1 last).symm
  next left =>
    split
    next less => exact small.trans (if_pos ⟨some', left, less⟩).symm
    next enough => exact more.trans (if_neg fun both => enough both.2.2).symm

theorem slaveRead_dataNum :
    dataNum (slaveRead s stat data).2 = nextNum s stat (moved s stat again .slaveRead) := by
  unfold slaveRead
  dsimp only
  split
  next stop =>
    have idle : moved s stat again .slaveRead = 0 := if_neg fun both => stop both.1
    rw [idle, nextNum_zero]
  next noStop =>
    split
    next matched =>
      have idle : moved s stat again .slaveRead = 0 := if_neg fun both => matched both.2
      rw [idle, nextNum_zero]
      exact dataNum_or _ rfl
    next other =>
      have bytes : moved s stat again .slaveRead = dataNum stat := if_pos ⟨not_ne_iff.mp noStop, not_ne_iff.mp other⟩
      rw [bytes]
      exact burst_dataNum (Nat.ne_of_gt (dataNum_pos stat)) (dataNum_and _ rfl) (dataNum_full _ rfl) (dataNum_or _ rfl) rfl

theorem masterRead_dataNum :
    dataNum (masterRead s stat data).2 = nextNum s stat (moved s stat again .masterRead) := by
  have num : dataNum (stat &&& ~~~smbusSta) = dataNum stat := dataNum_and stat rfl
  unfold masterRead
  dsimp only
  rw [num]
  split
  next nack =>
    have idle : moved s stat again .masterRead = 0 := if_neg fun both => both.1 nack
    rw [idle, nextNum_zero]
    exact (dataNum_or _ rfl).trans num
  next answer =>
    split
    next through =>
      split
      next starting =>
        have idle : moved s stat again .masterRead = 0 := if_neg fun both => starting both.2.2
        rw [idle, nextNum_zero]
        exact (dataNum_or _ rfl).trans num
      next under =>
        have bytes : moved s stat again .masterRead = dataNum stat := if_pos ⟨answer, through, not_ne_iff.mp under⟩
        rw [bytes]
        refine burst_dataNum (Nat.ne_of_gt (dataNum_pos stat)) ?_ (dataNum_full _ rfl) ((dataNum_or _ rfl).trans num) rfl
        exact (dataNum_or _ rfl).trans ((dataNum_and _ rfl).trans num)
    next addressing =>
      have idle : moved s stat again .masterRead = 0 := if_neg fun both => addressing both.2.1
      rw [idle, nextNum_zero]
      exact readAddress_dataNum.trans num

/-! ## The work mode stays -/

theorem masterWrite_wkMode : (masterWrite s stat again).1.msg.wkMode = s.msg.wkMode := by
  unfold masterWrite
  dsimp only
  split
  · rfl
  · split
    · split
      · rfl
      · split
        · split <;> rfl
        · rfl
    · exact (writeAddress_framed _).wkMode

theorem masterRead_wkMode : (masterRead s stat data).1.msg.wkMode = s.msg.wkMode := by
  unfold masterRead
  dsimp only
  split
  · rfl
  · split
    · split
      · rfl
      · split
        · rfl
        · split <;> rfl
    · exact (readAddress_framed _ _).wkMode

theorem slaveWrite_wkMode : (slaveWrite s stat).1.msg.wkMode = s.msg.wkMode := by
  unfold slaveWrite
  dsimp only
  split
  · rfl
  · split
    · rfl
    · split
      · split <;> rfl
      · rfl

theorem slaveRead_wkMode : (slaveRead s stat data).1.msg.wkMode = s.msg.wkMode := by
  unfold slaveRead
  dsimp only
  split
  · rfl
  · split
    · rfl
    · split
      · rfl
      · split <;> rfl

end

/-! ## The interrupt -/

/-- The status word that an interrupt reads first. -/
def State.first (s : State) (e : Interrupt) : Word := s.present e.status

/-- What an interrupt does in the work mode of the call. -/
structure Served (s : State) (e : Interrupt) (after : State) : Prop where
  wkMode : after.msg.wkMode = s.msg.wkMode
  effect : Effect s.sema (workMode s.msg.wkMode) e.data (moved s (s.first e) (s.present e.again) (workMode s.msg.wkMode))
    (ends s (s.first e) (s.present e.again) (workMode s.msg.wkMode)) s.transfer after.transfer
  num : workMode s.msg.wkMode = .masterRead ∨ workMode s.msg.wkMode = .slaveRead → dataNum after.sta =
    nextNum s (s.first e) (moved s (s.first e) (s.present e.again) (workMode s.msg.wkMode))

theorem present_dataNum (s : State) (word : Word) : dataNum (s.present word) = dataNum s.sta := by
  apply dataNum_congr
  rw [State.present, BitVec.and_or_distrib_right, BitVec.and_assoc, BitVec.and_assoc, BitVec.and_self]
  have none : word &&& (~~~intModeMask &&& intModeMask) = 0#32 := by
    rw [show ~~~intModeMask &&& intModeMask = 0#32 from rfl]
    exact BitVec.and_zero
  rw [none]
  exact BitVec.zero_or

/-- Without the interrupt bit nothing is done for the call. -/
theorem i2c2Isr_spurious {s : State} {e : Interrupt} (spurious : s.first e &&& smbusSi = 0) :
    (i2c2Isr e s).msg.wkMode = s.msg.wkMode ∧ (i2c2Isr e s).transfer = s.transfer ∧
      dataNum (i2c2Isr e s).sta = dataNum s.sta := by
  have kept : dataNum (s.first e ||| arbLost) = dataNum s.sta := (dataNum_or _ rfl).trans (present_dataNum s e.status)
  unfold i2c2Isr
  dsimp only
  rw [show s.present e.status = s.first e from rfl, if_pos spurious]
  split
  · split <;> exact ⟨rfl, rfl, kept⟩
  · split <;> exact ⟨rfl, rfl, rfl⟩

/-- The state and the status word that the work mode comes to. -/
def workModeTurn (s : State) (e : Interrupt) : WorkMode → State × Word
  | .masterWrite => masterWrite s (s.first e) (s.present e.again)
  | .masterRead => masterRead s (s.first e) e.data
  | .slaveWrite => slaveWrite s (s.first e)
  | .slaveRead => slaveRead s (s.first e) e.data

theorem i2c2Isr_eq {s : State} {e : Interrupt} (interrupt : s.first e &&& smbusSi ≠ 0) :
    i2c2Isr e s =
      { (workModeTurn { s with config := s.config &&& ~~~smbCsMask } e (workMode s.msg.wkMode)).1 with
        config := s.config
        sta := (workModeTurn { s with config := s.config &&& ~~~smbCsMask } e (workMode s.msg.wkMode)).2 &&& ~~~smbusSi } := by
  unfold i2c2Isr
  dsimp only
  rw [show s.present e.status = s.first e from rfl, if_neg interrupt]
  cases workMode s.msg.wkMode <;> rfl

theorem workModeTurn_effect (s : State) (e : Interrupt) (mode : WorkMode) :
    Effect s.sema mode e.data (moved s (s.first e) (s.present e.again) mode) (ends s (s.first e) (s.present e.again) mode)
      s.transfer (workModeTurn s e mode).1.transfer := by
  cases mode
  case masterWrite => exact masterWrite_effect
  case masterRead => exact masterRead_effect
  case slaveWrite => exact slaveWrite_effect
  case slaveRead => exact slaveRead_effect

theorem workModeTurn_wkMode (s : State) (e : Interrupt) (mode : WorkMode) :
    (workModeTurn s e mode).1.msg.wkMode = s.msg.wkMode := by
  cases mode
  case masterWrite => exact masterWrite_wkMode
  case masterRead => exact masterRead_wkMode
  case slaveWrite => exact slaveWrite_wkMode
  case slaveRead => exact slaveRead_wkMode

theorem workModeTurn_dataNum (s : State) (e : Interrupt) {mode : WorkMode} (reading : mode = .masterRead ∨ mode = .slaveRead) :
    dataNum (workModeTurn s e mode).2 = nextNum s (s.first e) (moved s (s.first e) (s.present e.again) mode) := by
  obtain rfl | rfl := reading
  · exact masterRead_dataNum
  · exact slaveRead_dataNum

theorem i2c2Isr_served {s : State} {e : Interrupt} (interrupt : s.first e &&& smbusSi ≠ 0) : Served s e (i2c2Isr e s) := by
  rw [i2c2Isr_eq interrupt]
  exact ⟨workModeTurn_wkMode _ e _, workModeTurn_effect { s with config := s.config &&& ~~~smbCsMask } e _,
    fun reading => (dataNum_and _ rfl).trans
      (workModeTurn_dataNum { s with config := s.config &&& ~~~smbCsMask } e reading)⟩

end BekenSdk.I2c2
