import BekenSdk.FlashBypass.Read

/-! The answer in `rx_buf` and the stream that the SPI block received. Four loops take bytes, and in each the two
counters tell how many were taken: the first ones are the echo of the command, and the others are stored in order.
-/

set_option autoImplicit false

namespace BekenSdk.FlashBypass
open Base

/-- What was taken from the FIFO is accounted for by the two counters, until both are full. -/
structure Aligned (txLen rxLen : Nat) (start : Cells) (regs : Regs) (s : State) : Prop where
  regs : s.regs = regs
  taken : ∃ taken, s.received = taken ++ s.rxFifo ∧ (s.useLess < txLen → taken.length = s.useLess) ∧
    (s.useLess = txLen → s.k < rxLen → taken.length = txLen + s.k) ∧
    ∀ j, j < s.k → taken[txLen + j]? = some (s.rxBuf j)
  skipped : s.useLess ≤ txLen ∧ (s.useLess < txLen → s.k = 0)
  stored : s.k ≤ rxLen
  outside : ∀ j, rxLen ≤ j → s.rxBuf j = start j

section
variable {spi : Nat → Sample} {txLen rxLen len fuel i wait : Nat} {start : Cells} {regs : Regs} {s t : State}
  {byte : Nat → UInt8} {ready : Bool}

theorem Aligned.readStat (aligned : Aligned txLen rxLen start regs s) :
    Aligned txLen rxLen start regs (readStat spi s).2 ∧
      ((readStat spi s).1.rxReady = true → (readStat spi s).2.rxFifo ≠ []) := by
  obtain ⟨same, ⟨taken, stream, echo, answer, held⟩, skipped, stored, outside⟩ := aligned
  refine ⟨⟨same, ⟨taken, ?_, echo, answer, held⟩, skipped, stored, outside⟩, fun there => ?_⟩
  · exact (congrArg (· ++ _) stream).trans (List.append_assoc _ _ _)
  · rintro none
    have empty : (s.rxFifo ++ (spi s.time).arriving.take (s.sent.length - s.received.length)).isEmpty = true :=
      List.isEmpty_iff.mpr none
    have shown : (!(s.rxFifo ++ (spi s.time).arriving.take (s.sent.length - s.received.length)).isEmpty) = true := there
    rw [empty] at shown
    cases shown

theorem Aligned.writeDat (aligned : Aligned txLen rxLen start regs s) {b : UInt8} :
    Aligned txLen rxLen start regs (writeDat b s) :=
  ⟨aligned.regs, aligned.taken, aligned.skipped, aligned.stored, aligned.outside⟩

/-- One byte leaves the FIFO, is counted, and is stored when it is of the answer. -/
theorem Aligned.takeWanted (aligned : Aligned txLen rxLen start regs s) (there : s.rxFifo ≠ []) :
    Aligned txLen rxLen start regs (takeWanted txLen rxLen s) := by
  obtain ⟨b, rest, fifo⟩ := List.exists_cons_of_ne_nil there
  obtain ⟨same, ⟨taken, stream, echo, answer, held⟩, skipped, stored, outside⟩ := aligned
  have next : s.received = (taken ++ [b]) ++ rest := by rw [stream, fifo, List.append_assoc]; rfl
  have kept : ∀ j, j < s.k → (taken ++ [b])[txLen + j]? = some (s.rxBuf j) := fun j below => by
    have found := held j below
    rw [List.getElem?_append_left (List.getElem?_eq_some_iff.mp found).1, found]
  unfold FlashBypass.takeWanted readDat
  split
  next more =>
    have count := echo more
    refine ⟨same, ⟨taken ++ [b], ?_, ?_, ?_, kept⟩, ⟨more, fun _ => skipped.2 more⟩, stored, outside⟩
    · show s.received = _ ++ s.rxFifo.tail
      rw [fifo]
      exact next
    · intro _
      rw [List.length_append, count]
      rfl
    · intro full _
      have none := skipped.2 more
      have last : s.useLess + 1 = txLen := full
      show _ = txLen + s.k
      rw [List.length_append, count, List.length_singleton, none]
      omega
  next whole =>
    have full : s.useLess = txLen := Nat.le_antisymm skipped.1 (Nat.not_lt.mp whole)
    split
    next room =>
      have count := answer full room
      refine ⟨same, ⟨taken ++ [b], ?_, fun more => absurd more whole, fun _ _ => ?_, fun j below => ?_⟩,
        ⟨skipped.1, fun more => absurd more whole⟩, room, fun j beyond => ?_⟩
      · show s.received = _ ++ s.rxFifo.tail
        rw [fifo]
        exact next
      · show _ = txLen + (s.k + 1)
        rw [List.length_append, count]
        rfl
      · show _ = some (Function.update s.rxBuf s.k (s.rxFifo.headD 0) j)
        by_cases last : j = s.k
        · rw [last, Function.update_self, fifo, ← count, List.getElem?_append_right (Nat.le_refl _), Nat.sub_self]
          rfl
        · rw [Function.update_of_ne last]
          exact kept j (Nat.lt_of_le_of_ne (Nat.le_of_lt_succ below) last)
      · show Function.update s.rxBuf s.k _ j = start j
        rw [Function.update_of_ne (by omega)]
        exact outside j beyond
    next enough =>
      exact ⟨same, ⟨taken, stream, echo, answer, held⟩, skipped, stored, outside⟩

/-- In the sending loops a byte that nobody wants is dropped. -/
theorem Aligned.takeByte (aligned : Aligned txLen rxLen start regs s) (there : s.rxFifo ≠ []) :
    Aligned txLen rxLen start regs (takeByte txLen rxLen s) := by
  by_cases wanted : s.useLess < txLen ∨ s.k < rxLen
  · have same : FlashBypass.takeByte txLen rxLen s = FlashBypass.takeWanted txLen rxLen s := by
      unfold FlashBypass.takeByte FlashBypass.takeWanted
      split
      · rfl
      next whole => rw [if_pos (wanted.resolve_left whole), if_pos (wanted.resolve_left whole)]
    rw [same]
    exact aligned.takeWanted there
  · obtain ⟨b, rest, fifo⟩ := List.exists_cons_of_ne_nil there
    obtain ⟨same, ⟨taken, stream, echo, answer, held⟩, skipped, stored, outside⟩ := aligned
    unfold FlashBypass.takeByte readDat
    rw [if_neg fun more => wanted (Or.inl more), if_neg fun more => wanted (Or.inr more)]
    refine ⟨same, ⟨taken ++ [b], ?_, fun more => absurd (Or.inl more) wanted, fun _ more => absurd (Or.inr more) wanted,
      fun j below => ?_⟩, skipped, stored, outside⟩
    · show s.received = _ ++ s.rxFifo.tail
      rw [stream, fifo, List.append_assoc]
      rfl
    · have found := held j below
      rw [List.getElem?_append_left (List.getElem?_eq_some_iff.mp found).1, found]

/-! ## The loops -/

theorem Aligned.sendLoop (aligned : Aligned txLen rxLen start regs s)
    (ended : sendLoop spi txLen rxLen len byte fuel i wait s = some (ready, t)) : Aligned txLen rxLen start regs t := by
  induction fuel generalizing i wait s with
  | zero => cases ended
  | succ fuel ih =>
    rw [FlashBypass.sendLoop] at ended
    split at ended
    next more =>
      have first := (@Aligned.readStat spi _ _ _ _ _ aligned).1
      dsimp only at ended
      split at ended
      · obtain ⟨_, rfl⟩ := Prod.mk.inj (Option.some.inj ended)
        exact first
      · refine ih ?_ ended
        have sending : Aligned txLen rxLen start regs
            (if (FlashBypass.readStat spi s).1.txReady then FlashBypass.writeDat (byte i) (FlashBypass.readStat spi s).2
              else (FlashBypass.readStat spi s).2) := by
          split
          · exact first.writeDat
          · exact first
        revert sending
        generalize (if (FlashBypass.readStat spi s).1.txReady then
          FlashBypass.writeDat (byte i) (FlashBypass.readStat spi s).2 else (FlashBypass.readStat spi s).2) = sent
        intro sending
        obtain ⟨second, there⟩ := @Aligned.readStat spi _ _ _ _ _ sending
        split
        next some_byte => exact second.takeByte (there some_byte)
        · exact second
    · obtain ⟨_, rfl⟩ := Prod.mk.inj (Option.some.inj ended)
      exact aligned

theorem Aligned.finishLoop (aligned : Aligned txLen rxLen start regs s)
    (ended : finishLoop spi txLen rxLen fuel s = some t) : Aligned txLen rxLen start regs t := by
  induction fuel generalizing s with
  | zero => cases ended
  | succ fuel ih =>
    rw [FlashBypass.finishLoop] at ended
    obtain ⟨next, there⟩ := @Aligned.readStat spi _ _ _ _ _ aligned
    dsimp only at ended
    split at ended
    · obtain rfl := Option.some.inj ended
      exact next
    · refine ih ?_ ended
      split
      next some_byte => exact next.takeWanted (there some_byte)
      · exact next

theorem Aligned.restLoop (aligned : Aligned txLen rxLen start regs s)
    (ended : restLoop spi txLen rxLen fuel wait s = some t) : Aligned txLen rxLen start regs t := by
  induction fuel generalizing s wait with
  | zero => cases ended
  | succ fuel ih =>
    rw [FlashBypass.restLoop] at ended
    split at ended
    · obtain ⟨next, there⟩ := @Aligned.readStat spi _ _ _ _ _ aligned
      dsimp only at ended
      split at ended
      next some_byte => exact ih (next.takeWanted (there some_byte)) ended
      · split at ended
        · obtain rfl := Option.some.inj ended
          exact next
        · exact ih next ended
    · obtain rfl := Option.some.inj ended
      exact aligned

/-- What clearing the FIFO leaves. -/
theorem clearFifo_kept (cleared : clearFifo spi fuel s = some t) :
    t.regs = s.regs ∧ t.rxBuf = s.rxBuf ∧ t.k = s.k ∧ t.rxFifo = [] ∧ ∃ more, t.received = s.received ++ more := by
  induction fuel generalizing s with
  | zero => cases cleared
  | succ fuel ih =>
    rw [clearFifo] at cleared
    dsimp only at cleared
    split at cleared
    · obtain ⟨regs, rxBuf, k, empty, more, stream⟩ := ih cleared
      exact ⟨regs, rxBuf, k, empty, _ ++ more, by rw [stream]; exact List.append_assoc _ _ _⟩
    next none =>
      obtain rfl := Option.some.inj cleared
      refine ⟨rfl, rfl, rfl, ?_, _, rfl⟩
      refine Decidable.byContradiction fun some_byte => none ?_
      exact congrArg Bool.not (List.isEmpty_eq_false_iff.mpr some_byte)

/-! ## The function -/

/-- What is in `rx_buf` is what was received. -/
structure Answered (txLen rxLen : Nat) (start : Cells) (s : State) : Prop where
  stored : s.k ≤ rxLen
  held : ∀ j, j < s.k → s.received[txLen + j]? = some (s.rxBuf j)
  outside : ∀ j, rxLen ≤ j → s.rxBuf j = start j

theorem Aligned.answered (aligned : Aligned txLen rxLen start regs s) : Answered txLen rxLen start s := by
  obtain ⟨taken, stream, _, _, held⟩ := aligned.taken
  refine ⟨aligned.stored, fun j below => ?_, aligned.outside⟩
  have found := held j below
  rw [stream, List.getElem?_append_left (List.getElem?_eq_some_iff.mp found).1, found]

/-- The settings of the multiplexer, the clock, the pins and the interrupts. -/
structure SameSettings (r entry : Regs) : Prop where
  mux : r.sctrlControl = entry.sctrlControl
  clock : r.icuPwmClkMux = entry.icuPwmClkMux ∧ r.icuPeriClkPwd = entry.icuPeriClkPwd
  pins : r.gpio14 = entry.gpio14 ∧ r.gpio15 = entry.gpio15 ∧ r.gpio16 = entry.gpio16 ∧ r.gpio17 = entry.gpio17
  functions : r.gpioFuncCfg = entry.gpioFuncCfg ∧ r.gpioFuncCfg2 = entry.gpioFuncCfg2
  interrupts : r.icuGlobalIntEn = entry.icuGlobalIntEn

/-- The bit is set and cleared again. -/
theorem clear_set_mux {control : UInt32} (flash : control &&& flashSpiMuxBit = 0) :
    (control ||| flashSpiMuxBit) &&& ~~~flashSpiMuxBit = control := by
  apply UInt32.toBitVec_inj.mp
  have clear : control.toBitVec &&& flashSpiMuxBit.toBitVec = 0#32 := congrArg UInt32.toBitVec flash
  rw [UInt32.toBitVec_and, UInt32.toBitVec_or, UInt32.toBitVec_not]
  generalize control.toBitVec = c at clear ⊢
  generalize flashSpiMuxBit.toBitVec = m at clear ⊢
  ext i inside
  have bit := congrArg (BitVec.getLsbD · i) clear
  simp only [BitVec.getLsbD_and, BitVec.getLsbD_zero] at bit
  simp only [← BitVec.getLsbD_eq_getElem]
  cases hc : c.getLsbD i <;> cases hm : m.getLsbD i <;> simp_all

/-- The part up to the label `wr_exceptional`. -/
theorem transfer_answered {txBuf : Nat → UInt8} {n : Int}
    (ended : transfer spi txLen rxLen fuel txBuf s = some (n, t)) (fifo : s.rxFifo = []) (fresh : s.received = []) :
    Answered txLen rxLen s.rxBuf t ∧ t.regs = { s.regs with spiConfig := t.regs.spiConfig } ∧
      (n = -1 ∨ n = -2 ∨ n = Int.bmod t.k (2 ^ 32)) := by
  have begin : Aligned txLen rxLen s.rxBuf s.regs { s with useLess := 0, k := 0 } := by
    refine ⟨rfl, ⟨[], ?_, fun _ => rfl, fun full _ => ?_, fun j below => absurd below (Nat.not_lt_zero j)⟩,
      ⟨Nat.zero_le _, fun _ => rfl⟩, Nat.zero_le _, fun _ _ => rfl⟩
    · exact fresh.trans fifo.symm
    · exact full
  unfold transfer at ended
  split at ended
  · cases ended
  next first failed =>
    obtain ⟨rfl, rfl⟩ := Prod.mk.inj (Option.some.inj ended)
    have aligned := begin.sendLoop failed
    exact ⟨aligned.answered, by rw [aligned.regs], Or.inl rfl⟩
  next first sent =>
    have one := begin.sendLoop sent
    split at ended
    · cases ended
    next second failed =>
      obtain ⟨rfl, rfl⟩ := Prod.mk.inj (Option.some.inj ended)
      have aligned := one.sendLoop failed
      exact ⟨aligned.answered, by rw [aligned.regs], Or.inr (Or.inl rfl)⟩
    next second again =>
      have two := one.sendLoop again
      split at ended
      · cases ended
      next third finished =>
        have three := two.finishLoop finished
        split at ended
        · cases ended
        next fourth rest =>
          obtain ⟨rfl, rfl⟩ := Prod.mk.inj (Option.some.inj ended)
          have four := three.restLoop rest
          refine ⟨⟨four.answered.stored, four.answered.held, four.answered.outside⟩, ?_, Or.inr (Or.inr rfl)⟩
          rw [← four.regs]
          rfl

end

/-- One byte is sent and one received. -/
def sampleSpi (time : Nat) : Sample := ⟨if time = 4 then [0x4B, 0x17] else [], true, true⟩

def sampleEntry : State where
  regs := ⟨3, 0, 0, 0, 0, 0, 0, 0, 0, 0, 0, 0⟩
  rxFifo := []
  sent := []
  received := []
  time := 0
  rxBuf _ := 0
  useLess := 0
  k := 0

end BekenSdk.FlashBypass
