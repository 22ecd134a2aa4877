import BekenSdk.ForceSleep.Normal

/-! Durations in a normal sleep and at a wake-up time: what fits in the products of 32 bits, and what is lost.
-/

set_option autoImplicit false

namespace BekenSdk.ForceSleep
open HwTimer Base

/-! ## What is to be programmed and credited -/

section
variable (env : Env)

/-- The timer has expired when its status is read. -/
def finished (started : Board) : Bool := (started.settle env).pending 3

/-- The wait for the count of a timer that has not, and whether it is read out in time. -/
def readOut (started : Board) : Bool × Board :=
  let asked := (bkTimerPreMeasure env bkTimer3 (started.settle env)).2
  measureWait env .timer3_5 measureRounds (asked.bkTimerDisable env bkTimer3).2

/-- What the timer counted: its period once it has expired, else the count that is read out. -/
def counted (started : Board) : Word :=
  if finished env started then started.cnt 3 else env.readValue (readOut env started).2.access

/-- The board when the timer runs for a sleep of some seconds. -/
def psStarted (sleepTime : Word) (board : Board) : Board :=
  forceMcuPsStartPsTimer env (1000 * 1000 * sleepTime.setWidth 64) (forceMcuPsStopTickTimer env board)

end

/-- The whole milliseconds of a count, in ticks. -/
def wholeTicks (build : Build) (count : Word) : Nat := count.toNat / 32 / build.fclkDurationMs

/-- The period is the time asked for or the maximum, and the ticks are those of the count. -/
structure Right (build : Build) (env : Env) (sleepTime : Word) (slept : Slept) : Prop where
  period : (slept.started.cnt 3).toNat = min (sleepTime.toNat * 32000) (2 ^ 32 - 1)
  credited : slept.sleepTick.toNat = wholeTicks build (counted env slept.started)

/-- No product wraps, and there is a count. -/
structure Fits (env : Env) (sleepTime : Word) (board : Board) : Prop where
  period : sleepTime.toNat * 32000 < 2 ^ 32
  known : (finished env (psStarted env sleepTime board) || (readOut env (psStarted env sleepTime board)).1) = true
  product : (counted env (psStarted env sleepTime board)).toNat / 32 * 1000 < 2 ^ 32

/-- A correction of earlier sleeps is added to the ticks. -/
def Build.corrects (build : Build) : Bool := build.useTickCal && !build.lowVoltagePs

/-! ## The timer is started -/

section
variable {env : Env} {build : Build} {stack increaseTick sleepTime : Word} {board started : Board}

theorem bkForceInstantLowvolSleep_started (asked : sleepTime ≠ 0) :
    (bkForceInstantLowvolSleep env build stack increaseTick sleepTime board).started =
      psStarted env sleepTime board := by
  unfold bkForceInstantLowvolSleep
  rw [if_pos asked]
  rfl

/-- The period is the low half of the product. -/
theorem psStarted_period : ((psStarted env sleepTime board).cnt 3).toNat = sleepTime.toNat * 32000 % 2 ^ 32 := by
  have written : (psStarted env sleepTime board).cnt 3 =
      ((1000 * 1000 * sleepTime.setWidth 64) / 1000 : BitVec 64).setWidth 32 * 32 := rfl
  have small := sleepTime.isLt
  have wide : (1000 * 1000 * sleepTime.setWidth 64 : BitVec 64).toNat = 1000 * 1000 * sleepTime.toNat := by
    rw [BitVec.toNat_mul, BitVec.toNat_setWidth]
    show 1000 * 1000 % 2 ^ 64 * (sleepTime.toNat % 2 ^ 64) % 2 ^ 64 = _
    omega
  rw [written, BitVec.toNat_mul, BitVec.toNat_setWidth, BitVec.toNat_udiv, wide]
  show 1000 * 1000 * sleepTime.toNat / 1000 % 2 ^ 32 * 32 % 2 ^ 32 = _
  omega

/-- A product that wraps is even and so is no maximum. -/
theorem period_iff : ((psStarted env sleepTime board).cnt 3).toNat = min (sleepTime.toNat * 32000) (2 ^ 32 - 1) ↔
    sleepTime.toNat * 32000 < 2 ^ 32 := by
  rw [psStarted_period]
  omega

/-! ## The count is measured -/

theorem bkTimerGetIntStatus_timer3 : bkTimerGetIntStatus env bkTimer3 started =
    (bkTimerSuccess, if finished env started then some 1 else none, started.settle env) := by
  have bit : (started.settle env).ctl .timer3_5 &&& (0x1#32 <<< (timerctlIntPosi + 0)) ≠ 0#32 ↔
      finished env started = true := OneToClear.and_bit_ne_zero (by decide)
  show (bkTimerSuccess, ite _ _ _, started.settle env) = _
  exact congrArg (bkTimerSuccess, ·, started.settle env) (if_congr bit rfl rfl)

theorem bkTimerMeasure_timer3 : (bkTimerMeasure env bkTimer3 board).2.1 =
    if (measureWait env .timer3_5 measureRounds board).1 then
      some (env.readValue (measureWait env .timer3_5 measureRounds board).2.access / 32) else none := by
  have group : groupOf bkTimer3.toNat = .timer3_5 := rfl
  unfold bkTimerMeasure
  dsimp only
  rw [group]
  obtain ⟨done, last⟩ := measureWait env .timer3_5 measureRounds board
  cases done <;> rfl

/-- Without a count the milliseconds are what was in their place. -/
theorem forceMcuPsMeasurePsTimer_fst : (forceMcuPsMeasurePsTimer env stack started).1 =
    (if finished env started || (readOut env started).1 then counted env started / 32 else stack) * 1000 := by
  unfold forceMcuPsMeasurePsTimer
  rw [bkTimerGetIntStatus_timer3]
  unfold counted
  cases expired : finished env started
  · show (Option.getD (bkTimerMeasure env bkTimer3 _).2.1 stack) * 1000 = _
    rw [bkTimerMeasure_timer3]
    show (Option.getD (if (readOut env started).1 then
      some (env.readValue (readOut env started).2.access / 32) else none) stack) * 1000 = _
    cases (readOut env started).1 <;> rfl
  · rfl

/-! ## The ticks -/

/-- The milliseconds go through a product of 32 bits on their way to the ticks. -/
def creditedTicks (build : Build) (countMs : Word) : Nat := countMs.toNat * 1000 % 2 ^ 32 / 1000 / build.fclkDurationMs

theorem creditedTicks_small (countMs : Word) : creditedTicks build countMs < 2 ^ 22 + 2 ^ 20 := by
  have wrapped : countMs.toNat * 1000 % 2 ^ 32 < 2 ^ 32 := Nat.mod_lt _ (by decide)
  exact Nat.lt_of_le_of_lt (Nat.div_le_self _ _) (by omega)

/-- A product that wraps takes more than 1000 ms away, which is a tick at least. -/
theorem creditedTicks_iff (countMs : Word) :
    creditedTicks build countMs = countMs.toNat / build.fclkDurationMs ↔ countMs.toNat * 1000 < 2 ^ 32 := by
  have short := build.short
  constructor
  · intro same
    apply Nat.lt_of_not_le
    intro wraps
    have less : countMs.toNat * 1000 % 2 ^ 32 / 1000 ≤ countMs.toNat - build.fclkDurationMs := by omega
    have lost : creditedTicks build countMs ≤ countMs.toNat / build.fclkDurationMs - 1 := by
      rw [← Nat.sub_mul_div countMs.toNat build.fclkDurationMs 1, Nat.mul_one]
      exact Nat.div_le_div_right less
    have some : 0 < countMs.toNat / build.fclkDurationMs := Nat.div_pos (by omega) build.pos
    omega
  · intro fits
    unfold creditedTicks
    rw [Nat.mod_eq_of_lt fits, Nat.mul_div_cancel _ (by decide)]

theorem bkForceInstantLowvolSleep_sleepTick (asked : sleepTime ≠ 0) :
    (bkForceInstantLowvolSleep env build stack increaseTick sleepTime board).sleepTick =
      let lost := BitVec.ofNat 32 (creditedTicks build
        (if finished env (psStarted env sleepTime board) || (readOut env (psStarted env sleepTime board)).1 then
          counted env (psStarted env sleepTime board) / 32 else stack))
      if build.corrects then mcuPsCalIncreaseTick increaseTick lost else lost := by
  unfold bkForceInstantLowvolSleep
  rw [if_pos asked]
  have through (countMs : Word) : (((countMs * 1000).setWidth 64 : BitVec 64) / 1000).setWidth 32 /
      BitVec.ofNat 32 build.fclkDurationMs = BitVec.ofNat 32 (creditedTicks build countMs) := by
    apply BitVec.eq_of_toNat_eq
    have small : creditedTicks build countMs < _ := creditedTicks_small countMs
    have product : (countMs * 1000).toNat = countMs.toNat * 1000 % 2 ^ 32 := BitVec.toNat_mul ..
    have short := build.short
    rw [BitVec.toNat_udiv, BitVec.toNat_setWidth, BitVec.toNat_udiv, BitVec.toNat_setWidth, product, BitVec.toNat_ofNat,
      BitVec.toNat_ofNat, Nat.mod_eq_of_lt (by omega : creditedTicks build countMs < 2 ^ 32),
      Nat.mod_eq_of_lt (by omega : build.fclkDurationMs < 2 ^ 32)]
    show countMs.toNat * 1000 % 2 ^ 32 % 2 ^ 64 / 1000 % 2 ^ 32 / _ = _
    rw [Nat.mod_eq_of_lt (by omega : countMs.toNat * 1000 % 2 ^ 32 < 2 ^ 64),
      Nat.mod_eq_of_lt (by omega : countMs.toNat * 1000 % 2 ^ 32 / 1000 < 2 ^ 32)]
    rfl
  unfold forceMcuPs
  dsimp only
  rw [forceMcuPsMeasurePsTimer_fst, through]
  rfl

theorem corrected_eq {lost : Word} (small : lost.toNat < 2 ^ 31) : mcuPsCalIncreaseTick increaseTick lost = lost ↔
    increaseTick = 0 ∨ lost.toNat = 0 := by
  have sign : lost.toInt ≤ 0 ↔ lost.toNat = 0 := by
    rw [BitVec.toInt_eq_toNat_of_lt (by omega), Int.natCast_nonpos_iff]
  unfold mcuPsCalIncreaseTick
  split
  next spared => exact iff_of_true rfl (spared.symm.imp_right sign.mp)
  next moved =>
    have moved := fun spared : increaseTick = 0 ∨ lost.toNat = 0 => moved (spared.symm.imp_left sign.mpr)
    refine iff_of_false ?_ moved
    split
    · rintro rfl
      exact moved (.inr rfl)
    · intro same
      exact moved (.inl (BitVec.add_right_eq_self.mp same))

/-- With no correction pending, a sleep is right if no product wraps and there is a count. -/
theorem uncorrected_iff (asked : sleepTime ≠ 0) :
    (∀ stack, Right build env sleepTime (bkForceInstantLowvolSleep env build stack 0 sleepTime board)) ↔
      Fits env sleepTime board := by
  have plain (lost : Word) : (if build.corrects then mcuPsCalIncreaseTick 0 lost else lost) = lost := by
    split
    · exact if_pos (.inr rfl)
    · rfl
  have ticks (stack : Word) := @bkForceInstantLowvolSleep_sleepTick env build stack 0 sleepTime board asked
  have started (stack : Word) := @bkForceInstantLowvolSleep_started env build stack 0 sleepTime board asked
  have small (countMs : Word) : creditedTicks build countMs < 2 ^ 32 := by
    have bound : creditedTicks build countMs < _ := creditedTicks_small countMs
    omega
  have counts : (counted env (psStarted env sleepTime board) / 32).toNat =
    (counted env (psStarted env sleepTime board)).toNat / 32 := BitVec.toNat_udiv
  constructor
  · intro right
    have known : (finished env (psStarted env sleepTime board) || (readOut env (psStarted env sleepTime board)).1) =
        true := by
      apply Classical.byContradiction
      intro unread
      have credit (stack : Word) : creditedTicks build stack =
          wholeTicks build (counted env (psStarted env sleepTime board)) := by
        have same := (right stack).credited
        rw [started, ticks, plain, if_neg unread, BitVec.toNat_ofNat, Nat.mod_eq_of_lt (small _)] at same
        exact same
      have same : 1000 / build.fclkDurationMs = 0 / build.fclkDurationMs := (credit 1000).trans (credit 0).symm
      rw [Nat.zero_div] at same
      exact Nat.ne_of_gt (Nat.div_pos build.short build.pos) same
    refine ⟨period_iff.mp (started 0 ▸ (right 0).period), known, ?_⟩
    have same := (right 0).credited
    rw [started, ticks, plain, if_pos known, BitVec.toNat_ofNat, Nat.mod_eq_of_lt (small _)] at same
    rw [← counts]
    exact (creditedTicks_iff _).mp (same.trans (by rw [counts]; rfl))
  · intro fits stack
    refine ⟨started stack ▸ period_iff.mpr fits.period, ?_⟩
    rw [started, ticks, plain, if_pos fits.known, BitVec.toNat_ofNat, Nat.mod_eq_of_lt (small _),
      (creditedTicks_iff _).mpr (counts ▸ fits.product), counts]
    rfl

/-- What is credited when no product wraps and there is a count. -/
theorem Fits.sleepTick (fits : Fits env sleepTime board) (asked : sleepTime ≠ 0) :
    (bkForceInstantLowvolSleep env build stack increaseTick sleepTime board).sleepTick =
      let lost := BitVec.ofNat 32 (wholeTicks build (counted env (psStarted env sleepTime board)))
      if build.corrects then mcuPsCalIncreaseTick increaseTick lost else lost := by
  have counts : (counted env (psStarted env sleepTime board) / 32).toNat =
    (counted env (psStarted env sleepTime board)).toNat / 32 := BitVec.toNat_udiv
  rw [bkForceInstantLowvolSleep_sleepTick asked, if_pos fits.known, (creditedTicks_iff _).mpr (counts ▸ fits.product),
    counts]
  rfl

theorem wholeTicks_small (count : Word) : wholeTicks build count < 2 ^ 31 := by
  have bound := count.isLt
  exact Nat.lt_of_le_of_lt (Nat.div_le_self _ _) (by omega)

/-- A pending correction is part of what is credited, unless the sleep was shorter than a tick. -/
theorem corrected_iff (fits : Fits env sleepTime board) (asked : sleepTime ≠ 0) :
    (∀ stack, Right build env sleepTime (bkForceInstantLowvolSleep env build stack increaseTick sleepTime board)) ↔
      (build.corrects = true → increaseTick = 0 ∨ wholeTicks build (counted env (psStarted env sleepTime board)) = 0) := by
  have small : wholeTicks build (counted env (psStarted env sleepTime board)) < _ := wholeTicks_small _
  have lost : (BitVec.ofNat 32 (wholeTicks build (counted env (psStarted env sleepTime board)))).toNat =
      wholeTicks build (counted env (psStarted env sleepTime board)) := by
    rw [BitVec.toNat_ofNat, Nat.mod_eq_of_lt (by omega)]
  have credited (stack : Word) : Right build env sleepTime
      (bkForceInstantLowvolSleep env build stack increaseTick sleepTime board) ↔
      (build.corrects = true → increaseTick = 0 ∨ wholeTicks build (counted env (psStarted env sleepTime board)) = 0) := by
    have started := @bkForceInstantLowvolSleep_started env build stack increaseTick sleepTime board asked
    refine Iff.trans ⟨Right.credited, fun credited => ⟨started ▸ period_iff.mpr fits.period, credited⟩⟩ ?_
    rw [started, fits.sleepTick asked]
    cases build.corrects
    · exact iff_of_true lost (fun no => Bool.noConfusion no)
    · refine Iff.trans ?_ ((@corrected_eq increaseTick _ (lost.symm ▸ small)).trans ?_)
      · exact ⟨fun same => BitVec.eq_of_toNat_eq (same.trans lost.symm), fun same => (congrArg _ same).trans lost⟩
      · rw [lost]
        exact ⟨fun spared _ => spared, fun spared => spared rfl⟩
  exact ⟨fun right => (credited 0).mp (right 0), fun spared stack => (credited stack).mpr spared⟩

end

/-! ## The wake-up time -/

/-- The period of the slow-clock timer. -/
def Slow.period (slow : Slow) : BitVec 32 := slow.roscTimerH.extractLsb' 0 16 ++ slow.roscTimer.extractLsb' 16 16

/-- The timer is set to the time that remains, and interrupts are enabled as before. -/
structure Woken (remaining : Nat) (slow after : Slow) : Prop where
  programmed : after.period.toNat = min (remaining * 4 / 125) (2 ^ 32 - 1)
  enabled : after.roscTimer.getLsbD 0 = true
  fiq : after.fiq = slow.fiq
  irq : after.irq = slow.irq

section
variable {sleepUs : BitVec 64} {slow : Slow}

theorem halfMask_getLsbD {k : Nat} (inside : k < 32) : (0xFFFF#32).getLsbD k = decide (k < 16) := by
  have field := @OneToClear.getLsbD_field 32 k 0 16 inside
  rw [BitVec.shiftLeft_zero] at field
  exact field.trans (decide_eq_decide.mpr (by omega))

/-- Half a register is replaced. -/
theorem replaced_getLsbD {reg value : Word} {posi k : Nat} (inside : k < 16) (half : posi + k < 32) :
    ((reg &&& ~~~(0xFFFF#32 <<< posi)) ||| ((value &&& 0xFFFF#32) <<< posi)).getLsbD (posi + k) =
      value.getLsbD k := by
  have mask := halfMask_getLsbD (by omega : k < 32)
  rw [decide_eq_true inside] at mask
  rw [BitVec.getLsbD_or, BitVec.getLsbD_and, BitVec.getLsbD_not, BitVec.getLsbD_shiftLeft, BitVec.getLsbD_shiftLeft,
    Nat.add_sub_cancel_left, BitVec.getLsbD_and, mask, decide_eq_true half, decide_eq_false (by omega : ¬posi + k < posi)]
  simp

/-- A time of 32 µs or more is set, and the interrupts are restored. -/
theorem mcuSleepSetRoscTimer_long (long : ¬sleepUs < 32) : mcuSleepSetRoscTimer sleepUs slow =
    { roscTimer := ((slow.roscTimer ||| roscTimerIntStatusBit) &&& ~~~(0xFFFF#32 <<< 16)) |||
        ((roscTicks sleepUs &&& 0xFFFF &&& 0xFFFF#32) <<< 16) ||| roscTimerEnableBit
      roscTimerH := (slow.roscTimerH &&& ~~~(0xFFFF#32 <<< 0)) |||
        (((roscTicks sleepUs &&& 0xFFFF0000) >>> 16 &&& 0xFFFF#32) <<< 0)
      fiq := slow.fiq
      irq := slow.irq } := by
  unfold mcuSleepSetRoscTimer
  dsimp only
  rw [if_neg long, Bool.not_not, Bool.not_not, Bool.false_or, Bool.false_or]
  rfl

theorem halves_getLsbD {value : Word} {k : Nat} (inside : k < 16) :
    (value &&& 0xFFFF#32).getLsbD k = value.getLsbD k ∧
      ((value &&& 0xFFFF0000#32) >>> 16).getLsbD k = value.getLsbD (16 + k) := by
  have high : (0xFFFF0000#32).getLsbD (16 + k) = true := by
    have field := @OneToClear.getLsbD_field 32 (16 + k) 16 16 (by omega)
    exact field.trans (decide_eq_true (by omega))
  rw [BitVec.getLsbD_and, BitVec.getLsbD_ushiftRight, BitVec.getLsbD_and, halfMask_getLsbD (by omega),
    decide_eq_true inside, high, Bool.and_true, Bool.and_true]
  exact ⟨rfl, rfl⟩

theorem mcuSleepSetRoscTimer_period (long : ¬sleepUs < 32) :
    (mcuSleepSetRoscTimer sleepUs slow).period = roscTicks sleepUs := by
  rw [mcuSleepSetRoscTimer_long long]
  unfold Slow.period
  apply BitVec.eq_of_getLsbD_eq
  intro k inside
  have enable {k : Nat} : roscTimerEnableBit.getLsbD (16 + k) = false := by
    rw [roscTimerEnableBit, BitVec.shiftLeft_zero, BitVec.getLsbD_one, decide_eq_false (by omega : ¬16 + k = 0),
      Bool.and_false]
  rw [BitVec.getLsbD_append, BitVec.getLsbD_extractLsb', BitVec.getLsbD_extractLsb']
  split
  next low =>
    rw [BitVec.getLsbD_or, enable, replaced_getLsbD low (by omega), Bool.or_false, decide_eq_true low, Bool.true_and]
    exact (halves_getLsbD low).1
  next high =>
    have low : k - 16 < 16 := by omega
    rw [replaced_getLsbD low (by omega), decide_eq_true low, Bool.true_and]
    refine (halves_getLsbD low).2.trans (congrArg _ ?_)
    omega

theorem roscTicks_toNat {remaining : BitVec 64} (fits : remaining.toNat < 2 ^ 32) :
    (roscTicks remaining).toNat = min (remaining.toNat * 4 / 125) (2 ^ 32 - 1) := by
  rw [roscTicks, BitVec.toNat_ofNat]
  omega

theorem fits_of_cut {remaining : Nat}
    (same : min (remaining % 2 ^ 32 * 4 / 125) (2 ^ 32 - 1) = min (remaining * 4 / 125) (2 ^ 32 - 1)) :
    remaining < 2 ^ 32 := by
  apply Nat.lt_of_not_le
  intro wide
  have lost : remaining % 2 ^ 32 + 2 ^ 32 ≤ remaining := by omega
  have less : remaining % 2 ^ 32 * 4 / 125 < remaining * 4 / 125 := by omega
  have small : remaining % 2 ^ 32 * 4 / 125 < 2 ^ 32 - 1 := by omega
  omega

/-- A time that does not fit loses 2³² µs, which are 137438953 counts. -/
theorem forceMcuPsSetWakeupTime_iff {build : Build} {curTimeUs wakeupTimeUs : BitVec 64}
    (future : curTimeUs < wakeupTimeUs) :
    (∀ slow, Woken (wakeupTimeUs.toNat - curTimeUs.toNat) slow
      (forceMcuPsSetWakeupTime build curTimeUs wakeupTimeUs slow).2) ↔
      build.lowVoltagePs = true ∧ 32 ≤ wakeupTimeUs.toNat - curTimeUs.toNat ∧
        wakeupTimeUs.toNat - curTimeUs.toNat < 2 ^ 32 := by
  have later : curTimeUs.toNat < wakeupTimeUs.toNat := future
  have bound := wakeupTimeUs.isLt
  generalize left : wakeupTimeUs.toNat - curTimeUs.toNat = remaining
  have cut : (((wakeupTimeUs - curTimeUs).setWidth 32 : Word).setWidth 64 : BitVec 64).toNat = remaining % 2 ^ 32 := by
    rw [BitVec.toNat_setWidth, BitVec.toNat_setWidth, BitVec.toNat_sub_of_le (BitVec.le_of_lt future), left]
    omega
  have programmed (slow : Slow) (lowVoltage : build.lowVoltagePs = true) :
      (forceMcuPsSetWakeupTime build curTimeUs wakeupTimeUs slow).2 =
        mcuSleepSetRoscTimer (((wakeupTimeUs - curTimeUs).setWidth 32 : Word).setWidth 64) slow := by
    unfold forceMcuPsSetWakeupTime
    rw [if_pos lowVoltage, if_neg (BitVec.not_le.mpr future)]
  constructor
  · intro woken
    have lowVoltage : build.lowVoltagePs = true := by
      cases off : build.lowVoltagePs
      · have set := (woken ⟨0, 0, true, true⟩).enabled
        unfold forceMcuPsSetWakeupTime at set
        rw [if_neg (by rw [off]; decide)] at set
        cases set
      · rfl
    have restored := (woken ⟨0, 0, true, true⟩).fiq
    have set := (woken ⟨0, 0, true, true⟩).programmed
    rw [programmed _ lowVoltage] at restored set
    generalize (((wakeupTimeUs - curTimeUs).setWidth 32 : Word).setWidth 64 : BitVec 64) = sleepUs at cut restored set
    by_cases short : sleepUs < 32
    · unfold mcuSleepSetRoscTimer at restored
      dsimp only at restored
      rw [if_pos short] at restored
      cases restored
    · have long : ¬sleepUs.toNat < 32 := short
      rw [mcuSleepSetRoscTimer_period short, roscTicks_toNat (by omega), cut] at set
      rw [cut] at long
      have fits := fits_of_cut set
      exact ⟨lowVoltage, by omega, fits⟩
  · rintro ⟨lowVoltage, long, fits⟩ slow
    rw [programmed slow lowVoltage]
    generalize (((wakeupTimeUs - curTimeUs).setWidth 32 : Word).setWidth 64 : BitVec 64) = sleepUs at cut
    have long : ¬sleepUs < 32 := fun short => by
      have less : sleepUs.toNat < 32 := short
      omega
    have period := @mcuSleepSetRoscTimer_period sleepUs slow long
    rw [mcuSleepSetRoscTimer_long long] at period ⊢
    refine ⟨?_, ?_, rfl, rfl⟩
    · rw [period, roscTicks_toNat (by omega), cut, Nat.mod_eq_of_lt fits]
    · rw [BitVec.getLsbD_or]
      exact Bool.or_true _

end

/-! ## Durations -/

section
variable {env laterEnv : Env} {build : Build} {sleepTime laterTime : Word} {board laterBoard : Board}

/-- A longer sleep credits no fewer ticks. -/
theorem Right.mono {short long : Slept} (right : Right build env sleepTime short)
    (laterRight : Right build laterEnv laterTime long)
    (longer : counted env short.started ≤ counted laterEnv long.started) : short.sleepTick ≤ long.sleepTick := by
  show short.sleepTick.toNat ≤ long.sleepTick.toNat
  rw [right.credited, laterRight.credited]
  exact Nat.div_le_div_right (Nat.div_le_div_right longer)

/-- A sleep is right if no product wraps and there is a count, but for a correction that is pending; then a longer sleep
credits no fewer ticks. A wake-up time is if it is 32 µs ahead and not 2³². -/
theorem durations_iff (asked : sleepTime ≠ 0) (askedLater : laterTime ≠ 0) {curTimeUs wakeupTimeUs : BitVec 64}
    (future : curTimeUs < wakeupTimeUs) :
    ((∀ stack, Right build env sleepTime (bkForceInstantLowvolSleep env build stack 0 sleepTime board)) ↔
      Fits env sleepTime board) ∧
    (Fits env sleepTime board → ∀ increaseTick, (∀ stack,
        Right build env sleepTime (bkForceInstantLowvolSleep env build stack increaseTick sleepTime board)) ↔
      (build.corrects = true →
        increaseTick = 0 ∨ wholeTicks build (counted env (psStarted env sleepTime board)) = 0)) ∧
    (Fits env sleepTime board → Fits laterEnv laterTime laterBoard →
      counted env (psStarted env sleepTime board) ≤ counted laterEnv (psStarted laterEnv laterTime laterBoard) →
      ∀ stack, (bkForceInstantLowvolSleep env build stack 0 sleepTime board).sleepTick ≤
        (bkForceInstantLowvolSleep laterEnv build stack 0 laterTime laterBoard).sleepTick) ∧
    ((∀ slow, Woken (wakeupTimeUs.toNat - curTimeUs.toNat) slow
        (forceMcuPsSetWakeupTime build curTimeUs wakeupTimeUs slow).2) ↔
      build.lowVoltagePs = true ∧ 32 ≤ wakeupTimeUs.toNat - curTimeUs.toNat ∧
        wakeupTimeUs.toNat - curTimeUs.toNat < 2 ^ 32) := by
  refine ⟨uncorrected_iff asked, fun fits _ => corrected_iff fits asked, ?_, forceMcuPsSetWakeupTime_iff future⟩
  intro fits laterFits longer stack
  have right : Right build env sleepTime _ := (uncorrected_iff asked).mpr fits stack
  have laterRight : Right build laterEnv laterTime _ := (uncorrected_iff askedLater).mpr laterFits stack
  refine right.mono laterRight ?_
  rw [bkForceInstantLowvolSleep_started asked, bkForceInstantLowvolSleep_started askedLater]
  exact longer

end

/-- The timer never expires, and the count is read out at once. -/
def sampleEnv (readValue : Word) : Env := ⟨fun _ _ => 0, fun _ => false, fun _ => readValue, 0⟩

def sampleBoard : Board := ⟨fun _ => 0, fun _ => 0, fun _ => 0, fun _ => none, 0, 0, fun _ => 0⟩

def sampleBuild : Build := ⟨true, false, 2, Nat.two_pos, by decide⟩

theorem sample_fits : Fits (sampleEnv 32000) 5 sampleBoard := ⟨by decide, by decide, by decide⟩

/-- A sleep of 5 s that is ended after one, and a wake-up time 1 ms ahead. -/
theorem sample_durations :
    (∀ stack, Right sampleBuild (sampleEnv 32000) 5
      (bkForceInstantLowvolSleep (sampleEnv 32000) sampleBuild stack 0 5 sampleBoard)) ∧
    ∀ slow, Woken 1000 slow (forceMcuPsSetWakeupTime sampleBuild 7 1007 slow).2 := by
  have durations := @durations_iff (sampleEnv 32000) (sampleEnv 32000) sampleBuild 5 5 sampleBoard sampleBoard
    (by decide) (by decide) 7 1007 (by decide)
  exact ⟨durations.1.mpr sample_fits, durations.2.2.2.mpr (by decide)⟩

/-- The period of a sleep of 134218 s is 272 ms. A sleep of 5000 s that is ended after 4295 credits 16 ticks. A wake-up
time 2³² + 1000 µs ahead is set to 1000, and one 31 µs ahead leaves interrupts disabled. -/
theorem durations_wrapped :
    ((bkForceInstantLowvolSleep (sampleEnv 0) sampleBuild 0 0 134218 sampleBoard).started.cnt 3).toNat = 272 * 32 ∧
    ¬Right sampleBuild (sampleEnv 0) 134218
      (bkForceInstantLowvolSleep (sampleEnv 0) sampleBuild 0 0 134218 sampleBoard) ∧
    (bkForceInstantLowvolSleep (sampleEnv (4295 * 32000)) sampleBuild 0 0 5000 sampleBoard).sleepTick = 16 ∧
    ¬Right sampleBuild (sampleEnv (4295 * 32000)) 5000
      (bkForceInstantLowvolSleep (sampleEnv (4295 * 32000)) sampleBuild 0 0 5000 sampleBoard) ∧
    ¬Woken (2 ^ 32 + 1000) ⟨0, 0, true, true⟩
      (forceMcuPsSetWakeupTime sampleBuild 7 (2 ^ 32 + 1007) ⟨0, 0, true, true⟩).2 ∧
    (forceMcuPsSetWakeupTime sampleBuild 7 38 ⟨0, 0, true, true⟩).2.irq = false ∧
    ¬Woken 31 ⟨0, 0, true, true⟩ (forceMcuPsSetWakeupTime sampleBuild 7 38 ⟨0, 0, true, true⟩).2 := by
  refine ⟨by decide, fun right => absurd right.period (by decide), by decide, fun right => ?_, fun woken => ?_,
    rfl, fun woken => nomatch woken.irq⟩
  · exact absurd right.credited (by decide)
  · exact absurd woken.programmed (by decide)

end BekenSdk.ForceSleep
