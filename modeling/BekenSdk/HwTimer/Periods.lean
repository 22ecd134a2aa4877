import BekenSdk.Base.Saturation
import BekenSdk.HwTimer.Isolation

/-! The periods that the hardware timers are given. The product of the period and the rate is that of 32 bits, so the
bound at the largest word never acts: a period is right exactly when the product fits.
-/

set_option autoImplicit false

namespace BekenSdk.HwTimer
open BekenSdk.Base

/-- What the clock of a channel counts in a millisecond. -/
def ticksPerMs (ucChannel : Nat) : Nat := if ucChannel < 3 then 26000 else 32

/-- What the clock of the channels 0 to 2 counts in a microsecond. -/
def ticksPerUs : Nat := 26

/-- The period in ticks, by unbounded integers. -/
def wantedEndvalue (ticks : Nat) (period div : Word) : Nat :=
  saturated 32 (period.toNat * ticks / max div.toNat 1)

variable {ucChannel ticks : Nat} {period div : Word}

/-! ## What is calculated -/

/-- The bound on a quotient of 32 bits does nothing. -/
theorem clamped_widened (value : Word) :
    (if (value.setWidth 64 : BitVec 64) > 0xffffffff then (0xffffffff : BitVec 64) else value.setWidth 64).setWidth 32 =
      value := by
  have small := value.isLt
  have inside : ¬(value.setWidth 64 : BitVec 64) > 0xffffffff := by
    rw [gt_iff_lt, BitVec.lt_def, BitVec.toNat_setWidth]
    show ¬0xffffffff < value.toNat % 2 ^ 64
    omega
  rw [if_neg inside, BitVec.setWidth_setWidth_of_le value (by decide), BitVec.setWidth_eq]

theorem divisor_toNat : (if div = 0 then 1 else div : Word).toNat = max div.toNat 1 := by
  split
  next none => rw [none]; rfl
  next some =>
    have positive : div.toNat ≠ 0 := fun none => some (BitVec.eq_of_toNat_eq none)
    omega

theorem bkTimerCalEndvalue_toNat : (bkTimerCalEndvalue ucChannel period div).toNat =
    period.toNat * ticksPerMs ucChannel % 2 ^ 32 / max div.toNat 1 := by
  unfold bkTimerCalEndvalue ticksPerMs
  dsimp only
  rw [clamped_widened]
  split <;> rw [BitVec.toNat_udiv, BitVec.toNat_mul, divisor_toNat] <;> rfl

theorem bkTimerCalEndvalueUs_toNat : (bkTimerCalEndvalueUs period div).toNat =
    period.toNat * ticksPerUs % 2 ^ 32 / max div.toNat 1 := by
  unfold bkTimerCalEndvalueUs
  dsimp only
  rw [clamped_widened, BitVec.toNat_udiv, BitVec.toNat_mul, divisor_toNat]
  rfl

theorem ticksPerMs_even : 2 ∣ ticksPerMs ucChannel := by
  unfold ticksPerMs
  split <;> decide

/-! ## When it is right -/

/-- With that divider the period that is wanted is calculated, and for no shorter period a longer one. -/
def Saturates (calculate : Word → Word) (ticks : Nat) (period div : Word) : Prop :=
  (calculate period).toNat = wantedEndvalue ticks period div ∧
    ∀ shorter ≤ period, calculate shorter ≤ calculate period

theorem saturates_iff {calculate : Word → Word} (even : 2 ∣ ticks)
    (value : ∀ period, (calculate period).toNat = period.toNat * ticks % 2 ^ 32 / max div.toNat 1) :
    Saturates calculate ticks period div ↔ period.toNat * ticks < 2 ^ 32 := by
  have right : ∀ period, (calculate period).toNat = wantedEndvalue ticks period div ↔
      period.toNat * ticks < 2 ^ 32 := by
    intro period
    have small := div.isLt
    rw [value, wantedEndvalue]
    exact wrapped_div_iff (by decide) (Nat.dvd_mul_left_of_dvd even _) (by omega) (by omega)
  constructor
  · exact fun saturates => (right period).mp saturates.1
  · intro fits
    refine ⟨(right period).mpr fits, fun shorter less => ?_⟩
    have fewer : shorter.toNat * ticks ≤ period.toNat * ticks := Nat.mul_le_mul_right _ (BitVec.le_def.mp less)
    rw [BitVec.le_def, (right shorter).mpr (Nat.lt_of_le_of_lt fewer fits), (right period).mpr fits]
    exact saturated_mono (Nat.div_le_div_right fewer)

/-- The period register of a channel once it is initialised with a period. -/
def Board.programmed (env : Env) (board : Board) (param : TimerParam) (period : Word) : Word :=
  (board.initTimerParam env { param with period := period }).2.cnt param.channel.toNat

def Board.programmedUs (env : Env) (board : Board) (param : TimerParam) (period : Word) : Word :=
  (board.initTimerParamUs env { param with period := period }).2.cnt param.channel.toNat

namespace Board
variable {env : Env} {board : Board} {param : TimerParam}

theorem programmed_eq (own : param.channel.toNat ≤ 5) :
    board.programmed env param period = bkTimerCalEndvalue param.channel.toNat period (param.div.setWidth 32) := by
  have done := @initTimerParam_eq env board { param with period := period } (Nat.not_lt.mpr own)
  rw [programmed, done]
  exact if_pos rfl

theorem programmedUs_eq (own : param.channel.toNat ≤ 2) :
    board.programmedUs env param period = bkTimerCalEndvalueUs period (param.div.setWidth 32) := by
  have done := @initTimerParamUs_eq env board { param with period := period } (Nat.not_lt.mpr own)
  rw [programmedUs, done]
  exact if_pos rfl

end Board

/-- For every channel, period and divider the period in ticks is the bounded quotient, and not below that of a shorter
period, exactly when the product with the rate is below 2^32; and so is what the initialisation programs. -/
theorem endvalue_saturates_iff (ucChannel : Nat) (period div : Word) :
    (Saturates (bkTimerCalEndvalue ucChannel · div) (ticksPerMs ucChannel) period div ↔
      period.toNat * ticksPerMs ucChannel < 2 ^ 32) ∧
    (Saturates (bkTimerCalEndvalueUs · div) ticksPerUs period div ↔ period.toNat * ticksPerUs < 2 ^ 32) ∧
    ∀ (env : Env) (board : Board) (param : TimerParam),
      (param.channel.toNat ≤ 5 →
        (Saturates (board.programmed env param) (ticksPerMs param.channel.toNat) period (param.div.setWidth 32) ↔
          period.toNat * ticksPerMs param.channel.toNat < 2 ^ 32)) ∧
      (param.channel.toNat ≤ 2 →
        (Saturates (board.programmedUs env param) ticksPerUs period (param.div.setWidth 32) ↔
          period.toNat * ticksPerUs < 2 ^ 32)) := by
  refine ⟨saturates_iff ticksPerMs_even fun _ => bkTimerCalEndvalue_toNat,
    saturates_iff (by decide) fun _ => bkTimerCalEndvalueUs_toNat, fun env board param => ⟨fun own => ?_, fun own => ?_⟩⟩
  · refine saturates_iff ticksPerMs_even fun period => ?_
    rw [Board.programmed_eq own, bkTimerCalEndvalue_toNat]
  · refine saturates_iff (by decide) fun period => ?_
    rw [Board.programmedUs_eq own, bkTimerCalEndvalueUs_toNat]

/-- A second on a channel of the fast clock. -/
theorem second_saturates : Saturates (timer0Up.programmed still ⟨1, 1, 1000, none⟩) 26000 1000 1 :=
  ((endvalue_saturates_iff 1 1000 1).2.2 still timer0Up ⟨1, 1, 1000, none⟩).1 (by decide) |>.mpr (by decide)

/-- 165192 ms on a fast channel are programmed as 24704 ticks, fewer than 165191 ms. -/
theorem longer_period_shorter :
    ¬(∀ (ucChannel : Nat) (period div : Word),
      (bkTimerCalEndvalue ucChannel period div).toNat = wantedEndvalue (ticksPerMs ucChannel) period div) ∧
    (bkTimerCalEndvalue 0 165192 1).toNat = 24704 ∧ (bkTimerCalEndvalue 0 165191 1).toNat = 4294966000 ∧
    (bkTimerCalEndvalueUs 165191050 1).toNat = 4 := by
  refine ⟨fun right => ?_, by decide, by decide, by decide⟩
  exact absurd (right 0 165192 1) (by decide)

end BekenSdk.HwTimer
