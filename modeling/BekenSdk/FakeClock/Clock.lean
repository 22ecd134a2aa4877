import BekenSdk.Base.Machine
import Mathlib.Data.UInt

/-! The software clock of `fake_clock.c`: ticks, seconds, and the ticks that are left of the current
second. The tick interrupt and the updates after sleep keep the three in step; a reset in
the middle of a second does not.
-/

set_option autoImplicit false

namespace BekenSdk.FakeClock
open Base

def fclkSecond : UInt32 := 500

/-- The build that tells which calibration the tick interrupt is compiled with. -/
structure Build where
  tickCal : Bool
  lowVoltagePs : Bool

structure Clock where
  currentClock : UInt64
  currentSeconds : UInt32
  secondCountdown : UInt32

namespace Clock

def start : Clock := ⟨0, 0, fclkSecond⟩

/-- `while(tick >= FCLK_SECOND)`; every round takes ticks away, so that `tick` bounds the rounds. -/
def wholeSeconds : Nat → UInt32 → UInt32 → UInt32 × UInt32
  | 0, seconds, tick => (seconds, tick)
  | rounds + 1, seconds, tick =>
    if tick ≥ fclkSecond then wholeSeconds rounds (seconds + 1) (tick - fclkSecond) else (seconds, tick)

def fclkFreertosUpdateTick (s : Clock) (tick : UInt32) : Clock :=
  let currentClock := s.currentClock + tick.toUInt64
  let (seconds, tick) := wholeSeconds tick.toNat s.currentSeconds tick
  if s.secondCountdown ≤ tick then
    ⟨currentClock, seconds + 1, fclkSecond - (tick - s.secondCountdown)⟩
  else ⟨currentClock, seconds, s.secondCountdown - tick⟩

def fclkUpdateTick (s : Clock) (tick : UInt32) : Clock :=
  if tick = 0 then s else s.fclkFreertosUpdateTick tick

/-- The tick interrupt. `needPstick` is what `mcu_ps_need_pstick` answers, and `lost` are the ticks that
`fclk_cal_tick` finds missing when it is called. -/
def fclkHdl (build : Build) (s : Clock) (needPstick : Bool) (lost : UInt32) : Clock :=
  if build.tickCal ∧ ¬ build.lowVoltagePs ∧ ¬ needPstick then s
  else
    let currentClock := s.currentClock + 1
    let countdown := s.secondCountdown - 1
    if countdown = 0 then
      let seconds := s.currentSeconds + 1
      let s := ⟨currentClock, seconds, fclkSecond⟩
      if build.tickCal ∧ build.lowVoltagePs ∧ seconds % 15 = 0 then s.fclkUpdateTick lost else s
    else ⟨currentClock, s.currentSeconds, countdown⟩

/-- The ticks that are left of the second stay as they are. -/
def fclkResetCount (s : Clock) : Clock := { s with currentClock := 0, currentSeconds := 0 }

/-! ## Bookkeeping -/

/-- The seconds and the part of the current one make the ticks. -/
def Right (s : Clock) : Prop :=
  (s.currentSeconds.toNat : Int) * fclkSecond.toNat + (fclkSecond.toNat - s.secondCountdown.toNat) =
    s.currentClock.toNat

instance (s : Clock) : Decidable s.Right := by
  unfold Right
  infer_instance

/-- Some ticks of the current second are left. -/
structure InSecond (s : Clock) : Prop where
  some : 0 < s.secondCountdown.toNat
  most : s.secondCountdown.toNat ≤ 500

structure Sound (s : Clock) : Prop where
  right : s.Right
  inSecond : s.InSecond

/-- What 2^32 seconds are. -/
def ticksOfSeconds : Nat := 2147483648000

variable {build : Build} {s t : Clock} {tick lost : UInt32}

theorem right_iff : s.Right ↔
    500 * s.currentSeconds.toNat + 500 = s.currentClock.toNat + s.secondCountdown.toNat := by
  unfold Right
  rw [show fclkSecond.toNat = 500 from rfl]
  omega

theorem right_mk_iff {clock : UInt64} {seconds countdown : UInt32} : Right ⟨clock, seconds, countdown⟩ ↔
    500 * seconds.toNat + 500 = clock.toNat + countdown.toNat := right_iff

/-- The ticks of a right clock fit its seconds. -/
theorem InSecond.bound (inSecond : s.InSecond) (right : s.Right) : s.currentClock.toNat < ticksOfSeconds := by
  have seconds := s.currentSeconds.toNat_lt
  have left := inSecond.some
  rw [right_iff] at right
  rw [ticksOfSeconds]
  omega

theorem wholeSeconds_spec {rounds : Nat} {seconds : UInt32} (enough : tick.toNat ≤ rounds) :
    (wholeSeconds rounds seconds tick).1.toNat = (seconds.toNat + tick.toNat / 500) % 4294967296 ∧
      (wholeSeconds rounds seconds tick).2.toNat = tick.toNat % 500 := by
  induction rounds generalizing seconds tick with
  | zero =>
    have none_left : tick.toNat = 0 := Nat.le_zero.1 enough
    rw [wholeSeconds, none_left]
    exact ⟨(Nat.mod_eq_of_lt seconds.toNat_lt).symm, rfl⟩
  | succ rounds ih =>
    have reached : tick ≥ fclkSecond ↔ 500 ≤ tick.toNat := UInt32.le_iff_toNat_le
    rw [wholeSeconds]
    split
    next more =>
      have whole := reached.1 more
      have rest : (tick - fclkSecond).toNat = tick.toNat - 500 := UInt32.toNat_sub_of_le _ _ more
      obtain ⟨counted, left⟩ := @ih (tick - fclkSecond) (seconds + 1) (by omega)
      rw [rest] at counted left
      rw [UInt32.toNat_add, show UInt32.toNat 1 = 1 from rfl] at counted
      constructor
      · rw [counted]
        omega
      · rw [left]
        omega
    next less =>
      have few := Nat.not_le.1 (mt reached.2 less)
      rw [Nat.div_eq_of_lt few, Nat.mod_eq_of_lt few, Nat.add_zero]
      exact ⟨(Nat.mod_eq_of_lt seconds.toNat_lt).symm, rfl⟩

/-- So many ticks have been counted. -/
structure Advanced (s t : Clock) (ticks : Nat) : Prop where
  inSecond : s.InSecond → t.InSecond
  clock : s.currentClock.toNat + ticks < 18446744073709551616 → t.currentClock.toNat = s.currentClock.toNat + ticks
  right : s.Sound → s.currentClock.toNat + ticks < ticksOfSeconds → t.Right

theorem ticksOfSeconds_fit {ticks : Nat} (fits : ticks < ticksOfSeconds) : ticks < 18446744073709551616 :=
  fits.trans (by decide)

theorem Advanced.refl : Advanced s s 0 := ⟨id, fun _ => rfl, fun sound _ => sound.right⟩

theorem Advanced.trans {u : Clock} {m n : Nat} (first : Advanced s t m) (second : Advanced t u n) :
    Advanced s u (m + n) where
  inSecond := second.inSecond ∘ first.inSecond
  clock := by
    intro small
    have middle := first.clock (by omega)
    rw [second.clock (by omega), middle, Nat.add_assoc]
  right := by
    intro sound small
    have wide := ticksOfSeconds_fit small
    have middle := first.clock (by omega)
    exact second.right ⟨first.right sound (by omega), first.inSecond sound.inSecond⟩ (by omega)

theorem fclkFreertosUpdateTick_advanced (s : Clock) (tick : UInt32) :
    Advanced s (s.fclkFreertosUpdateTick tick) tick.toNat := by
  obtain ⟨counted, left⟩ := @wholeSeconds_spec tick tick.toNat s.currentSeconds (Nat.le_refl _)
  unfold fclkFreertosUpdateTick
  generalize wholeSeconds tick.toNat s.currentSeconds tick = result at counted left
  obtain ⟨seconds, rest⟩ := result
  simp only at counted left ⊢
  have clock : s.currentClock.toNat + tick.toNat < 18446744073709551616 →
      (s.currentClock + tick.toUInt64).toNat = s.currentClock.toNat + tick.toNat := by
    intro small
    rw [UInt64.toNat_add, UInt32.toNat_toUInt64, Nat.mod_eq_of_lt small]
  have most := s.currentSeconds.toNat_lt
  split
  next ends =>
    rw [UInt32.le_iff_toNat_le] at ends
    have into : (rest - s.secondCountdown).toNat = rest.toNat - s.secondCountdown.toNat :=
      UInt32.toNat_sub_of_le _ _ (UInt32.le_iff_toNat_le.2 ends)
    have countdown : (fclkSecond - (rest - s.secondCountdown)).toNat =
        500 - (rest.toNat - s.secondCountdown.toNat) := by
      rw [← into]
      apply UInt32.toNat_sub_of_le
      rw [UInt32.le_iff_toNat_le, into]
      change _ ≤ 500
      omega
    refine ⟨fun before => ⟨?_, ?_⟩, clock, fun sound small => ?_⟩
    · rw [countdown]
      omega
    · rw [countdown]
      exact Nat.sub_le _ _
    · have right := right_iff.1 sound.right
      have some_left := sound.inSecond.some
      simp only [ticksOfSeconds] at small
      have whole : s.currentSeconds.toNat + tick.toNat / 500 + 1 < 4294967296 := by omega
      have next : (seconds + 1).toNat = s.currentSeconds.toNat + tick.toNat / 500 + 1 := by
        rw [UInt32.toNat_add, counted, Nat.mod_eq_of_lt (Nat.lt_of_succ_lt whole)]
        exact Nat.mod_eq_of_lt whole
      rw [right_mk_iff, countdown, clock (ticksOfSeconds_fit small), next]
      omega
  next within =>
    have less := Nat.not_le.1 (mt UInt32.le_iff_toNat_le.2 within)
    have countdown : (s.secondCountdown - rest).toNat = s.secondCountdown.toNat - rest.toNat :=
      UInt32.toNat_sub_of_le _ _ (UInt32.le_iff_toNat_le.2 less.le)
    refine ⟨fun before => ⟨?_, ?_⟩, clock, fun sound small => ?_⟩
    · rw [countdown]
      omega
    · rw [countdown]
      exact (Nat.sub_le _ _).trans before.most
    · have right := right_iff.1 sound.right
      simp only [ticksOfSeconds] at small
      have most_left := sound.inSecond.most
      have whole : s.currentSeconds.toNat + tick.toNat / 500 < 4294967296 := by omega
      rw [right_mk_iff, countdown, clock (ticksOfSeconds_fit small), counted, Nat.mod_eq_of_lt whole]
      omega

theorem fclkUpdateTick_advanced (s : Clock) (tick : UInt32) : Advanced s (s.fclkUpdateTick tick) tick.toNat := by
  unfold fclkUpdateTick
  split
  next none_counted =>
    subst none_counted
    exact Advanced.refl
  · exact s.fclkFreertosUpdateTick_advanced tick

/-- The ticks that the tick interrupt counts. -/
def ticksOfHdl (build : Build) (s : Clock) (needPstick : Bool) (lost : UInt32) : Nat :=
  if build.tickCal ∧ ¬ build.lowVoltagePs ∧ ¬ needPstick then 0
  else if s.secondCountdown - 1 = 0 ∧ build.tickCal ∧ build.lowVoltagePs ∧ (s.currentSeconds + 1) % 15 = 0 then
    1 + lost.toNat
  else 1

/-- The tick itself, the second that it ends with it. -/
theorem tick_advanced (s : Clock) : Advanced s
    (if s.secondCountdown - 1 = 0 then ⟨s.currentClock + 1, s.currentSeconds + 1, fclkSecond⟩
      else ⟨s.currentClock + 1, s.currentSeconds, s.secondCountdown - 1⟩) 1 := by
  have clock : s.currentClock.toNat + 1 < 18446744073709551616 →
      (s.currentClock + 1).toNat = s.currentClock.toNat + 1 := by
    intro small
    rw [UInt64.toNat_add, show UInt64.toNat 1 = 1 from rfl, Nat.mod_eq_of_lt small]
  have most := s.currentSeconds.toNat_lt
  have countdown : s.InSecond → (s.secondCountdown - 1).toNat = s.secondCountdown.toNat - 1 := fun before =>
    UInt32.toNat_sub_of_le _ _ (UInt32.le_iff_toNat_le.2 before.some)
  split
  next last =>
    refine ⟨fun _ => ⟨Nat.lt_of_sub_eq_succ rfl, Nat.le_refl 500⟩, clock, fun sound small => ?_⟩
    have right := right_iff.1 sound.right
    have some_left := sound.inSecond.some
    have ends := countdown sound.inSecond
    rw [last, show UInt32.toNat 0 = 0 from rfl] at ends
    simp only [ticksOfSeconds] at small
    have whole : s.currentSeconds.toNat + 1 < 4294967296 := by omega
    have next : (s.currentSeconds + 1).toNat = s.currentSeconds.toNat + 1 :=
      (UInt32.toNat_add _ _).trans (Nat.mod_eq_of_lt whole)
    rw [right_mk_iff, clock (ticksOfSeconds_fit small), next, show fclkSecond.toNat = 500 from rfl]
    omega
  next more =>
    refine ⟨fun before => ⟨?_, ?_⟩, clock, fun sound small => ?_⟩
    · exact Nat.pos_of_ne_zero fun none_left => more (UInt32.toNat_inj.1 none_left)
    · rw [countdown before]
      exact (Nat.sub_le _ _).trans before.most
    · have right := right_iff.1 sound.right
      have some_left := sound.inSecond.some
      rw [right_mk_iff, clock (ticksOfSeconds_fit small), countdown sound.inSecond]
      omega

theorem fclkHdl_advanced (s : Clock) (needPstick : Bool) (lost : UInt32) :
    Advanced s (s.fclkHdl build needPstick lost) (s.ticksOfHdl build needPstick lost) := by
  unfold fclkHdl ticksOfHdl
  split
  · exact Advanced.refl
  have tick := s.tick_advanced
  simp only
  split
  next last =>
    rw [if_pos last] at tick
    by_cases calibrated : build.tickCal ∧ build.lowVoltagePs ∧ (s.currentSeconds + 1) % 15 = 0
    · rw [if_pos calibrated, if_pos ⟨last, calibrated⟩]
      exact tick.trans (fclkUpdateTick_advanced _ lost)
    · rw [if_neg calibrated, if_neg (fun both => calibrated both.2)]
      exact tick
  next more =>
    rw [if_neg more] at tick
    rw [if_neg (fun both => more both.1)]
    exact tick

/-! ## Runs -/

inductive Event where
  | tick (needPstick : Bool) (lost : UInt32)
  | update (tick : UInt32)
  | reset

def step (build : Build) : Event → Clock → Option Clock
  | .tick needPstick lost, s => some (s.fclkHdl build needPstick lost)
  | .update tick, s => some (s.fclkUpdateTick tick)
  | .reset, s => some s.fclkResetCount

/-- A reset falls on the beginning of a second, and the seconds fit their counter. -/
def Fine (build : Build) (s : Clock) : Event → Prop
  | .tick needPstick lost => s.currentClock.toNat + s.ticksOfHdl build needPstick lost < ticksOfSeconds
  | .update tick => s.currentClock.toNat + tick.toNat < ticksOfSeconds
  | .reset => s.secondCountdown = fclkSecond

instance (event : Event) : Decidable (Fine build s event) := by
  cases event <;> unfold Fine <;> infer_instance

variable {event : Event}

theorem start_sound : Sound start := ⟨by decide, ⟨by decide, by decide⟩⟩

theorem Sound.advanced {ticks : Nat} (sound : s.Sound) (advanced : Advanced s t ticks)
    (fits : s.currentClock.toNat + ticks < ticksOfSeconds) : t.Sound :=
  ⟨advanced.right sound fits, advanced.inSecond sound.inSecond⟩

/-- Ticks that make more seconds than there are cannot be told by the seconds. -/
theorem Sound.overrun {ticks : Nat} (sound : s.Sound) (advanced : Advanced s t ticks) (few : ticks ≤ 4294967296)
    (beyond : ¬ s.currentClock.toNat + ticks < ticksOfSeconds) : ¬ t.Right := by
  intro right
  have before := sound.inSecond.bound sound.right
  have bound := (advanced.inSecond sound.inSecond).bound right
  rw [advanced.clock (by rw [ticksOfSeconds] at before; omega)] at bound
  exact beyond bound

theorem ticksOfHdl_le {needPstick : Bool} : s.ticksOfHdl build needPstick lost ≤ 4294967296 := by
  have small := lost.toNat_lt
  unfold ticksOfHdl
  split
  · exact Nat.zero_le _
  · split <;> omega

theorem Sound.step (sound : s.Sound) (fine : Fine build s event) (taken : step build event s = some t) : t.Sound := by
  cases event with
  | tick needPstick lost =>
    obtain rfl := Option.some.inj taken
    exact sound.advanced (s.fclkHdl_advanced needPstick lost) fine
  | update tick =>
    obtain rfl := Option.some.inj taken
    exact sound.advanced (s.fclkUpdateTick_advanced tick) fine
  | reset =>
    obtain rfl := Option.some.inj taken
    refine ⟨?_, ⟨sound.inSecond.some, sound.inSecond.most⟩⟩
    rw [right_iff]
    change 500 * 0 + 500 = 0 + s.secondCountdown.toNat
    rw [show s.secondCountdown = fclkSecond from fine]
    rfl

theorem step_spoils (sound : s.Sound) (bad : ¬ Fine build s event) (taken : step build event s = some t) :
    ¬ t.Right := by
  cases event with
  | tick needPstick lost =>
    obtain rfl := Option.some.inj taken
    exact sound.overrun (s.fclkHdl_advanced needPstick lost) ticksOfHdl_le bad
  | update tick =>
    obtain rfl := Option.some.inj taken
    exact sound.overrun (s.fclkUpdateTick_advanced tick) tick.toNat_lt.le bad
  | reset =>
    obtain rfl := Option.some.inj taken
    rw [right_iff]
    change ¬ 500 * 0 + 500 = 0 + s.secondCountdown.toNat
    intro whole
    apply bad
    rw [Fine, ← UInt32.toNat_inj]
    exact (Nat.zero_add _).symm.trans whole.symm

/-! ## Results -/

/-- The seconds are right throughout a run if and only if every reset falls on the beginning of a second and
the seconds fit their counter. -/
theorem clock_right_iff {moments : List (Moment Clock Event)} {final : Clock}
    (run : Run (Machine.Step (step build)) start moments final) :
    Machine.Always Right moments final ↔ ∀ moment ∈ moments, Fine build moment.before moment.event :=
  @Machine.always_iff_of_invariant _ _ _ _ _ _ Sound Right (fun _ _ => True) (Fine build) run start_sound
    (fun _ sound => sound.right) (fun sound _ fine taken => sound.step fine taken)
    (fun sound _ bad taken => step_spoils sound bad taken) (fun _ _ => trivial)

/-- Sleep is compensated past the end of a second, and the reset falls on the end of the next one. -/
theorem clock_right_sample :
    ∃ moments final, Run (Machine.Step (step ⟨true, true⟩)) start moments final ∧
      moments.map Moment.event = [.update 3, .reset, .tick true 0, .update 1496, .tick true 0, .tick true 0,
        .tick true 0] ∧
      Machine.Always Right moments final := by
  obtain ⟨moments, final, run, events, fine, -⟩ := @Machine.run_of_fine _ _ (step ⟨true, true⟩) start
    (Fine ⟨true, true⟩) _ [.update 3, .reset, .tick true 0, .update 1496, .tick true 0, .tick true 0, .tick true 0]
    (fun state => state.secondCountdown = 497) (by decide)
  exact ⟨moments, final, run, events, (clock_right_iff run).2 fine⟩

/-- A reset after one tick leaves a second that is one tick short. -/
theorem reset_within_second :
    ∃ moments final, Run (Machine.Step (step ⟨false, false⟩)) start moments final ∧
      moments.map Moment.event = [.reset, .tick true 0] ∧ ¬ final.Right ∧ ¬ Machine.Always Right moments final := by
  obtain ⟨moments, final, run, events, shown⟩ := @Machine.run_of_any _ _ (step ⟨false, false⟩) start
    [.reset, .tick true 0] (fun state => ¬ state.Right) (by decide)
  have wrong := of_decide_eq_true shown
  exact ⟨moments, final, run, events, wrong, fun always => wrong always.2⟩

end Clock

end BekenSdk.FakeClock
