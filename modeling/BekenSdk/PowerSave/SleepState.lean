import BekenSdk.Base.Machine
import BekenSdk.PowerSave.Control

/-! The lock, the flag and the MAC agree on whether it sleeps, over calls, interrupts and
confirmations in any order, as long as power save is not disabled while it sleeps.
-/

set_option autoImplicit false

namespace BekenSdk.PowerSave
open Base

variable {soc7252n lvPs : Bool} {s : StaPs}

/-! ## The machine -/

inductive Event where
  | sleep (input : SleepInput)
  | macWakeup (status : UInt32)
  | manualWakeup (apIdle bleSwitchMacSleeped : Bool)
  | enableCfm (connected : Bool)
  /-- With `reboot` the watchdog restarts the device. -/
  | disableCfm (reboot : Bool)
  | beaconState (state : BeaconState)

/-- `none` inside is the end in a failed assertion. -/
def step (soc7252n lvPs : Bool) (event : Event) (s : Option StaPs) : Option (Option StaPs) :=
  match s, event with
  | none, _ => none
  | some s, .sleep input => some (some (s.powerSaveSleep soc7252n lvPs input).after)
  | some s, .macWakeup status => some (s.powerSaveDtimWake soc7252n lvPs status)
  | some s, .manualWakeup apIdle bleSwitchMacSleeped =>
    some (s.powerSaveRfDtimManualDoWakeup soc7252n lvPs apIdle bleSwitchMacSleeped)
  | some s, .enableCfm connected => some (some (s.powerSaveDtimEnableHandler connected))
  | some s, .disableCfm reboot => if reboot then none else some (some s.powerSaveDtimDisableHandler)
  | some s, .beaconState state => some (some (s.powerSaveBeaconStateSet state))

/-! ## What is claimed -/

structure Agrees (s : StaPs) : Prop where
  lock : s.psLock = 0 ∨ s.psLock = 1
  slept : s.psLock = 0 ↔ s.macSlept = true
  real : s.info.realSleep = 1 ↔ s.macSlept = true

/-- No assertion has failed, and the state agrees. -/
def Sound (s : Option StaPs) : Prop := ∃ ps, s = some ps ∧ Agrees ps

/-- A call of power_save_sleep does not end with "error ps", and what it does not put to sleep it leaves as it was. -/
def SleepKeeps (soc7252n lvPs : Bool) (s : Option StaPs) : Event → Prop
  | .sleep input =>
    ∀ ps ∈ s, (ps.powerSaveSleep soc7252n lvPs input).errorPs = false ∧
      ((ps.powerSaveSleep soc7252n lvPs input).after.macSlept = false →
        (ps.powerSaveSleep soc7252n lvPs input).after.intEnable = ps.intEnable ∧
          (ps.powerSaveSleep soc7252n lvPs input).after.radio.rcCntlStat = ps.radio.rcCntlStat ∧
          (ps.powerSaveSleep soc7252n lvPs input).after.radio.lvPsRfPrePwrDown = ps.radio.lvPsRfPrePwrDown)
  | _ => True

/-- Power save is disabled only when the MAC is not on record as sleeping. -/
def Fine (s : Option StaPs) : Event → Prop
  | .disableCfm _ => ∀ ps ∈ s, ps.info.realSleep ≠ 1
  | _ => True

/-! ## The radio -/

/-- The radio is on. -/
structure Radio.Awake (radio : Radio) : Prop where
  rc : radio.rcCntlStat = 0x09
  pre : radio.lvPsRfPrePwrDown = 0
  rf : radio.rfSleeped = false
  sta : radio.staRfSleeped = false

/-- The radio while the MAC sleeps: prepared for low voltage, off, or kept on by another holder. -/
def Radio.Rests (lvPs : Bool) (radio : Radio) : Prop :=
  (lvPs = true ∧ radio.lvPsRfPrePwrDown = 1 ∧ radio.rfSleeped = false) ∨
    radio.lvPsRfPrePwrDown = 0 ∧
      (radio.rfSleeped = true ∧ radio.staRfSleeped = true ∨ radio.rfSleeped = false ∧ radio.rcCntlStat = 0x09)

variable {radio : Radio}

theorem hold_ne_zero (status : UInt32) : status ||| rfHoldByStaBit ≠ 0 := by
  intro zero
  exact absurd (UInt32.or_eq_zero_iff.mp zero).2 (by decide)

/-- A radio that is on is on again when the MAC could not be put to sleep. -/
theorem prePwr_awake (awake : radio.Awake) :
    ((radio.prePwrDown lvPs).prePwrUp lvPs).rcCntlStat = radio.rcCntlStat ∧
      ((radio.prePwrDown lvPs).prePwrUp lvPs).lvPsRfPrePwrDown = radio.lvPsRfPrePwrDown ∧
      ((radio.prePwrDown lvPs).prePwrUp lvPs).Awake := by
  cases lvPs with
  | false => exact ⟨rfl, rfl, awake⟩
  | true => exact ⟨awake.rc.symm, awake.pre.symm, ⟨rfl, rfl, awake.rf, awake.sta⟩⟩

theorem rfWakeup_of_on (on : radio.rfSleeped = false) : radio.sctrlRfWakeup = radio := by
  rw [Radio.sctrlRfWakeup, on]
  rfl

theorem rfHoldBitSet_of_on (on : radio.rfSleeped = false) (bits : UInt32) :
    radio.rfHoldBitSet bits = { radio with rfHoldStatus := radio.rfHoldStatus ||| bits } := by
  unfold Radio.rfHoldBitSet
  dsimp only
  split
  · exact rfWakeup_of_on on
  · rfl

theorem awake_of_hold (awake : radio.Awake) (bits : UInt32) : (radio.rfHoldBitSet bits).Awake := by
  rw [rfHoldBitSet_of_on awake.rf]
  exact ⟨awake.rc, awake.pre, awake.rf, awake.sta⟩

theorem rests_of_hold (rests : radio.Rests lvPs) (bits : UInt32) : (radio.rfHoldBitSet bits).Rests lvPs := by
  rcases rests with ⟨low, pre, on⟩ | ⟨pre, ⟨off, sta⟩ | ⟨on, rc⟩⟩
  · rw [rfHoldBitSet_of_on on]
    exact .inl ⟨low, pre, on⟩
  · unfold Radio.rfHoldBitSet
    dsimp only
    split
    · rw [Radio.sctrlRfWakeup, if_pos off]
      exact .inr ⟨pre, .inr ⟨rfl, rfl⟩⟩
    · exact .inr ⟨pre, .inl ⟨off, sta⟩⟩
  · rw [rfHoldBitSet_of_on on]
    exact .inr ⟨pre, .inr ⟨on, rc⟩⟩

theorem rests_of_sleep (awake : radio.Awake) (apSleeps : Bool) :
    ((radio.prePwrDown lvPs).sctrlStaRfSleep lvPs true apSleeps).Rests lvPs := by
  have prepared (other : Radio) (rc : other.rcCntlStat = (radio.prePwrDown lvPs).rcCntlStat)
      (pre : other.lvPsRfPrePwrDown = (radio.prePwrDown lvPs).lvPsRfPrePwrDown)
      (rf : other.rfSleeped = (radio.prePwrDown lvPs).rfSleeped) : other.Rests lvPs := by
    cases lvPs with
    | false => exact .inr ⟨pre.trans awake.pre, .inr ⟨rf.trans awake.rf, rc.trans awake.rc⟩⟩
    | true => exact .inl ⟨rfl, pre, rf.trans awake.rf⟩
  have on : (radio.prePwrDown lvPs).rfSleeped = false := by
    cases lvPs <;> exact awake.rf
  unfold Radio.sctrlStaRfSleep Radio.rfHoldBitClr
  dsimp only
  split
  · split
    · unfold Radio.sctrlRfSleep
      dsimp only
      rw [on, if_neg Bool.false_ne_true]
      split
      · exact .inr ⟨rfl, .inl ⟨rfl, rfl⟩⟩
      next whole =>
        refine .inr ⟨?_, .inl ⟨rfl, rfl⟩⟩
        cases lvPs with
        | false => exact awake.pre
        | true => exact absurd ⟨rfl, rfl⟩ whole
    · exact prepared _ rfl rfl rfl
  · exact prepared _ rfl rfl rfl

theorem awake_of_wakeup (rests : radio.Rests lvPs) :
    ((if lvPs = true ∧ radio.lvPsRfPrePwrDown = 1 then radio.prePwrUp lvPs else radio).sctrlStaRfWakeup).Awake := by
  rcases rests with ⟨low, pre, on⟩ | ⟨pre, rest⟩
  · rw [if_pos ⟨low, pre⟩, Radio.prePwrUp, if_pos low]
    unfold Radio.sctrlStaRfWakeup
    split
    · rw [rfHoldBitSet_of_on (by exact on)]
      exact ⟨rfl, rfl, on, rfl⟩
    next sta => exact ⟨rfl, rfl, on, Bool.not_eq_true _ ▸ sta⟩
  · rw [if_neg fun both => absurd (pre.symm.trans both.2) (by decide)]
    unfold Radio.sctrlStaRfWakeup
    rcases rest with ⟨off, sta⟩ | ⟨on, rc⟩
    · rw [if_pos sta]
      unfold Radio.rfHoldBitSet
      dsimp only
      rw [if_pos (hold_ne_zero _), Radio.sctrlRfWakeup, if_pos off]
      exact ⟨rfl, pre, rfl, rfl⟩
    · split
      · rw [rfHoldBitSet_of_on on]
        exact ⟨rc, pre, on, rfl⟩
      next sta => exact ⟨rc, pre, on, Bool.not_eq_true _ ▸ sta⟩

/-! ## The invariant -/

/-- Awake with a free lock, or asleep with a taken one. -/
inductive Settled (lvPs : Bool) (s : StaPs) : Prop
  | awake (slept : s.macSlept = false) (lock : s.psLock = 1) (real : s.info.realSleep = 0) (radio : s.radio.Awake)
  | asleep (slept : s.macSlept = true) (lock : s.psLock = 0) (real : s.info.realSleep = 1) (radio : s.radio.Rests lvPs)

theorem Settled.agrees (settled : Settled lvPs s) : Agrees s := by
  cases settled with
  | awake slept lock real => exact ⟨.inr lock, by rw [lock, slept]; decide, by rw [real, slept]; decide⟩
  | asleep slept lock real => exact ⟨.inl lock, by rw [lock, slept]; decide, by rw [real, slept]; decide⟩

/-- What the sleep does not depend on may change. -/
theorem Settled.same {t : StaPs} (settled : Settled lvPs s) (slept : t.macSlept = s.macSlept)
    (lock : t.psLock = s.psLock)
    (real : t.info.realSleep = s.info.realSleep) (radio : t.radio = s.radio) : Settled lvPs t := by
  cases settled with
  | awake slept' lock' real' radio' =>
    exact .awake (slept.trans slept') (lock.trans lock') (real.trans real') (radio ▸ radio')
  | asleep slept' lock' real' radio' =>
    exact .asleep (slept.trans slept') (lock.trans lock') (real.trans real') (radio ▸ radio')

theorem sleep_spec (settled : Settled lvPs s) (input : SleepInput) :
    Settled lvPs (s.powerSaveSleep soc7252n lvPs input).after ∧
      (s.powerSaveSleep soc7252n lvPs input).errorPs = false ∧
      ((s.powerSaveSleep soc7252n lvPs input).after.macSlept = false →
        (s.powerSaveSleep soc7252n lvPs input).after.intEnable = s.intEnable ∧
          (s.powerSaveSleep soc7252n lvPs input).after.radio.rcCntlStat = s.radio.rcCntlStat ∧
          (s.powerSaveSleep soc7252n lvPs input).after.radio.lvPsRfPrePwrDown = s.radio.lvPsRfPrePwrDown) := by
  unfold StaPs.powerSaveSleep
  split
  · exact ⟨settled, rfl, fun _ => ⟨rfl, rfl, rfl⟩⟩
  next first =>
    -- past the first test the MAC is awake
    cases settled with
    | asleep slept lock real => exact absurd (.inl real) first
    | awake slept lock real radio =>
      split
      · exact ⟨.awake slept lock real radio, rfl, fun _ => ⟨rfl, rfl, rfl⟩⟩
      split
      · exact ⟨.awake slept lock real radio, rfl, fun _ => ⟨rfl, rfl, rfl⟩⟩
      split
      · exact ⟨.awake slept lock real radio, rfl, fun _ => ⟨rfl, rfl, rfl⟩⟩
      dsimp only
      split
      · obtain ⟨rc, pre, awake⟩ := @prePwr_awake lvPs s.radio radio
        exact ⟨.awake slept lock real awake, rfl, fun _ => ⟨rfl, rc, pre⟩⟩
      · rw [lock, if_neg (by decide)]
        exact ⟨.asleep rfl (by rfl) rfl (rests_of_sleep radio _), rfl, nofun⟩

/-- Once the way of waking is set a MAC that is on record as sleeping is woken. -/
theorem ieee_settled (settled : Settled lvPs s) :
    ∃ t, s.powerSaveIeeeDtimWakeup soc7252n lvPs = some t ∧ Settled lvPs t := by
  unfold StaPs.powerSaveIeeeDtimWakeup
  split
  next wakes =>
    cases settled with
    | awake slept lock real => exact absurd real wakes.2
    | asleep slept lock real radio =>
      rw [StaPs.powerSaveWakeup, if_pos lock]
      refine ⟨_, rfl, .awake rfl ?_ rfl (awake_of_wakeup radio)⟩
      dsimp only
      rw [lock]
      rfl
  · refine ⟨_, rfl, ?_⟩
    split
    · exact settled.same rfl rfl rfl rfl
    · exact settled

theorem wakeupIntOff_settled (settled : Settled lvPs s) : Settled lvPs (s.wakeupIntOff soc7252n) := by
  unfold StaPs.wakeupIntOff
  split
  · exact settled
  · exact settled.same rfl rfl rfl rfl

theorem dtimWake_settled (settled : Settled lvPs s) (status : UInt32) :
    ∃ t, s.powerSaveDtimWake soc7252n lvPs status = some t ∧ Settled lvPs t := by
  unfold StaPs.powerSaveDtimWake
  generalize (if soc7252n = true then fiqMacGeneral else macArmWakeupEnBit) = bits
  split
  · split
    · exact ieee_settled ((wakeupIntOff_settled settled).same rfl rfl rfl rfl)
    · exact ⟨s, rfl, settled⟩
  · exact ⟨s, rfl, settled⟩

theorem hold_settled (settled : Settled lvPs s) (bits : UInt32) :
    Settled lvPs { s with radio := s.radio.rfHoldBitSet bits } := by
  cases settled with
  | awake slept lock real radio => exact .awake slept lock real (awake_of_hold radio bits)
  | asleep slept lock real radio => exact .asleep slept lock real (rests_of_hold radio bits)

theorem manual_settled (settled : Settled lvPs s) (apIdle bleSwitchMacSleeped : Bool) :
    ∃ t, s.powerSaveRfDtimManualDoWakeup soc7252n lvPs apIdle bleSwitchMacSleeped = some t ∧ Settled lvPs t := by
  unfold StaPs.powerSaveRfDtimManualDoWakeup
  obtain ⟨held, same, settled⟩ : ∃ held : StaPs,
      (if apIdle = true then { s with radio := s.radio.rfHoldBitSet rfHoldByApBit } else s) = held ∧
      Settled lvPs held := by
    refine ⟨_, rfl, ?_⟩
    split
    · exact hold_settled settled _
    · exact settled
  rw [same]
  dsimp only
  split
  · exact ⟨held, rfl, settled⟩
  split
  · exact ieee_settled (wakeupIntOff_settled (settled.same rfl rfl rfl rfl))
  · exact ⟨held, rfl, settled⟩

theorem start_settled (intEnable intEnableRegSave armWakeupEn rfHoldStatus : UInt32) :
    Settled lvPs (start intEnable intEnableRegSave armWakeupEn rfHoldStatus) :=
  .awake rfl rfl rfl ⟨rfl, rfl, rfl, rfl⟩

/-! ## Steps and runs -/

theorem step_settled {t : Option StaPs} {event : Event} (settled : Settled lvPs s) (fine : Fine (some s) event)
    (taken : step soc7252n lvPs event (some s) = some t) : ∃ ps, t = some ps ∧ Settled lvPs ps := by
  cases event with
  | sleep input =>
    cases taken
    exact ⟨_, rfl, (sleep_spec settled input).1⟩
  | macWakeup status =>
    obtain ⟨ps, woken, settled⟩ := @dtimWake_settled soc7252n lvPs s settled status
    exact ⟨ps, (Option.some.inj taken).symm.trans woken, settled⟩
  | manualWakeup apIdle ble =>
    obtain ⟨ps, woken, settled⟩ := @manual_settled soc7252n lvPs s settled apIdle ble
    exact ⟨ps, (Option.some.inj taken).symm.trans woken, settled⟩
  | enableCfm connected =>
    cases taken
    refine ⟨_, rfl, ?_⟩
    unfold StaPs.powerSaveDtimEnableHandler
    split
    · exact settled.same rfl rfl rfl rfl
    · exact settled
  | disableCfm reboot =>
    cases reboot with
    | true => cases taken
    | false =>
      cases taken
      cases settled with
      | awake slept lock real radio => exact ⟨_, rfl, .awake slept lock rfl radio⟩
      | asleep slept lock real => exact absurd real (fine s rfl)
  | beaconState state =>
    cases taken
    exact ⟨_, rfl, settled.same rfl rfl rfl rfl⟩

/-- A disable confirmation while the MAC sleeps clears the flag and leaves the MAC asleep. -/
theorem step_spoiled {t : Option StaPs} {event : Event} (settled : Settled lvPs s) (bad : ¬Fine (some s) event)
    (taken : step soc7252n lvPs event (some s) = some t) : ¬Sound t := by
  cases event with
  | disableCfm reboot =>
    cases reboot with
    | true => cases taken
    | false =>
      cases taken
      rintro ⟨ps, same, agrees⟩
      cases same
      cases settled with
      | awake slept lock real =>
        refine bad fun ps same => ?_
        obtain rfl := Option.some.inj same
        rw [real]
        decide
      | asleep slept => exact absurd (agrees.real.mpr slept) (by decide : ¬(0 : UInt8) = 1)
  | sleep | macWakeup | manualWakeup | enableCfm | beaconState => exact absurd trivial bad

section Runs
variable {intEnable intEnableRegSave armWakeupEn rfHoldStatus : UInt32} {moments : List (Moment (Option StaPs) Event)}
  {final : Option StaPs}

/-- In every run the lock, the flag and the MAC agree, no assertion fails and the calls that do
not put the MAC to sleep leave everything as it was, if and only if power save is never disabled
while the MAC sleeps. -/
theorem sleep_sound_iff
    (run : Run (Machine.Step (step soc7252n lvPs)) (some (start intEnable intEnableRegSave armWakeupEn rfHoldStatus))
      moments final) :
    (Machine.Always Sound moments final ∧ ∀ moment ∈ moments, SleepKeeps soc7252n lvPs moment.before moment.event) ↔
      ∀ moment ∈ moments, Fine moment.before moment.event := by
  let inv (s : Option StaPs) : Prop := ∃ ps, s = some ps ∧ Settled lvPs ps
  have initial : inv (some (start intEnable intEnableRegSave armWakeupEn rfHoldStatus)) :=
    ⟨_, rfl, start_settled _ _ _ _⟩
  have preserved {s t : Option StaPs} {event : Event} (kept : inv s) (fine : Fine s event)
      (taken : step soc7252n lvPs event s = some t) : inv t := by
    obtain ⟨ps, rfl, settled⟩ := kept
    exact step_settled settled fine taken
  have sound := @Machine.always_iff_of_invariant _ _ _ _ _ _ inv Sound (fun _ _ => True) Fine run initial
    (fun s ⟨ps, same, settled⟩ => ⟨ps, same, settled.agrees⟩) (fun kept _ fine taken => preserved kept fine taken)
    (fun ⟨ps, same, settled⟩ _ bad taken => by
      subst same
      exact step_spoiled settled bad taken)
    fun _ _ => trivial
  refine ⟨fun both => sound.mp both.1, fun fine => ⟨sound.mpr fine, fun moment member => ?_⟩⟩
  have always := @Machine.always_of_invariant _ _ _ _ _ _ inv Fine run initial
    (fun kept fine taken => preserved kept fine taken) fine
  obtain ⟨ps, before, settled⟩ := always.1 moment member
  rw [before]
  cases moment.event with
  | sleep input =>
    intro other same
    obtain rfl := Option.some.inj same
    exact (sleep_spec settled input).2
  | macWakeup | manualWakeup | enableCfm | disableCfm | beaconState => trivial

end Runs

/-! ## Sample runs -/

/-- The call that finds a beacon received and no interrupt pending, and whose MAC goes to sleep. -/
def sleeps : Event := .sleep ⟨false, true, true, false, 0, true, true⟩

/-- Power save is enabled, the MAC sleeps and is woken, and power save is disabled; the latest event first. -/
def sleptAndWoken : List Event :=
  [.disableCfm false, .macWakeup macArmWakeupEnBit, sleeps, .beaconState .getTrue, .enableCfm true]

instance (s : Option StaPs) (event : Event) : Decidable (Fine s event) := by
  cases event <;> unfold Fine <;> infer_instance

theorem woken_sound :
    ∃ moments final, Run (Machine.Step (step false true)) (some (start 0xFFFFFFFF 0 0 1)) moments final ∧
      moments.map Moment.event = sleptAndWoken ∧
      Machine.Always Sound moments final ∧ ∀ moment ∈ moments, SleepKeeps false true moment.before moment.event := by
  have found : (Machine.replay (Machine.guarded Fine (step false true)) (some (start 0xFFFFFFFF 0 0 1))
      sleptAndWoken).any Option.isSome = true := by
    decide
  obtain ⟨moments, final, run, same, fine, _⟩ := Machine.run_of_fine found
  exact ⟨moments, final, run, same, (sleep_sound_iff run).mpr fine⟩

/-- Power save is disabled while the MAC sleeps. -/
theorem disabled_asleep :
    ¬∀ (moments : List (Moment (Option StaPs) Event)) (final : Option StaPs),
      Run (Machine.Step (step false true)) (some (start 0xFFFFFFFF 0 0 1)) moments final →
        Machine.Always Sound moments final ∧ ∀ moment ∈ moments, SleepKeeps false true moment.before moment.event := by
  intro all
  have found : (Machine.replay (step false true) (some (start 0xFFFFFFFF 0 0 1))
      [.disableCfm false, sleeps, .beaconState .getTrue, .enableCfm true]).any
      (fun s => s.any fun ps => ps.macSlept = true ∧ ps.info.realSleep = 0) = true := by
    decide
  obtain ⟨moments, final, run, _, shown⟩ := Machine.run_of_any found
  obtain ⟨ps, same, agrees⟩ := (all moments final run).1.2
  rw [same] at shown
  obtain ⟨slept, real⟩ := of_decide_eq_true (Option.any_some.symm.trans shown)
  exact absurd (real.symm.trans (agrees.real.mpr slept)) (by decide)

end BekenSdk.PowerSave
