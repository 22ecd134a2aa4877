import BekenSdk.LvPs.Elements

/-! When low-voltage sleep ends: the target time made for the next beacon
(lv_ps_calc_sleep_duration with NO_WAIT) and the period of the slow-clock timer for a target time.
Signed products wrap as they do on the core. The records for debugging are not modelled.
-/

set_option autoImplicit false

namespace BekenSdk.LvPs

/-! ## The next beacon -/

/-- PS_DTIM_COUNT, with CFG_LOW_VOLTAGE_PS. -/
def psDtimCount : UInt8 := 30

/-- CELL_DURATION. -/
def cellDuration : UInt32 := 1000

/-- The listen interval that is kept. -/
def powerSaveSetListenInt (listenInt : UInt16) : UInt8 :=
  if listenInt > 100 ∨ listenInt = 0 then psDtimCount else listenInt.toUInt8

/-- Times are in microseconds. -/
structure Beacon where
  lvPsBeaconInterval : UInt32
  lvPsBeaconCntAfterWakeup : UInt32
  lvPsBcnContMissBcnCount : UInt32
  lvPsBcnRxdLocalTime : UInt64
  lvPsTbttToRxdTime : UInt32
  lvPsWakeupMacTimepoint : UInt64
  lvPsPreLeadWakeupDuration : Int32
  lvPsWinPriCompensationFactor : UInt32
  lvPsWinPostCompensationFactor : UInt32
  lvcGeneralSleepFlag : UInt32

namespace Beacon

def powerSaveCalBcnListenInt (b : Beacon) (bcnInt : UInt16) : Beacon :=
  if bcnInt ≠ 0 then { b with lvPsBeaconInterval := bcnInt.toUInt32 <<< 10 } else b

/-- LEAD_FORCE_TIME is 0. -/
def preLead (leadValue : Int32) (winPri : UInt32) : Int32 := (leadValue.toUInt32 + winPri * cellDuration).toInt32

/-- In ticks of the slow clock. -/
def duration (listenInterval interval distance : UInt32) (preLead : Int32) : Int32 :=
  32 * (listenInterval * interval - distance - preLead.toUInt32).toInt32 / 1000

/-- A beacon was received since the wake-up. -/
def durationReceived (b : Beacon) (listenInterval : UInt32) (leadValue : Int32) (now : UInt64) : Int32 × Beacon :=
  let winPri := if b.lvPsBcnContMissBcnCount ≠ 0 then 1 else 0
  let distance := (now - b.lvPsBcnRxdLocalTime + b.lvPsTbttToRxdTime.toUInt64).toUInt32
  let lead := preLead leadValue winPri
  (duration listenInterval b.lvPsBeaconInterval (distance % b.lvPsBeaconInterval) lead,
    { b with
      lvPsWinPriCompensationFactor := winPri
      lvPsWinPostCompensationFactor := 0
      lvPsPreLeadWakeupDuration := lead
      lvcGeneralSleepFlag := 1
      lvPsBcnContMissBcnCount := 0 })

/-- None was. -/
def durationMissed (b : Beacon) (listenInterval : UInt32) (leadValue : Int32) (now : UInt64) : Int32 × Beacon :=
  let delta := (now - b.lvPsWakeupMacTimepoint).toUInt32.toInt32
  let distance :=
    if b.lvPsPreLeadWakeupDuration > delta then 0 else (delta - b.lvPsPreLeadWakeupDuration).toUInt32
  let winPri := b.lvPsBcnContMissBcnCount + 1
  let lead := preLead leadValue winPri
  (duration listenInterval b.lvPsBeaconInterval (distance % b.lvPsBeaconInterval) lead,
    { b with
      lvPsWinPriCompensationFactor := winPri
      lvPsWinPostCompensationFactor := b.lvPsBcnContMissBcnCount * 2
      lvPsPreLeadWakeupDuration := lead
      lvcGeneralSleepFlag := 0
      lvPsBcnContMissBcnCount := b.lvPsBcnContMissBcnCount + 1 })

def calcDuration (b : Beacon) (listenInt : UInt8) (leadValue : Int32) (now : UInt64) : Int32 × Beacon :=
  let (ticks, next) :=
    if b.lvPsBeaconCntAfterWakeup ≠ 0 then b.durationReceived listenInt.toUInt32 leadValue now
    else b.durationMissed listenInt.toUInt32 leadValue now
  (if ticks < 0 then 0 else ticks, next)

/-- A tick is 31.25 us. -/
def targetTime (now : UInt64) (ticks : Int32) : UInt64 :=
  now + (((62 : Int32) * ticks + (ticks >>> 1)) >>> 1).toInt64.toUInt64

end Beacon

/-- lv_ps_calc_sleep_duration with the element that it pushes. -/
def State.calcSleepDuration (s : State) (b : Beacon) (listenInt : UInt8) (leadValue : Int32) (now : UInt64) :
    Int32 × State × Beacon :=
  let (ticks, next) := b.calcDuration listenInt leadValue now
  (ticks, s.lvPsCalcSleepDuration (Beacon.targetTime now ticks), next)

/-! ## What is claimed -/

/-- Microseconds from the last TBTT on. -/
def Beacon.elapsed (b : Beacon) (now : UInt64) : Nat :=
  (now - b.lvPsBcnRxdLocalTime).toNat + b.lvPsTbttToRxdTime.toNat

/-- Microseconds until the wake-up, when the last TBTT was so long ago. -/
def waitFor (listenInterval interval elapsed : Nat) (lead : Int) : Int :=
  (listenInterval * interval : Nat) - (elapsed % interval : Nat) - lead

/-- The target is at most two ticks before the instant and never after it, or at once when the instant is past. -/
def OnTime (slept : Nat) (wait : Int) : Prop :=
  if wait < 0 then slept = 0 else slept ≤ wait ∧ 2 * wait ≤ 2 * slept + 125

/-- The product fits 32 bits, and so does the elapsed time, as far as its remainder goes; or
the wake-up is due both in truth and for the program. -/
def Fits (wait computed : Int) : Prop :=
  computed < 2 ^ 26 ∧ (computed < -2 ^ 26 → (32 * computed).bmod (2 ^ 32) < 1000) ∧
    (computed = wait ∨ wait ≤ 62 ∧ computed ≤ 31)

instance (slept : Nat) (wait : Int) : Decidable (OnTime slept wait) := by
  unfold OnTime
  infer_instance

instance (wait computed : Int) : Decidable (Fits wait computed) := inferInstanceAs (Decidable (_ ∧ _ ∧ _))

/-! ## 32-bit arithmetic -/

theorem scaled_toInt (listenInterval interval distance : UInt32) (lead : Int32) :
    (32 * (listenInterval * interval - distance - lead.toUInt32).toInt32).toInt =
      (32 * ((listenInterval.toNat * interval.toNat : Nat) - distance.toNat - lead.toInt : Int)).bmod (2 ^ 32) := by
  have whole : 32 * (listenInterval * interval - distance - lead.toUInt32).toInt32 =
      Int32.ofInt (32 * ((listenInterval.toNat * interval.toNat : Nat) - distance.toNat - lead.toInt : Int)) := by
    have signed (u : UInt32) : u.toInt32 = Int32.ofInt u.toNat := by
      rw [Int32.ofInt_eq_ofNat, ← UInt32.toInt32_ofNat', UInt32.ofNat_toNat]
    rw [Int32.ofInt_mul, Int32.ofInt_sub, Int32.ofInt_sub, Int.natCast_mul, Int32.ofInt_mul, Int32.ofInt_toInt,
      ← signed,
      ← signed, ← signed]
    rfl
  rw [whole]
  exact Int32.toInt_ofInt

theorem halve_toInt (i : Int32) : (i >>> 1).toInt = i.toInt / 2 := by
  have shifted : (i >>> 1).toInt = i.toInt >>> (1 : Nat) := BitVec.toInt_sshiftRight'
  rw [shifted, Int.shiftRight_eq_div_pow]
  rfl

theorem wide_toNat {i : Int32} (nonneg : 0 ≤ i.toInt) : (i.toInt64.toUInt64.toNat : Int) = i.toInt := by
  have same : i.toInt64.toInt = i.toInt := Int32.toInt_toInt64 i
  rw [Int64.toNat_toUInt64_of_le]
  · rw [← same]
    exact Int.toNat_of_nonneg (same ▸ nonneg)
  · exact Int64.le_iff_toInt_le.mpr (same ▸ nonneg)

theorem div_toInt (i : Int32) : (i / 1000).toInt = i.toInt.tdiv 1000 := Int32.toInt_div_of_ne_right _ _ (by decide)

/-- Microseconds of so many ticks, rounded down twice. -/
theorem targetTime_sub {now : UInt64} {ticks : Int32} (nonneg : 0 ≤ ticks.toInt) (small : ticks.toInt ≤ 2147483) :
    (((Beacon.targetTime now ticks - now).toNat : Nat) : Int) = (62 * ticks.toInt + ticks.toInt / 2) / 2 := by
  have behind : Beacon.targetTime now ticks - now =
    (((62 : Int32) * ticks + (ticks >>> 1)) >>> 1).toInt64.toUInt64 := by
    rw [Beacon.targetTime, UInt64.add_comm]
    exact UInt64.add_sub_cancel _ _
  have product : ((62 : Int32) * ticks).toInt = 62 * ticks.toInt := by
    rw [Int32.toInt_mul]
    apply Int.bmod_eq_of_le
    · change -(2 ^ 32 / 2) ≤ 62 * ticks.toInt
      omega
    · change 62 * ticks.toInt < (2 ^ 32 + 1) / 2
      omega
  have sum : ((62 : Int32) * ticks + (ticks >>> 1)).toInt = 62 * ticks.toInt + ticks.toInt / 2 := by
    rw [Int32.toInt_add, product, halve_toInt]
    apply Int.bmod_eq_of_le
    · change -(2 ^ 32 / 2) ≤ 62 * ticks.toInt + ticks.toInt / 2
      omega
    · change 62 * ticks.toInt + ticks.toInt / 2 < (2 ^ 32 + 1) / 2
      omega
  have half : (((62 : Int32) * ticks + (ticks >>> 1)) >>> 1).toInt = (62 * ticks.toInt + ticks.toInt / 2) / 2 := by
    rw [halve_toInt, sum]
  rw [behind, wide_toNat (by rw [half]; omega), half]

/-- The ticks of a product, never negative. -/
theorem clip_tdiv (p : Int) : (if p.tdiv 1000 < 0 then 0 else p.tdiv 1000) = if p < 0 then 0 else p / 1000 := by
  rcases lt_or_ge p 0 with negative | nonneg
  · have below : p.tdiv 1000 ≤ 0 := by
      have flipped : (-p).tdiv 1000 = -p.tdiv 1000 := Int.neg_tdiv p 1000
      have high : 0 ≤ (-p).tdiv 1000 := Int.tdiv_nonneg (by omega) (by decide)
      omega
    rw [if_pos negative]
    split
    · rfl
    · omega
  · rw [Int.tdiv_eq_ediv_of_nonneg nonneg, if_neg (Int.not_lt.mpr nonneg), if_neg]
    omega

theorem slept_bounds {ticks slept : Int} (rounded : slept = (62 * ticks + ticks / 2) / 2) :
    125 * ticks ≤ 4 * slept + 3 ∧ 4 * slept ≤ 125 * ticks := by
  omega

theorem onTime_iff {wait computed k : Int} {slept : Nat} (near : computed = wait + 1024 * k)
    (close : -67106816 ≤ 1024 * k ∧ 1024 * k ≤ 67106816)
    (rounded : (slept : Int) =
      (62 * (if (32 * computed).bmod (2 ^ 32) < 0 then 0 else (32 * computed).bmod (2 ^ 32) / 1000) +
        (if (32 * computed).bmod (2 ^ 32) < 0 then 0 else (32 * computed).bmod (2 ^ 32) / 1000) / 2) / 2) :
    OnTime slept wait ↔ Fits wait computed := by
  unfold OnTime Fits
  have low := @Int.le_bmod (32 * computed) (2 ^ 32) (by decide)
  have high := @Int.bmod_lt (32 * computed) (2 ^ 32) (by decide)
  have same : ∃ q, (32 * computed).bmod (2 ^ 32) = 32 * computed - 4294967296 * q := by
    refine ⟨(32 * computed - (32 * computed).bmod (2 ^ 32)) / 4294967296, ?_⟩
    have whole := @Int.dvd_self_sub_bmod (32 * computed) (2 ^ 32)
    have cancel := Int.mul_ediv_cancel' whole
    have power : ((2 ^ 32 : Nat) : Int) = 4294967296 := rfl
    rw [power] at cancel
    rw [cancel]
    omega
  obtain ⟨q, same⟩ := same
  generalize (32 * computed).bmod (2 ^ 32) = p at *
  have lowP : -2147483648 ≤ p := low
  have highP : p < 2147483648 := high
  clear low high
  by_cases due : p < 0
  · rw [if_pos due] at rounded
    have none_slept : slept = 0 := by omega
    split
    · omega
    · omega
  · rw [if_neg due] at rounded
    have bounds := @slept_bounds (p / 1000) slept rounded
    clear rounded
    generalize tick : p / 1000 = ticks at *
    have floor : 1000 * ticks ≤ p ∧ p < 1000 * ticks + 1000 := by omega
    clear tick
    -- what the wraps take away is a multiple of 1024, and the target is not that far off
    have exact : (slept : Int) ≤ wait → 2 * wait ≤ 2 * slept + 125 → k = 131072 * q := by
      intro before near
      have small : -200 < 1024 * (k - 131072 * q) ∧ 1024 * (k - 131072 * q) < 200 := by omega
      omega
    split
    · omega
    · constructor
      · rintro ⟨before, near⟩
        have whole := exact before near
        have none_lost : q = 0 := by omega
        omega
      · rintro ⟨less, -, near⟩
        have none_lost : -67108864 ≤ computed → q = 0 := fun more => by omega
        omega

/-! ## The target -/

variable {b : Beacon} {listenInt bcnInt : UInt16} {leadValue : Int32} {now : UInt64}

theorem interval_toNat (set : bcnInt ≠ 0) :
    (b.powerSaveCalBcnListenInt bcnInt).lvPsBeaconInterval.toNat = bcnInt.toNat * 1024 := by
  have small := bcnInt.toNat_lt
  rw [Beacon.powerSaveCalBcnListenInt, if_pos set]
  change (bcnInt.toUInt32 <<< 10).toNat = _
  rw [UInt32.toNat_shiftLeft, UInt16.toNat_toUInt32, Nat.shiftLeft_eq]
  exact Nat.mod_eq_of_lt (by change bcnInt.toNat * 1024 < 2 ^ 32; omega)

/-- What the elapsed time is in 32 bits. -/
theorem distance_toNat :
    (now - b.lvPsBcnRxdLocalTime + b.lvPsTbttToRxdTime.toUInt64).toUInt32.toNat = b.elapsed now % 2 ^ 32 := by
  rw [UInt64.toNat_toUInt32, UInt64.toNat_add, UInt32.toNat_toUInt64, Beacon.elapsed]
  exact Nat.mod_mod_of_dvd _ (by decide)

/-- Beacon intervals are whole TU, and so are 32 bits: the remainders differ by some. -/
theorem waitFor_truncated {listen elapsed : Nat} {lead : Int} (set : bcnInt ≠ 0) :
    ∃ k : Int, waitFor listen (bcnInt.toNat * 1024) (elapsed % 2 ^ 32) lead =
        waitFor listen (bcnInt.toNat * 1024) elapsed lead + 1024 * k ∧
      -67106816 ≤ 1024 * k ∧ 1024 * k ≤ 67106816 := by
  have small := bcnInt.toNat_lt
  have positive : 0 < bcnInt.toNat := Nat.pos_of_ne_zero fun zero => set (UInt16.toNat_inj.mp zero)
  have unit : 1024 ∣ bcnInt.toNat * 1024 := Nat.dvd_mul_left _ _
  have same : elapsed % 2 ^ 32 % (bcnInt.toNat * 1024) % 1024 = elapsed % (bcnInt.toNat * 1024) % 1024 := by
    rw [Nat.mod_mod_of_dvd _ unit, Nat.mod_mod_of_dvd _ unit, Nat.mod_mod_of_dvd _ (by decide)]
  have whole := Nat.mod_lt elapsed (Nat.mul_pos positive (by decide : 0 < 1024))
  have truncated := Nat.mod_lt (elapsed % 2 ^ 32) (Nat.mul_pos positive (by decide : 0 < 1024))
  unfold waitFor
  generalize elapsed % 2 ^ 32 % (bcnInt.toNat * 1024) = r at *
  generalize elapsed % (bcnInt.toNat * 1024) = r' at *
  refine ⟨((r' : Int) - r) / 1024, ?_, ?_, ?_⟩
  · omega
  · omega
  · omega

/-- The target is on time exactly when the arithmetic fits. -/
theorem target_onTime (set : bcnInt ≠ 0) (received : b.lvPsBeaconCntAfterWakeup ≠ 0) :
    let g := b.powerSaveCalBcnListenInt bcnInt
    let listen := powerSaveSetListenInt listenInt
    let result := g.calcDuration listen leadValue now
    let lead := result.2.lvPsPreLeadWakeupDuration.toInt
    OnTime (Beacon.targetTime now result.1 - now).toNat
        (waitFor listen.toNat (bcnInt.toNat * 1024) (b.elapsed now) lead) ↔
      Fits (waitFor listen.toNat (bcnInt.toNat * 1024) (b.elapsed now) lead)
        (waitFor listen.toNat (bcnInt.toNat * 1024) (b.elapsed now % 2 ^ 32) lead) := by
  intro g listen result lead
  have interval : g.lvPsBeaconInterval.toNat = bcnInt.toNat * 1024 := interval_toNat set
  have received' : g.lvPsBeaconCntAfterWakeup ≠ 0 := by
    unfold g Beacon.powerSaveCalBcnListenInt
    rwa [if_pos set]
  have distance : (now - g.lvPsBcnRxdLocalTime + g.lvPsTbttToRxdTime.toUInt64).toUInt32.toNat =
    b.elapsed now % 2 ^ 32 := by
    unfold g Beacon.powerSaveCalBcnListenInt
    rw [if_pos set]
    exact distance_toNat
  have ticks : result.1 = if (g.durationReceived listen.toUInt32 leadValue now).1 < 0 then 0
      else (g.durationReceived listen.toUInt32 leadValue now).1 := by
    unfold result Beacon.calcDuration
    rw [if_pos received']
  have scaled : (g.durationReceived listen.toUInt32 leadValue now).1.toInt =
      ((32 * waitFor listen.toNat (bcnInt.toNat * 1024) (b.elapsed now % 2 ^ 32) lead).bmod (2 ^ 32)).tdiv 1000 := by
    have same : lead = (g.durationReceived listen.toUInt32 leadValue now).2.lvPsPreLeadWakeupDuration.toInt := by
      unfold lead result Beacon.calcDuration
      rw [if_pos received']
    rw [same]
    unfold Beacon.durationReceived Beacon.duration
    dsimp only
    rw [div_toInt, scaled_toInt, UInt32.toNat_mod, distance, interval]
    rfl
  obtain ⟨k, near, close⟩ := @waitFor_truncated bcnInt listen.toNat (b.elapsed now) lead set
  generalize waitFor listen.toNat (bcnInt.toNat * 1024) (b.elapsed now) lead = wait at near ⊢
  generalize waitFor listen.toNat (bcnInt.toNat * 1024) (b.elapsed now % 2 ^ 32) lead = computed at near scaled ⊢
  have clipped : result.1.toInt =
      if (32 * computed).bmod (2 ^ 32) < 0 then 0 else (32 * computed).bmod (2 ^ 32) / 1000 := by
    rw [← clip_tdiv, ticks, ← scaled]
    have sign : (g.durationReceived listen.toUInt32 leadValue now).1 < 0 ↔
        (g.durationReceived listen.toUInt32 leadValue now).1.toInt < 0 := Int32.lt_iff_toInt_lt
    by_cases negative : (g.durationReceived listen.toUInt32 leadValue now).1 < 0
    · rw [if_pos negative, if_pos (sign.mp negative)]
      rfl
    · rw [if_neg negative, if_neg fun less => negative (sign.mpr less)]
  have high : (32 * computed).bmod (2 ^ 32) < 2147483648 := Int.bmod_lt (by decide)
  have nonneg : 0 ≤ result.1.toInt := by
    rw [clipped]
    split
    · exact Int.le_refl 0
    · omega
  have small : result.1.toInt ≤ 2147483 := by
    rw [clipped]
    split
    · decide
    · omega
  apply onTime_iff near close
  rw [← clipped]
  exact targetTime_sub nonneg small

/-! ## The timer -/

variable {s : State} {offset : UInt32} {readNow target low high : UInt64}

/-- The period for a target time; the clock is read again for the rest of the way. -/
def roscPeriod (s : State) (offset : UInt32) (readNow now target : UInt64) : UInt32 :=
  ({ s with lvPsTargetTime := target }.lvPsCalcRoscPeriod offset readNow now).1

/-- 0, or no longer than the ticks until the target less the offset. -/
def NotLonger (period offset : UInt32) (now target : UInt64) : Prop :=
  period = 0 ∨ 1000 * ((period.toNat + offset.toNat : Nat) : Int) ≤ 32 * ((target.toNat : Int) - now.toNat)

/-- The periods for the targets between two times. -/
def Ordered (s : State) (offset : UInt32) (readNow now low high : UInt64) : Prop :=
  ∀ earlier later : UInt64, low ≤ earlier → earlier ≤ later → later ≤ high →
    NotLonger (roscPeriod s offset readNow now earlier) offset now earlier ∧
      NotLonger (roscPeriod s offset readNow now later) offset now later ∧
      roscPeriod s offset readNow now earlier ≤ roscPeriod s offset readNow now later

/-- 2^32 ticks. -/
def roscLimit : Nat := 134217728000

/-- The period when the ticks fit. -/
def ticksLess (offset ticks : Nat) : Nat := if ticks < 128 + offset then 0 else ticks - offset

theorem ticksLess_mono {offset a b : Nat} (less : a ≤ b) : ticksLess offset a ≤ ticksLess offset b := by
  unfold ticksLess
  split
  · exact Nat.zero_le _
  · rw [if_neg (by omega)]
    omega

theorem ticks_toNat (near : target.toNat - now.toNat < 2 ^ 59) (before : now ≤ target) :
    (32 * (target - now) / 1000).toUInt32.toNat = 32 * (target.toNat - now.toNat) / 1000 % 2 ^ 32 := by
  have thousand : (1000 : UInt64).toNat = 1000 := rfl
  have scale : (32 : UInt64).toNat = 32 := rfl
  have fits : 32 * (target.toNat - now.toNat) < 2 ^ 64 := by omega
  rw [UInt64.toNat_toUInt32, UInt64.toNat_div, UInt64.toNat_mul, UInt64.toNat_sub_of_le _ _ before, thousand, scale,
    Nat.mod_eq_of_lt fits]

theorem sleepTime_toNat {ticks : UInt32} (small : offset ≤ 48) :
    let sleepTime := if ticks > offset then ticks - offset else 0
    (if sleepTime < mcuSleepDurationMin.toUInt32 * 32 then (0 : UInt32) else sleepTime).toNat =
      ticksLess offset.toNat ticks.toNat := by
  intro sleepTime
  have bound : offset.toNat ≤ 48 := small
  have least : (mcuSleepDurationMin.toUInt32 * 32).toNat = 128 := rfl
  unfold ticksLess sleepTime
  by_cases above : ticks > offset
  · have more : offset.toNat < ticks.toNat := UInt32.lt_iff_toNat_lt.mp above
    have rest := UInt32.toNat_sub_of_le _ _ (UInt32.le_of_lt above)
    rw [if_pos above]
    by_cases short : ticks - offset < mcuSleepDurationMin.toUInt32 * 32
    · have less := UInt32.lt_iff_toNat_lt.mp short
      rw [rest, least] at less
      rw [if_pos short, if_pos (by omega)]
      rfl
    · have least_there := Nat.not_lt.mp (fun less => short (UInt32.lt_iff_toNat_lt.mpr less))
      rw [rest, least] at least_there
      rw [if_neg short, if_neg (by omega), rest]
  · have less : ticks.toNat ≤ offset.toNat := Nat.not_lt.mp fun more => above (UInt32.lt_iff_toNat_lt.mpr more)
    rw [if_neg above, if_pos (by decide), if_pos (by omega)]
    rfl

/-- The test for 4 ms, for a target that is not before both. -/
theorem early_iff (first : readNow ≤ now) (soon : now.toNat ≤ readNow.toNat + 4000)
    (sound : 4000 ≤ target ∨ now ≤ target) :
    readNow > target - mcuSleepDurationMin * 1000 ↔ target.toNat < readNow.toNat + 4000 ∧ 4000 ≤ target.toNat := by
  have four : (mcuSleepDurationMin * 1000).toNat = 4000 := rfl
  have order : readNow.toNat ≤ now.toNat := first
  have less : readNow > target - mcuSleepDurationMin * 1000 ↔
      (target - mcuSleepDurationMin * 1000).toNat < readNow.toNat := UInt64.lt_iff_toNat_lt
  rw [less]
  by_cases far : 4000 ≤ target.toNat
  · have within : mcuSleepDurationMin * 1000 ≤ target := UInt64.le_iff_toNat_le.mpr far
    rw [UInt64.toNat_sub_of_le _ _ within, four]
    omega
  · have ahead : now.toNat ≤ target.toNat := sound.resolve_left far
    have small := target.toNat_lt
    rw [UInt64.toNat_sub, four]
    omega

theorem roscPeriod_late (late : ¬readNow > target - mcuSleepDurationMin * 1000) :
    roscPeriod s offset readNow now target =
      (let ticks := (32 * (target - now) / 1000).toUInt32
      let sleepTime := if ticks > offset then ticks - offset else 0
      if sleepTime < mcuSleepDurationMin.toUInt32 * 32 then 0 else sleepTime) := by
  unfold roscPeriod State.lvPsCalcRoscPeriod
  rw [if_neg late]
  unfold State.lvPsGetSleepDuration
  dsimp only
  generalize (if (32 * (target - now) / 1000).toUInt32 > offset then _ else _ : UInt32) = sleepTime
  split
  · rfl
  · rfl

/-- The period, in the plain numbers. -/
theorem roscPeriod_toNat (small : offset ≤ 48) (first : readNow ≤ now) (soon : now.toNat ≤ readNow.toNat + 4000)
    (sound : 4000 ≤ target ∨ now ≤ target) (near : target.toNat - now.toNat < 2 ^ 59) :
    (roscPeriod s offset readNow now target).toNat =
      if target.toNat < readNow.toNat + 4000 then 0
      else ticksLess offset.toNat (32 * (target.toNat - now.toNat) / 1000 % 2 ^ 32) := by
  have early := early_iff first soon sound
  have order : readNow.toNat ≤ now.toNat := first
  by_cases due : readNow > target - mcuSleepDurationMin * 1000
  · unfold roscPeriod State.lvPsCalcRoscPeriod
    rw [if_pos due, if_pos (early.mp due).1]
    rfl
  · have ahead : now ≤ target := by
      apply UInt64.le_iff_toNat_le.mpr
      by_cases far : 4000 ≤ target.toNat
      · have late : ¬target.toNat < readNow.toNat + 4000 := fun less => due (early.mpr ⟨less, far⟩)
        omega
      · exact sound.resolve_left far
    have period := @sleepTime_toNat offset (32 * (target - now) / 1000).toUInt32 small
    dsimp only at period
    rw [ticks_toNat near ahead] at period
    rw [roscPeriod_late due]
    refine period.trans ?_
    by_cases close : target.toNat < readNow.toNat + 4000
    · have ahead' : now.toNat ≤ target.toNat := ahead
      have ticks : 32 * (target.toNat - now.toNat) / 1000 < 128 := by omega
      rw [if_pos close, ticksLess, if_pos]
      rw [Nat.mod_eq_of_lt (by omega)]
      omega
    · rw [if_neg close]

/-- The periods are in order for the targets up to some time exactly when that is less than 2^32 ticks ahead. -/
theorem ordered_iff (s : State) (small : offset ≤ 48) (first : readNow ≤ now) (soon : now.toNat ≤ readNow.toNat + 4000)
    (started : low ≤ now) (ended : now ≤ high) (sound : 4000 ≤ low ∨ low = now) :
    Ordered s offset readNow now low high ↔ high.toNat - now.toNat < roscLimit := by
  have soundAfter {target : UInt64} (after : low ≤ target) : 4000 ≤ target ∨ now ≤ target := by
    rcases sound with far | rfl
    · exact .inl (UInt64.le_trans far after)
    · exact .inr after
  have order : readNow.toNat ≤ now.toNat := first
  constructor
  · intro ordered
    by_contra beyond
    have limit : roscLimit = 134217728000 := rfl
    have top := high.toNat_lt
    have ends : now.toNat ≤ high.toNat := ended
    have begins : low.toNat ≤ now.toNat := started
    have earlier : (UInt64.ofNat (now.toNat + roscLimit - 1)).toNat = now.toNat + roscLimit - 1 :=
      UInt64.toNat_ofNat_of_lt' (by change _ < 2 ^ 64; omega)
    have later : (UInt64.ofNat (now.toNat + roscLimit)).toNat = now.toNat + roscLimit :=
      UInt64.toNat_ofNat_of_lt' (by change _ < 2 ^ 64; omega)
    generalize UInt64.ofNat (now.toNat + roscLimit - 1) = before at earlier
    generalize UInt64.ofNat (now.toNat + roscLimit) = after at later
    have lowBefore : low ≤ before := UInt64.le_iff_toNat_le.mpr (by omega)
    have between : before ≤ after := UInt64.le_iff_toNat_le.mpr (by omega)
    have afterHigh : after ≤ high := UInt64.le_iff_toNat_le.mpr (by omega)
    have less := (ordered before after lowBefore between afterHigh).2.2
    have ahead : (roscPeriod s offset readNow now before).toNat ≤ (roscPeriod s offset readNow now after).toNat := less
    have bound : offset.toNat ≤ 48 := small
    rw [roscPeriod_toNat small first soon (soundAfter lowBefore) (by omega),
      roscPeriod_toNat small first soon (soundAfter (UInt64.le_trans lowBefore between)) (by omega), if_neg (by omega),
      if_neg (by omega), earlier, later, Nat.add_sub_cancel_left, limit, ticksLess, ticksLess] at ahead
    have most : 32 * (now.toNat + 134217728000 - 1 - now.toNat) / 1000 % 2 ^ 32 = 4294967295 := by omega
    have none_left : 32 * 134217728000 / 1000 % 2 ^ 32 = 0 := by decide
    rw [most, none_left, if_neg (by omega), if_pos (by omega)] at ahead
    omega
  · intro near earlier later lowEarlier between laterHigh
    have limit : roscLimit = 134217728000 := rfl
    have ends : later.toNat ≤ high.toNat := laterHigh
    have less : earlier.toNat ≤ later.toNat := between
    have period {target : UInt64} (after : low ≤ target) (inside : target.toNat ≤ high.toNat) :
        (roscPeriod s offset readNow now target).toNat =
          if target.toNat < readNow.toNat + 4000 then 0
          else ticksLess offset.toNat (32 * (target.toNat - now.toNat) / 1000) := by
      have ticks : 32 * (target.toNat - now.toNat) / 1000 < 2 ^ 32 := by omega
      rw [roscPeriod_toNat small first soon (soundAfter after) (by omega), Nat.mod_eq_of_lt ticks]
    have short {target : UInt64} (after : low ≤ target) (inside : target.toNat ≤ high.toNat) :
        NotLonger (roscPeriod s offset readNow now target) offset now target := by
      have periodHere := period after inside
      unfold NotLonger
      rw [← UInt32.toNat_inj]
      rw [periodHere, ticksLess]
      split_ifs
      · exact .inl rfl
      · exact .inl rfl
      · right
        omega
    refine ⟨short lowEarlier (by omega), short (UInt64.le_trans lowEarlier between) ends, ?_⟩
    apply UInt32.le_iff_toNat_le.mpr
    rw [period lowEarlier (by omega), period (UInt64.le_trans lowEarlier between) ends]
    split_ifs
    · exact Nat.le_refl 0
    · exact Nat.zero_le _
    · omega
    · apply ticksLess_mono
      omega

/-- When the target is on time, and the timer's periods in order. -/
theorem sleep_timing_iff (s : State) (b : Beacon) (listenInt : UInt16) (leadValue : Int32) (set : bcnInt ≠ 0)
    (received : b.lvPsBeaconCntAfterWakeup ≠ 0) (small : offset ≤ 48) (first : readNow ≤ now)
    (soon : now.toNat ≤ readNow.toNat + 4000) (started : low ≤ now) (ended : now ≤ high)
    (sound : 4000 ≤ low ∨ low = now) :
    let listen := powerSaveSetListenInt listenInt
    let result := (b.powerSaveCalBcnListenInt bcnInt).calcDuration listen leadValue now
    let lead := result.2.lvPsPreLeadWakeupDuration.toInt
    (OnTime (Beacon.targetTime now result.1 - now).toNat
        (waitFor listen.toNat (bcnInt.toNat * 1024) (b.elapsed now) lead) ↔
      Fits (waitFor listen.toNat (bcnInt.toNat * 1024) (b.elapsed now) lead)
        (waitFor listen.toNat (bcnInt.toNat * 1024) (b.elapsed now % 2 ^ 32) lead)) ∧
      (Ordered s offset readNow now low high ↔ high.toNat - now.toNat < roscLimit) :=
  ⟨target_onTime set received, ordered_iff s small first soon started ended sound⟩

/-- A beacon came half a second ago, 10 ms behind its TBTT. -/
def recent : Beacon where
  lvPsBeaconInterval := 0
  lvPsBeaconCntAfterWakeup := 1
  lvPsBcnContMissBcnCount := 0
  lvPsBcnRxdLocalTime := 60000000
  lvPsTbttToRxdTime := 10000
  lvPsWakeupMacTimepoint := 59990000
  lvPsPreLeadWakeupDuration := 4000
  lvPsWinPriCompensationFactor := 0
  lvPsWinPostCompensationFactor := 0
  lvcGeneralSleepFlag := 0

/-- Beacons every 100 TU and a listen interval of 10; targets of an hour. -/
theorem sleep_timing_hour :
    OnTime (Beacon.targetTime 60500000
        ((recent.powerSaveCalBcnListenInt 100).calcDuration (powerSaveSetListenInt 10) 4000 60500000).1 - 60500000).toNat
        (waitFor 10 102400 510000 4000) ∧
      Ordered .boot 16 60500000 60500020 4000 3660500000 := by
  have both := @sleep_timing_iff 100 60500020 16 60500000 4000 3660500000 .boot recent 10 4000 (by decide) (by decide)
    (by decide) (by decide) (by decide) (by decide) (by decide) (.inl (by decide))
  have timing := @sleep_timing_iff 100 60500000 16 60500000 4000 3660500000 .boot recent 10 4000 (by decide) (by decide)
    (by decide) (by decide) (by decide) (by decide) (by decide) (.inl (by decide))
  exact ⟨timing.1.mpr (by decide), both.2.mpr (by decide)⟩

/-- With beacons every 1000 TU and a listen interval of 100 the product wraps, and the target that means
until GPIO gets a shorter period than some other. -/
theorem long_interval_wraps :
    ¬OnTime (Beacon.targetTime 60500000
        ((recent.powerSaveCalBcnListenInt 1000).calcDuration (powerSaveSetListenInt 100) 4000 60500000).1 - 60500000).toNat
        (waitFor 100 1024000 510000 4000) ∧
      ¬Ordered .boot 16 60500000 60500000 60500000 0xFFFFFFFFFFFFFFFF := by
  refine ⟨by decide, ?_⟩
  rw [ordered_iff .boot (by decide) (UInt64.le_refl _) (by decide) (UInt64.le_refl _) (by decide) (.inr rfl)]
  decide

end BekenSdk.LvPs
