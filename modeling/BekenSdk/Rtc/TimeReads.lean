import BekenSdk.Base.Machine
import BekenSdk.Base.SplitCounter

/-! Time read from two registers (rtc_reg.c, calendar.c). The counters may step any number of times between two
register reads, and a call makes as many reads as its loop asks for.
-/

set_option autoImplicit false

namespace BekenSdk.Rtc

open BekenSdk.Base

def cal31_25usMask : UInt32 := 0x0000FFFF

def cal3125TuVal : UInt64 := 3125

/-- Units of 31.25us in a second. -/
def ticksPerSecond : Nat := 32000

inductive Call where
  | rtcGetCounterVal
  | calGetTimeUs
  deriving DecidableEq

/-- The two counters, and the instant of every register read, one read after the other. -/
structure Clocks where
  rtc : SplitCounter 4294967296 4294967296
  calendar : SplitCounter ticksPerSecond 4294967296
  /-- What the calendar register holds above the sub-second field. -/
  reserved : Nat → Nat
  instant : Nat → Nat
  ordered : Monotone instant

namespace Clocks
variable (clocks : Clocks)

/-! ## The registers, at the read of a number -/

def rtcGetCounterValL (read : Nat) : UInt32 := UInt32.ofNat (clocks.rtc.low (clocks.instant read))

def rtcGetCounterValH (read : Nat) : UInt32 := UInt32.ofNat (clocks.rtc.high (clocks.instant read))

def calGetSecField (read : Nat) : UInt32 := UInt32.ofNat (clocks.calendar.high (clocks.instant read))

def calGetUsecTuField (read : Nat) : UInt32 :=
  UInt32.ofNat (clocks.calendar.low (clocks.instant read) + 65536 * clocks.reserved read) &&& cal31_25usMask

/-! ## The loops. The number of rounds is a bound on them; what is returned comes with the number of the next read. -/

def rtcLoop : Nat → UInt32 → UInt32 → Nat → Option (UInt64 × Nat)
  | 0, _, _, _ => none
  | rounds + 1, valL, valH, read =>
    if clocks.rtcGetCounterValL read ≠ valL then
      -- the high half is not compared then
      rtcLoop rounds (clocks.rtcGetCounterValL (read + 1)) (clocks.rtcGetCounterValH (read + 2)) (read + 3)
    else if clocks.rtcGetCounterValH (read + 1) ≠ valH then
      rtcLoop rounds (clocks.rtcGetCounterValL (read + 2)) (clocks.rtcGetCounterValH (read + 3)) (read + 4)
    else some ((valH.toUInt64 <<< 32) + valL.toUInt64, read + 2)

def rtcGetCounterVal (rounds read : Nat) : Option (UInt64 × Nat) :=
  clocks.rtcLoop rounds (clocks.rtcGetCounterValL read) (clocks.rtcGetCounterValH (read + 1)) (read + 2)

def calLoop : Nat → UInt32 → UInt32 → Nat → Option (UInt64 × Nat)
  | 0, _, _, _ => none
  | rounds + 1, preCntS, preCntUs, read =>
    let cntS := clocks.calGetSecField read
    let cntUs := clocks.calGetUsecTuField (read + 1)
    let diffS := cntS - preCntS
    let diffUs := cntUs - preCntUs
    if 0 = diffS ∧ 0 = diffUs then
      some (cntS.toUInt64 * 1000000 + cntUs.toUInt64 * cal3125TuVal / 100, read + 2)
    else calLoop rounds cntS cntUs (read + 2)

def calGetTimeUs (rounds read : Nat) : Option (UInt64 × Nat) := clocks.calLoop rounds 0 0 read

/-! ## What is to be returned -/

/-- Microseconds at a count of the calendar. -/
def microseconds (count : Nat) : Nat := count * 3125 / 100

theorem microseconds_mono : Monotone microseconds :=
  fun _ _ ordered => Nat.div_le_div_right (Nat.mul_le_mul_right 3125 ordered)

/-- The fields of the calendar give the microseconds of its count. -/
theorem microseconds_fields (counter : SplitCounter ticksPerSecond 4294967296) (instant : Nat) :
    counter.high instant * 1000000 + counter.low instant * 3125 / 100 = microseconds (counter.value instant) := by
  have parts : 32000 * counter.high instant + counter.low instant = counter.value instant := counter.recombined instant
  rw [microseconds, ← parts]
  omega

/-! ## One call -/

theorem calGetSecField_toNat (read : Nat) :
    (clocks.calGetSecField read).toNat = clocks.calendar.high (clocks.instant read) :=
  UInt32.toNat_ofNat_of_lt' (clocks.calendar.high_lt _)

theorem calGetUsecTuField_toNat (read : Nat) :
    (clocks.calGetUsecTuField read).toNat = clocks.calendar.low (clocks.instant read) := by
  have small : clocks.calendar.low (clocks.instant read) < 32000 := Nat.mod_lt _ (by decide)
  rw [calGetUsecTuField, UInt32.toNat_and, show cal31_25usMask.toNat = 2 ^ 16 - 1 from rfl,
    Nat.and_two_pow_sub_one_eq_mod, UInt32.toNat_ofNat']
  omega

theorem rtcGetCounterValL_toNat (read : Nat) :
    (clocks.rtcGetCounterValL read).toNat = clocks.rtc.low (clocks.instant read) :=
  UInt32.toNat_ofNat_of_lt' (Nat.mod_lt _ (by decide))

theorem rtcGetCounterValH_toNat (read : Nat) :
    (clocks.rtcGetCounterValH read).toNat = clocks.rtc.high (clocks.instant read) :=
  UInt32.toNat_ofNat_of_lt' (clocks.rtc.high_lt _)

/-- The result of a calendar round, of the fields that it read. -/
theorem calendar_result {cntS cntUs : UInt32} (small : cntUs.toNat < 32000) :
    (cntS.toUInt64 * 1000000 + cntUs.toUInt64 * cal3125TuVal / 100).toNat =
      cntS.toNat * 1000000 + cntUs.toNat * 3125 / 100 := by
  have bound := cntS.toNat_lt
  have seconds : (cntS.toUInt64 * 1000000).toNat = cntS.toNat * 1000000 := by
    rw [UInt64.toNat_mul, UInt32.toNat_toUInt64]
    exact Nat.mod_eq_of_lt (by show cntS.toNat * 1000000 < _; omega)
  have scaled : (cntUs.toUInt64 * cal3125TuVal).toNat = cntUs.toNat * 3125 := by
    rw [UInt64.toNat_mul, UInt32.toNat_toUInt64]
    exact Nat.mod_eq_of_lt (by show cntUs.toNat * 3125 < _; omega)
  have fraction : (cntUs.toUInt64 * cal3125TuVal / 100).toNat = cntUs.toNat * 3125 / 100 := by
    rw [UInt64.toNat_div, scaled]
    rfl
  rw [UInt64.toNat_add, seconds, fraction]
  exact Nat.mod_eq_of_lt (by omega)

theorem eq_of_diff {cnt preCnt : UInt32} (diff : 0 = cnt - preCnt) : cnt = preCnt := by
  rw [UInt32.sub_eq_iff_eq_add.mp diff.symm, UInt32.zero_add]

theorem rtc_result (valH valL : UInt32) :
    ((valH.toUInt64 <<< 32) + valL.toUInt64).toNat = 4294967296 * valH.toNat + valL.toNat := by
  have high := valH.toNat_lt
  have low := valL.toNat_lt
  rw [UInt64.toNat_add, UInt64.toNat_shiftLeft, UInt32.toNat_toUInt64, UInt32.toNat_toUInt64,
    show (32 : UInt64).toNat % 64 = 32 from rfl, Nat.shiftLeft_eq]
  omega

/-- Between two equal reads of the high half, the low half and it are the counter at the instant of the second
read of the low half. -/
theorem rtcLoop_held {rounds read next : Nat} {value : UInt64}
    (returned : clocks.rtcLoop rounds (clocks.rtcGetCounterValL read) (clocks.rtcGetCounterValH (read + 1)) (read + 2) =
      some (value, next)) :
    ∃ at', read ≤ at' ∧ at' < next ∧ value.toNat = clocks.rtc.value (clocks.instant at') := by
  induction rounds generalizing read with
  | zero => cases returned
  | succ rounds ih =>
    rw [rtcLoop] at returned
    split at returned
    · obtain ⟨at', first, last, held⟩ := @ih (read + 3) returned
      exact ⟨at', by omega, last, held⟩
    next lowSame =>
      split at returned
      · obtain ⟨at', first, last, held⟩ := @ih (read + 4) returned
        exact ⟨at', by omega, last, held⟩
      next highSame =>
        obtain ⟨rfl, rfl⟩ := Prod.mk.inj (Option.some.inj returned)
        have lows := congrArg UInt32.toNat (not_ne_iff.mp lowSame)
        have highs := congrArg UInt32.toNat (not_ne_iff.mp highSame)
        rw [rtcGetCounterValL_toNat, rtcGetCounterValL_toNat] at lows
        rw [rtcGetCounterValH_toNat, rtcGetCounterValH_toNat] at highs
        refine ⟨read + 2, by omega, by omega, ?_⟩
        rw [rtc_result, rtcGetCounterValH_toNat, rtcGetCounterValL_toNat, ← lows]
        exact clocks.rtc.enclosed (clocks.ordered (by omega)) (clocks.ordered (by omega)) highs.symm

/-- A round after the first compares with fields that were read. -/
theorem calLoop_held {rounds read next : Nat} {value : UInt64}
    (returned : clocks.calLoop rounds (clocks.calGetSecField read) (clocks.calGetUsecTuField (read + 1)) (read + 2) =
      some (value, next)) :
    ∃ at', read ≤ at' ∧ at' < next ∧ value.toNat = microseconds (clocks.calendar.value (clocks.instant at')) := by
  induction rounds generalizing read with
  | zero => cases returned
  | succ rounds ih =>
    rw [calLoop] at returned
    split at returned
    next same =>
      obtain ⟨rfl, rfl⟩ := Prod.mk.inj (Option.some.inj returned)
      have seconds := congrArg UInt32.toNat (eq_of_diff same.1)
      have fractions := congrArg UInt32.toNat (eq_of_diff same.2)
      rw [calGetSecField_toNat, calGetSecField_toNat] at seconds
      rw [calGetUsecTuField_toNat, calGetUsecTuField_toNat] at fractions
      have small : clocks.calendar.low (clocks.instant (read + 2 + 1)) < 32000 := Nat.mod_lt _ (by decide)
      have between : clocks.calendar.high (clocks.instant (read + 1)) = clocks.calendar.high (clocks.instant read) :=
        clocks.calendar.high_between (clocks.ordered (by omega)) (clocks.ordered (by omega)) seconds.symm
      refine ⟨read + 1, by omega, by omega, ?_⟩
      rw [calendar_result (by rwa [calGetUsecTuField_toNat]), calGetSecField_toNat, calGetUsecTuField_toNat,
        fractions, seconds, ← between]
      exact microseconds_fields clocks.calendar _
    · obtain ⟨at', first, last, held⟩ := @ih (read + 2) returned
      exact ⟨at', by omega, last, held⟩

/-- The value of a call, and the number of the read after it. -/
def returned (rounds read : Nat) : Call → Option (UInt64 × Nat)
  | .rtcGetCounterVal => clocks.rtcGetCounterVal rounds read
  | .calGetTimeUs => clocks.calGetTimeUs rounds read

/-- The value that a call is to return at an instant. -/
def held (instant : Nat) : Call → Nat
  | .rtcGetCounterVal => clocks.rtc.value instant
  | .calGetTimeUs => microseconds (clocks.calendar.value instant)

theorem held_mono (call : Call) : Monotone fun instant => clocks.held instant call := by
  cases call
  case rtcGetCounterVal => exact clocks.rtc.monotone
  case calGetTimeUs => exact microseconds_mono.comp clocks.calendar.monotone

/-- A value that was held between the reads of two numbers. -/
def HeldDuring (call : Call) (value : UInt64) (first last : Nat) : Prop :=
  ∃ instant, clocks.instant first ≤ instant ∧ instant ≤ clocks.instant last ∧ value.toNat = clocks.held instant call

/-- The calendar is within its first second at a read, and the read after it finds the sub-second field back at zero. -/
def Torn (read : Nat) : Prop :=
  0 < clocks.calendar.value (clocks.instant read) ∧ clocks.calendar.value (clocks.instant read) < ticksPerSecond ∧
    clocks.calendar.low (clocks.instant (read + 1)) = 0

instance (read : Nat) : Decidable (clocks.Torn read) := inferInstanceAs (Decidable (_ ∧ _ ∧ _))

theorem heldDuring_of_read {call : Call} {value : UInt64} {first at' next : Nat} (after : first ≤ at') (before : at' < next)
    (shown : value.toNat = clocks.held (clocks.instant at') call) : clocks.HeldDuring call value first (next - 1) :=
  ⟨clocks.instant at', clocks.ordered after, clocks.ordered (by omega), shown⟩

theorem rtcGetCounterVal_held {rounds read next : Nat} {value : UInt64}
    (ended : clocks.rtcGetCounterVal rounds read = some (value, next)) :
    read < next ∧ clocks.HeldDuring .rtcGetCounterVal value read (next - 1) := by
  obtain ⟨at', after, before, shown⟩ := clocks.rtcLoop_held ended
  exact ⟨by omega, clocks.heldDuring_of_read after before shown⟩

/-- Fields of zero are taken for a second read of them. -/
theorem calGetTimeUs_first {rounds read : Nat} (seconds : clocks.calendar.high (clocks.instant read) = 0)
    (fraction : clocks.calendar.low (clocks.instant (read + 1)) = 0) :
    clocks.calGetTimeUs (rounds + 1) read = some (0, read + 2) := by
  have cntS : clocks.calGetSecField read = 0 := UInt32.toNat_inj.mp (by rw [calGetSecField_toNat, seconds]; rfl)
  have cntUs : clocks.calGetUsecTuField (read + 1) = 0 :=
    UInt32.toNat_inj.mp (by rw [calGetUsecTuField_toNat, fraction]; rfl)
  rw [calGetTimeUs, calLoop, cntS, cntUs]
  rfl

/-- Other fields are read again. -/
theorem calGetTimeUs_next {rounds read : Nat} (other : ¬(clocks.calendar.high (clocks.instant read) = 0 ∧
    clocks.calendar.low (clocks.instant (read + 1)) = 0)) :
    clocks.calGetTimeUs (rounds + 1) read =
      clocks.calLoop rounds (clocks.calGetSecField read) (clocks.calGetUsecTuField (read + 1)) (read + 2) := by
  rw [calGetTimeUs, calLoop]
  refine if_neg fun same => other ⟨?_, ?_⟩
  · rw [← calGetSecField_toNat, eq_of_diff same.1]
    rfl
  · rw [← calGetUsecTuField_toNat, eq_of_diff same.2]
    rfl

/-- A call to the calendar returns a time that it had during the call if and only if its first fields are not torn. -/
theorem calGetTimeUs_held_iff {rounds read next : Nat} {value : UInt64}
    (ended : clocks.calGetTimeUs rounds read = some (value, next)) :
    read < next ∧ (clocks.HeldDuring .calGetTimeUs value read (next - 1) ↔ ¬clocks.Torn read) := by
  cases rounds with
  | zero => cases ended
  | succ rounds =>
    by_cases zero : clocks.calendar.high (clocks.instant read) = 0 ∧ clocks.calendar.low (clocks.instant (read + 1)) = 0
    · obtain ⟨rfl, rfl⟩ := Prod.mk.inj (Option.some.inj ((clocks.calGetTimeUs_first zero.1 zero.2).symm.trans ended))
      refine ⟨by omega, ?_, ?_⟩
      · rintro ⟨instant, after, _, shown⟩ torn
        -- the calendar is past zero from the first read on
        have later := microseconds_mono (clocks.calendar.monotone after)
        have count := torn.1
        have none : (0 : Nat) = microseconds (clocks.calendar.value instant) := shown
        unfold microseconds at later none
        omega
      · intro whole
        have second : clocks.calendar.value (clocks.instant read) < ticksPerSecond :=
          (Nat.div_eq_zero_iff_lt (by decide)).mp zero.1
        have start : clocks.calendar.value (clocks.instant read) = 0 := by
          apply Nat.eq_zero_of_not_pos
          exact fun late => whole ⟨late, second, zero.2⟩
        refine clocks.heldDuring_of_read (Nat.le_refl read) (by omega) ?_
        show (0 : UInt64).toNat = microseconds (clocks.calendar.value _)
        rw [start]
        rfl
    · rw [clocks.calGetTimeUs_next zero] at ended
      obtain ⟨at', after, before, shown⟩ := clocks.calLoop_held ended
      refine ⟨by omega, fun _ torn => zero ?_, fun _ => clocks.heldDuring_of_read after before shown⟩
      exact ⟨Nat.div_eq_of_lt torn.2.1, torn.2.2⟩

/-- A call comes back in its second round at the latest if its counter does not step in the meantime. -/
theorem returned_of_still {read : Nat} (call : Call)
    (rtcStill : ∀ k ≤ 3, clocks.rtc.value (clocks.instant (read + k)) = clocks.rtc.value (clocks.instant read))
    (calendarStill : ∀ k ≤ 3, clocks.calendar.value (clocks.instant (read + k)) =
      clocks.calendar.value (clocks.instant read)) :
    (clocks.returned 2 read call).isSome := by
  cases call
  case rtcGetCounterVal =>
    have low : clocks.rtcGetCounterValL (read + 2) = clocks.rtcGetCounterValL read := by
      simp only [rtcGetCounterValL, SplitCounter.low, rtcStill 2 (by decide)]
    have high : clocks.rtcGetCounterValH (read + 2 + 1) = clocks.rtcGetCounterValH (read + 1) := by
      simp only [rtcGetCounterValH, SplitCounter.high, Nat.add_assoc, Nat.reduceAdd, rtcStill 1 (by decide),
        rtcStill 3 (by decide)]
    rw [returned, rtcGetCounterVal, rtcLoop, if_neg (not_ne_iff.mpr low), if_neg (not_ne_iff.mpr high)]
    rfl
  case calGetTimeUs =>
    have second : clocks.calGetSecField (read + 2) = clocks.calGetSecField read := by
      simp only [calGetSecField, SplitCounter.high, calendarStill 2 (by decide)]
    have fraction : clocks.calGetUsecTuField (read + 2 + 1) = clocks.calGetUsecTuField (read + 1) := by
      apply UInt32.toNat_inj.mp
      simp only [calGetUsecTuField_toNat, SplitCounter.low, Nat.add_assoc, Nat.reduceAdd, calendarStill 1 (by decide),
        calendarStill 3 (by decide)]
    rw [returned, calGetTimeUs, calLoop]
    split
    · rfl
    · rw [calLoop, second, fraction, UInt32.sub_self, UInt32.sub_self]
      rfl

end Clocks

/-! ## Successive reads

Calls that read the time, one after the other.
-/

/-- A call that came back, with the numbers of its first and last register read. -/
structure Reading where
  call : Call
  first : Nat
  last : Nat
  value : UInt64
  deriving DecidableEq

/-- The number of the next register read, and the readings so far, the latest first. -/
structure Session where
  next : Nat
  log : List Reading

namespace Clocks
variable (clocks : Clocks)

/-- A call, with a bound on its rounds. -/
def step (event : Call × Nat) (session : Session) : Option Session :=
  (clocks.returned event.2 session.next event.1).map fun result =>
    ⟨result.2, ⟨event.1, session.next, result.2 - 1, result.1⟩ :: session.log⟩

/-- Every value was held during its call, and none is below an earlier one of the same counter. -/
structure Sound (session : Session) : Prop where
  held : ∀ reading ∈ session.log, clocks.HeldDuring reading.call reading.value reading.first reading.last
  ordered : session.log.Pairwise fun later earlier => later.call = earlier.call → earlier.value ≤ later.value

/-- The next call does not come upon a torn pair of calendar fields. -/
def Untorn (session : Session) (event : Call × Nat) : Prop :=
  event.1 = .calGetTimeUs → ¬clocks.Torn session.next

instance (session : Session) (event : Call × Nat) : Decidable (clocks.Untorn session event) :=
  inferInstanceAs (Decidable (_ → _))

structure Inv (session : Session) : Prop extends Sound clocks session where
  past : ∀ reading ∈ session.log, reading.last < session.next

theorem inv_start (next : Nat) : clocks.Inv ⟨next, []⟩ where
  held _ member := absurd member List.not_mem_nil
  ordered := List.Pairwise.nil
  past _ member := absurd member List.not_mem_nil

/-- A call that comes back has made a read, and returned what was held during it unless it was torn. -/
theorem returned_held_iff {rounds read next : Nat} {value : UInt64} {call : Call}
    (ended : clocks.returned rounds read call = some (value, next)) :
    read < next ∧ (clocks.HeldDuring call value read (next - 1) ↔ (call = .calGetTimeUs → ¬clocks.Torn read)) := by
  cases call
  case rtcGetCounterVal =>
    obtain ⟨more, during⟩ := clocks.rtcGetCounterVal_held ended
    refine ⟨more, iff_of_true during ?_⟩
    intro other
    cases other
  case calGetTimeUs =>
    obtain ⟨more, exactly⟩ := clocks.calGetTimeUs_held_iff ended
    exact ⟨more, exactly.trans ⟨fun whole _ => whole, fun whole => whole rfl⟩⟩

/-- Values that were held during calls one after the other do not decrease. -/
theorem value_le {call : Call} {earlier later : UInt64} {first last first' last' : Nat} (after : last ≤ first')
    (early : clocks.HeldDuring call earlier first last) (late : clocks.HeldDuring call later first' last') :
    earlier ≤ later := by
  obtain ⟨before, _, ends, shown⟩ := early
  obtain ⟨instant, starts, _, shown'⟩ := late
  have between : before ≤ instant := ends.trans ((clocks.ordered after).trans starts)
  rw [UInt64.le_iff_toNat_le, shown, shown']
  exact clocks.held_mono call between

theorem Inv.preserved {session after : Session} {event : Call × Nat} (inv : clocks.Inv session)
    (untorn : clocks.Untorn session event) (taken : clocks.step event session = some after) : clocks.Inv after := by
  obtain ⟨⟨value, next⟩, ended, rfl⟩ := Option.map_eq_some_iff.mp taken
  obtain ⟨more, exactly⟩ := clocks.returned_held_iff ended
  have during := exactly.mpr untorn
  constructor
  · constructor
    · exact List.forall_mem_cons.mpr ⟨during, inv.held⟩
    · refine List.pairwise_cons.mpr ⟨fun reading member same => ?_, inv.ordered⟩
      have early := inv.held reading member
      rw [← same] at early
      exact clocks.value_le (Nat.le_of_lt (inv.past reading member)) early during
  · refine List.forall_mem_cons.mpr ⟨Nat.sub_one_lt_of_lt more, fun reading member => ?_⟩
    exact (inv.past reading member).trans more

theorem spoiled {session after : Session} {event : Call × Nat} (torn : ¬clocks.Untorn session event)
    (taken : clocks.step event session = some after) : ¬clocks.Sound after := by
  intro sound
  obtain ⟨⟨value, next⟩, ended, rfl⟩ := Option.map_eq_some_iff.mp taken
  obtain ⟨_, exactly⟩ := clocks.returned_held_iff ended
  exact torn (exactly.mp (sound.held _ List.mem_cons_self))

/-- In a run of calls every value is one that the counter held during its call, and no result is below an earlier
one, if and only if no calendar call starts within the first second of the calendar and reads the sub-second field
when it is back at zero. How far the counters run during a call does not matter. -/
theorem always_sound_iff {moments : List (Moment Session (Call × Nat))} {final : Session} {next : Nat}
    (run : Run (Machine.Step clocks.step) ⟨next, []⟩ moments final) :
    Machine.Always clocks.Sound moments final ↔ ∀ moment ∈ moments, clocks.Untorn moment.before moment.event :=
  @Machine.always_iff_of_invariant _ _ _ _ _ _ clocks.Inv clocks.Sound (fun _ _ => True) clocks.Untorn run
    (clocks.inv_start next) (fun _ inv => inv.toSound) (fun inv _ => inv.preserved) (fun _ _ => clocks.spoiled)
    fun _ _ => trivial

end Clocks

/-! ## The end of the first second -/

/-- A calendar that is read four times just before the end of its first second, then at its end and after it. -/
def firstSecond : Clocks where
  rtc := ⟨fun _ => 0, monotone_const, fun _ => by decide⟩
  calendar :=
    { value := fun instant => min instant 32000
      monotone := fun _ _ ordered => by dsimp only; omega
      bounded := fun instant => by have := Nat.min_le_right instant 32000; unfold ticksPerSecond; omega }
  reserved := fun _ => 0
  instant := fun read => if read < 4 then 31998 else 31995 + read
  ordered := by
    intro a b ordered
    dsimp only
    split <;> split <;> omega

theorem first_second_sound : ∃ moments final, Run (Machine.Step firstSecond.step) ⟨0, []⟩ moments final ∧
    moments.map Moment.event = [(.rtcGetCounterVal, 1), (.calGetTimeUs, 2)] ∧
    Machine.Always firstSecond.Sound moments final := by
  obtain ⟨moments, final, run, events, untorn, -⟩ := @Machine.run_of_fine _ _ firstSecond.step ⟨0, []⟩ firstSecond.Untorn
    _ [(.rtcGetCounterVal, 1), (.calGetTimeUs, 2)] (fun _ => true) (by decide)
  exact ⟨moments, final, run, events, (firstSecond.always_sound_iff run).mpr untorn⟩

/-- The calendar steps from the first second to the next within a call: the time runs back from 999937us to 0. -/
theorem second_second_torn : ∃ moments final, Run (Machine.Step firstSecond.step) ⟨0, []⟩ moments final ∧
    final.log = [⟨.calGetTimeUs, 4, 5, 0⟩, ⟨.calGetTimeUs, 0, 3, 999937⟩] ∧
    (∀ reading ∈ final.log, firstSecond.calendar.value (firstSecond.instant reading.last) <
      firstSecond.calendar.value (firstSecond.instant reading.first) + ticksPerSecond) ∧
    ¬Machine.Always firstSecond.Sound moments final := by
  obtain ⟨moments, final, run, -, shown⟩ := @Machine.run_of_any _ _ firstSecond.step ⟨0, []⟩
    [(.calGetTimeUs, 1), (.calGetTimeUs, 2)]
    (fun final => final.log = [⟨.calGetTimeUs, 4, 5, 0⟩, ⟨.calGetTimeUs, 0, 3, 999937⟩]) (by decide)
  have log := of_decide_eq_true shown
  refine ⟨moments, final, run, log, ?_, fun always => ?_⟩
  · rw [log]
    decide
  · have ordered := always.2.ordered
    rw [log] at ordered
    exact absurd ordered (by decide)

end BekenSdk.Rtc
