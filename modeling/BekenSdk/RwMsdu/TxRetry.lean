import Mathlib.Data.UInt
import Mathlib.Data.Nat.Find
import Mathlib.Tactic.Common

/-! Retransmission by software (rw_msdu.c). When the Wi-Fi core confirms a frame that was not acknowledged, the descriptor is pushed
again, until the retries and failures that the hardware reports add up to 30. A report that counts nothing does not bring
this any nearer.
-/

set_option autoImplicit false

namespace BekenSdk.RwMsdu.TxRetry

/-! ## The descriptor -/

def txuCntrlRetry : UInt16 := 0x0001

def txuCntrlEnSwRetryCheck : UInt16 := 0x1000

def txStatusSwRetryRequired : UInt32 := 0x00000004

def numMpduRetriesMsk : UInt32 := 0x0000ff00

def numMpduRetriesOft : UInt32 := 8

def retryLimitReachedBit : UInt32 := 0x00010000

def frameSuccessfulTxBit : UInt32 := 0x00800000

def descDoneTxBit : UInt32 := 0x80000000

def swRetryLimitedCount : UInt32 := 30

inductive TxdescSta where
  | idle
  | used
  deriving DecidableEq

/-- The fields of `struct txdesc` for the confirmation; `statusDescAddr` has the number of retries. -/
structure TxDesc where
  status : TxdescSta
  flags : UInt16
  statusDescAddr : UInt32
  accessCategory : UInt8
  callback : Option Nat
  param : Nat
  msduNode : Option Nat
  cfmStatus : UInt32
  statinfo : UInt32
  deriving DecidableEq

/-- What the hardware writes into the descriptor, and what `txl_check_reset` says then. -/
structure Report where
  statinfo : UInt32
  cfmStatus : UInt32
  reset : Bool

/-- How often the descriptor is with the core, the queues to which it was pushed again, the calls and the freed nodes. -/
structure Life where
  desc : TxDesc
  outstanding : Nat
  again : List UInt8
  called : List (Nat × Nat)
  freed : List Nat
  deriving DecidableEq

def txAcked (txstatus : UInt32) : Bool :=
  txstatus &&& (descDoneTxBit ||| frameSuccessfulTxBit) = descDoneTxBit ||| frameSuccessfulTxBit

def failures (txstatus : UInt32) : UInt32 :=
  ((txstatus &&& numMpduRetriesMsk) >>> numMpduRetriesOft) + if txstatus &&& retryLimitReachedBit ≠ 0 then 1 else 0

def swDone (cfmStatus : UInt32) : Bool := cfmStatus &&& txStatusSwRetryRequired ≠ 0

namespace Life

def txuCntrlPush (accessCategory : UInt8) (life : Life) : Life :=
  { life with outstanding := life.outstanding + 1, again := accessCategory :: life.again }

/-- The result tells whether the descriptor was pushed again. -/
def rwnCheckSwTxRetry (reset : Bool) (life : Life) : Life × Bool :=
  if life.desc.flags &&& txuCntrlEnSwRetryCheck ≠ 0 then
    let totalRetry := life.desc.statusDescAddr + failures life.desc.statinfo
    if txAcked life.desc.statinfo then (life, false)
    else if totalRetry < swRetryLimitedCount then
      if reset || swDone life.desc.cfmStatus then (life, false)
      else
        let desc := { life.desc with
          statusDescAddr := totalRetry
          flags := life.desc.flags ||| txuCntrlRetry
          cfmStatus := 0
          status := .used
          statinfo := 0 }
        ({ life with desc := desc }.txuCntrlPush desc.accessCategory, true)
    else (life, false)
  else (life, false)

/-- The callback, if there is one, and the end of the node. -/
def complete (node : Nat) (life : Life) : Life :=
  { life with
    called := (life.desc.callback.map fun callback => (callback, life.desc.param)).toList ++ life.called
    freed := node :: life.freed
    desc := { life.desc with msduNode := none, status := .idle } }

def rwmTxConfirm (reset : Bool) (life : Life) : Life :=
  match life.desc.msduNode with
  | none => life
  | some node => if (life.rwnCheckSwTxRetry reset).2 then (life.rwnCheckSwTxRetry reset).1 else life.complete node

/-- The core reports on a descriptor that was pushed. -/
def hear (report : Report) (life : Life) : Life :=
  if life.outstanding = 0 then life
  else
    { life with
      outstanding := life.outstanding - 1
      desc := { life.desc with statinfo := report.statinfo, cfmStatus := report.cfmStatus } }.rwmTxConfirm report.reset

end Life

/-- What `rwm_transfer_node` and `rwm_raw_frame_with_cb` are given. -/
structure Frame where
  flag : UInt16
  accessCategory : UInt8
  callback : Option Nat
  param : Nat
  node : Nat

/-- The frame is pushed for the first time. -/
def Frame.pushed (frame : Frame) : Life where
  desc :=
    { status := .used, flags := frame.flag ||| txuCntrlEnSwRetryCheck, statusDescAddr := 0
      accessCategory := frame.accessCategory, callback := frame.callback, param := frame.param
      msduNode := some frame.node, cfmStatus := 0, statinfo := 0 }
  outstanding := 1
  again := []
  called := []
  freed := []

section
variable (frame : Frame) (reports : Nat → Report)

def life : Nat → Life
  | 0 => frame.pushed
  | n + 1 => (life n).hear (reports n)

/-! ## The bound -/

/-- The retries and failures of the first reports. -/
def counted : Nat → Nat
  | 0 => 0
  | n + 1 => counted n + (failures (reports n).statinfo).toNat

/-- The frame is acknowledged, or flushed with or without a reset, or there are enough failures. -/
def Ends (n : Nat) : Prop :=
  txAcked (reports n).statinfo = true ∨ swRetryLimitedCount.toNat ≤ counted reports (n + 1) ∨ (reports n).reset = true ∨
    swDone (reports n).cfmStatus = true

instance (n : Nat) : Decidable (Ends reports n) := inferInstanceAs (Decidable (_ ∨ _ ∨ _ ∨ _))

def calls : List (Nat × Nat) := (frame.callback.map fun callback => (callback, frame.param)).toList

/-- The frame is pushed again at most 30 times, and is completed once, when it is not with the core. -/
structure Settled : Prop where
  few : ∀ n, (life frame reports n).again.length ≤ 30
  once : ∀ n, (life frame reports n).called.length ≤ 1 ∧ (life frame reports n).freed.length ≤ 1
  quiet : ∀ n, (life frame reports n).called ≠ [] ∨ (life frame reports n).freed ≠ [] → (life frame reports n).outstanding = 0
  completed : ∃ enough, ∀ n, enough ≤ n → (life frame reports n).outstanding = 0 ∧
    (life frame reports n).called = calls frame ∧ (life frame reports n).freed = [frame.node]

/-- Before the end: the descriptor is with the core once, and has the count. -/
structure Going (n : Nat) (life : Life) : Prop where
  outstanding : life.outstanding = 1
  again : life.again.length = n
  called : life.called = []
  freed : life.freed = []
  node : life.desc.msduNode = some frame.node
  callback : life.desc.callback = frame.callback
  param : life.desc.param = frame.param
  checked : life.desc.flags &&& txuCntrlEnSwRetryCheck ≠ 0
  count : life.desc.statusDescAddr.toNat = counted reports n
  below : counted reports n < swRetryLimitedCount.toNat

structure Done (n : Nat) (life : Life) : Prop where
  outstanding : life.outstanding = 0
  again : life.again.length = n
  called : life.called = calls frame
  freed : life.freed = [frame.node]

end

/-! ## A report -/

theorem failures_le (txstatus : UInt32) : (failures txstatus).toNat ≤ 256 := by
  have masked : (txstatus &&& numMpduRetriesMsk).toNat ≤ 0xff00 := by
    rw [UInt32.toNat_and]
    exact Nat.and_le_right
  have shifted : ((txstatus &&& numMpduRetriesMsk) >>> numMpduRetriesOft).toNat ≤ 0xff := by
    rw [UInt32.toNat_shiftRight, Nat.shiftRight_eq_div_pow]
    exact Nat.div_le_div_right (c := 2 ^ 8) masked
  unfold failures
  rw [UInt32.toNat_add]
  split
  · have one : (1 : UInt32).toNat = 1 := rfl
    omega
  · have zero : (0 : UInt32).toNat = 0 := rfl
    omega

theorem checked_or (flags more : UInt16) (checked : flags &&& txuCntrlEnSwRetryCheck ≠ 0) :
    (flags ||| more) &&& txuCntrlEnSwRetryCheck ≠ 0 := by
  have parts : (flags ||| more) &&& txuCntrlEnSwRetryCheck =
      (flags &&& txuCntrlEnSwRetryCheck) ||| (more &&& txuCntrlEnSwRetryCheck) := by
    apply UInt16.toNat_inj.1
    simp only [UInt16.toNat_and, UInt16.toNat_or, Nat.and_or_distrib_right]
  rw [parts, ne_eq, UInt16.or_eq_zero_iff]
  exact fun none => checked none.1

theorem checked_pushed (flag : UInt16) : (flag ||| txuCntrlEnSwRetryCheck) &&& txuCntrlEnSwRetryCheck ≠ 0 := by
  rw [UInt16.or_comm]
  exact checked_or _ _ (by decide)

section
variable {frame : Frame} {reports : Nat → Report} {n : Nat} {before : Life}

theorem pushed_going : Going frame reports 0 frame.pushed where
  outstanding := rfl
  again := rfl
  called := rfl
  freed := rfl
  node := rfl
  callback := rfl
  param := rfl
  checked := checked_pushed frame.flag
  count := rfl
  below := Nat.zero_lt_succ 29

/-- The count has not gone round. -/
theorem Going.total (going : Going frame reports n before) :
    (before.desc.statusDescAddr + failures (reports n).statinfo).toNat = counted reports (n + 1) := by
  have small := failures_le (reports n).statinfo
  have below := going.below
  have limit : swRetryLimitedCount.toNat = 30 := rfl
  rw [UInt32.toNat_add, going.count]
  exact Nat.mod_eq_of_lt (by omega)

/-- The descriptor as `rwm_tx_confirm` finds it. -/
def told (report : Report) (life : Life) : Life :=
  { life with
    outstanding := life.outstanding - 1
    desc := { life.desc with statinfo := report.statinfo, cfmStatus := report.cfmStatus } }

theorem Going.hear (going : Going frame reports n before) (report : Report) : before.hear report =
    if ((told report before).rwnCheckSwTxRetry report.reset).2 then ((told report before).rwnCheckSwTxRetry report.reset).1
    else (told report before).complete frame.node := by
  have out : ¬before.outstanding = 0 := by rw [going.outstanding]; exact Nat.one_ne_zero
  rw [Life.hear, if_neg out]
  show (told report before).rwmTxConfirm report.reset = _
  have node : (told report before).desc.msduNode = some frame.node := going.node
  rw [Life.rwmTxConfirm, node]

/-- Just a report that ends it is not followed by another push. -/
theorem Going.check (going : Going frame reports n before) :
    ((told (reports n) before).rwnCheckSwTxRetry (reports n).reset).2 = true ↔ ¬Ends reports n := by
  have total := going.total
  have less : before.desc.statusDescAddr + failures (reports n).statinfo < swRetryLimitedCount ↔
      ¬swRetryLimitedCount.toNat ≤ counted reports (n + 1) := by rw [UInt32.lt_iff_toNat_lt, total, Nat.not_le]
  unfold Life.rwnCheckSwTxRetry Ends told
  simp only [going.checked, ne_eq, not_false_eq_true, if_true, less]
  split_ifs <;> simp_all

theorem Going.next (going : Going frame reports n before) (goes : ¬Ends reports n) :
    Going frame reports (n + 1) (before.hear (reports n)) := by
  have below : counted reports (n + 1) < swRetryLimitedCount.toNat :=
    Nat.not_le.1 fun enough => goes (Or.inr (Or.inl enough))
  have pushed := going.check.2 goes
  have total := going.total
  rw [going.hear, if_pos pushed]
  unfold Life.rwnCheckSwTxRetry told at pushed ⊢
  simp only [going.checked, ne_eq, not_false_eq_true, if_true] at pushed ⊢
  split_ifs at pushed ⊢
  refine ⟨?_, ?_, going.called, going.freed, going.node, going.callback, going.param, ?_, total, below⟩
  · show before.outstanding - 1 + 1 = 1
    rw [going.outstanding]
  · exact congrArg (· + 1) going.again
  · exact checked_or _ _ going.checked

theorem Going.done (going : Going frame reports n before) (ends : Ends reports n) :
    Done frame n (before.hear (reports n)) := by
  have stops : ¬((told (reports n) before).rwnCheckSwTxRetry (reports n).reset).2 = true := fun pushed => going.check.1 pushed ends
  rw [going.hear, if_neg stops]
  refine ⟨?_, going.again, ?_, ?_⟩
  · show before.outstanding - 1 = 0
    rw [going.outstanding]
  · show (before.desc.callback.map fun callback => (callback, before.desc.param)).toList ++ before.called = calls frame
    rw [going.callback, going.param, going.called, List.append_nil]
    rfl
  · show frame.node :: before.freed = [frame.node]
    rw [going.freed]

theorem Done.stays (done : Done frame n before) (report : Report) : Done frame n (before.hear report) := by
  rw [Life.hear, if_pos done.outstanding]
  exact done

theorem life_going (goes : ∀ k < n, ¬Ends reports k) : Going frame reports n (life frame reports n) := by
  induction n with
  | zero => exact pushed_going
  | succ n ih => exact (ih fun k less => goes k (Nat.lt_succ_of_lt less)).next (goes n (Nat.lt_succ_self n))

/-- After the first report that ends it nothing more happens. -/
theorem life_done {k : Nat} (goes : ∀ j < k, ¬Ends reports j) (ends : Ends reports k) (more : Nat) :
    Done frame k (life frame reports (k + 1 + more)) := by
  induction more with
  | zero => exact (life_going goes).done ends
  | succ more ih => exact ih.stays (reports (k + 1 + more))

/-- What is seen at each time, if the first such report is the one after `k` others. -/
theorem life_cases {k : Nat} (goes : ∀ j < k, ¬Ends reports j) (ends : Ends reports k) (n : Nat) :
    n ≤ k ∧ Going frame reports n (life frame reports n) ∨ k < n ∧ Done frame k (life frame reports n) := by
  rcases Nat.lt_or_ge k n with behind | inside
  · obtain ⟨more, rfl⟩ := Nat.exists_eq_add_of_le behind
    exact Or.inr ⟨behind, life_done goes ends more⟩
  · exact Or.inl ⟨inside, life_going fun j less => goes j (Nat.lt_of_lt_of_le less inside)⟩

theorem calls_length_le (frame : Frame) : (calls frame).length ≤ 1 := by
  unfold calls
  cases frame.callback with
  | none => exact Nat.zero_le 1
  | some _ => exact Nat.le_refl 1

theorem settled_of_ends {k : Nat} (few : k ≤ 30) (goes : ∀ j < k, ¬Ends reports j) (ends : Ends reports k) :
    Settled frame reports where
  few n := by
    rcases @life_cases frame _ _ goes ends n with ⟨inside, going⟩ | ⟨_, done⟩
    · exact Nat.le_trans (Nat.le_of_eq going.again) (Nat.le_trans inside few)
    · exact Nat.le_trans (Nat.le_of_eq done.again) few
  once n := by
    rcases @life_cases frame _ _ goes ends n with ⟨_, going⟩ | ⟨_, done⟩
    · rw [going.called, going.freed]
      exact ⟨Nat.zero_le 1, Nat.zero_le 1⟩
    · rw [done.called, done.freed]
      exact ⟨calls_length_le frame, Nat.le_refl 1⟩
  quiet n := by
    rcases @life_cases frame _ _ goes ends n with ⟨_, going⟩ | ⟨_, done⟩
    · rw [going.called, going.freed]
      exact fun either => absurd either (by simp)
    · exact fun _ => done.outstanding
  completed := by
    refine ⟨k + 1, fun n late => ?_⟩
    obtain ⟨more, rfl⟩ := Nat.exists_eq_add_of_le late
    have done := @life_done frame _ _ goes ends more
    exact ⟨done.outstanding, done.called, done.freed⟩

/-- The frame is settled exactly if one of its first 31 reports is an acknowledgement or a flush, or brings the count to 30. -/
theorem settled_iff (frame : Frame) (reports : Nat → Report) : Settled frame reports ↔ ∃ n, n ≤ 30 ∧ Ends reports n := by
  constructor
  · intro settled
    by_contra never
    have goes : ∀ k < 31, ¬Ends reports k := fun k less ends => never ⟨k, Nat.le_of_lt_succ less, ends⟩
    have few := settled.few 31
    rw [(life_going goes).again] at few
    exact absurd few (by decide)
  · rintro ⟨n, early, ends⟩
    have found : ∃ k, Ends reports k := ⟨n, ends⟩
    have first := Nat.find_min' found ends
    exact settled_of_ends (Nat.le_trans first early) (fun _ less => Nat.find_min found less) (Nat.find_spec found)

end

/-- Each time the lifetime of the frame has expired before it was sent at all. -/
def expired : Report := ⟨0x80020000, 0, false⟩

theorem counted_expired (n : Nat) : counted (fun _ => expired) n = 0 := by
  induction n with
  | zero => rfl
  | succ n ih => rw [counted, ih]; rfl

theorem expired_not_settled : ¬Settled ⟨0, 2, some 7, 0, 1⟩ fun _ => expired := by
  intro settled
  have goes : ∀ k < 31, ¬Ends (fun _ => expired) k := by
    intro k _ ends
    have none : ¬(txAcked expired.statinfo = true ∨ swRetryLimitedCount.toNat ≤ 0 ∨ expired.reset = true ∨
      swDone expired.cfmStatus = true) := by decide
    rw [Ends, counted_expired] at ends
    exact none ends
  have few := settled.few 31
  rw [(life_going goes).again] at few
  exact absurd few (by decide)

end BekenSdk.RwMsdu.TxRetry
