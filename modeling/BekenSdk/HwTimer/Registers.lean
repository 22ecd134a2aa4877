import BekenSdk.Base.OneToClear

/-! The registers of the six hardware timers (bk_timer.h). Three channels share a control register, with an enable bit
and an interrupt bit for each and one clock divider; the interrupt bits are cleared by writing ones. Timers may expire
between any two register accesses.
-/

set_option autoImplicit false

namespace BekenSdk.HwTimer

open BekenSdk.Base

abbrev Word := BitVec 32

inductive Group where
  | timer0_2
  | timer3_5
  deriving DecidableEq

def timerctlClkdivPosi : Nat := 3

def timerctlClkdivMask : Word := 0x07

def timerctlIntPosi : Nat := 7

/-- The interrupt bits of a control register. -/
def intBits : Word := 0x7#32 <<< timerctlIntPosi

def groupOf (channel : Nat) : Group := if channel < 3 then .timer0_2 else .timer3_5

/-- The place of a channel in its group. -/
def indexOf (channel : Nat) : Nat := if channel < 3 then channel else channel - 3

/-- What the driver does not decide, by the number of the register access. -/
structure Env where
  /-- Channels of a group that expire just before an access, at their interrupt bits. -/
  expiring : Nat → Group → Word
  /-- Whether a count that was asked for is still being read out. -/
  reading : Nat → Bool
  readValue : Nat → Word
  fclkGetTickId : Nat

structure Board where
  ctl : Group → Word
  /-- The TIMERn_CNT registers: the period of a channel. -/
  cnt : Nat → Word
  readCtl : Group → Word
  /-- p_TIMER_Int_Handler, with numbers for the functions. -/
  intHandler : Nat → Option Nat
  timer02EnValue : Word
  /-- The number of the next register access. -/
  access : Nat
  /-- How often a write has cleared the interrupt of a channel while it was pending. -/
  cleared : Nat → Nat

namespace Board
variable (env : Env) (board : Board)

def enabled (channel : Nat) : Bool := (board.ctl (groupOf channel)).getLsbD (indexOf channel)

def pending (channel : Nat) : Bool := (board.ctl (groupOf channel)).getLsbD (timerctlIntPosi + indexOf channel)

/-- The divider in effect for a channel. -/
def divider (channel : Nat) : BitVec 3 := (board.ctl (groupOf channel)).extractLsb' timerctlClkdivPosi 3

/-- The board just before its next access. -/
def settle : Board :=
  { board with
    ctl := fun group => OneToClear.raised intBits (board.ctl group) (env.expiring board.access group)
    access := board.access + 1 }

def writeCtl (group : Group) (value : Word) : Board :=
  let board := board.settle env
  { board with
    ctl := fun other => if other = group then OneToClear.written intBits (board.ctl group) value else board.ctl other
    cleared := fun channel =>
      if groupOf channel = group ∧ board.pending channel ∧ value.getLsbD (timerctlIntPosi + indexOf channel) then
        board.cleared channel + 1
      else board.cleared channel }

/-- A control register is read, and what is made of it written. -/
def modifyCtl (group : Group) (change : Word → Word) : Board :=
  let found := board.settle env
  found.writeCtl env group (change (found.ctl group))

def writeCnt (channel : Nat) (period : Word) : Board :=
  let board := board.settle env
  { board with cnt := fun other => if other = channel then period else board.cnt other }

def writeReadCtl (group : Group) (value : Word) : Board :=
  let board := board.settle env
  { board with readCtl := fun other => if other = group then value else board.readCtl other }

end Board

/-! ## What an access leaves of a channel -/

/-- A channel expires before one of the accesses from a number to below another. -/
def Env.Expires (env : Env) (channel first last : Nat) : Prop :=
  ∃ access, first ≤ access ∧ access < last ∧
    (env.expiring access (groupOf channel)).getLsbD (timerctlIntPosi + indexOf channel) = true

theorem Env.expires_split {env : Env} {channel first middle last : Nat} (before : first ≤ middle) (after : middle ≤ last) :
    env.Expires channel first last ↔ env.Expires channel first middle ∨ env.Expires channel middle last := by
  constructor
  · rintro ⟨access, low, high, up⟩
    by_cases early : access < middle
    · exact .inl ⟨access, low, early, up⟩
    · exact .inr ⟨access, Nat.not_lt.mp early, high, up⟩
  · rintro (⟨access, low, high, up⟩ | ⟨access, low, high, up⟩)
    · exact ⟨access, low, Nat.lt_of_lt_of_le high after, up⟩
    · exact ⟨access, Nat.le_trans before low, high, up⟩

theorem Env.expires_one {env : Env} {channel access : Nat} : env.Expires channel access (access + 1) ↔
    (env.expiring access (groupOf channel)).getLsbD (timerctlIntPosi + indexOf channel) = true := by
  constructor
  · rintro ⟨other, low, high, up⟩
    obtain rfl : other = access := by omega
    exact up
  · exact fun up => ⟨access, Nat.le_refl _, Nat.lt_succ_self _, up⟩

/-- Accesses go on, and while no write clears a channel it is pending if it was or has expired since. -/
structure Passes (env : Env) (channel : Nat) (board after : Board) : Prop where
  later : board.access ≤ after.access
  counted : board.cleared channel ≤ after.cleared channel
  pending : after.cleared channel = board.cleared channel →
    (after.pending channel = true ↔ board.pending channel = true ∨ env.Expires channel board.access after.access)

namespace Passes
variable {env : Env} {channel : Nat} {board middle after : Board}

theorem refl : Passes env channel board board where
  later := Nat.le_refl _
  counted := Nat.le_refl _
  pending _ := ⟨.inl, fun up => up.elim id fun ⟨_, low, high, _⟩ => absurd (Nat.lt_of_le_of_lt low high) (Nat.lt_irrefl _)⟩

theorem cleared_iff (first : Passes env channel board middle) (second : Passes env channel middle after) :
    after.cleared channel = board.cleared channel ↔
      middle.cleared channel = board.cleared channel ∧ after.cleared channel = middle.cleared channel := by
  have early := first.counted
  have late := second.counted
  omega

theorem trans (first : Passes env channel board middle) (second : Passes env channel middle after) :
    Passes env channel board after where
  later := Nat.le_trans first.later second.later
  counted := Nat.le_trans first.counted second.counted
  pending same := by
    obtain ⟨early, late⟩ := (first.cleared_iff second).mp same
    rw [second.pending late, first.pending early, Env.expires_split first.later second.later, or_assoc]

end Passes

/-- What an operation on another channel is to leave of a channel: its enable bit, its period, the divider, and its
interrupt but for those that come up meanwhile. -/
structure Undisturbed (env : Env) (channel : Nat) (board after : Board) : Prop where
  enabled : after.enabled channel = board.enabled channel
  divider : after.divider channel = board.divider channel
  period : after.cnt channel = board.cnt channel
  pending : after.pending channel = true ↔ board.pending channel = true ∨ env.Expires channel board.access after.access
  cleared : after.cleared channel = board.cleared channel

theorem undisturbed_iff {env : Env} {channel : Nat} {board after : Board} (passes : Passes env channel board after) :
    Undisturbed env channel board after ↔ after.enabled channel = board.enabled channel ∧
      after.divider channel = board.divider channel ∧ after.cnt channel = board.cnt channel ∧
      after.cleared channel = board.cleared channel := by
  constructor
  · exact fun kept => ⟨kept.enabled, kept.divider, kept.period, kept.cleared⟩
  · rintro ⟨enabled, divider, period, cleared⟩
    exact ⟨enabled, divider, period, passes.pending cleared, cleared⟩

/-! ## Bits of the control registers -/

theorem indexOf_lt {channel : Nat} (valid : channel < 6) : indexOf channel < 3 := by
  unfold indexOf
  split <;> omega

theorem intBits_getLsbD {k : Nat} (inside : k < 32) : intBits.getLsbD k = decide (7 ≤ k ∧ k < 10) :=
  @OneToClear.getLsbD_field 32 k 7 3 inside

theorem intBits_index {channel : Nat} (valid : channel < 6) :
    intBits.getLsbD (timerctlIntPosi + indexOf channel) = true := by
  have small := indexOf_lt valid
  have inside : timerctlIntPosi + indexOf channel < 32 := by unfold timerctlIntPosi; omega
  rw [intBits_getLsbD inside, timerctlIntPosi]
  exact decide_eq_true (by omega)

theorem intBits_low {k : Nat} (low : k < 7) : intBits.getLsbD k = false := by
  rw [intBits_getLsbD (by omega)]
  exact decide_eq_false (by omega)

/-- Two registers with the same bits 3 to 5 have the same divider. -/
theorem divider_congr {old new : Word} (same : ∀ k, 3 ≤ k → k < 6 → new.getLsbD k = old.getLsbD k) :
    new.extractLsb' timerctlClkdivPosi 3 = old.extractLsb' timerctlClkdivPosi 3 := by
  apply BitVec.eq_of_getLsbD_eq
  intro k inside
  rw [BitVec.getLsbD_extractLsb', BitVec.getLsbD_extractLsb', timerctlClkdivPosi, same (3 + k) (by omega) (by omega)]

namespace Board
variable {env : Env} {board : Board} {channel : Nat}

theorem settle_low (group : Group) {k : Nat} (low : k < 7) :
    ((board.settle env).ctl group).getLsbD k = (board.ctl group).getLsbD k :=
  OneToClear.getLsbD_raised_other (intBits_low low)

theorem settle_enabled (valid : channel < 6) : (board.settle env).enabled channel = board.enabled channel :=
  settle_low _ (by have := indexOf_lt valid; omega)

theorem settle_divider : (board.settle env).divider channel = board.divider channel :=
  divider_congr fun _ _ high => settle_low _ (by omega)

theorem settle_pending (valid : channel < 6) : (board.settle env).pending channel =
    (board.pending channel || (env.expiring board.access (groupOf channel)).getLsbD
      (timerctlIntPosi + indexOf channel)) :=
  OneToClear.getLsbD_raised_status (intBits_index valid)

theorem settle_passes (valid : channel < 6) : Passes env channel board (board.settle env) where
  later := Nat.le_succ _
  counted := Nat.le_refl _
  pending _ := by
    rw [settle_pending valid, Bool.or_eq_true]
    exact or_congr_right Env.expires_one.symm

theorem writeCtl_other {group other : Group} {value : Word} (different : other ≠ group) :
    (board.writeCtl env group value).ctl other = (board.settle env).ctl other :=
  if_neg different

theorem writeCtl_ctl {group : Group} {value : Word} : (board.writeCtl env group value).ctl group =
    OneToClear.written intBits ((board.settle env).ctl group) value :=
  if_pos rfl

/-- The bits of a written register below the interrupt bits. -/
theorem writeCtl_low {group : Group} {value : Word} {k : Nat} (low : k < 7) :
    ((board.writeCtl env group value).ctl group).getLsbD k = value.getLsbD k := by
  rw [writeCtl_ctl]
  exact OneToClear.getLsbD_written_other (by omega) (intBits_low low)

theorem writeCtl_cleared {group : Group} {value : Word} :
    (board.writeCtl env group value).cleared channel = board.cleared channel ↔
      ¬(groupOf channel = group ∧ (board.settle env).pending channel = true ∧
        value.getLsbD (timerctlIntPosi + indexOf channel) = true) := by
  show ite _ _ _ = _ ↔ _
  split
  next hit => exact iff_of_false (Nat.succ_ne_self _) (not_not_intro hit)
  next miss => exact iff_of_true rfl miss

theorem writeCtl_passes {group : Group} {value : Word} (valid : channel < 6) :
    Passes env channel board (board.writeCtl env group value) where
  later := Nat.le_succ _
  counted := by
    show _ ≤ ite _ _ _
    split
    · exact Nat.le_succ _
    · exact Nat.le_refl _
  pending same := by
    have settled := (settle_passes valid : Passes env channel board (board.settle env))
    suffices kept : (board.writeCtl env group value).pending channel = (board.settle env).pending channel by
      rw [kept]
      exact settled.pending rfl
    have miss := writeCtl_cleared.mp same
    unfold pending at miss ⊢
    by_cases own : groupOf channel = group
    · subst own
      have small := indexOf_lt valid
      rw [writeCtl_ctl, OneToClear.getLsbD_written_status (by unfold timerctlIntPosi; omega) (intBits_index valid)]
      cases up : ((board.settle env).ctl (groupOf channel)).getLsbD (timerctlIntPosi + indexOf channel)
      · rfl
      · rw [eq_false_of_ne_true fun one => miss ⟨rfl, up, one⟩]
        rfl
    · rw [writeCtl_other own]

theorem writeCnt_passes {other : Nat} {period : Word} (valid : channel < 6) :
    Passes env channel board (board.writeCnt env other period) where
  later := Nat.le_succ _
  counted := Nat.le_refl _
  pending := (settle_passes valid : Passes env channel board (board.settle env)).pending

theorem writeReadCtl_passes {group : Group} {value : Word} (valid : channel < 6) :
    Passes env channel board (board.writeReadCtl env group value) where
  later := Nat.le_succ _
  counted := Nat.le_refl _
  pending := (settle_passes valid : Passes env channel board (board.settle env)).pending

theorem modifyCtl_passes {group : Group} {change : Word → Word} (valid : channel < 6) :
    Passes env channel board (board.modifyCtl env group change) :=
  (settle_passes valid).trans (writeCtl_passes valid)

end Board

/-! ## What a change of a control register leaves of a channel -/

/-- The enable bit and the divider of a channel, and its period, are as they were. -/
structure Framed (channel : Nat) (board after : Board) : Prop where
  enabled : after.enabled channel = board.enabled channel
  divider : after.divider channel = board.divider channel
  period : after.cnt channel = board.cnt channel

/-- A change that leaves the enable bit of a channel and the divider. -/
structure Spares (change : Word → Word) (channel : Nat) : Prop where
  enable : ∀ word, (change word).getLsbD (indexOf channel) = word.getLsbD (indexOf channel)
  clkdiv : ∀ word k, 3 ≤ k → k < 6 → (change word).getLsbD k = word.getLsbD k

namespace Framed
variable {channel : Nat} {board middle after : Board}

theorem refl : Framed channel board board := ⟨rfl, rfl, rfl⟩

theorem trans (first : Framed channel board middle) (second : Framed channel middle after) :
    Framed channel board after :=
  ⟨second.enabled.trans first.enabled, second.divider.trans first.divider, second.period.trans first.period⟩

end Framed

theorem undisturbed_of_framed {env : Env} {channel : Nat} {board after : Board} (passes : Passes env channel board after)
    (framed : Framed channel board after) :
    Undisturbed env channel board after ↔ after.cleared channel = board.cleared channel :=
  (undisturbed_iff passes).trans ⟨fun kept => kept.2.2.2,
    fun same => ⟨framed.enabled, framed.divider, framed.period, same⟩⟩

namespace Board
variable {env : Env} {board : Board} {channel : Nat} {group : Group} {change : Word → Word}

theorem settle_framed (valid : channel < 6) : Framed channel board (board.settle env) :=
  ⟨settle_enabled valid, settle_divider, rfl⟩

theorem writeCnt_framed {other : Nat} {period : Word} (valid : channel < 6) (different : channel ≠ other) :
    Framed channel board (board.writeCnt env other period) :=
  ⟨settle_enabled valid, settle_divider, if_neg different⟩

theorem writeReadCtl_framed {value : Word} (valid : channel < 6) :
    Framed channel board (board.writeReadCtl env group value) :=
  ⟨settle_enabled valid, settle_divider, rfl⟩

theorem modifyCtl_enabled (own : groupOf channel = group) (valid : channel < 6) :
    (board.modifyCtl env group change).enabled channel =
      (change ((board.settle env).ctl group)).getLsbD (indexOf channel) := by
  subst own
  have small := indexOf_lt valid
  exact writeCtl_low (by omega)

theorem modifyCtl_divider (own : groupOf channel = group) : (board.modifyCtl env group change).divider channel =
    (change ((board.settle env).ctl group)).extractLsb' timerctlClkdivPosi 3 := by
  subst own
  exact divider_congr fun _ _ high => writeCtl_low (by omega)

/-- A write to the other group's register is none for the channel. -/
theorem writeCtl_elsewhere {value : Word} (other : groupOf channel ≠ group) (valid : channel < 6) :
    Framed channel board (board.writeCtl env group value) ∧
      (board.writeCtl env group value).cleared channel = board.cleared channel := by
  refine ⟨⟨?_, ?_, rfl⟩, writeCtl_cleared.mpr fun hit => other hit.1⟩
  · rw [enabled, writeCtl_other other]
    exact settle_enabled valid
  · rw [divider, writeCtl_other other]
    exact settle_divider

theorem modifyCtl_other (other : groupOf channel ≠ group) (valid : channel < 6) :
    Framed channel board (board.modifyCtl env group change) ∧
      (board.modifyCtl env group change).cleared channel = board.cleared channel := by
  obtain ⟨framed, same⟩ := (writeCtl_elsewhere other valid :
    Framed channel (board.settle env) (board.modifyCtl env group change) ∧ _)
  exact ⟨(settle_framed valid).trans framed, same⟩

theorem modifyCtl_framed (valid : channel < 6) (spares : groupOf channel = group → Spares change channel) :
    Framed channel board (board.modifyCtl env group change) := by
  by_cases own : groupOf channel = group
  · have spared := spares own
    refine ⟨?_, ?_, rfl⟩
    · rw [modifyCtl_enabled own valid, spared.enable, ← own]
      exact settle_enabled valid
    · rw [modifyCtl_divider own, divider_congr fun k low high => spared.clkdiv _ k low high, ← own]
      exact settle_divider
  · exact (modifyCtl_other own valid).1

theorem modifyCtl_cleared : (board.modifyCtl env group change).cleared channel = board.cleared channel ↔
    ¬(groupOf channel = group ∧ ((board.settle env).settle env).pending channel = true ∧
      (change ((board.settle env).ctl group)).getLsbD (timerctlIntPosi + indexOf channel) = true) :=
  writeCtl_cleared

/-- A change that writes a zero to the interrupt bit of a channel clears none of it. -/
theorem modifyCtl_quiet (zero : groupOf channel = group → ∀ word,
    (change word).getLsbD (timerctlIntPosi + indexOf channel) = false) :
    (board.modifyCtl env group change).cleared channel = board.cleared channel := by
  rw [modifyCtl_cleared]
  rintro ⟨own, _, one⟩
  rw [zero own] at one
  cases one

/-- A change that writes back the interrupt bit of a channel clears it if it is found set. -/
theorem modifyCtl_writtenBack (valid : channel < 6) (own : groupOf channel = group)
    (back : ∀ word, (change word).getLsbD (timerctlIntPosi + indexOf channel) =
      word.getLsbD (timerctlIntPosi + indexOf channel)) :
    (board.modifyCtl env group change).cleared channel = board.cleared channel ↔
      ¬(board.settle env).pending channel = true := by
  subst own
  rw [modifyCtl_cleared, back, settle_pending valid, not_congr]
  show _ ∧ _ ∧ (board.settle env).pending channel = true ↔ _
  constructor
  · exact fun hit => hit.2.2
  · intro up
    rw [up]
    exact ⟨rfl, rfl, rfl⟩

end Board

end BekenSdk.HwTimer
