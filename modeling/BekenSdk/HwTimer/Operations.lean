import BekenSdk.HwTimer.Sleep

/-! What the operations on one timer channel do to the others. -/

set_option autoImplicit false

namespace BekenSdk.HwTimer

inductive Operation where
  | bkTimerCtrl (cmd : Cmd)
  | bkTimerDisable (channel : Word)
  | bkTimerEnable (channel delayMs : Word)
  /-- The functions for the timers of the fast clock, used for one of them. -/
  | psTimer02Disable (channel : Nat)
  | psTimer02Restore (channel : Nat)
  | psTimer3Enable (period : Word)
  /-- With a bound on the rounds of its loop. -/
  | psTimer3Disable (polls : Nat)

namespace Operation

/-- The channel that an operation is on. -/
def channel : Operation → Nat
  | .bkTimerCtrl (.timerUnitEnable channel) => channel.toNat
  | .bkTimerCtrl (.timerUnitDisable channel) => channel.toNat
  | .bkTimerCtrl (.timerInitParam param) => param.channel.toNat
  | .bkTimerCtrl (.timerInitParamUs param) => param.channel.toNat
  | .bkTimerDisable channel => channel.toNat
  | .bkTimerEnable channel _ => channel.toNat
  | .psTimer02Disable channel => channel
  | .psTimer02Restore channel => channel
  | .psTimer3Enable _ => 3
  | .psTimer3Disable _ => 3

def run (env : Env) (board : Board) : Operation → Option Board
  | .bkTimerCtrl cmd => some (board.bkTimerCtrl env cmd).2
  | .bkTimerDisable channel => some (board.bkTimerDisable env channel).2
  | .bkTimerEnable channel delayMs => some (board.bkTimerEnable env channel delayMs).2
  | .psTimer02Disable _ => some (board.psTimer02Disable env)
  | .psTimer02Restore _ => some (board.psTimer02Restore env)
  | .psTimer3Enable period => some (board.psTimer3Enable env period)
  | .psTimer3Disable polls => (board.psTimer3Disable env polls).map Prod.snd

/-- When an operation leaves another channel alone, by its last register access: the ones that enable or disable a
channel always do. -/
def Spares (env : Env) (board : Board) (last other : Nat) : Operation → Prop
  | .bkTimerCtrl (.timerInitParam param) => param.channel.toNat ≤ 5 →
    groupOf other = groupOf param.channel.toNat → InitSpares env param.div board last other
  | .bkTimerCtrl (.timerInitParamUs param) => param.channel.toNat ≤ 2 →
    groupOf other = groupOf param.channel.toNat → InitSpares env param.div board last other
  | .bkTimerCtrl (.timerUnitEnable _) => True
  | .bkTimerCtrl (.timerUnitDisable _) => True
  | .bkTimerDisable _ => True
  | .bkTimerEnable _ _ => True
  | .psTimer02Disable _ => other < 3 → board.enabled other = false ∧ ¬Comes env other board last
  | .psTimer02Restore _ => other < 3 →
    board.timer02EnValue.getLsbD (indexOf other) = board.enabled other ∧
      board.timer02EnValue.extractLsb' timerctlClkdivPosi 3 = board.divider other ∧
      ¬(Comes env other board (last + 1) ∧ board.timer02EnValue.getLsbD (timerctlIntPosi + indexOf other) = true)
  | .psTimer3Enable _ => ¬other < 3 → ¬Comes env other board last
  | .psTimer3Disable _ => ¬other < 3 → env.fclkGetTickId = bkTimerId3 → ¬Comes env other board last

end Operation

namespace Board
variable {env : Env} {board : Board} {other : Nat}

/-- The operations that change one control register for a channel that there is. -/
theorem chosen_undisturbed {change : Nat → Word → Word} {channel : Nat} (valid : other < 6) (different : other ≠ channel)
    (confined : ∀ {index}, index < 3 → Confined index (change index)) :
    Undisturbed env other board (if channel > 5 then (bkTimerFailure, board)
      else if channel < 3 then (bkTimerSuccess, board.modifyCtl env .timer0_2 (change channel))
      else (bkTimerSuccess, board.modifyCtl env .timer3_5 (change (channel - 3)))).2 := by
  by_cases own : channel > 5
  · rw [if_pos own]
    exact ⟨rfl, rfl, rfl, Passes.refl.pending rfl, rfl⟩
  · have inside : channel < 6 := by omega
    rw [if_neg own, modifyCtl_chosen]
    exact modifyCtl_confined (confined (indexOf_lt inside)) inside valid different

theorem bkTimerEnable_undisturbed {channel delayMs : Word} (valid : other < 6) (different : other ≠ channel.toNat) :
    Undisturbed env other board (board.bkTimerEnable env channel delayMs).2 := by
  rw [bkTimerEnable]
  dsimp only
  split
  · exact ⟨rfl, rfl, rfl, Passes.refl.pending rfl, rfl⟩
  next own =>
    have inside : channel.toNat < 6 := by omega
    have calm : ∀ period, Calm env other board ((board.writeCnt env channel.toNat period).modifyCtl env
        (groupOf channel.toNat) (timerEnabled (indexOf channel.toNat))) :=
      fun period => (writeCnt_calm valid different).trans
        (modifyCtl_calm (timerEnabled_confined (indexOf_lt inside)) inside valid different)
    split
    next low =>
      rw [groupOf_low low, indexOf_low low] at calm
      exact (calm _).undisturbed
    next high =>
      rw [groupOf_high high, indexOf_high high] at calm
      exact (calm _).undisturbed

/-- A handler is no part of what is left of a channel. -/
theorem undisturbed_handler {ucChannel : Nat} {handler : Option Nat} {after : Board} :
    Undisturbed env other (board.setHandler ucChannel handler) after ↔ Undisturbed env other board after :=
  ⟨fun kept => ⟨kept.enabled, kept.divider, kept.period, kept.pending, kept.cleared⟩,
    fun kept => ⟨kept.enabled, kept.divider, kept.period, kept.pending, kept.cleared⟩⟩

theorem initSpares_handler {ucChannel last : Nat} {handler : Option Nat} {div : BitVec 8} :
    InitSpares env div (board.setHandler ucChannel handler) last other ↔ InitSpares env div board last other :=
  ⟨fun spares => ⟨spares.divider, spares.idle, spares.inside⟩, fun spares => ⟨spares.divider, spares.idle, spares.inside⟩⟩

theorem initTimerParam_undisturbed {param : TimerParam} (valid : other < 6) (different : other ≠ param.channel.toNat) :
    Undisturbed env other board (board.initTimerParam env param).2 ↔ (param.channel.toNat ≤ 5 →
      groupOf other = groupOf param.channel.toNat →
        InitSpares env param.div board ((board.initTimerParam env param).2.access - 1) other) := by
  by_cases outside : param.channel.toNat > 5
  · rw [initTimerParam, if_pos outside]
    exact iff_of_true ⟨rfl, rfl, rfl, Passes.refl.pending rfl, rfl⟩ fun inside => absurd outside (Nat.not_lt.mpr inside)
  · rw [initTimerParam_eq outside, ← undisturbed_handler, initialise_undisturbed (by omega) valid different,
      initSpares_handler]
    exact ⟨fun spares _ => spares, fun spares => spares (Nat.not_lt.mp outside)⟩

theorem initTimerParamUs_undisturbed {param : TimerParam} (valid : other < 6) (different : other ≠ param.channel.toNat) :
    Undisturbed env other board (board.initTimerParamUs env param).2 ↔ (param.channel.toNat ≤ 2 →
      groupOf other = groupOf param.channel.toNat →
        InitSpares env param.div board ((board.initTimerParamUs env param).2.access - 1) other) := by
  by_cases outside : param.channel.toNat > 2
  · rw [initTimerParamUs, if_pos outside]
    exact iff_of_true ⟨rfl, rfl, rfl, Passes.refl.pending rfl, rfl⟩ fun inside => absurd outside (Nat.not_lt.mpr inside)
  · rw [initTimerParamUs_eq outside, ← undisturbed_handler, initialise_undisturbed (by omega) valid different,
      initSpares_handler]
    exact ⟨fun spares _ => spares, fun spares => spares (Nat.not_lt.mp outside)⟩

end Board

/-- An operation leaves another channel alone exactly when the condition says so. -/
theorem Operation.undisturbed_iff {env : Env} {board after : Board} {operation : Operation} {other : Nat}
    (done : operation.run env board = some after) (valid : other < 6) (different : other ≠ operation.channel) :
    Undisturbed env other board after ↔ operation.Spares env board (after.access - 1) other := by
  cases operation with
  | bkTimerCtrl cmd =>
    obtain rfl := Option.some.inj done
    cases cmd with
    | timerUnitEnable channel =>
      exact iff_of_true (Board.chosen_undisturbed valid different unitEnabled_confined) trivial
    | timerUnitDisable channel =>
      exact iff_of_true (Board.chosen_undisturbed valid different unitDisabled_confined) trivial
    | timerInitParam param => exact Board.initTimerParam_undisturbed valid different
    | timerInitParamUs param => exact Board.initTimerParamUs_undisturbed valid different
  | bkTimerDisable channel =>
    obtain rfl := Option.some.inj done
    exact iff_of_true (Board.chosen_undisturbed valid different unitDisabled_confined) trivial
  | bkTimerEnable channel delayMs =>
    obtain rfl := Option.some.inj done
    exact iff_of_true (Board.bkTimerEnable_undisturbed valid different) trivial
  | psTimer02Disable channel =>
    obtain rfl := Option.some.inj done
    exact Board.psTimer02Disable_undisturbed valid
  | psTimer02Restore channel =>
    obtain rfl := Option.some.inj done
    exact Board.psTimer02Restore_undisturbed valid
  | psTimer3Enable period =>
    obtain rfl := Option.some.inj done
    exact Board.psTimer3Enable_undisturbed valid different
  | psTimer3Disable polls =>
    obtain ⟨⟨less, last⟩, stopped, rfl⟩ := Option.map_eq_some_iff.mp done
    exact Board.psTimer3Disable_undisturbed valid different stopped

end BekenSdk.HwTimer
