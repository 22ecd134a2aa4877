import Mathlib.Data.List.Count
import Mathlib.Logic.Relation
import BekenSdk.LvPs.Elements

/-! What the calls do to the elements, in moves: an element is taken from the list or
allocated, and is then pushed, or called and freed. Each call is some moves one after
the other; what holds of the elements is shown for a move.
-/

set_option autoImplicit false

namespace BekenSdk.LvPs
open Base

variable {s t : State} {elem : LvElement} {held : Option LvElement}

/-! ## Calls -/

/-- What a call of a callback has to be like, after the earlier ones: a Wi-Fi element that
slept was not woken by a pin alone, a chained element is a Bluetooth one behind a
Wi-Fi element that was just called, and a passed one has passed. -/
def Call.Fits (call : Call) (earlier : List Call) : Prop :=
  match call.route with
  | .taken slept => call.elem.lvType = .wifi → slept ≠ some .gpio
  | .chained =>
    call.elem.lvType = .bt ∧
      ∃ last slept, earlier.head? = some last ∧ last.elem.lvType = .wifi ∧ last.route = .taken slept
  | .passed => Passed call.elem call.time

def AllFit : List Call → Prop
  | [] => True
  | call :: earlier => call.Fits earlier ∧ AllFit earlier

/-! ## Moves -/

/-- An element that is in no list is held. -/
inductive Move : Option LvElement × State → Option LvElement × State → Prop where
  | bluetooth {s : State} (target : UInt64) : Move (none, s) (some (s.osMalloc .bt target).1, (s.osMalloc .bt target).2)
  /-- A Wi-Fi element comes with the flag. -/
  | beacon {s : State} (target : UInt64) (due : s.lvPsWakeupWifi ≠ 0) :
      Move (none, s) (none, { (s.osMalloc .wifi target).2.lvPsPushElement (s.osMalloc .wifi target).1 with
        lvPsWakeupWifi := 0 })
  | push {s : State} {elem : LvElement} : Move (some elem, s) (none, s.lvPsPushElement elem)
  | pop {s : State} {elem : LvElement} {rest : List LvElement} (first : s.lvElement = elem :: rest) :
      Move (none, s) (some elem, { s with lvElement := rest })
  | call {s : State} {elem : LvElement} {time : UInt64} {route : Route} (fits : Call.Fits ⟨elem, time, route⟩ s.calls) :
      Move (some elem, s) (none, (s.objectCb elem time route).osFree elem)
  | btDel {s : State} : Move (none, s) (none, s.lvPsElementBtDel)
  | registers {s : State} {held : Option LvElement} (way : WakeUpWay) (target : UInt64) (duration : UInt32) (on : Bool) :
      Move (held, s) (held, { s with
        lvPsWakeUpWay := way
        lvPsTargetTime := target
        lvPsCurrentSleepDuration := duration
        mcuPsOn := on })

def Moves : Option LvElement × State → Option LvElement × State → Prop := Relation.ReflTransGen Move

/-! ## The list -/

instance : Std.Total Earlier := ⟨fun i j => UInt64.le_total i.lvTargetTime j.lvTargetTime⟩
instance : IsTrans LvElement Earlier := ⟨fun _ _ _ first second => UInt64.le_trans first second⟩

theorem push_spec (s : State) (elem : LvElement) :
    ∃ list, s.lvPsPushElement elem = { s with lvElement := list } ∧ list.Perm (elem :: s.lvElement) ∧
      list.Pairwise Earlier := by
  unfold State.lvPsPushElement
  split
  next empty => exact ⟨[elem], rfl, by rw [empty], List.pairwise_singleton _ _⟩
  next node rest full =>
    rw [full]
    split
    · have perm := (backwardSort_perm Earlier (node :: rest ++ [elem])).trans (List.perm_append_singleton elem _)
      exact ⟨_, rfl, perm, backwardSort_sorted Earlier _⟩
    · exact ⟨_, rfl, backwardSort_perm Earlier _, backwardSort_sorted Earlier _⟩

/-- An element that was first is first again when it is pushed back. -/
theorem push_first (sorted : s.lvElement.Pairwise Earlier) (first : ∀ other ∈ s.lvElement, Earlier elem other) :
    s.lvPsPushElement elem = { s with lvElement := elem :: s.lvElement } := by
  unfold State.lvPsPushElement
  split
  next empty => rw [empty]
  next node rest full =>
    rw [full] at sorted first ⊢
    have before : Earlier elem node := first node List.mem_cons_self
    rw [if_neg (UInt64.not_lt.mpr before), insertionSort,
      backwardSort_of_sorted Earlier (List.pairwise_cons.mpr ⟨first, sorted⟩)]

theorem push_sorted (s : State) (elem : LvElement) : (s.lvPsPushElement elem).lvElement.Pairwise Earlier := by
  obtain ⟨list, pushed, -, sorted⟩ := push_spec s elem
  rw [pushed]
  exact sorted

theorem pop_some {node : LvElement} (popped : s.lvPsPopElement = (some node, t)) :
    ∃ rest, s.lvElement = node :: rest ∧ t = { s with lvElement := rest } := by
  unfold State.lvPsPopElement at popped
  split at popped
  · cases popped
  next first rest full =>
    cases popped
    exact ⟨rest, full, rfl⟩

theorem pop_none (popped : s.lvPsPopElement = (none, t)) : t = s ∧ s.lvElement = [] := by
  unfold State.lvPsPopElement at popped
  split at popped
  next empty =>
    cases popped
    exact ⟨rfl, empty⟩
  · cases popped

theorem next_some {lvType : LvType} (next : s.lvPsElementNext = some lvType) :
    ∃ node rest, s.lvElement = node :: rest ∧ node.lvType = lvType := by
  rw [State.lvPsElementNext, Option.map_eq_some_iff] at next
  obtain ⟨node, first, same⟩ := next
  obtain ⟨rest, full⟩ := List.head?_eq_some_iff.mp first
  exact ⟨node, rest, full, same⟩

/-! ## Each call in moves -/

theorem checkPass_moves (s : State) (now : UInt64) : Moves (none, s) (none, s.lvPsElementCheckPass now) := by
  unfold State.lvPsElementCheckPass
  split
  · exact .refl
  next node rest first =>
    split
    next passed => exact .tail (.single (.pop first)) (.call passed)
    · exact .refl

theorem giveBack_moves (s : State) (elem : LvElement) (slept : Option Wake) (now : UInt64)
    (woken : ∀ wake ∈ slept, s.lvPsWakeUpWay = wake.way) :
    Move (some elem, s) (none, s.giveBack elem slept now) := by
  unfold State.giveBack
  split
  · exact .push
  next called =>
    refine .call fun wifi gpio => called ⟨wifi, ?_⟩
    exact woken .gpio gpio

/-- The chained element is a Bluetooth one, and the Wi-Fi element before it was called:
pushed back it would be first. -/
theorem chain_moves {slept : Option Wake} {now : UInt64} (sorted : s.lvElement.Pairwise Earlier)
    (first : ∀ other ∈ s.lvElement, Earlier elem other) :
    Moves (none, s.giveBack elem slept now) (none, (s.giveBack elem slept now).chain elem now) := by
  unfold State.chain
  split
  next chained =>
    obtain ⟨wifi, next⟩ := chained
    obtain ⟨node, rest, full, bt⟩ := next_some next
    split
    next other u popped =>
      obtain ⟨rest', full', rfl⟩ := pop_some popped
      obtain ⟨rfl, rfl⟩ := List.cons.inj (full.symm.trans full')
      apply Relation.ReflTransGen.tail (.single (.pop full))
      apply Move.call
      refine ⟨bt, ⟨elem, now, .taken slept⟩, slept, ?_, wifi, rfl⟩
      unfold State.giveBack at full ⊢
      split at full
      next back =>
        rw [push_first sorted first] at full
        obtain ⟨rfl, -⟩ := List.cons.inj full
        cases wifi.symm.trans bt
      next called =>
        rw [if_neg called]
        rfl
    next u popped =>
      obtain ⟨rfl, -⟩ := pop_none popped
      exact .refl
  · exact .refl

theorem checkExit_moves {slept : Option Wake} (input : SleepCheck) (sorted : s.lvElement.Pairwise Earlier)
    (first : ∀ elem ∈ held, ∀ other ∈ s.lvElement, Earlier elem other)
    (woken : ∀ wake ∈ slept, s.lvPsWakeUpWay = wake.way) :
    Moves (held, s) (none, s.checkExit held slept input) := by
  cases held with
  | none => exact checkPass_moves s input.passNow
  | some elem =>
    have given := Relation.ReflTransGen.single (giveBack_moves s elem slept input.exitNow woken)
    have chained := @chain_moves s elem slept input.exitNow sorted (first elem rfl)
    exact (given.trans chained).trans (checkPass_moves _ input.passNow)

theorem sleep_moves (wake : Wake) : Move (held, s) (held, s.lvPsSleep wake) :=
  .registers wake.way s.lvPsTargetTime s.lvPsCurrentSleepDuration (s.mcuPsOn && wake = .rtc)

theorem roscPeriod_spec (s : State) (mcuWakeupOffset : UInt32) (now durationNow : UInt64) :
    ∃ duration, (s.lvPsCalcRoscPeriod mcuWakeupOffset now durationNow).2 =
      { s with lvPsCurrentSleepDuration := duration } := by
  unfold State.lvPsCalcRoscPeriod
  dsimp only
  split
  · exact ⟨_, rfl⟩
  · split
    · exact ⟨_, rfl⟩
    · exact ⟨_, rfl⟩

theorem sleepFor_moves (mcuWakeupOffset : UInt32) (target : UInt64) (input : SleepCheck)
    (sorted : s.lvElement.Pairwise Earlier) (first : ∀ elem ∈ held, ∀ other ∈ s.lvElement, Earlier elem other) :
    Moves (held, s) (none, s.sleepFor mcuWakeupOffset held target input) := by
  unfold State.sleepFor
  obtain ⟨duration, after⟩ :=
    roscPeriod_spec { s with lvPsTargetTime := target } mcuWakeupOffset input.roscNow input.durationNow
  have set := @Move.registers s held s.lvPsWakeUpWay target duration s.mcuPsOn
  dsimp only
  rw [after]
  split
  · exact .head set (checkExit_moves input sorted first fun _ member => absurd member (Option.not_mem_none _))
  · apply Relation.ReflTransGen.head set
    apply Relation.ReflTransGen.head (sleep_moves input.wake)
    apply checkExit_moves input
    · exact sorted
    · exact first
    · intro wake woke
      rw [Option.some.inj woke]
      rfl

theorem prepareWifi_moves (input : SleepCheck) (on : s.mcuPsOn = true) (sorted : s.lvElement.Pairwise Earlier) :
    Moves (none, s) (none, s.prepareWifi input) ∧ (s.prepareWifi input).lvElement.Pairwise Earlier := by
  unfold State.prepareWifi
  split
  next due =>
    rw [State.lvPsCalcSleepDuration, if_pos on]
    exact ⟨.single (.beacon input.wifiTarget due.2), push_sorted _ _⟩
  · exact ⟨.refl, sorted⟩

/-- lv_ps_sleep_check by its exits. -/
theorem sleepCheck_moves (mcuWakeupOffset : UInt32) (input : SleepCheck) (sorted : s.lvElement.Pairwise Earlier) :
    Moves (none, s) (none, s.lvPsSleepCheck mcuWakeupOffset input) := by
  unfold State.lvPsSleepCheck
  split
  · exact checkPass_moves s input.passNow
  split
  · exact checkPass_moves s input.passNow
  next idle =>
    split
    · exact checkPass_moves s input.passNow
    have on := (not_not.mp idle).1
    obtain ⟨prepared, ordered⟩ := prepareWifi_moves input on sorted
    apply Relation.ReflTransGen.trans prepared
    split
    next elem u popped =>
      obtain ⟨rest, full, rfl⟩ := pop_some popped
      rw [full] at ordered
      obtain ⟨first, rest⟩ := List.pairwise_cons.mp ordered
      apply Relation.ReflTransGen.head (.pop full)
      exact sleepFor_moves mcuWakeupOffset elem.lvTargetTime input rest (fun e same => Option.some.inj same ▸ first)
    next u popped =>
      obtain ⟨rfl, -⟩ := pop_none popped
      split
      · exact sleepFor_moves mcuWakeupOffset (-1) input ordered fun _ member => absurd member (Option.not_mem_none _)
      · exact checkPass_moves _ input.passNow

end BekenSdk.LvPs
