import Mathlib.Data.List.Perm.Basic
import Mathlib.Data.List.Range
import BekenSdk.Base.Machine
import BekenSdk.LvPs.Moves

/-! Wake-up elements are kept in order, called and freed once, over calls in any order,
and there is one Wi-Fi element when the flag says so.
-/

set_option autoImplicit false

namespace BekenSdk.LvPs
open Base

variable {s t : State} {elem : LvElement} {held : Option LvElement}

/-! ## The machine -/

inductive Event where
  | sleepCheck (input : SleepCheck)
  /-- The Bluetooth library allocates an element and pushes it. -/
  | pushBt (target : UInt64)
  | checkPass (now : UInt64)
  | btDel
  | lvPsInit
  | mcuPsInit (lvPsEnabled bleThreadIsUp : Bool)
  | mcuPsExit
  /-- Power save sets lv_ps_wake_up_way back. -/
  | wayNull

def step (mcuWakeupOffset : UInt32) (event : Event) (s : State) : Option State :=
  match event with
  | .sleepCheck input => some (s.lvPsSleepCheck mcuWakeupOffset input)
  | .pushBt target => some ((s.osMalloc .bt target).2.lvPsPushElement (s.osMalloc .bt target).1)
  | .checkPass now => some (s.lvPsElementCheckPass now)
  | .btDel => some s.lvPsElementBtDel
  | .lvPsInit => some s.lvPsInit
  | .mcuPsInit lvPsEnabled bleThreadIsUp => some (s.mcuPsInit lvPsEnabled bleThreadIsUp)
  | .mcuPsExit => some { s with mcuPsOn := false }
  | .wayNull => some { s with lvPsWakeUpWay := .null }

/-! ## What is claimed -/

/-- Each element ever allocated is held, pending or freed, and only once; each freed one was
called or deleted, and only once. -/
structure Accounted (held : Option LvElement) (s : State) : Prop where
  blocks : ((held.toList ++ s.lvElement ++ s.freed).map LvElement.block).Perm (List.range s.allocated)
  freed : s.freed.Perm (s.calls.map Call.elem ++ s.deleted)
  deleted : ∀ elem ∈ s.deleted, elem.lvType = .bt

structure Kept (held : Option LvElement) (s : State) : Prop where
  sorted : s.lvElement.Pairwise Earlier
  accounted : Accounted held s
  fit : AllFit s.calls

/-- There is at most one Wi-Fi element, and one exactly when the flag is clear. -/
def OneWifi (s : State) : Prop :=
  (s.lvElement.filter (·.lvType = .wifi)).length ≤ 1 ∧
    ((∃ elem ∈ s.lvElement, elem.lvType = .wifi) ↔ s.lvPsWakeupWifi = 0)

/-- lv_ps_init is called with no Wi-Fi element pending. -/
def InitClean (s : State) : Event → Prop
  | .lvPsInit => ∀ elem ∈ s.lvElement, elem.lvType = .bt
  | .mcuPsInit lvPsEnabled _ => lvPsEnabled = true → s.mcuPsOn = false → ∀ elem ∈ s.lvElement, elem.lvType = .bt
  | _ => True

/-! ## Accounts -/

namespace Accounted

theorem malloc (accounted : Accounted none s) (lvType : LvType) (target : UInt64) :
    Accounted (some (s.osMalloc lvType target).1) (s.osMalloc lvType target).2 where
  blocks := by
    have more := (accounted.blocks.cons s.allocated).trans (List.perm_append_singleton _ _).symm
    rw [← List.range_succ] at more
    exact more
  freed := accounted.freed
  deleted := accounted.deleted

theorem push (accounted : Accounted (some elem) s) : Accounted none (s.lvPsPushElement elem) := by
  obtain ⟨list, pushed, perm, -⟩ := push_spec s elem
  rw [pushed]
  exact ⟨((perm.append_right s.freed).map _).trans accounted.blocks, accounted.freed, accounted.deleted⟩

theorem pop {rest : List LvElement} (accounted : Accounted none s) (first : s.lvElement = elem :: rest) :
    Accounted (some elem) { s with lvElement := rest } where
  blocks := by
    have same := accounted.blocks
    rw [first] at same
    exact same
  freed := accounted.freed
  deleted := accounted.deleted

theorem call (accounted : Accounted (some elem) s) (time : UInt64) (route : Route) :
    Accounted none ((s.objectCb elem time route).osFree elem) where
  blocks := (List.perm_middle.map _).trans accounted.blocks
  freed := accounted.freed.cons elem
  deleted := accounted.deleted

theorem btDel (accounted : Accounted none s) : Accounted none s.lvPsElementBtDel where
  blocks := by
    have parts := List.filter_append_perm (fun elem : LvElement => decide (elem.lvType = .bt)) s.lvElement
    have swapped := List.perm_append_comm.trans parts
    have all := (swapped.append_right s.freed).map LvElement.block
    rw [List.append_assoc] at all
    simp only [← decide_not] at all
    exact all.trans accounted.blocks
  freed := by
    have more := accounted.freed.append_left (s.lvElement.filter (·.lvType = .bt))
    rw [← List.append_assoc] at more
    have moved := more.trans (List.perm_append_comm.append_right s.deleted)
    rw [List.append_assoc] at moved
    exact moved
  deleted := by
    intro elem member
    rcases List.mem_append.mp member with now | before
    · exact of_decide_eq_true (List.mem_filter.mp now).2
    · exact accounted.deleted elem before

end Accounted

/-! ## One move -/

theorem Move.kept {other : Option LvElement} (move : Move (held, s) (other, t)) (kept : Kept held s) :
    Kept other t := by
  obtain ⟨sorted, accounted, fit⟩ := kept
  cases move with
  | bluetooth target => exact ⟨sorted, accounted.malloc .bt target, fit⟩
  | beacon target due =>
    have pushed := (accounted.malloc .wifi target).push
    refine ⟨push_sorted _ _, ⟨pushed.blocks, pushed.freed, pushed.deleted⟩, ?_⟩
    obtain ⟨list, same, -, -⟩ := push_spec (s.osMalloc .wifi target).2 (s.osMalloc .wifi target).1
    rw [same]
    exact fit
  | push =>
    refine ⟨push_sorted _ _, accounted.push, ?_⟩
    obtain ⟨list, same, -, -⟩ := push_spec s _
    rw [same]
    exact fit
  | pop first =>
    rw [first] at sorted
    exact ⟨(List.pairwise_cons.mp sorted).2, accounted.pop first, fit⟩
  | call fits => exact ⟨sorted, accounted.call _ _, fits, fit⟩
  | btDel => exact ⟨sorted.filter _, accounted.btDel, fit⟩
  | registers => exact ⟨sorted, ⟨accounted.blocks, accounted.freed, accounted.deleted⟩, fit⟩

/-- The Wi-Fi elements there are, with the one that is held. -/
def wifiCount (held : Option LvElement) (s : State) : Nat :=
  (held.toList ++ s.lvElement).countP (·.lvType = .wifi)

/-- The flag tells how many Wi-Fi elements there are. -/
def Marked (held : Option LvElement) (s : State) : Prop :=
  wifiCount held s = if s.lvPsWakeupWifi = 0 then 1 else 0

theorem wifiCount_push (s : State) (elem : LvElement) :
    wifiCount none (s.lvPsPushElement elem) = wifiCount (some elem) s := by
  obtain ⟨list, same, perm, -⟩ := push_spec s elem
  rw [same]
  exact perm.countP_eq _

theorem wifiCount_wifi (wifi : elem.lvType = .wifi) : wifiCount (some elem) s = wifiCount none s + 1 :=
  List.countP_cons_of_pos (decide_eq_true wifi)

theorem wifiCount_bt (bt : elem.lvType = .bt) : wifiCount (some elem) s = wifiCount none s := by
  apply List.countP_cons_of_neg
  rw [bt]
  nofun

theorem wifiCount_clean (clean : ∀ elem ∈ s.lvElement, elem.lvType = .bt) : wifiCount none s = 0 := by
  apply List.countP_eq_zero.mpr
  intro elem member wifi
  cases (clean elem member).symm.trans (of_decide_eq_true wifi)

theorem Move.marked {other : Option LvElement} (move : Move (held, s) (other, t)) (marked : Marked held s) :
    Marked other t := by
  cases move with
  | bluetooth target => exact marked
  | beacon target due =>
    have before : wifiCount none s = 0 := marked.trans (if_neg due)
    calc wifiCount none ((s.osMalloc .wifi target).2.lvPsPushElement (s.osMalloc .wifi target).1)
      _ = wifiCount (some (s.osMalloc .wifi target).1) (s.osMalloc .wifi target).2 := wifiCount_push _ _
      _ = wifiCount none s + 1 := wifiCount_wifi rfl
      _ = 1 := by rw [before]
  | push =>
    rename_i elem
    obtain ⟨list, same, -, -⟩ := push_spec s elem
    have flag : (s.lvPsPushElement elem).lvPsWakeupWifi = s.lvPsWakeupWifi := by rw [same]
    rw [Marked, wifiCount_push, flag]
    exact marked
  | pop first =>
    rw [Marked, wifiCount, first] at marked
    exact marked
  | call fits =>
    rename_i elem time route
    cases kind : elem.lvType with
    | bt =>
      have flag : (s.objectCb elem time route).lvPsWakeupWifi = s.lvPsWakeupWifi := by
        rw [State.objectCb, kind]
      rw [Marked, wifiCount_bt kind] at marked
      rw [Marked, State.osFree, flag]
      exact marked
    | wifi =>
      have flag : (s.objectCb elem time route).lvPsWakeupWifi = 1 := by
        rw [State.objectCb, kind]
      rw [Marked, wifiCount_wifi kind] at marked
      rw [Marked, State.osFree, flag]
      -- the flag was clear, so the held element was the only one
      have none_left : wifiCount none s = 0 := by
        split at marked
        · exact Nat.succ.inj marked
        · exact absurd marked (Nat.succ_ne_zero _)
      exact none_left
  | btDel =>
    have same : wifiCount none s.lvPsElementBtDel = wifiCount none s := by
      rw [wifiCount, wifiCount, Option.toList_none, List.nil_append, List.nil_append, State.lvPsElementBtDel,
        List.countP_filter]
      apply List.countP_congr
      intro elem _
      cases elem.lvType <;> decide
    rw [Marked, same]
    exact marked
  | registers => exact marked

theorem Moves.kept {other : Option LvElement} (moves : Moves (held, s) (other, t)) (kept : Kept held s) :
    Kept other t := by
  suffices ∀ c d, Moves c d → Kept c.1 c.2 → Kept d.1 d.2 from this _ _ moves kept
  intro c d moves kept
  induction moves with
  | refl => exact kept
  | tail _ last ih => exact Move.kept last ih

theorem Moves.marked {other : Option LvElement} (moves : Moves (held, s) (other, t)) (marked : Marked held s) :
    Marked other t := by
  suffices ∀ c d, Moves c d → Marked c.1 c.2 → Marked d.1 d.2 from this _ _ moves marked
  intro c d moves marked
  induction moves with
  | refl => exact marked
  | tail _ last ih => exact Move.marked last ih

/-! ## Runs -/

variable {mcuWakeupOffset : UInt32} {event : Event}

/-- lv_ps_init sets the flag whatever is pending. -/
def startOf (event : Event) (s : State) : State :=
  match event with
  | .lvPsInit => { s with lvPsWakeupWifi := 1 }
  | .mcuPsInit true _ => if s.mcuPsOn then s else { s with lvPsWakeupWifi := 1 }
  | _ => s

/-- Apart from the flag that lv_ps_init sets, an event is some moves. -/
theorem step_moves (sorted : s.lvElement.Pairwise Earlier) (taken : step mcuWakeupOffset event s = some t) :
    Moves (none, startOf event s) (none, t) := by
  cases event with
  | sleepCheck input =>
    cases taken
    exact sleepCheck_moves mcuWakeupOffset input sorted
  | pushBt target =>
    cases taken
    exact .tail (.single (.bluetooth target)) .push
  | checkPass now =>
    cases taken
    exact checkPass_moves s now
  | btDel =>
    cases taken
    exact .single .btDel
  | lvPsInit =>
    cases taken
    exact .single (.registers .null s.lvPsTargetTime 0 s.mcuPsOn)
  | mcuPsInit lvPsEnabled bleThreadIsUp =>
    cases taken
    unfold State.mcuPsInit
    split
    next on =>
      cases lvPsEnabled with
      | false => exact .refl
      | true =>
        rw [startOf, if_pos on]
        exact .refl
    next off =>
      cases lvPsEnabled with
      | false => exact .single (.registers s.lvPsWakeUpWay s.lvPsTargetTime s.lvPsCurrentSleepDuration true)
      | true =>
        rw [startOf, if_neg off]
        have set := @Move.registers { s with lvPsWakeupWifi := 1 } none .null s.lvPsTargetTime 0 true
        cases bleThreadIsUp with
        | false => exact .single set
        | true => exact .tail (.single set) .btDel
  | mcuPsExit =>
    cases taken
    exact .single (.registers s.lvPsWakeUpWay s.lvPsTargetTime s.lvPsCurrentSleepDuration false)
  | wayNull =>
    cases taken
    exact .single (.registers .null s.lvPsTargetTime s.lvPsCurrentSleepDuration s.mcuPsOn)

theorem startOf_kept (event : Event) (kept : Kept none s) : Kept none (startOf event s) := by
  have same : Kept none { s with lvPsWakeupWifi := 1 } :=
    ⟨kept.sorted, ⟨kept.accounted.blocks, kept.accounted.freed, kept.accounted.deleted⟩, kept.fit⟩
  unfold startOf
  split
  · exact same
  · split
    · exact kept
    · exact same
  · exact kept

theorem startOf_marked (marked : Marked none s) (clean : InitClean s event) : Marked none (startOf event s) := by
  unfold startOf
  split
  · exact wifiCount_clean clean
  · split
    · exact marked
    next off => exact wifiCount_clean (clean rfl (Bool.eq_false_iff.mpr off))
  · exact marked

theorem step_kept (kept : Kept none s) (taken : step mcuWakeupOffset event s = some t) : Kept none t :=
  (step_moves kept.sorted taken).kept (startOf_kept event kept)

theorem step_marked (kept : Kept none s) (marked : Marked none s) (clean : InitClean s event)
    (taken : step mcuWakeupOffset event s = some t) : Marked none t :=
  (step_moves kept.sorted taken).marked (startOf_marked marked clean)

theorem boot_kept : Kept none State.boot := ⟨.nil, ⟨.nil, .nil, fun _ member => absurd member List.not_mem_nil⟩,
    trivial⟩

theorem oneWifi_of_marked (marked : Marked none s) : OneWifi s := by
  have count : s.lvElement.countP (·.lvType = .wifi) = if s.lvPsWakeupWifi = 0 then 1 else 0 := marked
  constructor
  · rw [← List.countP_eq_length_filter, count]
    split <;> decide
  · have some_pending : 0 < s.lvElement.countP (·.lvType = .wifi) ↔ ∃ elem ∈ s.lvElement, elem.lvType = .wifi := by
      rw [List.countP_pos_iff]
      exact exists_congr fun elem => and_congr_right fun _ => decide_eq_true_iff
    rw [← some_pending, count]
    split
    next clear => exact iff_of_true Nat.one_pos clear
    next set => exact iff_of_false (Nat.lt_irrefl 0) set

variable {moments : List (Moment State Event)} {final : State}

/-- Elements are kept in order and come to their end once, in every run; and there is one Wi-Fi
element exactly when the flag is clear if lv_ps_init is not called while one is pending. -/
theorem elements_kept (mcuWakeupOffset : UInt32)
    (run : Run (Machine.Step (step mcuWakeupOffset)) State.boot moments final) :
    Machine.Always (Kept none) moments final ∧
      ((∀ moment ∈ moments, InitClean moment.before moment.event) → Machine.Always OneWifi moments final) := by
  constructor
  · exact @Machine.always_of_invariant _ _ _ _ _ _ (Kept none) (fun _ _ => True) run boot_kept
      (fun kept _ taken => step_kept kept taken) (fun _ _ => trivial)
  · intro clean
    have both := @Machine.always_of_invariant _ _ _ _ _ _ (fun s => Kept none s ∧ Marked none s) InitClean run
      ⟨boot_kept, rfl⟩
      (fun both clean taken => ⟨step_kept both.1 taken, step_marked both.1 both.2 clean taken⟩) clean
    exact both.mono fun s both => oneWifi_of_marked both.2

/-- A sleep that is to end with the beacon at 200000 us. -/
def beaconSlept (wake : Wake) (woken : UInt64) : SleepCheck where
  roleSta := true
  gotAnchorPoint := true
  periIdle := true
  mcuCanSleep := true
  bleThreadIsUp := true
  wifiTarget := 200000
  roscNow := 100000
  durationNow := 100000
  wake := wake
  exitNow := woken
  passNow := woken

instance (s : State) (event : Event) : Decidable (InitClean s event) := by
  cases event <;> unfold InitClean <;> infer_instance

theorem beacon_kept :
    ∃ moments final, Run (Machine.Step (step 48)) State.boot moments final ∧
      moments.map Moment.event = [.sleepCheck (beaconSlept .rtc 200000), .mcuPsInit true false] ∧
      Machine.Always (Kept none) moments final ∧ Machine.Always OneWifi moments final := by
  have found : (Machine.replay (Machine.guarded InitClean (step 48)) State.boot
      [.sleepCheck (beaconSlept .rtc 200000), .mcuPsInit true false]).any (fun _ => true) = true := by decide
  obtain ⟨moments, final, run, same, clean, -⟩ := Machine.run_of_fine found
  obtain ⟨kept, one⟩ := elements_kept 48 run
  exact ⟨moments, final, run, same, kept, one clean⟩

/-- No callback is called from a sleep ahead of its target unless the timer set for it ended the sleep. -/
def Timely : List Call → Prop
  | [] => True
  | call :: earlier =>
    Timely earlier ∧
      match call.route with
      | .taken (some wake) => call.time < call.elem.lvTargetTime → wake ≠ .gpio
      | .chained =>
        call.time < call.elem.lvTargetTime → ∀ last ∈ earlier.head?, ∀ wake, last.route ≠ .taken (some wake)
      | _ => True

/-- The Bluetooth element behind a beacon's is called with it, seconds ahead of its target. -/
theorem chained_early :
    ¬∀ moments final, Run (Machine.Step (step 48)) State.boot moments final → Timely final.calls := by
  intro timely
  have found : (Machine.replay (step 48) State.boot
      [.sleepCheck (beaconSlept .rtc 200000), .pushBt 3000000, .mcuPsInit true false]).any
        (fun s => s.calls = [⟨⟨0, .bt, 3000000⟩, 200000, .chained⟩, ⟨⟨1, .wifi, 200000⟩, 200000, .taken (some .rtc)⟩]) =
      true := by decide
  obtain ⟨moments, final, run, -, called⟩ := Machine.run_of_any found
  have now := timely moments final run
  rw [of_decide_eq_true called] at now
  exact now.2 (by decide) _ rfl .rtc rfl

/-- After a pin's wake-up the beacon's element is still pending when MCU power save starts again. -/
theorem init_while_pending :
    ∃ moments final, Run (Machine.Step (step 48)) State.boot moments final ∧ ¬OneWifi final := by
  have found : (Machine.replay (step 48) State.boot
      [.mcuPsInit true false, .sleepCheck (beaconSlept .gpio 150000), .mcuPsInit true false]).any
        (fun s => s.lvPsWakeupWifi ≠ 0 ∧ ∃ elem ∈ s.lvElement, elem.lvType = .wifi) = true := by decide
  obtain ⟨moments, final, run, -, seen⟩ := Machine.run_of_any found
  obtain ⟨set, pending⟩ := of_decide_eq_true seen
  exact ⟨moments, final, run, fun one => set (one.2.mp pending)⟩

end BekenSdk.LvPs
