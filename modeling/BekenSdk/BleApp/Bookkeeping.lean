import Mathlib.Data.List.Perm.Subperm
import BekenSdk.BleApp.Books

/-! The application's record and the activities that the stack holds, over calls,
indications and answers in any order. The stack numbers its activities with numbers
that are not in use; a creation succeeds once its activity has been indicated, and only an activity
that is there can be deleted.
-/

set_option autoImplicit false

namespace BekenSdk.BleApp
open Base

variable {P : Type} {activityMax connectionMax : Nat}

/-! ## The machine -/

abbrev Activity : Type := Resource UInt8 ActvType Owner

structure Bookkeeping (P : Type) where
  env : AppEnv P
  /-- What the stack holds. -/
  activities : List Activity
  /-- The messages that the stack has yet to answer. -/
  queue : List Pending

namespace Bookkeeping

inductive Event (P : Type) where
  | call (call : Call P) (memory : Bool)
  | createdInd (number : UInt8)
  /-- An activity stops, on demand or by itself. -/
  | stoppedInd (number : UInt8)
  | completion (status memory : Bool)

/-- `GAP_INVALID_ACTV_IDX`. -/
def gapInvalidActvIdx : UInt8 := 0xFF

/-- The stack can answer a message with this status. -/
def Answers (activities : List Activity) (p : Pending) (status : Bool) : Prop :=
  (p.cmd.operation.creates ≠ none → status = p.indicated) ∧
    (p.cmd.operation = .delete → status = true → ∃ a ∈ activities, some a.number = p.cmd.actvIdx)

instance (activities : List Activity) (p : Pending) (status : Bool) : Decidable (Answers activities p status) :=
  inferInstanceAs (Decidable (_ ∧ _))

def left (activities : List Activity) (p : Pending) (status : Bool) : List Activity :=
  if p.cmd.operation = .delete ∧ status = true then activities.filter fun a => some a.number ≠ p.cmd.actvIdx
  else activities

def step (activityMax connectionMax : Nat) (event : Event P) (s : Bookkeeping P) : Option (Bookkeeping P) :=
  match event, s.queue with
  | .call call memory, _ =>
    let done := call.perform activityMax connectionMax s.env memory
    some { s with
      env := done.env
      queue := s.queue ++ done.sent.map (done.env.pending activityMax connectionMax) }
  | .createdInd number, ⟨cmd, owner, false⟩ :: waiting =>
    match cmd.operation.creates with
    | some kind =>
      if number ≠ gapInvalidActvIdx ∧ ∀ a ∈ s.activities, a.number ≠ number then
        some
          { env := s.env.gapmActivityCreatedInd activityMax connectionMax cmd.src kind number
            activities := ⟨number, kind, owner⟩ :: s.activities
            queue := ⟨cmd, owner, true⟩ :: waiting }
      else none
    | none => none
  | .createdInd _, _ => none
  | .stoppedInd number, _ =>
    (s.activities.find? fun a => a.number = number).map fun a =>
      { s with env := s.env.gapmActivityStoppedInd activityMax connectionMax (a.owner.task activityMax) a.kind number }
  | .completion _ _, [] => none
  | .completion status memory, p :: waiting =>
    if Answers s.activities p status then
      let done := s.env.gapmCmpEvt activityMax connectionMax p.cmd.src p.cmd.operation status memory
      some
        { env := done.env
          activities := left s.activities p status
          queue := waiting ++ done.sent.map (done.env.pending activityMax connectionMax) }
    else none

def start (param : P) : Bookkeeping P := ⟨appEnv param, [], []⟩

end Bookkeeping

open Bookkeeping

/-! ## What is claimed of the record -/

/-- An owner's entry is the record of its activity: there is none if and only if `idle`, and else
its number is `number` and no other activity has that number. -/
def Entry (activities : List Activity) (owner : Owner) (idle : Prop) (number : UInt8) : Prop :=
  (idle ↔ ∀ a ∈ activities, a.owner ≠ owner) ∧ (¬idle → ∀ a ∈ activities, a.number = number ↔ a.owner = owner)

structure Mirrored (activityMax connectionMax : Nat) (s : Bookkeeping P) : Prop where
  actvs : s.env.status = .ready →
    ∀ idx < activityMax, Entry s.activities (.actv idx) ((s.env.actvs idx).actvStatus = .idle) (s.env.actvs idx).gapAdvtIdx
  connections : s.env.status = .ready →
    ∀ con < connectionMax,
      Entry s.activities (.conn con) ((s.env.connections con).initState = .idle) (s.env.connections con).gapActvIdx
  /-- A message that is not to create names the activity that its owner has. -/
  commands : ∀ p ∈ s.queue, p.cmd.operation.creates = none →
    ∃ number, p.cmd.actvIdx = some number ∧ (∃ a ∈ s.activities, a.owner = p.owner) ∧
      ∀ a ∈ s.activities, a.number = number ↔ a.owner = p.owner
  counts : ∀ kind, (s.env.count kind).toNat = s.activities.countP fun a => a.kind = kind

/-- A condition for each step. -/
def Bookkeeping.Fine (connectionMax : Nat) (s : Bookkeeping P) : Event P → Prop
  | .call call memory => call.Own connectionMax s.env memory
  | .createdInd _ => ∀ p ∈ s.queue.head?, ∀ idx, p.owner = .actv idx → (s.env.actvs idx).actvStatus = .idle
  | .stoppedInd number =>
    ∀ a ∈ s.activities, a.number = number →
      ∀ idx, a.owner = .actv idx → ∀ other < idx, (s.env.actvs other).gapAdvtIdx ≠ number
  | .completion status _ => ∀ p ∈ s.queue.head?, p.cmd.operation = .delete → (status = true ↔ s.env.cmd.Deletes)

/-! ## The invariant -/

structure Faithful (activityMax connectionMax : Nat) (s : Bookkeeping P) : Prop where
  mirrors : Mirrors s.env.owned s.activities
  counts : ∀ kind, (s.env.count kind).toNat = s.activities.countP fun a => a.kind = kind
  numbers : ∀ a ∈ s.activities, a.number ≠ gapInvalidActvIdx
  known : ∀ a ∈ s.activities, ∀ idx, a.owner = .actv idx → idx < activityMax
  waits :
    (s.queue = [] ∧ s.env.Settled) ∨
      ∃ p, s.queue = [p] ∧ s.env.status = .cmdRunning ∧ Awaits activityMax connectionMax s.env p

variable {s t : Bookkeeping P}

theorem Awaits.named {env : AppEnv P} {p : Pending} (awaits : Awaits activityMax connectionMax env p)
    (op : p.cmd.operation.creates = none) :
    ∃ number kind, p.cmd.actvIdx = some number ∧ env.owned p.owner = some (number, kind) := by
  cases awaits with
  | actv known settled user op_ne naming named =>
    obtain ⟨number, rfl⟩ := Option.ne_none_iff_exists'.mp (naming.mp op)
    obtain ⟨kind, -, owned⟩ := named number rfl
    exact ⟨number, kind, rfl, owned⟩
  | create => cases op
  | conn known settled stage named => exact ⟨_, .init, rfl, named⟩

theorem entry_of_mirrors {table : Owner → Option (UInt8 × ActvType)} {activities : List Activity} {owner : Owner}
    {idle : Prop} {number : UInt8} (mirrors : Mirrors table activities) (free : table owner = none ↔ idle)
    (there : ∀ n kind, table owner = some (n, kind) → n = number) : Entry activities owner idle number := by
  refine ⟨free.symm.trans mirrors.none_iff, fun busy a member => ?_⟩
  cases found : table owner with
  | none => exact absurd (free.mp found) busy
  | some entry =>
    obtain ⟨n, kind⟩ := entry
    obtain rfl := there n kind found
    exact mirrors.number_iff found member

theorem Faithful.mirrored (faithful : Faithful activityMax connectionMax s) : Mirrored activityMax connectionMax s where
  actvs _ idx _ :=
    entry_of_mirrors faithful.mirrors owned_actv_eq_none fun _ _ found => (owned_actv_inv found).1.symm
  connections ready con _ := by
    refine entry_of_mirrors faithful.mirrors ?_ fun _ _ found => (owned_conn_inv found).1.symm
    have settled : s.env.Settled := by
      rcases faithful.waits with ⟨-, settled⟩ | ⟨p, -, running, -⟩
      · exact settled
      · rw [ready] at running
        cases running
    exact Option.map_eq_none_iff.trans (InitState.kind_eq_none (settled con))
  commands p member op := by
    rcases faithful.waits with ⟨empty, -⟩ | ⟨q, only, -, awaits⟩
    · rw [empty] at member
      cases member
    · rw [only, List.mem_singleton] at member
      subst member
      obtain ⟨number, kind, actvIdx, owned⟩ := awaits.named op
      refine ⟨number, actvIdx, ⟨_, (faithful.mirrors.exact _ _ _).mp owned, rfl⟩, fun a there => ?_⟩
      exact faithful.mirrors.number_iff owned there
  counts := faithful.counts

theorem start_faithful (param : P) : Faithful activityMax connectionMax (Bookkeeping.start param) where
  mirrors := by
    have none : (appEnv param).owned = fun _ => none := by
      funext owner
      cases owner <;> rfl
    rw [Bookkeeping.start, none]
    exact .empty
  counts kind := by cases kind <;> rfl
  numbers := nofun
  known := nofun
  waits := .inl ⟨rfl, nofun⟩

/-! ## Steps -/

/-- The messages that a call or an answer sends wait behind none. -/
theorem waits_of_follows {env : AppEnv P} {sent : List GapmCmd} (follows : Follows activityMax connectionMax env sent) :
    (sent.map (env.pending activityMax connectionMax) = [] ∧ env.Settled) ∨
      ∃ p, sent.map (env.pending activityMax connectionMax) = [p] ∧ env.status = .cmdRunning ∧
        Awaits activityMax connectionMax env p := by
  cases follows with
  | quiet settled => exact .inl ⟨rfl, settled⟩
  | sends running awaits => exact .inr ⟨_, rfl, running, awaits⟩

theorem faithful_of_kept {env : AppEnv P} {queue : List Pending} (faithful : Faithful activityMax connectionMax s)
    (kept : s.env.Kept env)
    (waits : (queue = [] ∧ env.Settled) ∨
      ∃ p, queue = [p] ∧ env.status = .cmdRunning ∧ Awaits activityMax connectionMax env p) :
    Faithful activityMax connectionMax ⟨env, s.activities, queue⟩ where
  mirrors := by
    rw [kept.owned]
    exact faithful.mirrors
  counts := by
    rw [kept.count]
    exact faithful.counts
  numbers := faithful.numbers
  known := faithful.known
  waits := waits

theorem faithful_of_call (faithful : Faithful activityMax connectionMax s) (call : Call P) (memory : Bool)
    (own : call.Own connectionMax s.env memory)
    (taken : Bookkeeping.step activityMax connectionMax (.call call memory) s = some t) :
    Faithful activityMax connectionMax t := by
  have rest (ready : s.env.status = .ready) : s.queue = [] ∧ s.env.Settled := by
    rcases faithful.waits with rest | ⟨p, -, running, -⟩
    · exact rest
    · rw [ready] at running
      cases running
  obtain rfl := Option.some.inj taken
  cases perform_effect (fun ready => (rest ready).2) call memory own with
  | refused same sent =>
    rw [same, sent, List.map_nil, List.append_nil]
    exact faithful
  | ready before after kept follows =>
    refine faithful_of_kept faithful kept ?_
    rw [(rest before).1, List.nil_append]
    exact waits_of_follows follows

/-- There are fewer activities than a counter can count. -/
theorem length_le_of_numbers {activities : List Activity} (distinct : (activities.map Resource.number).Nodup)
    (numbers : ∀ a ∈ activities, a.number ≠ gapInvalidActvIdx) : activities.length ≤ 255 := by
  have nodup : ((activities.map Resource.number).map UInt8.toNat).Nodup :=
    distinct.map fun _ _ same => UInt8.toNat_inj.mp same
  have within : (activities.map Resource.number).map UInt8.toNat ⊆ List.range 255 := by
    intro n member
    obtain ⟨number, there, rfl⟩ := List.mem_map.mp member
    obtain ⟨a, holds, rfl⟩ := List.mem_map.mp there
    have differs : a.number.toNat ≠ 255 := fun same => numbers a holds (UInt8.toNat_inj.mp same)
    have below : a.number.toNat < 256 := a.number.toNat_lt
    rw [List.mem_range]
    omega
  simpa using (nodup.subperm within).length_le

theorem counts_gained {count : ActvType → UInt8} {activities : List Activity} {number : UInt8} {kind : ActvType}
    {owner : Owner} (counts : ∀ kind, (count kind).toNat = activities.countP fun a => a.kind = kind)
    (bound : activities.length < 255) (other : ActvType) :
    (Function.update count kind (count kind + 1) other).toNat =
      (⟨number, kind, owner⟩ :: activities : List Activity).countP fun a => a.kind = other := by
  have within : (count kind).toNat ≤ activities.length := counts kind ▸ List.countP_le_length
  rw [Mirrors.countP_create, ← counts other]
  by_cases same : other = kind
  · subst same
    rw [Function.update_self, UInt8.toNat_add, if_pos rfl]
    exact Nat.mod_eq_of_lt (Nat.lt_of_le_of_lt (Nat.succ_le_succ within) (Nat.succ_lt_succ bound))
  · rw [Function.update_of_ne same, if_neg (Ne.symm same), Nat.add_zero]

theorem counts_lost {table : Owner → Option (UInt8 × ActvType)} {count : ActvType → UInt8} {activities : List Activity}
    {number : UInt8} {kind : ActvType} {owner : Owner} (mirrors : Mirrors table activities)
    (found : table owner = some (number, kind))
    (counts : ∀ kind, (count kind).toNat = activities.countP fun a => a.kind = kind) (other : ActvType) :
    (Function.update count kind (count kind - 1) other).toNat =
      (activities.filter fun a => a.number ≠ number).countP fun a => a.kind = other := by
  have less := mirrors.countP_delete found other
  rw [← counts other] at less
  by_cases same : other = kind
  · subst same
    rw [if_pos rfl] at less
    rw [Function.update_self, UInt8.toNat_sub_of_le _ _ (UInt8.le_iff_toNat_le.mpr (less ▸ Nat.le_add_left _ _)),
      ← less]
    exact Nat.add_sub_cancel _ _
  · rw [if_neg (Ne.symm same), Nat.add_zero] at less
    rw [Function.update_of_ne same, less]

theorem Awaits.known_of_actv {env : AppEnv P} {p : Pending} {idx : Nat}
    (awaits : Awaits activityMax connectionMax env p)
    (owner : p.owner = .actv idx) : idx < activityMax := by
  cases awaits with
  | actv known =>
    obtain rfl := Owner.actv.inj owner
    exact known
  | create | conn => exact Owner.noConfusion owner

theorem faithful_of_createdInd {number : UInt8} (faithful : Faithful activityMax connectionMax s)
    (fine : s.Fine connectionMax (.createdInd number))
    (taken : Bookkeeping.step activityMax connectionMax (.createdInd number) s = some t) :
    Faithful activityMax connectionMax t := by
  obtain ⟨env, activities, queue⟩ := s
  rcases faithful.waits with ⟨empty, -⟩ | ⟨⟨cmd, owner, indicated⟩, only, running, awaits⟩
  · dsimp only at empty
    subst empty
    cases taken
  dsimp only at only running awaits
  subst only
  cases indicated with
  | true => cases taken
  | false =>
    dsimp only [Bookkeeping.step] at taken
    cases creates : cmd.operation.creates with
    | none =>
      rw [creates] at taken
      cases taken
    | some kind =>
      rw [creates] at taken
      obtain ⟨⟨valid, fresh⟩, same⟩ := Option.ite_none_right_eq_some.mp taken
      obtain rfl := Option.some.inj same
      obtain ⟨free, gained, status, waits⟩ := created_gained awaits rfl creates number (fine _ rfl)
      have mirrors := @Mirrors.create _ _ _ _ _ _ _ kind _ faithful.mirrors free fresh
      have numbers : ∀ a ∈ (⟨number, kind, owner⟩ :: activities : List Activity), a.number ≠ gapInvalidActvIdx :=
        List.forall_mem_cons.mpr ⟨valid, faithful.numbers⟩
      refine ⟨?_, fun other => ?_, numbers, ?_, .inr ⟨_, rfl, status.trans running, waits⟩⟩
      · dsimp only
        rw [gained.owned]
        exact mirrors
      · have bound := length_le_of_numbers mirrors.distinct numbers
        dsimp only
        rw [gained.count]
        exact counts_gained faithful.counts bound other
      · exact List.forall_mem_cons.mpr ⟨fun idx same => awaits.known_of_actv same, faithful.known⟩

theorem find_of_first {env : AppEnv P} {number : UInt8} {idx : Nat} (known : idx < activityMax)
    (here : (env.actvs idx).gapAdvtIdx = number) (first : ∀ other < idx, (env.actvs other).gapAdvtIdx ≠ number) :
    env.appBleFindActvIdxHandle activityMax number = idx := by
  have found : (List.range activityMax).find? (fun idx => (env.actvs idx).gapAdvtIdx = number) = some idx := by
    refine List.find?_range_eq_some.mpr ⟨decide_eq_true here, List.mem_range.mpr known, fun other less => ?_⟩
    simpa using first other less
  rw [AppEnv.appBleFindActvIdxHandle, found]
  rfl

theorem faithful_of_stoppedInd {number : UInt8} (faithful : Faithful activityMax connectionMax s)
    (fine : s.Fine connectionMax (.stoppedInd number))
    (taken : Bookkeeping.step activityMax connectionMax (.stoppedInd number) s = some t) :
    Faithful activityMax connectionMax t := by
  obtain ⟨a, found, rfl⟩ := Option.map_eq_some_iff.mp taken
  have member := List.mem_of_find?_eq_some found
  obtain rfl : a.number = number := by simpa using List.find?_some found
  have owned : s.env.owned a.owner = some (a.number, a.kind) := (faithful.mirrors.exact _ _ _).mpr member
  obtain ⟨kept, same⟩ := @stopped_kept P activityMax connectionMax s.env a.owner a.number a.kind owned
    (faithful.known a member) fun idx owner => by
      rw [owner] at owned
      exact find_of_first (faithful.known a member idx owner) (owned_actv_inv owned).1 (fine a member rfl idx owner)
  refine faithful_of_kept faithful kept ?_
  rcases faithful.waits with ⟨empty, settled⟩ | ⟨p, only, running, awaits⟩
  · exact .inl ⟨empty, same.settled settled⟩
  · exact .inr ⟨p, only, same.status.trans running, awaits.of_kept kept same⟩

theorem faithful_of_completion {status memory : Bool} (faithful : Faithful activityMax connectionMax s)
    (fine : s.Fine connectionMax (.completion status memory))
    (taken : Bookkeeping.step activityMax connectionMax (.completion status memory) s = some t) :
    Faithful activityMax connectionMax t := by
  obtain ⟨env, activities, queue⟩ := s
  rcases faithful.waits with ⟨empty, -⟩ | ⟨p, only, running, awaits⟩
  · dsimp only at empty
    subst empty
    cases taken
  dsimp only at only running awaits
  subst only
  obtain ⟨answers, same⟩ := Option.ite_none_right_eq_some.mp taken
  obtain rfl := Option.some.inj same
  obtain ⟨answered, follows⟩ := answer_follows awaits running status memory (fine p rfl) fun op =>
    answers.1 (by rw [op]; nofun)
  have waits := waits_of_follows follows
  unfold Answered at answered
  by_cases deletes : p.cmd.operation = .delete ∧ status = true
  · rw [if_pos deletes] at answered
    obtain ⟨number, kind, actvIdx, owned, lost⟩ := answered
    have rest : left activities p status = activities.filter fun a => a.number ≠ number := by
      rw [left, if_pos deletes, actvIdx]
      simp only [ne_eq, Option.some.injEq]
    rw [rest]
    refine ⟨?_, fun other => ?_, fun a member => ?_, fun a member => ?_, waits⟩
    · dsimp only
      rw [lost.owned]
      exact faithful.mirrors.delete owned
    · dsimp only
      rw [lost.count]
      exact counts_lost faithful.mirrors owned faithful.counts other
    · exact faithful.numbers a (List.mem_of_mem_filter member)
    · exact faithful.known a (List.mem_of_mem_filter member)
  · rw [if_neg deletes] at answered
    rw [left, if_neg deletes]
    exact faithful_of_kept faithful answered waits

theorem faithful_of_step {event : Bookkeeping.Event P} (faithful : Faithful activityMax connectionMax s)
    (fine : s.Fine connectionMax event) (taken : Bookkeeping.step activityMax connectionMax event s = some t) :
    Faithful activityMax connectionMax t := by
  cases event with
  | call call memory => exact faithful_of_call faithful call memory fine taken
  | createdInd number => exact faithful_of_createdInd faithful fine taken
  | stoppedInd number => exact faithful_of_stoppedInd faithful fine taken
  | completion status memory => exact faithful_of_completion faithful fine taken

section Runs
variable {param : P} {moments : List (Moment (Bookkeeping P) (Bookkeeping.Event P))} {final : Bookkeeping P}

/-- In every run whose steps are fine the record mirrors what the stack holds. -/
theorem mirrored_of_fine
    (run : Run (Machine.Step (Bookkeeping.step activityMax connectionMax)) (Bookkeeping.start param) moments final)
    (fine : ∀ moment ∈ moments, moment.before.Fine connectionMax moment.event) :
    Machine.Always (Mirrored activityMax connectionMax) moments final := by
  have always := @Machine.always_of_invariant _ _ _ _ _ _ (Faithful activityMax connectionMax)
    (fun s event => s.Fine connectionMax event) run (start_faithful param)
    (fun faithful fine taken => faithful_of_step faithful fine taken) fine
  exact always.mono fun s faithful => faithful.mirrored

end Runs

/-! ## Sample runs -/

instance (owner : Owner) (good : Nat → Prop) [DecidablePred good] : Decidable (∀ idx, owner = .actv idx → good idx) :=
  match owner with
  | .actv idx => decidable_of_iff (good idx) ⟨fun holds _ same => Owner.actv.inj same ▸ holds, fun all => all idx rfl⟩
  | .conn _ => isTrue nofun

instance (env : AppEnv P) (memory : Bool) (call : Call P) : Decidable (call.Own connectionMax env memory) := by
  apply Call.casesOn (motive := fun call => Decidable (call.Own connectionMax env memory)) call <;> intros <;>
    unfold Call.Own <;> infer_instance

instance (s : Bookkeeping P) (event : Bookkeeping.Event P) : Decidable (s.Fine connectionMax event) := by
  cases event <;> unfold Bookkeeping.Fine <;> infer_instance

/-- An activity for advertising is created, the latest event first. -/
def advCreated : List (Bookkeeping.Event Unit) :=
  [.completion true true, .createdInd 0, .call (.createAdvertising 0 true) true]

/-- It is started, stops by itself and is deleted. -/
def advDeleted : List (Bookkeeping.Event Unit) :=
  [.completion true true, .call (.deleteAdvertising 0 true) true, .stoppedInd 0, .completion true true,
    .call (.startAdvertising 0 true) true] ++ advCreated

theorem adv_mirrored :
    ∃ moments final, Run (Machine.Step (Bookkeeping.step 3 2)) (Bookkeeping.start ()) moments final ∧
      moments.map Moment.event = advDeleted ∧ Machine.Always (Mirrored 3 2) moments final ∧ final.activities = [] := by
  have found : (Machine.replay (Machine.guarded (fun s event => s.Fine 2 event) (Bookkeeping.step 3 2))
      (Bookkeeping.start ()) advDeleted).any (fun s => s.activities = []) = true := by
    decide
  obtain ⟨moments, final, run, same, fine, shown⟩ := Machine.run_of_fine found
  exact ⟨moments, final, run, same, mirrored_of_fine run fine, of_decide_eq_true shown⟩

/-- A deletion that fails leaves its activity with the stack, and an idle entry. -/
theorem failed_delete_forgets :
    ¬∀ (moments : List (Moment (Bookkeeping Unit) (Bookkeeping.Event Unit))) (final : Bookkeeping Unit),
      Run (Machine.Step (Bookkeeping.step 3 2)) (Bookkeeping.start ()) moments final →
        Machine.Always (Mirrored 3 2) moments final := by
  intro all
  have found : (Machine.replay (Bookkeeping.step 3 2) (Bookkeeping.start ())
      (.completion false true :: .call (.deleteAdvertising 0 true) true :: advCreated)).any
      (fun s => s.env.status = .ready ∧ (s.env.actvs 0).actvStatus = .idle ∧ s.activities = [⟨0, .adv, .actv 0⟩]) =
        true := by
    decide
  obtain ⟨moments, final, run, _, shown⟩ := Machine.run_of_any found
  obtain ⟨ready, idle, there⟩ := of_decide_eq_true shown
  have free := ((all moments final run).2.actvs ready 0 (by decide)).1.mp idle
  rw [there] at free
  exact free _ List.mem_cons_self rfl

end BekenSdk.BleApp
