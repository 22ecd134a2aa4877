import BekenSdk.Base.Mirror
import BekenSdk.BleApp.Sequencing

/-! What the application has on record of the stack's activities: the owners (activities
of the user, and connections) with the number and the kind of what the stack holds for
them, and four counters. Every call and every message has one of three effects on it.
-/

set_option autoImplicit false

namespace BekenSdk.BleApp
open Base

variable {P : Type} {activityMax connectionMax : Nat} {env : AppEnv P}

/-! ## The record -/

/-- What the stack can hold an activity for. -/
inductive Owner where
  | actv (idx : Nat)
  | conn (con : Nat)
  deriving DecidableEq

def ActvState.kind : ActvState → Option ActvType
  | idle => none
  | advCreated | advStarted => some .adv
  | scanCreated | scanStarted => some .scan
  | initCreated => some .init
  | perSyncCreated | perSyncStarted => some .perSync

def InitState.kind : InitState → Option ActvType
  | idle | creating => none
  | _ => some .init

def BleCmd.kind : BleCmd → Option ActvType
  | none => Option.none
  | initAdv | deinitAdv | createAdv | setAdvData | setRspData | startAdv | stopAdv | deleteAdv => some .adv
  | initScan | deinitScan | createScan | startScan | stopScan | deleteScan => some .scan
  | createPeriodicSync | startPeriodicSync | stopPeriodicSync | deletePeriodicSync => some .perSync
  | initCreate | initStartConn | initStopConn | initDelete => some .init

/-- The kind of the activity that a command is to create. -/
def GapmOp.creates : GapmOp → Option ActvType
  | createAdv => some .adv
  | createScan => some .scan
  | createInit => some .init
  | createPeriodSync => some .perSync
  | _ => none

namespace AppEnv

/-- The number and the kind of an owner's activity. -/
def owned (env : AppEnv P) : Owner → Option (UInt8 × ActvType)
  | .actv idx => (env.actvs idx).actvStatus.kind.map ((env.actvs idx).gapAdvtIdx, ·)
  | .conn con => (env.connections con).initState.kind.map ((env.connections con).gapActvIdx, ·)

def count (env : AppEnv P) : ActvType → UInt8
  | .adv => env.advActv
  | .scan => env.scanActv
  | .init => env.initActv
  | .perSync => env.perSyncActv

/-- No connection waits for its activity. -/
def Settled (env : AppEnv P) : Prop := ∀ con, (env.connections con).initState ≠ .creating

/-- The record has not changed. -/
structure Kept (env after : AppEnv P) : Prop where
  owned : after.owned = env.owned
  count : after.count = env.count

/-- An owner has one activity more, or one less. -/
structure Gained (env after : AppEnv P) (owner : Owner) (number : UInt8) (kind : ActvType) : Prop where
  owned : after.owned = Function.update env.owned owner (some (number, kind))
  count : after.count = Function.update env.count kind (env.count kind + 1)

structure Lost (env after : AppEnv P) (owner : Owner) (kind : ActvType) : Prop where
  owned : after.owned = Function.update env.owned owner none
  count : after.count = Function.update env.count kind (env.count kind - 1)

end AppEnv

open AppEnv

theorem AppEnv.Kept.refl (env : AppEnv P) : env.Kept env := ⟨rfl, rfl⟩

theorem AppEnv.Kept.trans {middle after : AppEnv P} (first : env.Kept middle) (second : middle.Kept after) :
    env.Kept after :=
  ⟨second.owned.trans first.owned, second.count.trans first.count⟩

theorem owned_setActv (env : AppEnv P) (idx : Nat) (state : ActvState) :
    (env.setActv idx state).owned =
      Function.update env.owned (.actv idx) (state.kind.map ((env.actvs idx).gapAdvtIdx, ·)) := by
  funext owner
  cases owner with
  | actv other =>
    by_cases same : other = idx
    · subst same
      simp [owned, setActv]
    · simp [owned, setActv, same]
  | conn con => simp [owned, setActv]

theorem owned_setInit (env : AppEnv P) (con : Nat) (state : InitState) :
    (env.setInit con state).owned =
      Function.update env.owned (.conn con) (state.kind.map ((env.connections con).gapActvIdx, ·)) := by
  funext owner
  cases owner with
  | actv idx => simp [owned, setInit]
  | conn other =>
    by_cases same : other = con
    · subst same
      simp [owned, setInit]
    · simp [owned, setInit, same]

theorem kept_setActv {idx : Nat} {state : ActvState} (same : state.kind = (env.actvs idx).actvStatus.kind) :
    env.Kept (env.setActv idx state) := by
  refine ⟨?_, rfl⟩
  rw [owned_setActv, same]
  exact Function.update_eq_self (Owner.actv idx) env.owned

theorem kept_setInit {con : Nat} {state : InitState} (same : state.kind = (env.connections con).initState.kind) :
    env.Kept (env.setInit con state) := by
  refine ⟨?_, rfl⟩
  rw [owned_setInit, same]
  exact Function.update_eq_self (Owner.conn con) env.owned

theorem kept_setConnOps (env : AppEnv P) (con : Nat) (mask : UInt32) : env.Kept (env.setConnOps con mask) := by
  refine ⟨?_, rfl⟩
  funext owner
  cases owner with
  | actv idx => rfl
  | conn other =>
    by_cases same : other = con
    · subst same
      simp [owned, setConnOps]
    · simp [owned, setConnOps, same]

theorem settled_setInit {con : Nat} {state : InitState}
    (others : ∀ other, other ≠ con → (env.connections other).initState ≠ .creating)
    (differs : state ≠ .creating) : (env.setInit con state).Settled := by
  intro other
  by_cases same : other = con
  · subst same
    simpa [setInit] using differs
  · simpa [setInit, same] using others other same

theorem settled_setConnOps {con : Nat} {mask : UInt32} (settled : env.Settled) : (env.setConnOps con mask).Settled := by
  intro other
  by_cases same : other = con
  · subst same
    simpa [setConnOps] using settled other
  · simpa [setConnOps, same] using settled other

theorem ActvState.kind_eq_none {state : ActvState} : state.kind = Option.none ↔ state = .idle := by
  cases state <;> decide

theorem InitState.kind_eq_none {state : InitState} (settled : state ≠ .creating) :
    state.kind = Option.none ↔ state = .idle := by
  cases state with
  | creating => exact absurd rfl settled
  | idle | created | waitConectting | conectting | conected | stopping => decide

theorem owned_actv_eq_none {idx : Nat} : env.owned (.actv idx) = none ↔ (env.actvs idx).actvStatus = .idle :=
  Option.map_eq_none_iff.trans ActvState.kind_eq_none

theorem owned_actv {idx : Nat} {kind : ActvType} (same : (env.actvs idx).actvStatus.kind = some kind) :
    env.owned (.actv idx) = some ((env.actvs idx).gapAdvtIdx, kind) := by
  rw [owned, same]
  rfl

theorem owned_actv_inv {idx : Nat} {number : UInt8} {kind : ActvType}
    (found : env.owned (.actv idx) = some (number, kind)) :
    (env.actvs idx).gapAdvtIdx = number ∧ (env.actvs idx).actvStatus.kind = some kind := by
  obtain ⟨k, same, equal⟩ := Option.map_eq_some_iff.mp found
  obtain ⟨rfl, rfl⟩ := Prod.mk.inj equal
  exact ⟨rfl, same⟩

theorem owned_conn {con : Nat} {kind : ActvType} (same : (env.connections con).initState.kind = some kind) :
    env.owned (.conn con) = some ((env.connections con).gapActvIdx, kind) := by
  rw [owned, same]
  rfl

theorem owned_conn_inv {con : Nat} {number : UInt8} {kind : ActvType}
    (found : env.owned (.conn con) = some (number, kind)) :
    (env.connections con).gapActvIdx = number ∧ (env.connections con).initState.kind = some kind := by
  obtain ⟨k, same, equal⟩ := Option.map_eq_some_iff.mp found
  obtain ⟨rfl, rfl⟩ := Prod.mk.inj equal
  exact ⟨rfl, same⟩

/-! ## Messages that wait for an answer -/

/-- A message to the stack, with the owner that it was sent for. -/
structure Pending where
  cmd : GapmCmd
  owner : Owner
  /-- Whether the stack has told of the activity that it was to create. -/
  indicated : Bool

def AppEnv.pending (activityMax connectionMax : Nat) (env : AppEnv P) (cmd : GapmCmd) : Pending where
  cmd := cmd
  owner := if Initing activityMax connectionMax cmd.src then .conn (cmd.src - activityMax) else .actv env.idx
  indicated := false

/-- The message of a running command: it names the activity that is on record for the owner. -/
inductive Awaits (activityMax connectionMax : Nat) (env : AppEnv P) : Pending → Prop
  | actv {op : GapmOp} {actvIdx : Option UInt8} {indicated : Bool} (known : env.idx < activityMax)
    (settled : env.Settled) (user : env.cmd.kind ≠ some .init) (op_ne : op ≠ .createInit)
    (naming : op.creates = none ↔ actvIdx ≠ none)
    (named : ∀ number ∈ actvIdx, ∃ kind, env.cmd.kind = some kind ∧ env.owned (.actv env.idx) = some (number, kind)) :
    Awaits activityMax connectionMax env ⟨⟨op, 0, actvIdx⟩, .actv env.idx, indicated⟩
  | create {indicated : Bool} (cmd : env.cmd = .initCreate) (known : env.idx < connectionMax)
    (others : ∀ con, con ≠ env.idx → (env.connections con).initState ≠ .creating)
    (there : indicated = true → (env.connections env.idx).initState.kind = some .init)
    (absent : indicated = false → (env.connections env.idx).initState = .creating) :
    Awaits activityMax connectionMax env
      ⟨⟨.createInit, initingIndex activityMax env.idx, none⟩, .conn env.idx, indicated⟩
  | conn {op : GapmOp} {number : UInt8} {indicated : Bool} (known : env.idx < connectionMax) (settled : env.Settled)
    (stage : op = .start ∧ env.cmd = .initStartConn ∨ op = .stop ∧ env.cmd = .initStopConn ∨
      op = .delete ∧ env.cmd = .initDelete)
    (named : env.owned (.conn env.idx) = some (number, .init)) :
    Awaits activityMax connectionMax env
      ⟨⟨op, initingIndex activityMax env.idx, some number⟩, .conn env.idx, indicated⟩

/-- After an answer or a call: no message, or one that waits. -/
inductive Follows (activityMax connectionMax : Nat) (env : AppEnv P) : List GapmCmd → Prop
  | quiet (settled : env.Settled) : Follows activityMax connectionMax env []
  | sends {cmd : GapmCmd} (running : env.status = .cmdRunning)
    (awaits : Awaits activityMax connectionMax env (env.pending activityMax connectionMax cmd)) :
    Follows activityMax connectionMax env [cmd]

theorem initing_initingIndex {con : Nat} (known : con < connectionMax) :
    Initing activityMax connectionMax (initingIndex activityMax con) :=
  ⟨Nat.le_add_left _ _, Nat.add_lt_add_right known _⟩

theorem pending_actv (known : env.idx < activityMax) (op : GapmOp) (actvIdx : Option UInt8) :
    env.pending activityMax connectionMax ⟨op, 0, actvIdx⟩ = ⟨⟨op, 0, actvIdx⟩, .actv env.idx, false⟩ := by
  rw [AppEnv.pending, if_neg (not_initing (Nat.zero_lt_of_lt known))]

theorem pending_conn (known : env.idx < connectionMax) (op : GapmOp) (actvIdx : Option UInt8) :
    env.pending activityMax connectionMax ⟨op, initingIndex activityMax env.idx, actvIdx⟩ =
      ⟨⟨op, initingIndex activityMax env.idx, actvIdx⟩, .conn env.idx, false⟩ := by
  rw [AppEnv.pending, if_pos (initing_initingIndex known), initingIndex, Nat.add_sub_cancel]

/-! ## The next step -/

/-- A step for an activity of the kind that the command is about names that activity. -/
theorem follows_request {fit : ActvState → Bool} {op : GapmOp} {kind : ActvType} {memory : Bool}
    (running : env.status = .cmdRunning) (settled : env.Settled) (op_ne : op ≠ .createInit) (naming : op.creates = none)
    (cmd : env.cmd.kind = some kind) (user : kind ≠ .init)
    (fits : ∀ state, fit state = true → state.kind = some kind) :
    Follows activityMax connectionMax env
      (env.request activityMax env.idx fit op (env.gap env.idx) memory).2.toList := by
  rcases @request_spec _ activityMax env env.idx fit op (env.gap env.idx) memory
    with ⟨known, fit, -, sent⟩ | ⟨-, -, none⟩
  · rw [sent]
    refine .sends running ?_
    rw [pending_actv known]
    refine .actv known settled ?_ op_ne ⟨fun _ => nofun, fun _ => naming⟩ ?_
    · rw [cmd]
      exact fun same => user (Option.some.inj same)
    rintro number ⟨⟩
    exact ⟨kind, cmd, owned_actv (fits _ fit)⟩
  · rw [none]
    exact .quiet settled

theorem follows_create {fit : ActvState → Bool} {op : GapmOp} {memory : Bool} (running : env.status = .cmdRunning)
    (settled : env.Settled) (user : env.cmd.kind ≠ some .init) (op_ne : op ≠ .createInit) (naming : op.creates ≠ none) :
    Follows activityMax connectionMax env (env.request activityMax env.idx fit op none memory).2.toList := by
  rcases @request_spec _ activityMax env env.idx fit op none memory with ⟨known, fit, -, sent⟩ | ⟨-, -, absent⟩
  · rw [sent]
    refine .sends running ?_
    rw [pending_actv known]
    exact .actv known settled user op_ne ⟨fun never => absurd never naming, fun never => absurd rfl never⟩ nofun
  · rw [absent]
    exact .quiet settled

theorem adv_of_created (state : ActvState) (fit : decide (state = .advCreated) = true) : state.kind = some .adv := by
  cases of_decide_eq_true fit
  rfl

theorem scan_of_created (state : ActvState) (fit : decide (state = .scanCreated) = true) : state.kind = some .scan := by
  cases of_decide_eq_true fit
  rfl

theorem adv_of_there (state : ActvState) (fit : decide (state = .advCreated ∨ state = .advStarted) = true) :
    state.kind = some .adv := by
  cases of_decide_eq_true fit with
  | inl created => rw [created]; rfl
  | inr started => rw [started]; rfl

/-- What the next step leaves of the record, and the message that it sends. -/
theorem next_follows (running : env.status = .cmdRunning) (settled : env.Settled) (status memory : Bool) :
    env.Kept (env.appBleNextOperation activityMax env.idx status memory).env ∧
      Follows activityMax connectionMax (env.appBleNextOperation activityMax env.idx status memory).env
        (env.appBleNextOperation activityMax env.idx status memory).sent := by
  have finished : env.Kept (env.finish env.idx status).env ∧
      Follows activityMax connectionMax (env.finish env.idx status).env (env.finish env.idx status).sent :=
    ⟨⟨rfl, rfl⟩, .quiet settled⟩
  have silent : env.Kept env ∧ Follows activityMax connectionMax env [] := ⟨.refl env, .quiet settled⟩
  have cleaned (created : ActvState) (kind : ActvType) (cmd : env.cmd.kind = some kind) (user : kind ≠ .init)
      (fits : created.kind = some kind) :
      env.Kept (env.finishInit env.idx status created
          (env.request activityMax env.idx (· = created) .delete (env.gap env.idx) memory)).env ∧
        Follows activityMax connectionMax
          (env.finishInit env.idx status created
            (env.request activityMax env.idx (· = created) .delete (env.gap env.idx) memory)).env
          (env.finishInit env.idx status created
            (env.request activityMax env.idx (· = created) .delete (env.gap env.idx) memory)).sent := by
    have fit (state : ActvState) (same : decide (state = created) = true) : state.kind = some kind :=
      (of_decide_eq_true same).symm ▸ fits
    unfold finishInit
    dsimp only
    split
    · split
      · exact ⟨⟨rfl, rfl⟩, @follows_request P activityMax connectionMax { env with opMask := 0, opCb := false } _ .delete
          kind memory running settled nofun rfl cmd user fit⟩
      · exact ⟨.refl env, follows_request running settled nofun rfl cmd user fit⟩
    · exact ⟨⟨rfl, rfl⟩, .quiet settled⟩
  unfold appBleNextOperation
  dsimp only
  split
  next cmd =>
    have kind : env.cmd.kind = some .adv := by rw [cmd]; rfl
    split
    · split
      · exact ⟨.refl env, follows_request running settled nofun rfl kind nofun adv_of_there⟩
      split
      · exact ⟨.refl env, follows_request running settled nofun rfl kind nofun adv_of_there⟩
      split
      · exact ⟨.refl env, follows_request running settled nofun rfl kind nofun adv_of_created⟩
      · exact silent
    · exact cleaned .advCreated .adv kind nofun rfl
  next cmd =>
    have kind : env.cmd.kind = some .adv := by rw [cmd]; rfl
    split
    · split
      · exact ⟨.refl env, follows_request running settled nofun rfl kind nofun adv_of_created⟩
      · exact silent
    · exact finished
  next cmd =>
    have kind : env.cmd.kind = some .scan := by rw [cmd]; rfl
    split
    · split
      · exact ⟨.refl env, follows_request running settled nofun rfl kind nofun scan_of_created⟩
      · exact silent
    · exact cleaned .scanCreated .scan kind nofun rfl
  next cmd =>
    have kind : env.cmd.kind = some .scan := by rw [cmd]; rfl
    split
    · split
      · exact ⟨.refl env, follows_request running settled nofun rfl kind nofun scan_of_created⟩
      · exact silent
    · exact finished
  · exact silent
  · exact finished

/-! ## Answers -/

/-- The commands of one step that delete. -/
def BleCmd.Deletes (cmd : BleCmd) : Prop :=
  cmd = .deleteAdv ∨ cmd = .deleteScan ∨ cmd = .deletePeriodicSync ∨ cmd = .initDelete

instance (cmd : BleCmd) : Decidable cmd.Deletes := inferInstanceAs (Decidable (_ ∨ _))

/-- What an answer leaves of the record: a deletion that has succeeded takes its activity off. -/
def Answered (env after : AppEnv P) (p : Pending) (status : Bool) : Prop :=
  if p.cmd.operation = .delete ∧ status = true then
    ∃ number kind, p.cmd.actvIdx = some number ∧ env.owned p.owner = some (number, kind) ∧ env.Lost after p.owner kind
  else env.Kept after

theorem answered_kept {after : AppEnv P} {p : Pending} {status : Bool} (kept : env.Kept after)
    (op_ne : ¬(p.cmd.operation = .delete ∧ status = true)) : Answered env after p status := by
  rw [Answered, if_neg op_ne]
  exact kept

/-- What the next step leaves, after a change of the environment that the record does not see. -/
theorem next_of_kept {marked : AppEnv P} (kept : env.Kept marked) (idx : marked.idx = env.idx)
    (running : marked.status = .cmdRunning) (settled : marked.Settled) (status memory : Bool) :
    env.Kept (marked.appBleNextOperation activityMax env.idx status memory).env ∧
      Follows activityMax connectionMax (marked.appBleNextOperation activityMax env.idx status memory).env
        (marked.appBleNextOperation activityMax env.idx status memory).sent := by
  rw [← idx]
  obtain ⟨after, follows⟩ := @next_follows P activityMax connectionMax marked running settled status memory
  exact ⟨kept.trans after, follows⟩

theorem started_kept {number : UInt8} {kind : ActvType} (cmd : env.cmd.kind = some kind)
    (owned : env.owned (.actv env.idx) = some (number, kind)) : env.Kept env.started := by
  obtain ⟨-, there⟩ := owned_actv_inv owned
  have marked (state : ActvState) (mask : UInt32) (same : state.kind = env.cmd.kind) :
      env.Kept ((env.setActv env.idx state).clearOps mask) :=
    (kept_setActv (same.trans (cmd.trans there.symm))).trans ⟨rfl, rfl⟩
  unfold started
  split
  next running => exact marked .scanStarted _ (congrArg BleCmd.kind running).symm
  next running => exact marked .scanStarted _ (congrArg BleCmd.kind running).symm
  next running => exact marked .advStarted _ (congrArg BleCmd.kind running).symm
  next running => exact marked .advStarted _ (congrArg BleCmd.kind running).symm
  next running => exact marked .perSyncStarted _ (congrArg BleCmd.kind running).symm
  · exact .refl env

theorem started_frame (env : AppEnv P) :
    env.started.idx = env.idx ∧ env.started.status = env.status ∧ env.started.connections = env.connections := by
  unfold started
  split <;> exact ⟨rfl, rfl, rfl⟩

theorem deleted_lost {kind : ActvType} (deletes : env.cmd.Deletes) (cmd : env.cmd.kind = some kind)
    (user : kind ≠ .init) :
    env.Lost env.deleted (.actv env.idx) kind := by
  have freed : (env.setActv env.idx .idle).owned = Function.update env.owned (.actv env.idx) none :=
    owned_setActv env env.idx .idle
  unfold deleted
  rcases deletes with running | running | running | running
  · rw [running] at cmd ⊢
    obtain rfl := Option.some.inj cmd
    refine ⟨freed, funext fun other => ?_⟩
    cases other <;> rfl
  · rw [running] at cmd ⊢
    obtain rfl := Option.some.inj cmd
    refine ⟨freed, funext fun other => ?_⟩
    cases other <;> rfl
  · rw [running] at cmd ⊢
    obtain rfl := Option.some.inj cmd
    refine ⟨freed, funext fun other => ?_⟩
    cases other <;> rfl
  · rw [running] at cmd
    exact absurd (Option.some.inj cmd).symm user

theorem deleted_of_not (deletes : ¬env.cmd.Deletes) : env.deleted = env := by
  unfold deleted
  split
  next running => exact absurd (.inr (.inl running)) deletes
  next running => exact absurd (.inl running) deletes
  next running => exact absurd (.inr (.inr (.inl running))) deletes
  · rfl

theorem single_of_deletes {cmd : BleCmd} (deletes : cmd.Deletes) : cmd.Single := by
  rcases deletes with rfl | rfl | rfl | rfl <;> decide

theorem deleted_frame (env : AppEnv P) : env.deleted.cmd = env.cmd ∧ env.deleted.connections = env.connections := by
  unfold deleted
  split <;> exact ⟨rfl, rfl⟩

/-- An answer about an activity. -/
theorem answer_actv {op : GapmOp} {actvIdx : Option UInt8} {indicated : Bool} (running : env.status = .cmdRunning)
    (known : env.idx < activityMax) (settled : env.Settled) (user : env.cmd.kind ≠ some .init)
    (op_ne : op ≠ .createInit)
    (naming : op.creates = none ↔ actvIdx ≠ none)
    (named : ∀ number ∈ actvIdx, ∃ kind, env.cmd.kind = some kind ∧ env.owned (.actv env.idx) = some (number, kind))
    (status memory : Bool) (fine : op = .delete → (status = true ↔ env.cmd.Deletes)) :
    Answered env (env.gapmCmpEvt activityMax connectionMax 0 op status memory).env
        ⟨⟨op, 0, actvIdx⟩, .actv env.idx, indicated⟩ status ∧
      Follows activityMax connectionMax (env.gapmCmpEvt activityMax connectionMax 0 op status memory).env
        (env.gapmCmpEvt activityMax connectionMax 0 op status memory).sent := by
  have low : ¬Initing activityMax connectionMax 0 := not_initing (Nat.zero_lt_of_lt known)
  have inside : ¬activityMax ≤ env.idx := Nat.not_le_of_lt known
  have next (marked : AppEnv P) (kept : env.Kept marked) (idx : marked.idx = env.idx)
      (status' : marked.status = env.status) (connections : marked.connections = env.connections)
      (op_ne : ¬(op = .delete ∧ status = true)) :
      Answered env (marked.appBleNextOperation activityMax env.idx status memory).env
          ⟨⟨op, 0, actvIdx⟩, .actv env.idx, indicated⟩ status ∧
        Follows activityMax connectionMax (marked.appBleNextOperation activityMax env.idx status memory).env
          (marked.appBleNextOperation activityMax env.idx status memory).sent := by
    have settled : marked.Settled := by
      rw [Settled, connections]
      exact settled
    obtain ⟨kept, follows⟩ := @next_of_kept P activityMax connectionMax env marked kept idx (status'.trans running)
      settled status memory
    exact ⟨answered_kept kept op_ne, follows⟩
  unfold gapmCmpEvt
  cases op with
  | createAdv | createScan | createPeriodSync | setAdvData | setScanRspData | setPeriodAdvData =>
    dsimp only
    rw [goOn, if_neg inside]
    exact next (env.clearOps _) ⟨rfl, rfl⟩ rfl rfl rfl nofun
  | createInit => exact absurd rfl op_ne
  | stop =>
    dsimp only
    rw [if_neg low, goOn, if_neg inside]
    exact next (env.clearOps _) ⟨rfl, rfl⟩ rfl rfl rfl nofun
  | start =>
    dsimp only
    rw [if_neg low, if_neg inside]
    obtain ⟨number, rfl⟩ := Option.ne_none_iff_exists'.mp (naming.mp rfl)
    obtain ⟨kind, cmd, owned⟩ := named number rfl
    obtain ⟨idx, status', connections⟩ := started_frame env
    split
    · exact next env.started (started_kept cmd owned) idx status' connections nofun
    · exact next env (.refl env) rfl rfl rfl nofun
  | delete =>
    dsimp only
    rw [if_neg low, if_neg inside]
    obtain ⟨number, rfl⟩ := Option.ne_none_iff_exists'.mp (naming.mp rfl)
    obtain ⟨kind, cmd, owned⟩ := named number rfl
    by_cases deletes : env.cmd.Deletes
    · obtain rfl := (fine rfl).mpr deletes
      obtain ⟨cmd', connections⟩ := deleted_frame env
      rw [finish_of_single (by rw [cmd']; exact single_of_deletes deletes), Answered, if_pos ⟨rfl, rfl⟩]
      have lost := deleted_lost deletes cmd fun equal => user (cmd.trans (congrArg some equal))
      refine ⟨⟨number, kind, rfl, owned, ⟨lost.owned, lost.count⟩⟩, .quiet ?_⟩
      change env.deleted.Settled
      rw [Settled, connections]
      exact settled
    · rw [deleted_of_not deletes]
      exact next env (.refl env) rfl rfl rfl fun both => deletes ((fine rfl).mp both.2)

/-- The answer to a command for a connection ends it. -/
theorem answer_conn {op : GapmOp} {number : UInt8} {indicated : Bool} (known : env.idx < connectionMax)
    (settled : env.Settled)
    (stage : op = .start ∧ env.cmd = .initStartConn ∨ op = .stop ∧ env.cmd = .initStopConn ∨
      op = .delete ∧ env.cmd = .initDelete)
    (named : env.owned (.conn env.idx) = some (number, .init)) (status memory : Bool)
    (fine : op = .delete → (status = true ↔ env.cmd.Deletes)) :
    Answered env (env.gapmCmpEvt activityMax connectionMax (initingIndex activityMax env.idx) op status memory).env
        ⟨⟨op, initingIndex activityMax env.idx, some number⟩, .conn env.idx, indicated⟩ status ∧
      Follows activityMax connectionMax
        (env.gapmCmpEvt activityMax connectionMax (initingIndex activityMax env.idx) op status memory).env
        (env.gapmCmpEvt activityMax connectionMax (initingIndex activityMax env.idx) op status memory).sent := by
  have initing := @initing_initingIndex activityMax connectionMax env.idx known
  have con : initingIndex activityMax env.idx - activityMax = env.idx := Nat.add_sub_cancel _ _
  obtain ⟨-, there⟩ := owned_conn_inv named
  have ended (marked : AppEnv P) (kept : env.Kept marked) (single : marked.cmd.Single) (settled : marked.Settled)
      (op_ne : ¬(op = .delete ∧ status = true)) :
      Answered env (marked.appBleNextOperation activityMax env.idx status memory).env
          ⟨⟨op, initingIndex activityMax env.idx, some number⟩, .conn env.idx, indicated⟩ status ∧
        Follows activityMax connectionMax (marked.appBleNextOperation activityMax env.idx status memory).env
          (marked.appBleNextOperation activityMax env.idx status memory).sent := by
    rw [finish_of_single single]
    exact ⟨answered_kept ⟨kept.owned, kept.count⟩ op_ne, .quiet settled⟩
  have single : env.cmd.Single := by
    rcases stage with ⟨-, cmd⟩ | ⟨-, cmd⟩ | ⟨-, cmd⟩ <;> rw [cmd] <;> decide
  unfold gapmCmpEvt
  rcases stage with ⟨rfl, cmd⟩ | ⟨rfl, cmd⟩ | ⟨rfl, cmd⟩
  · dsimp only
    rw [if_pos initing, con, gapmCmpEvtConn]
    rw [if_pos cmd]
    have kind : (if status = true then InitState.conectting else .created).kind = some .init := by
      split <;> rfl
    refine ended _ ?_ single ?_ nofun
    · refine (kept_setConnOps env env.idx _).trans ((kept_setInit ?_).trans ⟨rfl, rfl⟩)
      rw [kind, ← there]
      simp [setConnOps]
    · refine settled_setInit (fun other _ => settled_setConnOps settled other) ?_
      split <;> decide
  · dsimp only
    rw [if_pos initing, con, gapmCmpEvtConn]
    rw [if_pos cmd, if_pos (.inl cmd)]
    refine ended _ ?_ single ?_ nofun
    · refine (kept_setInit ?_).trans ((kept_setConnOps _ env.idx _).trans ⟨rfl, rfl⟩)
      exact there.symm
    · exact settled_setConnOps (settled_setInit (fun other _ => settled other) (by decide))
  · have deletes : env.cmd.Deletes := .inr (.inr (.inr cmd))
    obtain rfl := (fine rfl).mpr deletes
    dsimp only
    rw [if_pos initing, con, gapmCmpEvtConn]
    dsimp only
    rw [if_pos cmd, finish_of_single (by exact single), Answered, if_pos ⟨rfl, rfl⟩]
    refine ⟨⟨number, .init, rfl, named, ?_, ?_⟩, .quiet ?_⟩
    · exact owned_setInit env env.idx .idle
    · funext other
      cases other <;> rfl
    · exact settled_setInit (fun other _ => settled other) (by decide)

/-- The answer to the creation of a connection's activity. -/
theorem answer_create {indicated : Bool} (cmd : env.cmd = .initCreate) (known : env.idx < connectionMax)
    (others : ∀ con, con ≠ env.idx → (env.connections con).initState ≠ .creating)
    (there : indicated = true → (env.connections env.idx).initState.kind = some .init)
    (absent : indicated = false → (env.connections env.idx).initState = .creating) (memory : Bool) :
    Answered env
        (env.gapmCmpEvt activityMax connectionMax (initingIndex activityMax env.idx) .createInit indicated memory).env
        ⟨⟨.createInit, initingIndex activityMax env.idx, none⟩, .conn env.idx, indicated⟩ indicated ∧
      Follows activityMax connectionMax
        (env.gapmCmpEvt activityMax connectionMax (initingIndex activityMax env.idx) .createInit indicated memory).env
        (env.gapmCmpEvt activityMax connectionMax (initingIndex activityMax env.idx) .createInit indicated memory).sent := by
  have initing := @initing_initingIndex activityMax connectionMax env.idx known
  have con : initingIndex activityMax env.idx - activityMax = env.idx := Nat.add_sub_cancel _ _
  have single : env.cmd.Single := by
    rw [cmd]
    decide
  have kind : (if indicated = true then InitState.created else .idle).kind =
    (env.connections env.idx).initState.kind := by
    cases indicated with
    | true => exact (there rfl).symm
    | false =>
      rw [absent rfl]
      rfl
  unfold gapmCmpEvt
  dsimp only
  rw [if_pos initing, con, gapmCmpEvtConn]
  rw [if_pos cmd, finish_of_single (by exact single)]
  refine ⟨answered_kept ?_ nofun, .quiet ?_⟩
  · refine (kept_setConnOps env env.idx _).trans ((kept_setInit ?_).trans ⟨rfl, rfl⟩)
    rw [kind]
    simp [setConnOps]
  · refine settled_setInit (fun other differs => ?_) ?_
    · simpa [setConnOps, differs] using others other differs
    · split <;> decide

/-- An answer takes the activity that a successful deletion names off the record, and leaves
no message or one that names what is on record. -/
theorem answer_follows {p : Pending} (awaits : Awaits activityMax connectionMax env p)
    (running : env.status = .cmdRunning)
    (status memory : Bool) (fine : p.cmd.operation = .delete → (status = true ↔ env.cmd.Deletes))
    (told : p.cmd.operation = .createInit → status = p.indicated) :
    Answered env (env.gapmCmpEvt activityMax connectionMax p.cmd.src p.cmd.operation status memory).env p status ∧
      Follows activityMax connectionMax
        (env.gapmCmpEvt activityMax connectionMax p.cmd.src p.cmd.operation status memory).env
        (env.gapmCmpEvt activityMax connectionMax p.cmd.src p.cmd.operation status memory).sent := by
  cases awaits with
  | actv known settled user op_ne naming named =>
    exact answer_actv running known settled user op_ne naming named status memory fine
  | create cmd known others there absent =>
    obtain rfl := told rfl
    exact answer_create cmd known others there absent memory
  | conn known settled stage named => exact answer_conn known settled stage named status memory fine

/-! ## Indications -/

/-- The index of the task that is told of an owner's activity. -/
def Owner.task (activityMax : Nat) : Owner → Nat
  | actv _ => 0
  | conn con => initingIndex activityMax con

/-- What a waiting message depends on, the record apart. -/
structure AppEnv.SameStage (env after : AppEnv P) : Prop where
  status : after.status = env.status
  cmd : after.cmd = env.cmd
  idx : after.idx = env.idx
  creating (con : Nat) : (after.connections con).initState = .creating ↔ (env.connections con).initState = .creating

theorem AppEnv.SameStage.refl (env : AppEnv P) : env.SameStage env := ⟨rfl, rfl, rfl, fun _ => Iff.rfl⟩

theorem AppEnv.SameStage.settled {after : AppEnv P} (same : env.SameStage after) (settled : env.Settled) :
    after.Settled :=
  fun con creating => settled con ((same.creating con).mp creating)

theorem Awaits.of_kept {after : AppEnv P} {p : Pending} (awaits : Awaits activityMax connectionMax env p)
    (kept : env.Kept after) (same : env.SameStage after) : Awaits activityMax connectionMax after p := by
  cases awaits with
  | actv known settled user op_ne naming named =>
    rw [← same.idx]
    refine .actv ?_ (same.settled settled) ?_ op_ne naming ?_
    · rw [same.idx]
      exact known
    · rw [same.cmd]
      exact user
    · rw [same.cmd, same.idx, kept.owned]
      exact named
  | @create indicated cmd known others there absent =>
    rw [← same.idx]
    refine .create (same.cmd.trans cmd) ?_ ?_ ?_ ?_
    · rw [same.idx]
      exact known
    · intro con differs creating
      rw [same.idx] at differs
      exact others con differs ((same.creating con).mp creating)
    · intro shown
      obtain ⟨-, kind⟩ := @owned_conn_inv P after env.idx (env.connections env.idx).gapActvIdx .init
        (by rw [kept.owned, owned, there shown]; rfl)
      rw [same.idx]
      exact kind
    · intro hidden
      rw [same.idx]
      exact (same.creating _).mpr (absent hidden)
  | conn known settled stage named =>
    rw [← same.idx]
    refine .conn ?_ (same.settled settled) ?_ ?_
    · rw [same.idx]
      exact known
    · rw [same.cmd]
      exact stage
    · rw [same.idx, kept.owned]
      exact named

/-- An indication that an activity has stopped, when its number leads to its owner. -/
theorem stopped_kept {owner : Owner} {number : UInt8} {kind : ActvType} (owned : env.owned owner = some (number, kind))
    (known : ∀ idx, owner = .actv idx → idx < activityMax)
    (found : ∀ idx, owner = .actv idx → env.appBleFindActvIdxHandle activityMax number = idx) :
    env.Kept (env.gapmActivityStoppedInd activityMax connectionMax (owner.task activityMax) kind number) ∧
      env.SameStage (env.gapmActivityStoppedInd activityMax connectionMax (owner.task activityMax) kind number) := by
  have unchanged : env.Kept env ∧ env.SameStage env := ⟨.refl env, .refl env⟩
  unfold gapmActivityStoppedInd
  dsimp only
  cases owner with
  | actv idx =>
    rw [found idx rfl]
    obtain ⟨-, there⟩ := owned_actv_inv owned
    have marked (state : ActvState) (same : state.kind = some kind) :
        env.Kept (env.setActv idx state) ∧ env.SameStage (env.setActv idx state) :=
      ⟨kept_setActv (same.trans there.symm), ⟨rfl, rfl, rfl, fun _ => Iff.rfl⟩⟩
    cases kind with
    | adv | scan | perSync =>
      dsimp only
      split
      · exact unchanged
      · exact marked _ rfl
    | init =>
      dsimp only
      split
      next initing => exact absurd initing (not_initing (Nat.zero_lt_of_lt (known idx rfl)))
      · exact unchanged
  | conn con =>
    obtain ⟨-, there⟩ := owned_conn_inv owned
    obtain ⟨rfl, differs⟩ : kind = .init ∧ (env.connections con).initState ≠ .creating := by
      cases state : (env.connections con).initState <;> rw [state] at there <;> cases there <;> exact ⟨rfl, nofun⟩
    dsimp only
    split
    · rw [Owner.task, initingIndex, Nat.add_sub_cancel]
      refine ⟨kept_setInit there.symm, ⟨rfl, rfl, rfl, fun other => ?_⟩⟩
      by_cases same : other = con
      · subst same
        simpa [setInit] using differs
      · simp [setInit, same]
    · exact unchanged

theorem owned_store (env : AppEnv P) (idx : Nat) (number : UInt8) (state : ActvState) :
    ({ env with actvs := Function.update env.actvs idx { env.actvs idx with gapAdvtIdx := number } }.setActv idx
      state : AppEnv P).owned = Function.update env.owned (.actv idx) (state.kind.map (number, ·)) := by
  funext owner
  cases owner with
  | actv other =>
    by_cases same : other = idx
    · subst same
      simp [owned, setActv]
    · simp [owned, setActv, same]
  | conn con => simp [owned, setActv]

theorem owned_storeConn (env : AppEnv P) (con : Nat) (number : UInt8) (state : InitState) :
    ({ env with connections := Function.update env.connections con { env.connections con with gapActvIdx := number }
      }.setInit con state : AppEnv P).owned = Function.update env.owned (.conn con) (state.kind.map (number, ·)) := by
  funext owner
  cases owner with
  | actv idx => simp [owned, setInit]
  | conn other =>
    by_cases same : other = con
    · subst same
      simp [owned, setInit]
    · simp [owned, setInit, same]

/-- An indication that the activity of a creation is there, for an owner that has none. -/
theorem created_gained {p : Pending} {kind : ActvType} (awaits : Awaits activityMax connectionMax env p)
    (first : p.indicated = false) (creates : p.cmd.operation.creates = some kind) (number : UInt8)
    (free : ∀ idx, p.owner = .actv idx → (env.actvs idx).actvStatus = .idle) :
    env.owned p.owner = none ∧
      env.Gained (env.gapmActivityCreatedInd activityMax connectionMax p.cmd.src kind number) p.owner number kind ∧
      (env.gapmActivityCreatedInd activityMax connectionMax p.cmd.src kind number).status = env.status ∧
      Awaits activityMax connectionMax (env.gapmActivityCreatedInd activityMax connectionMax p.cmd.src kind number)
        { p with indicated := true } := by
  cases awaits with
  | @actv op actvIdx indicated known settled user op_ne naming named =>
    have low : ¬Initing activityMax connectionMax 0 := not_initing (Nat.zero_lt_of_lt known)
    obtain rfl : actvIdx = none := by
      by_contra differs
      rw [naming.mpr differs] at creates
      cases creates
    refine ⟨owned_actv_eq_none.mpr (free env.idx rfl), ?_⟩
    unfold gapmActivityCreatedInd
    dsimp only
    rw [if_neg fun both => low both.1, if_neg (Nat.not_le_of_lt known)]
    cases op with
    | createAdv | createScan | createPeriodSync =>
      cases creates
      refine ⟨⟨owned_store env env.idx number _, ?_⟩, rfl, .actv known settled user op_ne naming nofun⟩
      funext other
      cases other <;> rfl
    | createInit => exact absurd rfl op_ne
    | setAdvData | setScanRspData | setPeriodAdvData | start | stop | delete => cases creates
  | @create indicated cmd known others there absent =>
    have initing := @initing_initingIndex activityMax connectionMax env.idx known
    cases creates
    refine ⟨?_, ?_⟩
    · rw [owned, absent first]
      rfl
    unfold gapmActivityCreatedInd
    dsimp only
    rw [if_pos ⟨initing, rfl⟩, initingIndex, Nat.add_sub_cancel]
    refine ⟨⟨owned_storeConn env env.idx number .created, ?_⟩, rfl, .create cmd known ?_ ?_ nofun⟩
    · funext other
      cases other <;> rfl
    · intro con differs
      have differs : con ≠ env.idx := differs
      simpa [setInit, differs] using others con differs
    · intro _
      simp [setInit, InitState.kind]
  | conn known settled stage named =>
    rcases stage with ⟨rfl, -⟩ | ⟨rfl, -⟩ | ⟨rfl, -⟩ <;> cases creates

/-! ## Calls -/

/-- What a call can do: nothing, end what it had begun, or send a message that waits. -/
inductive CallEffect (activityMax connectionMax : Nat) (env : AppEnv P) (done : Called P) : Prop
  | refused (same : done.env = env) (sent : done.sent = [])
  | ready (before : env.status = .ready) (after : done.env.status = .ready ∨ done.env.status = .cmdRunning)
    (kept : env.Kept done.env) (follows : Follows activityMax connectionMax done.env done.sent)

theorem called_runStep_effect {idx : Nat} {cmd : BleCmd} {callback : Bool} {mask : UInt32}
    {first : BleErr × Option GapmCmd} {kept : AppEnv P} (ready : env.status = .ready) (same : env.Kept kept)
    (connections : kept.connections = env.connections) (settled : env.Settled)
    (follows : Follows activityMax connectionMax (kept.appBleRun idx cmd mask callback) first.2.toList)
    (failed : first.1 ≠ .success → first.2 = none) :
    CallEffect activityMax connectionMax env (kept.runStep idx cmd mask callback first) := by
  unfold runStep
  split
  · exact .ready ready (.inr rfl) ⟨same.owned, same.count⟩ follows
  next failure =>
    refine .ready ready (.inl rfl) ⟨same.owned, same.count⟩ ?_
    rw [failed failure]
    refine .quiet ?_
    change kept.Settled
    rw [Settled, connections]
    exact settled

theorem request_failed {idx : Nat} {fit : ActvState → Bool} {op : GapmOp} {actvIdx : Option UInt8} {memory : Bool}
    (failed : (env.request activityMax idx fit op actvIdx memory).1 ≠ .success) :
    (env.request activityMax idx fit op actvIdx memory).2 = none := by
  rcases @request_spec _ activityMax env idx fit op actvIdx memory with ⟨-, -, -, sent⟩ | ⟨-, -, none⟩
  · rw [sent] at failed
    exact absurd rfl failed
  · exact none

/-- A call whose first step names the activity. -/
theorem effect_step {idx : Nat} {cmd : BleCmd} {callback memory : Bool} {mask : UInt32} {kind : ActvType}
    {fit : ActvState → Bool} {op : GapmOp} (ready : env.status = .ready) (settled : env.Settled)
    (kinds : cmd.kind = some kind) (user : kind ≠ .init) (op_ne : op ≠ .createInit) (naming : op.creates = none)
    (fits : ∀ state, fit state = true → state.kind = some kind) :
    CallEffect activityMax connectionMax env
      (env.runStep idx cmd mask callback (env.request activityMax idx fit op (env.gap idx) memory)) :=
  called_runStep_effect ready (.refl env) rfl settled
    (@follows_request P activityMax connectionMax (env.appBleRun idx cmd mask callback) fit op kind memory rfl settled op_ne
      naming kinds user fits)
    request_failed

/-- A call whose first step is a creation. -/
theorem effect_create {idx : Nat} {cmd : BleCmd} {callback memory : Bool} {mask : UInt32} {kept : AppEnv P}
    {fit : ActvState → Bool} {op : GapmOp} (ready : env.status = .ready) (same : env.Kept kept)
    (connections : kept.connections = env.connections) (settled : env.Settled) (user : cmd.kind ≠ some .init)
    (op_ne : op ≠ .createInit) (naming : op.creates ≠ none) :
    CallEffect activityMax connectionMax env
      (kept.runStep idx cmd mask callback (kept.request activityMax idx fit op none memory)) := by
  have settledKept : kept.Settled := by
    rw [Settled, connections]
    exact settled
  exact called_runStep_effect ready same connections settled
    (@follows_create P activityMax connectionMax (kept.appBleRun idx cmd mask callback) fit op memory rfl settledKept user
      op_ne naming)
    request_failed

theorem kept_param (env : AppEnv P) (idx : Nat) (param : P) :
    env.Kept { env with actvs := Function.update env.actvs idx { env.actvs idx with param := param } } := by
  refine ⟨?_, rfl⟩
  funext owner
  cases owner with
  | actv other =>
    by_cases same : other = idx
    · subst same
      simp [owned]
    · simp [owned, same]
  | conn con => rfl

theorem effect_single {idx : Nat} {cmd : BleCmd} {callback : Bool} {pos : Nat} {first : BleErr × Option GapmCmd}
    (accepted : env.status = .ready →
      CallEffect activityMax connectionMax env (env.runStep idx cmd (bit pos) callback first)) :
    CallEffect activityMax connectionMax env (env.single idx cmd pos callback first) := by
  unfold single
  split
  next ready => exact accepted ready
  · exact .refused rfl rfl

theorem per_sync_of_created (state : ActvState) (fit : decide (state = .perSyncCreated) = true) :
    state.kind = some .perSync := by
  cases of_decide_eq_true fit
  rfl

theorem per_sync_of_started (state : ActvState) (fit : decide (state = .perSyncStarted) = true) :
    state.kind = some .perSync := by
  cases of_decide_eq_true fit
  rfl

theorem adv_of_started (state : ActvState) (fit : decide (state = .advStarted) = true) : state.kind = some .adv := by
  cases of_decide_eq_true fit
  rfl

theorem scan_of_started (state : ActvState) (fit : decide (state = .scanStarted) = true) : state.kind = some .scan := by
  cases of_decide_eq_true fit
  rfl

/-- A step for a connection fails and does nothing, or sends a message that waits. -/
def ConnStep (activityMax connectionMax : Nat) (running : AppEnv P) (done : BleErr × AppEnv P × Option GapmCmd) :
    Prop :=
  (done.1 ≠ .success ∧ done.2 = (running, none)) ∨
    ∃ cmd, done.1 = .success ∧ done.2.2 = some cmd ∧ running.Kept done.2.1 ∧ done.2.1.status = running.status ∧
      Awaits activityMax connectionMax done.2.1 (done.2.1.pending activityMax connectionMax cmd)

/-- A call for a connection. -/
theorem effect_conn {con : Nat} {cmd : BleCmd} {callback : Bool} {pos : Nat} {failure : BleErr → BleErr}
    {step : AppEnv P → BleErr × AppEnv P × Option GapmCmd} (settled : env.status = .ready → env.Settled)
    (spec : env.status = .ready →
      ConnStep activityMax connectionMax (env.appBleRun con cmd (bit pos) callback)
        (step (env.appBleRun con cmd (bit pos) callback))) :
    CallEffect activityMax connectionMax env (env.singleConn con cmd pos callback failure step) := by
  unfold singleConn
  split
  next ready =>
    dsimp only
    rcases spec ready with ⟨failed, unchanged⟩ | ⟨cmd, success, sent, kept, status, awaits⟩
    · rw [if_neg failed, unchanged]
      exact .ready ready (.inl rfl) ⟨rfl, rfl⟩ (.quiet (settled ready))
    · rw [if_pos success]
      refine .ready ready (.inr status) ⟨kept.owned, kept.count⟩ ?_
      dsimp only
      rw [sent]
      exact .sends status awaits
  · exact .refused rfl rfl

/-- The number that appm_delete_initing sends is the connection's own. -/
def Call.Own (connectionMax : Nat) (env : AppEnv P) (memory : Bool) : Call P → Prop
  | deleteInit con _ =>
    env.status = .ready → con < connectionMax → (env.connections con).initState = .created → memory = true →
      (env.actvs con).gapAdvtIdx = (env.connections con).gapActvIdx
  | _ => True

theorem createIniting_step (settled : env.Settled) (cmd : env.cmd = .initCreate) :
    ConnStep activityMax connectionMax env (env.appmCreateIniting activityMax connectionMax env.idx) := by
  unfold appmCreateIniting
  split
  · exact .inl ⟨nofun, rfl⟩
  next known =>
    split
    next idle =>
      refine .inr ⟨_, rfl, rfl, (kept_setConnOps env env.idx _).trans (kept_setInit ?_), rfl, ?_⟩
      · simp [setConnOps, idle, InitState.kind]
      · refine (@pending_conn P activityMax connectionMax _ (Nat.lt_of_not_le known) _ none).symm ▸ ?_
        refine .create cmd (Nat.lt_of_not_le known) ?_ nofun ?_
        · intro con differs
          have differs : con ≠ env.idx := differs
          simpa [setInit, setConnOps, differs] using settled con
        · intro _
          simp [setInit, setConnOps]
    · exact .inl ⟨nofun, rfl⟩

theorem startConnecting_step (settled : env.Settled) (cmd : env.cmd = .initStartConn) :
    ConnStep activityMax connectionMax env (env.appmStartConnecting activityMax connectionMax env.idx) := by
  unfold appmStartConnecting
  split
  · exact .inl ⟨nofun, rfl⟩
  next known =>
    split
    next created =>
      have kept : env.Kept ((env.setInit env.idx .waitConectting).setConnOps env.idx (bit opInitStartPos)) :=
        (kept_setInit (by rw [created]; rfl)).trans (kept_setConnOps _ _ _)
      refine .inr ⟨_, rfl, rfl, kept, rfl, ?_⟩
      refine (@pending_conn P activityMax connectionMax _ (Nat.lt_of_not_le known) _ (some _)).symm ▸ ?_
      refine .conn (Nat.lt_of_not_le known) ?_ (.inl ⟨rfl, cmd⟩) ?_
      · exact settled_setConnOps (settled_setInit (fun other _ => settled other) (by decide))
      · rw [kept.owned]
        exact @owned_conn P env env.idx .init (by rw [created]; rfl)
    · exact .inl ⟨nofun, rfl⟩

theorem stopConnencting_step (settled : env.Settled) (cmd : env.cmd = .initStopConn) :
    ConnStep activityMax connectionMax env (env.appmStopConnencting activityMax connectionMax env.idx) := by
  unfold appmStopConnencting
  split
  · exact .inl ⟨nofun, rfl⟩
  next known =>
    split
    next conectting =>
      have kept : env.Kept ((env.setConnOps env.idx (bit opInitStopPos)).setInit env.idx .stopping) := by
        refine (kept_setConnOps _ _ _).trans (kept_setInit ?_)
        simp [setConnOps, conectting, InitState.kind]
      refine .inr ⟨_, rfl, rfl, kept, rfl, ?_⟩
      refine (@pending_conn P activityMax connectionMax _ (Nat.lt_of_not_le known) _ (some _)).symm ▸ ?_
      refine .conn (Nat.lt_of_not_le known) ?_ (.inr (.inl ⟨rfl, cmd⟩)) ?_
      · exact settled_setInit (fun other _ => settled_setConnOps settled other) (by decide)
      · rw [kept.owned]
        exact @owned_conn P env env.idx .init (by rw [conectting]; rfl)
    · exact .inl ⟨nofun, rfl⟩

theorem deleteIniting_step (settled : env.Settled) (cmd : env.cmd = .initDelete) {memory : Bool}
    (own : env.idx < connectionMax → (env.connections env.idx).initState = .created → memory = true →
      (env.actvs env.idx).gapAdvtIdx = (env.connections env.idx).gapActvIdx) :
    ConnStep activityMax connectionMax env (env.appmDeleteIniting activityMax connectionMax env.idx memory) := by
  unfold appmDeleteIniting
  split
  · exact .inl ⟨nofun, rfl⟩
  next known =>
    split
    next created =>
      cases memory with
      | false => exact .inl ⟨nofun, rfl⟩
      | true =>
        refine .inr ⟨_, rfl, rfl, .refl env, rfl, ?_⟩
        refine (@pending_conn P activityMax connectionMax _ (Nat.lt_of_not_le known) _ (some _)).symm ▸ ?_
        refine .conn (Nat.lt_of_not_le known) settled (.inr (.inr ⟨rfl, cmd⟩)) ?_
        rw [own (Nat.lt_of_not_le known) created rfl]
        exact @owned_conn P env env.idx .init (by rw [created]; rfl)
    · exact .inl ⟨nofun, rfl⟩

theorem perform_effect (settled : env.status = .ready → env.Settled) (call : Call P) (memory : Bool)
    (own : call.Own connectionMax env memory) :
    CallEffect activityMax connectionMax env (call.perform activityMax connectionMax env memory) := by
  have refused (err : BleErr) : CallEffect activityMax connectionMax env ⟨err, env, []⟩ := .refused rfl rfl
  cases call with
  | advStart idx copy callback =>
    unfold Call.perform bkBleAdvStart
    dsimp only
    split
    next ready =>
      split
      · exact effect_create ready (kept_param env idx _) rfl (settled ready) nofun nofun nofun
      · exact refused _
    · exact refused _
  | scanStart idx copy callback =>
    unfold Call.perform bkBleScanStart
    dsimp only
    split
    next ready =>
      split
      · exact effect_create ready (kept_param env idx _) rfl (settled ready) nofun nofun nofun
      · exact refused _
    · exact refused _
  | advStop idx callback =>
    unfold Call.perform bkBleAdvStop
    dsimp only
    split
    next ready =>
      split
      · exact effect_step ready (settled ready) rfl nofun nofun rfl adv_of_started
      · exact refused _
    · exact refused _
  | scanStop idx callback =>
    unfold Call.perform bkBleScanStop
    dsimp only
    split
    next ready =>
      split
      · exact effect_step ready (settled ready) rfl nofun nofun rfl scan_of_started
      · exact refused _
    · exact refused _
  | createAdvertising idx callback | createPeriodicAdvertising idx callback | createScaning idx callback
  | createPeriodicSync idx callback =>
    exact effect_single fun ready => effect_create ready (.refl env) rfl (settled ready) nofun nofun nofun
  | createExtendedAdvertising idx scannable connectable callback =>
    unfold Call.perform bkBleCreateExtendedAdvertising
    dsimp only
    split
    · exact refused _
    · exact effect_single fun ready => effect_create ready (.refl env) rfl (settled ready) nofun nofun nofun
  | startAdvertising idx callback | deleteAdvertising idx callback =>
    exact effect_single fun ready => effect_step ready (settled ready) rfl nofun nofun rfl adv_of_created
  | startPeriodicAdvertising idx callback =>
    unfold Call.perform bkBleStartPeriodicAdvertising
    dsimp only
    split
    · exact refused _
    · exact effect_single fun ready => effect_step ready (settled ready) rfl nofun nofun rfl adv_of_created
  | stopAdvertising idx callback =>
    exact effect_single fun ready => effect_step ready (settled ready) rfl nofun nofun rfl adv_of_started
  | setAdvData lenMax idx advLen callback =>
    unfold Call.perform bkBleSetAdvData
    dsimp only
    split
    · exact refused _
    · exact effect_single fun ready => effect_step ready (settled ready) rfl nofun nofun rfl adv_of_there
  | setScanRspData lenMax idx scanLen callback =>
    unfold Call.perform bkBleSetScanRspData
    dsimp only
    split
    · exact refused _
    · exact effect_single fun ready => effect_step ready (settled ready) rfl nofun nofun rfl adv_of_there
  | setPeriodicAdvData idx callback =>
    exact effect_single fun ready => effect_step ready (settled ready) rfl nofun nofun rfl adv_of_there
  | startScaning idx callback | deleteScaning idx callback =>
    exact effect_single fun ready => effect_step ready (settled ready) rfl nofun nofun rfl scan_of_created
  | stopScaning idx callback =>
    exact effect_single fun ready => effect_step ready (settled ready) rfl nofun nofun rfl scan_of_started
  | startPeriodicSync idx callback | deletePeriodicSync idx callback =>
    exact effect_single fun ready => effect_step ready (settled ready) rfl nofun nofun rfl per_sync_of_created
  | stopPeriodicSync idx callback =>
    exact effect_single fun ready => effect_step ready (settled ready) rfl nofun nofun rfl per_sync_of_started
  | createInit con callback =>
    unfold Call.perform bkBleCreateInit
    refine effect_conn settled fun ready => ?_
    exact @createIniting_step P activityMax connectionMax (env.appBleRun con .initCreate (bit opCreateInitPos) callback)
      (settled ready) rfl
  | initStartConn con callback =>
    unfold Call.perform bkBleInitStartConn
    refine effect_conn settled fun ready => ?_
    exact @startConnecting_step P activityMax connectionMax (env.appBleRun con .initStartConn (bit opInitStartPos) callback)
      (settled ready) rfl
  | initStopConn con callback =>
    unfold Call.perform bkBleInitStopConn
    refine effect_conn settled fun ready => ?_
    exact @stopConnencting_step P activityMax connectionMax (env.appBleRun con .initStopConn (bit opInitStopPos) callback)
      (settled ready) rfl
  | deleteInit con callback =>
    unfold Call.perform bkBleDeleteInit
    refine effect_conn settled fun ready => ?_
    exact @deleteIniting_step P activityMax connectionMax (env.appBleRun con .initDelete (bit opInitDelPos) callback)
      (settled ready) rfl memory (own ready)

end BekenSdk.BleApp
