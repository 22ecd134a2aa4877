import BekenSdk.Base.Arena
import BekenSdk.Base.Machine

/-! The role launcher: the socket that requests are left in, the two timer
handlers, and the calls that tasks and the driver make at any moment. A pointer
to a launch entity is the number of a block. The handlers run in the timer task
one after the other; `Gap` names the places where other tasks get in between.
-/

set_option autoImplicit false

namespace BekenSdk.RoleLaunch
open BekenSdk.Base

/-! ## Data -/

inductive Role where
  | sta | ap
  deriving DecidableEq, Repr

def Role.other : Role → Role
  | .sta => .ap
  | .ap => .sta

inductive LaunchReqType where
  | sta | ap | pureStaScan | delifSta | delifAp
  | unknown (code : UInt32)
  deriving DecidableEq, Repr

/-- The descriptor is handed to the driver unread. -/
structure LaunchReq (δ : Type) where
  descr : δ
  reqType : LaunchReqType
  deriving DecidableEq

inductive LaunchType where
  | asap | reconn
  deriving DecidableEq, Repr

inductive LaunchStatus where
  | statusOver | statusCont
  deriving DecidableEq, Repr

inductive PreEntityType where
  | idle | sta | ap | mesh
  deriving DecidableEq, Repr

def PreEntityType.ofRole : Role → PreEntityType
  | .sta => .sta
  | .ap => .ap

structure RlEntity (δ : Type) where
  launchType : LaunchType
  relaunchLimit : UInt32
  launchCount : UInt32
  rlaunch : LaunchReq δ
  completionCb : Nat
  deriving DecidableEq

/-- A request with its flag up; `completion` is the address of the callback. -/
structure Request (δ : Type) where
  param : LaunchReq δ
  completion : Nat
  deriving DecidableEq

structure RlSocket (δ : Type) where
  sta : Option (Request δ)
  ap : Option (Request δ)
  deriving DecidableEq

/-- What the launcher did: it told the driver to start a launch, or found the
last one it had started complete. -/
inductive Milestone where
  | started (role : Role)
  | completed (role : Role)
  deriving DecidableEq, Repr

def rlStatusCancel : UInt32 := 0x8000

def rlStatusUnknown : UInt32 := 0
def rlStatusStaIniting : UInt32 := 1
def rlStatusStaScanning : UInt32 := 2
def rlStatusStaScanOver : UInt32 := 3
def rlStatusStaConnecting : UInt32 := 4
def rlStatusStaDhcping : UInt32 := 5
def rlStatusMroleChannelSwitching : UInt32 := 6
def rlStatusMroleChannelSwitched : UInt32 := 7
def rlStatusStaLaunched : UInt32 := 9
def rlStatusStaLaunchFailed : UInt32 := 10
def rlStatusApTransmittedBcn : UInt32 := 0x14
def rlStatusApLaunched : UInt32 := 0x15

def rlPrivStatusMask : UInt32 := 0x00FF0000
def rlPrivStatusStaAdv : UInt32 := 0x00010000
def rlPrivStatusStaAdvRdy : UInt32 := 0x00020000
def rlStStatusMask : UInt32 := 0xFF000000
def rlStStatusRestartHold : UInt32 := 0x01000000
def rlStStatusRestartSt : UInt32 := 0x02000000
def rlStaStateMask : UInt32 := rlStStatusRestartHold ||| rlStStatusRestartSt
def rlStaStateHold : UInt32 := rlStStatusRestartHold
def rlStatusPending : UInt32 := 1
def rlStatusDoing : UInt32 := 2
def rlStatusPause : UInt32 := 0x80
def rlStatusMask : UInt32 := rlStatusPause

/-- `g_role_launch`, `g_mrole_csa_flag`, `g_rl_socket` and `g_sta_cache`, with
the heap the entities live in. Of a timer only whether it runs is kept. -/
structure Launcher (δ : Type) where
  enterTimer : Bool
  rlTimer : Bool
  rlStatus : UInt32
  preEntityType : PreEntityType
  preStaCancel : UInt32
  preStaStatus : UInt32
  preApCancel : UInt32
  preApStatus : UInt32
  jlPreviousSta : Option Nat
  jlFollowingSta : Option Nat
  jlPreviousAp : Option Nat
  jlFollowingAp : Option Nat
  mroleCsaFlag : UInt32
  socket : RlSocket δ
  staCache : Option (Request δ)
  entities : Arena (RlEntity δ)
  history : List Milestone

/-- After `rl_init`: everything is zero and both timers exist. -/
def Launcher.boot {δ : Type} (memory : Nat → RlEntity δ) : Launcher δ where
  enterTimer := false
  rlTimer := false
  rlStatus := 0
  preEntityType := .idle
  preStaCancel := 0
  preStaStatus := 0
  preApCancel := 0
  preApStatus := 0
  jlPreviousSta := none
  jlFollowingSta := none
  jlPreviousAp := none
  jlFollowingAp := none
  mroleCsaFlag := 0
  socket := ⟨none, none⟩
  staCache := none
  entities := Arena.empty memory
  history := []

namespace Launcher
variable {δ : Type}

def previous (s : Launcher δ) : Role → Option Nat
  | .sta => s.jlPreviousSta
  | .ap => s.jlPreviousAp

def following (s : Launcher δ) : Role → Option Nat
  | .sta => s.jlFollowingSta
  | .ap => s.jlFollowingAp

def setPrevious (role : Role) (entity : Option Nat) (s : Launcher δ) : Launcher δ :=
  match role with
  | .sta => { s with jlPreviousSta := entity }
  | .ap => { s with jlPreviousAp := entity }

def setFollowing (role : Role) (entity : Option Nat) (s : Launcher δ) : Launcher δ :=
  match role with
  | .sta => { s with jlFollowingSta := entity }
  | .ap => { s with jlFollowingAp := entity }

def setBits (bits : UInt32) (s : Launcher δ) : Launcher δ := { s with rlStatus := s.rlStatus ||| bits }

def resetBits (bits : UInt32) (s : Launcher δ) : Launcher δ := { s with rlStatus := s.rlStatus &&& ~~~bits }

def Paused (s : Launcher δ) : Prop := s.rlStatus &&& rlStatusMask ≠ 0

instance (s : Launcher δ) : Decidable s.Paused := inferInstanceAs (Decidable (_ ≠ _))

/-- The station is being restarted; its requests wait. -/
def Held (s : Launcher δ) : Prop := s.rlStatus &&& rlStaStateMask = rlStaStateHold

instance (s : Launcher δ) : Decidable s.Held := inferInstanceAs (Decidable (_ = _))

/-- Only station requests look at the hold. -/
def Accepts (role : Role) (s : Launcher δ) : Prop := role = .sta → ¬s.Held

instance (role : Role) (s : Launcher δ) : Decidable (s.Accepts role) := inferInstanceAs (Decidable (_ → _))

/-! ## Entities and timers -/

def rlFreeEntity (entity : Nat) (s : Launcher δ) : Launcher δ := { s with entities := s.entities.free entity }

/-- The launcher goes through a pointer. -/
def access (entity : Nat) (s : Launcher δ) : Launcher δ := { s with entities := s.entities.access entity }

def rlAllocEntity (param : LaunchReq δ) (completion : Nat) (s : Launcher δ) : Nat × Launcher δ :=
  let entity : RlEntity δ :=
    { launchType := .asap, relaunchLimit := 0, launchCount := 0, rlaunch := param, completionCb := completion }
  (s.entities.count, { s with entities := s.entities.alloc entity })

def rlStart (s : Launcher δ) : Launcher δ := { s with rlTimer := true }

def rlRelaunchChance (s : Launcher δ) : Launcher δ := { s with rlTimer := true }

/-! ## Status and cancel -/

def rlPreStaSetStatus (status : UInt32) (s : Launcher δ) : UInt32 × Launcher δ :=
  if status = rlStatusStaScanning ∧ s.preStaStatus ≠ rlStatusStaIniting ∧
      s.preStaStatus ≠ rlStatusStaScanOver then
    (6, s)
  else if status = rlStatusStaScanning ∧ s.preStaCancel ≠ 0 then
    (8, s)
  else
    (s.preStaCancel, { s with preStaStatus := status })

def rlPreApSetStatus (status : UInt32) (s : Launcher δ) : UInt32 × Launcher δ :=
  (s.preApCancel, { s with preApStatus := if s.preApCancel ≠ 0 then status + rlStatusCancel else status })

def rlPreStaSetCancel (s : Launcher δ) : Launcher δ := { s with preStaCancel := 1 }

def rlPreStaClearCancel (s : Launcher δ) : Launcher δ := { s with preStaCancel := 0 }

def rlPreApSetCancel (s : Launcher δ) : Launcher δ := { s with preApCancel := 1 }

def rlPreApClearCancel (s : Launcher δ) : Launcher δ := { s with preApCancel := 0 }

def setCancel : Role → Launcher δ → Launcher δ
  | .sta => rlPreStaSetCancel
  | .ap => rlPreApSetCancel

def rlPreStaInit (s : Launcher δ) : Launcher δ := { s with preStaCancel := 0, preStaStatus := 0 }

def rlPreApInit (s : Launcher δ) : Launcher δ := { s with preApCancel := 0, preApStatus := 0 }

def rlInitCsaStatus (s : Launcher δ) : Launcher δ := { s with mroleCsaFlag := 0 }

/-- Refused while either role is being cancelled. -/
def rlSetCsaSwitching (s : Launcher δ) : UInt32 × Launcher δ :=
  if s.preStaCancel ≠ 0 ∨ s.preApCancel ≠ 0 then (1, s)
  else (0, { s with mroleCsaFlag := rlStatusMroleChannelSwitching })

def rlSetCsaSwitched (s : Launcher δ) : Launcher δ := { s with mroleCsaFlag := rlStatusMroleChannelSwitched }

def rlStatusSetPause (en : Bool) (s : Launcher δ) : Launcher δ :=
  if en then s.setBits rlStatusPause else s.resetBits rlStatusPause

def rlStatusSetPrivateState (st : UInt32) (s : Launcher δ) : Launcher δ := s.setBits (st &&& rlPrivStatusMask)

def rlStatusResetPrivateState (st : UInt32) (s : Launcher δ) : Launcher δ := s.resetBits (st &&& rlPrivStatusMask)

def rlStatusSetStState (st : UInt32) (s : Launcher δ) : Launcher δ := s.setBits (st &&& rlStStatusMask)

def rlStatusResetStState (st : UInt32) (s : Launcher δ) : Launcher δ := s.resetBits (st &&& rlStStatusMask)

/-! ## Leaving a request -/

def rlStaRequestEnterHandle (param : LaunchReq δ) (completion : Nat) (s : Launcher δ) : Launcher δ :=
  { s with socket := { s.socket with sta := some ⟨param, completion⟩ }, enterTimer := true }

def rlStaRequestEnter (param : LaunchReq δ) (completion : Nat) (s : Launcher δ) : Launcher δ :=
  (s.rlStatusResetStState rlStStatusRestartHold).rlStaRequestEnterHandle param completion

def rlApRequestEnter (param : LaunchReq δ) (completion : Nat) (s : Launcher δ) : Launcher δ :=
  { s with socket := { s.socket with ap := some ⟨param, completion⟩ }, enterTimer := true }

def rlStaAdvRegisterCacheStation (lreq : LaunchReq δ) (s : Launcher δ) : Launcher δ :=
  { s with staCache := some ⟨lreq, 0⟩ }

/-- What a disconnection does: the cached station request is entered again, or
else an advanced station is taken down. -/
def rlStaCacheRequestEnter [Inhabited δ] (monitorMode : Bool) (s : Launcher δ) : UInt32 × Launcher δ :=
  let advReady := s.rlStatus &&& rlPrivStatusStaAdvRdy ≠ 0
  let adv := s.rlStatus &&& rlPrivStatusStaAdv ≠ 0
  let unready := if adv then s.rlStatusResetPrivateState rlPrivStatusStaAdv else s
  match s.staCache.filter fun _ => !monitorMode ∧ ¬advReady ∧ ¬s.Held with
  | some cached =>
    (1, { unready.rlStaRequestEnterHandle cached.param cached.completion with staCache := none })
  | none =>
    if adv ∧ ¬advReady then
      (0, { unready.rlStaRequestEnter ⟨default, .delifSta⟩ 0 with staCache := none })
    else
      (0, { s with staCache := none })

end Launcher

/-! ## Calls from outside -/

/-- A call another task or the driver makes. -/
inductive Post (δ : Type) where
  | staRequestEnter (param : LaunchReq δ) (completion : Nat)
  | apRequestEnter (param : LaunchReq δ) (completion : Nat)
  | staCacheRequestEnter (monitorMode : Bool)
  | staAdvRegisterCacheStation (lreq : LaunchReq δ)
  | preStaSetStatus (status : UInt32)
  | preApSetStatus (status : UInt32)
  | preStaSetCancel
  | preStaClearCancel
  | preApSetCancel
  | preApClearCancel
  | initCsaStatus
  | setCsaSwitching
  | setCsaSwitched
  | statusSetPause (en : Bool)
  | statusSetPrivateState (st : UInt32)
  | statusResetPrivateState (st : UInt32)
  | statusSetStState (st : UInt32)
  | statusResetStState (st : UInt32)

/-- Where other tasks get in while a handler runs: before it judges the last
launch of a role, before it reads the status mask, and while the driver starts. -/
inductive Gap where
  | verdict (role : Role)
  | mask (role : Role)
  | start (role : Role)
  | enterMask
  | enter (role : Role)
  deriving DecidableEq, Repr

/-- Which of the allocations of one enter succeed. -/
structure Memory where
  buffer : Bool
  entity : Role → Bool

abbrev Interleaving (δ : Type) := Gap → List (Post δ)

namespace Launcher
variable {δ : Type} [Inhabited δ]

def post (s : Launcher δ) : Post δ → Launcher δ
  | .staRequestEnter param completion => s.rlStaRequestEnter param completion
  | .apRequestEnter param completion => s.rlApRequestEnter param completion
  | .staCacheRequestEnter monitorMode => (s.rlStaCacheRequestEnter monitorMode).2
  | .staAdvRegisterCacheStation lreq => s.rlStaAdvRegisterCacheStation lreq
  | .preStaSetStatus status => (s.rlPreStaSetStatus status).2
  | .preApSetStatus status => (s.rlPreApSetStatus status).2
  | .preStaSetCancel => s.rlPreStaSetCancel
  | .preStaClearCancel => s.rlPreStaClearCancel
  | .preApSetCancel => s.rlPreApSetCancel
  | .preApClearCancel => s.rlPreApClearCancel
  | .initCsaStatus => s.rlInitCsaStatus
  | .setCsaSwitching => s.rlSetCsaSwitching.2
  | .setCsaSwitched => s.rlSetCsaSwitched
  | .statusSetPause en => s.rlStatusSetPause en
  | .statusSetPrivateState st => s.rlStatusSetPrivateState st
  | .statusResetPrivateState st => s.rlStatusResetPrivateState st
  | .statusSetStState st => s.rlStatusSetStState st
  | .statusResetStState st => s.rlStatusResetStState st

def posts (s : Launcher δ) (calls : List (Post δ)) : Launcher δ := calls.foldl post s

/-! ## Starting a request -/

/-- The driver calls back while it starts; those calls are in the gap. -/
def rlStaRequestStart (req : LaunchReq δ) (gap : Interleaving δ) (s : Launcher δ) : Launcher δ :=
  let s := { s with history := .started .sta :: s.history }
  match req.reqType with
  | .sta => s.rlPreStaInit.posts (gap (.start .sta))
  | .pureStaScan => s.rlPreStaInit.posts (gap (.start .sta))
  | .delifSta => s.posts (gap (.start .sta))
  | _ => s

def rlApRequestStart (req : LaunchReq δ) (gap : Interleaving δ) (s : Launcher δ) : Launcher δ :=
  let s := { s with history := .started .ap :: s.history }
  match req.reqType with
  | .ap => s.rlPreApInit.posts (gap (.start .ap))
  | .delifAp => s.posts (gap (.start .ap))
  | _ => s

def requestStart : Role → LaunchReq δ → Interleaving δ → Launcher δ → Launcher δ
  | .sta => rlStaRequestStart
  | .ap => rlApRequestStart

/-- `rl_launch_ap` clears the status before it starts; `rl_launch_sta` does not. -/
def launchStart (role : Role) (entity : Nat) (gap : Interleaving δ) (s : Launcher δ) : Launcher δ :=
  let s := match role with
    | .sta => s
    | .ap => s.rlPreApInit
  requestStart role (s.entities.content entity).rlaunch gap (s.access entity)

/-! ## The launch timer -/

def rlStaMayNextLaunch (s : Launcher δ) : UInt32 :=
  let yes : UInt32 :=
    if s.mroleCsaFlag = rlStatusMroleChannelSwitched then 1
    else if s.preStaCancel ≠ 0 ∧ (s.preStaStatus = rlStatusStaDhcping ∨ s.preStaStatus = rlStatusStaIniting ∨
        s.preStaStatus = rlStatusStaScanOver ∨ s.preStaStatus = rlStatusStaConnecting) then 2
    else if s.preStaStatus = rlStatusStaLaunchFailed then 3
    else if s.preStaStatus = rlStatusStaLaunched then 4
    else 0
  if s.mroleCsaFlag = rlStatusMroleChannelSwitching then 0 else yes

def rlApMayNextLaunch (preCancel : Bool) (s : Launcher δ) : UInt32 :=
  if !preCancel then 1
  else if s.mroleCsaFlag = rlStatusMroleChannelSwitching then 0
  else if s.preApStatus = rlStatusApTransmittedBcn + rlStatusCancel ∨
      s.preApStatus &&& ~~~rlStatusCancel = rlStatusApLaunched then 1
  else 0

def mayNextLaunch (role : Role) (preCancel : Bool) (s : Launcher δ) : UInt32 :=
  match role with
  | .sta => s.rlStaMayNextLaunch
  | .ap => s.rlApMayNextLaunch preCancel

/-- `rl_pre_sta_stop_launch` and `rl_pre_ap_stop_launch`, which do nothing. -/
def rlPreStopLaunch (role : Role) (s : Launcher δ) : Launcher δ :=
  { s with history := .completed role :: s.history }

/-- The last launch is cancelled when an urgent request waits behind it or it
has used up its relaunches. -/
def cancelPrevious (role : Role) (previous : Nat) (s : Launcher δ) : Bool × Launcher δ :=
  let urgent := match s.following role with
    | some entity => decide ((s.entities.content entity).launchType = .asap)
    | none => false
  let s := match s.following role with
    | some entity => s.access entity
    | none => s
  let before := s.entities.content previous
  let spent := decide (before.relaunchLimit ≠ 0 ∧ before.launchCount ≥ before.relaunchLimit)
  let s := s.access previous
  (urgent || spent, if urgent || spent then s.setCancel role else s)

/-- The end of both branches: the waiting entity becomes the launched one, or is
freed when the status mask forbids it. -/
def launchFollowing (role : Role) (gap : Interleaving δ) (s : Launcher δ) : LaunchStatus × Launcher δ :=
  let preEntity := s.following role
  let s := (s.setFollowing role none).posts (gap (.mask role))
  if ¬s.Paused ∧ s.Accepts role then
    let s := (s.setBits rlStatusDoing).setPrevious role preEntity
    match preEntity with
    | some entity => (.statusCont, (s.launchStart role entity gap).resetBits rlStatusDoing)
    | none => (.statusOver, s.resetBits rlStatusDoing)
  else
    match preEntity with
    | some entity => (.statusOver, (s.rlFreeEntity entity).setPrevious role none)
    | none => (.statusOver, s.setPrevious role none)

/-- `rl_launch_sta` and `rl_launch_ap`. -/
def launch (role : Role) (gap : Interleaving δ) (s : Launcher δ) : LaunchStatus × Launcher δ :=
  match s.previous role with
  | none =>
    match s.following role with
    | none => (.statusOver, s)
    | some _ => s.launchFollowing role gap
  | some previous =>
    let cancelled := s.cancelPrevious role previous
    let s := cancelled.2.posts (gap (.verdict role))
    if s.mayNextLaunch role cancelled.1 ≠ 0 then
      ((s.rlPreStopLaunch role).rlFreeEntity previous).launchFollowing role gap
    else
      (.statusCont, s)

def rlLaunchSta : Interleaving δ → Launcher δ → LaunchStatus × Launcher δ := launch .sta

def rlLaunchAp : Interleaving δ → Launcher δ → LaunchStatus × Launcher δ := launch .ap

/-- Both roles in the order given, the second when the first is over. -/
def launchTurn (first : Role) (gap : Interleaving δ) (s : Launcher δ) : Launcher δ :=
  let result := s.launch first gap
  if result.1 = .statusOver then
    let result := { result.2 with preEntityType := .ofRole first.other }.launch first.other gap
    if result.1 = .statusOver then result.2 else result.2.rlRelaunchChance
  else
    result.2.rlRelaunchChance

def rlLaunchHandler (gap : Interleaving δ) (s : Launcher δ) : Launcher δ :=
  match s.preEntityType with
  | .ap => s.launchTurn .ap gap
  | .sta => s.launchTurn .sta gap
  | .idle => s
  | .mesh => s

/-! ## The enter timer -/

/-- `_sta_request_enter` and `_ap_request_enter` between their status updates.
There is no result when the allocation fails: `rl_alloc_entity` asserts it. -/
def requestEnter (role : Role) (memory : Memory) (param : LaunchReq δ) (completion : Nat) (gap : Interleaving δ)
    (s : Launcher δ) : Option (UInt32 × Launcher δ) :=
  let named (s : Launcher δ) : Launcher δ :=
    if s.preEntityType = .idle then { s with preEntityType := .ofRole role } else s
  if s.jlPreviousAp = none ∧ s.jlPreviousSta = none ∧ s.Accepts role then
    if memory.entity role then
      let allocated := s.rlAllocEntity param completion
      some (1, named ((allocated.2.setPrevious role (some allocated.1)).requestStart role param gap))
    else
      none
  else if s.following role = none ∧ s.Accepts role then
    if memory.entity role then
      let allocated := s.rlAllocEntity param completion
      some (2, named (allocated.2.setFollowing role (some allocated.1)).rlStart)
    else
      none
  else
    some (0, s.rlStart)

def staRequestEnter (memory : Memory) (param : LaunchReq δ) (completion : Nat) (gap : Interleaving δ)
    (s : Launcher δ) : Option (UInt32 × Launcher δ) :=
  ((s.setBits rlStatusDoing).requestEnter .sta memory param completion gap).map fun (ret, s) =>
    (ret, s.resetBits rlStatusDoing)

/-- The access point leaves the status bits alone. -/
def apRequestEnter (memory : Memory) (param : LaunchReq δ) (completion : Nat) (gap : Interleaving δ)
    (s : Launcher δ) : Option (UInt32 × Launcher δ) :=
  s.requestEnter .ap memory param completion gap

/-- The station's half of the enter handler, with the cache it keeps. -/
def enterSta (hitSta : Option (Request δ)) (memory : Memory) (gap : Interleaving δ) (s : Launcher δ) :
    Option (Launcher δ) :=
  match hitSta with
  | none => some s
  | some request =>
    (s.staRequestEnter memory request.param request.completion gap).map fun (ret, s) =>
      if ret ≠ 0 ∧ request.param.reqType = .sta then { s with staCache := some request } else s

def enterAp (hitAp : Option (Request δ)) (memory : Memory) (gap : Interleaving δ) (s : Launcher δ) :
    Option (Launcher δ) :=
  match hitAp with
  | none => some s
  | some request => (s.apRequestEnter memory request.param request.completion gap).map Prod.snd

/-- Nothing is taken from the socket when there is no memory for a copy. -/
def rlEnterHandler (memory : Memory) (gap : Interleaving δ) (s : Launcher δ) : Option (Launcher δ) :=
  if memory.buffer then
    let taken := s.socket
    let s := { s with socket := ⟨none, none⟩ }.posts (gap .enterMask)
    if s.Paused then
      some s
    else
      let s := (s.setBits rlStatusPending).posts (gap (.enter .sta))
      (s.enterSta taken.sta memory gap).bind fun s =>
        ((s.posts (gap (.enter .ap))).enterAp taken.ap memory gap).map (·.resetBits rlStatusPending)
  else
    some s

end Launcher

/-! ## Events -/

inductive Event (δ : Type) where
  | post (call : Post δ)
  | enterExpiry (memory : Memory) (gap : Interleaving δ)
  | launchExpiry (gap : Interleaving δ)

/-- A timer expires only while it runs, and is then stopped. -/
def Launcher.step {δ : Type} [Inhabited δ] (s : Launcher δ) : Event δ → Option (Launcher δ)
  | .post call => some (s.post call)
  | .enterExpiry memory gap =>
    if s.enterTimer then { s with enterTimer := false }.rlEnterHandler memory gap else none
  | .launchExpiry gap =>
    if s.rlTimer then some ({ s with rlTimer := false }.rlLaunchHandler gap) else none

/-- One event, with the launcher it happens to. -/
structure Moment (δ : Type) where
  before : Launcher δ
  event : Event δ

section
variable {δ : Type} [Inhabited δ]

def Step (s : Launcher δ) (moment : Moment δ) (t : Launcher δ) : Prop :=
  moment.before = s ∧ s.step moment.event = some t

/-- The events one after the other, the latest first. -/
def Launcher.replay (s : Launcher δ) : List (Event δ) → Option (Launcher δ)
  | [] => some s
  | event :: earlier => (s.replay earlier).bind (·.step event)

theorem run_of_replay {s t : Launcher δ} {events : List (Event δ)} (replayed : s.replay events = some t) :
    ∃ moments, Run Step s moments t ∧ moments.map Moment.event = events := by
  induction events generalizing t with
  | nil =>
    obtain rfl := Option.some.inj replayed
    exact ⟨[], .nil, rfl⟩
  | cons event earlier ih =>
    obtain ⟨u, before, step⟩ := Option.bind_eq_some_iff.mp replayed
    obtain ⟨moments, run, same⟩ := ih before
    exact ⟨⟨u, event⟩ :: moments, .next run ⟨rfl, step⟩, by rw [List.map_cons, same]⟩

end

/-! ## Launches with nobody else about -/

/-- No other task gets in. -/
def undisturbed : Interleaving Unit := fun _ => []

def enterAll : Event Unit := .enterExpiry ⟨true, fun _ => true⟩ undisturbed

def requestSta : Event Unit := .post (.staRequestEnter ⟨(), .sta⟩ 0)

def requestAp : Event Unit := .post (.apRequestEnter ⟨(), .ap⟩ 0)

def idleLauncher : Launcher Unit := .boot fun _ => ⟨.asap, 0, 0, ⟨(), .sta⟩, 0⟩

/-- A station is launched, and a request for an access point waits. -/
def staThenAp : List (Event Unit) := [enterAll, requestAp, enterAll, requestSta]

/-- The station comes up, the access point is launched and complete, and the
turn is the station's. -/
def bothLaunched : List (Event Unit) :=
  [.launchExpiry undisturbed, .launchExpiry undisturbed, .post (.preStaSetStatus rlStatusStaLaunched)] ++ staThenAp

/-- An access point is started directly, and a station request waits for the timer. -/
def apThenSta : List (Event Unit) :=
  [.launchExpiry undisturbed, enterAll, requestSta, enterAll, requestAp] ++ bothLaunched

end BekenSdk.RoleLaunch
