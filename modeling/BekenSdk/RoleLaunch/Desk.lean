import BekenSdk.RoleLaunch.Launcher
import Mathlib.Logic.Relation

/-! What the launcher does to its entities, with every answer it gets from the
status words left open. The desk has one launched and one waiting entity a role;
each handler of the launcher is a few of its moves.
-/

set_option autoImplicit false

namespace BekenSdk.RoleLaunch
open BekenSdk.Base

theorem Role.other_ne (role : Role) : role.other ≠ role := by
  cases role <;> decide

structure Desk (α : Type) where
  previous : Role → Option Nat
  following : Role → Option Nat
  turn : PreEntityType
  entities : Arena α
  history : List Milestone

namespace Desk
variable {α : Type}

/-- The entities a role has a pointer to. -/
def held (role : Role) (d : Desk α) : List Nat := (d.previous role).toList ++ (d.following role).toList

def refs (d : Desk α) : List Nat := d.held .sta ++ d.held .ap

/-! ## Moves -/

def promote (role : Role) (allowed : Bool) (d : Desk α) : LaunchStatus × Desk α :=
  let taken := { d with following := Function.update d.following role none }
  match allowed, d.following role with
  | true, some entity =>
    (.statusCont, { taken with
      previous := Function.update d.previous role (some entity)
      entities := d.entities.access entity
      history := .started role :: d.history })
  | false, some entity =>
    (.statusOver, { taken with
      previous := Function.update d.previous role none
      entities := d.entities.free entity })
  | _, none => (.statusOver, { taken with previous := Function.update d.previous role none })

/-- The two entities of a role are read. -/
def consult (role : Role) (previous : Nat) (d : Desk α) : Desk α :=
  match d.following role with
  | some entity => { d with entities := (d.entities.access entity).access previous }
  | none => { d with entities := d.entities.access previous }

def retire (role : Role) (previous : Nat) (d : Desk α) : Desk α :=
  { d with entities := d.entities.free previous, history := .completed role :: d.history }

/-- One role's turn: whether its last launch is done, and whether another may start. -/
def launch (role : Role) (done allowed : Bool) (d : Desk α) : LaunchStatus × Desk α :=
  match d.previous role with
  | none => if d.following role = none then (.statusOver, d) else d.promote role allowed
  | some previous =>
    if done then ((d.consult role previous).retire role previous).promote role allowed
    else (.statusCont, d.consult role previous)

def launchTurn (first : Role) (done allowed : Role → Bool) (d : Desk α) : Desk α :=
  let result := d.launch first (done first) (allowed first)
  if result.1 = .statusOver then
    ({ result.2 with turn := .ofRole first.other }.launch first.other (done first.other) (allowed first.other)).2
  else
    result.2

def tick (done allowed : Role → Bool) (d : Desk α) : Desk α :=
  match d.turn with
  | .ap => d.launchTurn .ap done allowed
  | .sta => d.launchTurn .sta done allowed
  | .idle => d
  | .mesh => d

def name (role : Role) (d : Desk α) : Desk α := if d.turn = .idle then { d with turn := .ofRole role } else d

def request (role : Role) (accepted : Bool) (entity : α) (d : Desk α) : Desk α :=
  if d.previous .ap = none ∧ d.previous .sta = none ∧ accepted then
    { d with
      previous := Function.update d.previous role (some d.entities.count)
      entities := d.entities.alloc entity
      history := .started role :: d.history }.name role
  else if d.following role = none ∧ accepted then
    { d with
      following := Function.update d.following role (some d.entities.count)
      entities := d.entities.alloc entity }.name role
  else
    d

/-- The tick starts a role beside the other: the role whose turn it is has
nothing launched and something waiting, the other role has a launch, and the
answer is that another may start. -/
def Collides (allowed : Role → Bool) (d : Desk α) : Prop :=
  ∃ role, d.turn = .ofRole role ∧ d.previous role = none ∧ d.following role ≠ none ∧
    d.previous role.other ≠ none ∧ allowed role = true

/-- The moves there are, without the ticks that collide when `aligned` holds. -/
inductive Move (aligned : Prop) : Desk α → Desk α → Prop where
  | request (d : Desk α) (role : Role) (accepted : Bool) (entity : α) :
    Move aligned d (d.request role accepted entity)
  | tick (d : Desk α) (done allowed : Role → Bool) : (aligned → ¬d.Collides allowed) →
    Move aligned d (d.tick done allowed)

end Desk

/-! ## The launcher's desk -/

namespace Launcher
variable {δ : Type}

def desk (s : Launcher δ) : Desk (RlEntity δ) := ⟨s.previous, s.following, s.preEntityType, s.entities, s.history⟩

@[simp] theorem desk_setPrevious (role : Role) (entity : Option Nat) (s : Launcher δ) :
    (s.setPrevious role entity).desk = { s.desk with previous := Function.update s.desk.previous role entity } := by
  have moved : (s.setPrevious role entity).previous = Function.update s.previous role entity := by
    funext r
    cases role <;> cases r <;> rfl
  have kept : (s.setPrevious role entity).following = s.following := by
    funext r
    cases role <;> cases r <;> rfl
  cases role <;> simp only [desk, moved, kept] <;> rfl

@[simp] theorem desk_setFollowing (role : Role) (entity : Option Nat) (s : Launcher δ) :
    (s.setFollowing role entity).desk = { s.desk with following := Function.update s.desk.following role entity } := by
  have moved : (s.setFollowing role entity).following = Function.update s.following role entity := by
    funext r
    cases role <;> cases r <;> rfl
  have kept : (s.setFollowing role entity).previous = s.previous := by
    funext r
    cases role <;> cases r <;> rfl
  cases role <;> simp only [desk, moved, kept] <;> rfl

@[simp] theorem desk_setBits (bits : UInt32) (s : Launcher δ) : (s.setBits bits).desk = s.desk := rfl

@[simp] theorem desk_resetBits (bits : UInt32) (s : Launcher δ) : (s.resetBits bits).desk = s.desk := rfl

@[simp] theorem desk_rlStart (s : Launcher δ) : s.rlStart.desk = s.desk := rfl

@[simp] theorem desk_rlRelaunchChance (s : Launcher δ) : s.rlRelaunchChance.desk = s.desk := rfl

@[simp] theorem desk_rlPreApInit (s : Launcher δ) : s.rlPreApInit.desk = s.desk := rfl

@[simp] theorem desk_rlPreStaInit (s : Launcher δ) : s.rlPreStaInit.desk = s.desk := rfl

@[simp] theorem desk_setCancel (role : Role) (s : Launcher δ) : (s.setCancel role).desk = s.desk := by
  cases role <;> rfl

@[simp] theorem desk_access (entity : Nat) (s : Launcher δ) :
    (s.access entity).desk = { s.desk with entities := s.desk.entities.access entity } := rfl

@[simp] theorem desk_rlFreeEntity (entity : Nat) (s : Launcher δ) :
    (s.rlFreeEntity entity).desk = { s.desk with entities := s.desk.entities.free entity } := rfl

@[simp] theorem desk_rlPreStopLaunch (role : Role) (s : Launcher δ) :
    (s.rlPreStopLaunch role).desk = { s.desk with history := .completed role :: s.desk.history } := rfl

variable [Inhabited δ]

/-- A call from outside never touches an entity. -/
@[simp] theorem desk_post (s : Launcher δ) (call : Post δ) : (s.post call).desk = s.desk := by
  cases call with
  | staCacheRequestEnter monitorMode =>
    simp only [post, rlStaCacheRequestEnter]
    split
    · split <;> rfl
    · split
      · split <;> rfl
      · rfl
  | preStaSetStatus status =>
    simp only [post, rlPreStaSetStatus]
    split
    · rfl
    · split <;> rfl
  | setCsaSwitching =>
    simp only [post, rlSetCsaSwitching]
    split <;> rfl
  | statusSetPause en => cases en <;> rfl
  | _ => rfl

@[simp] theorem desk_posts (s : Launcher δ) (calls : List (Post δ)) : (s.posts calls).desk = s.desk := by
  induction calls generalizing s with
  | nil => rfl
  | cons call rest ih => exact (ih _).trans (desk_post s call)

@[simp] theorem desk_requestStart (role : Role) (req : LaunchReq δ) (gap : Interleaving δ) (s : Launcher δ) :
    (s.requestStart role req gap).desk = { s.desk with history := .started role :: s.desk.history } := by
  cases role with
  | sta =>
    change (rlStaRequestStart req gap s).desk = _
    unfold rlStaRequestStart
    split
    · exact desk_posts _ _
    · exact desk_posts _ _
    · exact desk_posts _ _
    · rfl
  | ap =>
    change (rlApRequestStart req gap s).desk = _
    unfold rlApRequestStart
    split
    · exact desk_posts _ _
    · exact desk_posts _ _
    · rfl

@[simp] theorem desk_launchStart (role : Role) (entity : Nat) (gap : Interleaving δ) (s : Launcher δ) :
    (s.launchStart role entity gap).desk =
      { s.desk with entities := s.desk.entities.access entity, history := .started role :: s.desk.history } := by
  cases role <;> simp only [launchStart, desk_requestStart] <;> rfl

/-! ## The launcher follows its desk -/

/-- What the mask says when the waiting entity has been taken off. -/
def MaskOpen (role : Role) (gap : Interleaving δ) (s : Launcher δ) : Prop :=
  ¬((s.setFollowing role none).posts (gap (.mask role))).Paused ∧
    ((s.setFollowing role none).posts (gap (.mask role))).Accepts role

instance (role : Role) (gap : Interleaving δ) (s : Launcher δ) : Decidable (s.MaskOpen role gap) :=
  inferInstanceAs (Decidable (_ ∧ _))

theorem launchFollowing_desk (role : Role) (gap : Interleaving δ) (s : Launcher δ) :
    ((s.launchFollowing role gap).1, (s.launchFollowing role gap).2.desk) =
      s.desk.promote role (decide (s.MaskOpen role gap)) := by
  have same : s.desk.following role = s.following role := rfl
  unfold launchFollowing Desk.promote
  by_cases allowed : s.MaskOpen role gap
  · simp only [if_pos (show _ ∧ _ from allowed), decide_eq_true allowed, same]
    cases waiting : s.following role with
    | none => simp
    | some entity => simp
  · simp only [if_neg (show ¬(_ ∧ _) from allowed), decide_eq_false allowed, same]
    cases waiting : s.following role with
    | none => simp
    | some entity => simp

omit [Inhabited δ] in
theorem cancelPrevious_desk (role : Role) (previous : Nat) (s : Launcher δ) :
    (s.cancelPrevious role previous).2.desk = s.desk.consult role previous := by
  have same : s.desk.following role = s.following role := rfl
  unfold cancelPrevious Desk.consult
  rw [same]
  cases waiting : s.following role with
  | none =>
    simp only
    split
    · rw [desk_setCancel, desk_access]
    · rw [desk_access]
  | some entity =>
    simp only
    split
    · rw [desk_setCancel, desk_access, desk_access]
    · rw [desk_access, desk_access]

/-- One role's turn is the desk's, and an idle role starts when its mask is open. -/
theorem launch_desk (role : Role) (gap : Interleaving δ) (s : Launcher δ) :
    ∃ done allowed, ((s.launch role gap).1, (s.launch role gap).2.desk) = s.desk.launch role done allowed ∧
      (s.previous role = none → allowed = decide (s.MaskOpen role gap)) := by
  have followed : s.desk.following role = s.following role := rfl
  have preceded : s.desk.previous role = s.previous role := rfl
  unfold launch Desk.launch
  rw [followed, preceded]
  cases launched : s.previous role with
  | none =>
    refine ⟨false, decide (s.MaskOpen role gap), ?_, fun _ => rfl⟩
    cases waiting : s.following role with
    | none => rfl
    | some entity =>
      simp only [if_neg (Option.some_ne_none entity)]
      apply launchFollowing_desk
  | some previous =>
    have read : ((s.cancelPrevious role previous).2.posts (gap (.verdict role))).desk =
        s.desk.consult role previous :=
      (desk_posts _ _).trans (cancelPrevious_desk role previous s)
    simp only
    generalize (s.cancelPrevious role previous).2.posts (gap (.verdict role)) = judged at read ⊢
    generalize (s.cancelPrevious role previous).1 = cancelled
    by_cases done : judged.mayNextLaunch role cancelled ≠ 0
    · have retired : ((judged.rlPreStopLaunch role).rlFreeEntity previous).desk =
          (s.desk.consult role previous).retire role previous := by
        rw [← read, desk_rlFreeEntity, desk_rlPreStopLaunch]
        rfl
      refine ⟨true, decide (MaskOpen role gap ((judged.rlPreStopLaunch role).rlFreeEntity previous)), ?_, nofun⟩
      rw [if_pos done, if_pos rfl, ← retired]
      apply launchFollowing_desk
    · refine ⟨false, false, ?_, nofun⟩
      rw [if_neg done, if_neg Bool.false_ne_true]
      exact congrArg (Prod.mk LaunchStatus.statusCont) read

theorem launchTurn_desk (first : Role) (gap : Interleaving δ) (s : Launcher δ) :
    ∃ done allowed, (s.launchTurn first gap).desk = s.desk.launchTurn first done allowed ∧
      (s.previous first = none → allowed first = decide (s.MaskOpen first gap)) := by
  obtain ⟨done, allowed, same, mask⟩ := launch_desk first gap s
  have status := congrArg Prod.fst same
  have moved := congrArg Prod.snd same
  simp only at status moved
  unfold launchTurn Desk.launchTurn
  by_cases ended : (s.launch first gap).1 = .statusOver
  · let handed : Launcher δ := { (s.launch first gap).2 with preEntityType := .ofRole first.other }
    obtain ⟨done', allowed', same', -⟩ := launch_desk first.other gap handed
    have moved' := congrArg Prod.snd same'
    refine ⟨Function.update (fun _ => done') first done, Function.update (fun _ => allowed') first allowed, ?_, ?_⟩
    · simp only [Function.update_self, Function.update_of_ne first.other_ne, if_pos ended, ← status, ← moved]
      split
      · exact moved'
      · exact moved'
    · simpa only [Function.update_self] using mask
  · refine ⟨fun _ => done, fun _ => allowed, ?_, mask⟩
    simpa only [if_neg ended, ← status, desk_rlRelaunchChance] using moved

/-- An expiry of the launch timer is one tick of the desk. -/
theorem rlLaunchHandler_desk (gap : Interleaving δ) (s : Launcher δ) :
    ∃ done allowed, (s.rlLaunchHandler gap).desk = s.desk.tick done allowed ∧
      ∀ role, s.preEntityType = .ofRole role → s.previous role = none →
        allowed role = decide (s.MaskOpen role gap) := by
  have kept : s.desk.turn = s.preEntityType := rfl
  unfold rlLaunchHandler Desk.tick
  rw [kept]
  cases turn : s.preEntityType with
  | idle => exact ⟨fun _ => false, fun _ => false, rfl, fun role named => by cases role <;> cases named⟩
  | mesh => exact ⟨fun _ => false, fun _ => false, rfl, fun role named => by cases role <;> cases named⟩
  | sta =>
    obtain ⟨done, allowed, same, mask⟩ := launchTurn_desk .sta gap s
    refine ⟨done, allowed, same, fun role named => ?_⟩
    cases role with
    | sta => exact mask
    | ap => cases named
  | ap =>
    obtain ⟨done, allowed, same, mask⟩ := launchTurn_desk .ap gap s
    refine ⟨done, allowed, same, fun role named => ?_⟩
    cases role with
    | sta => cases named
    | ap => exact mask

/-- A request that is entered is one request at the desk. -/
theorem requestEnter_desk {role : Role} {memory : Memory} {param : LaunchReq δ} {completion : Nat}
    {gap : Interleaving δ} {s : Launcher δ} {result : UInt32 × Launcher δ}
    (entered : s.requestEnter role memory param completion gap = some result) :
    ∃ accepted entity, result.2.desk = s.desk.request role accepted entity := by
  have naming : ∀ u : Launcher δ,
      (if u.preEntityType = .idle then { u with preEntityType := .ofRole role } else u).desk =
        u.desk.name role := by
    intro u
    have turn : u.desk.turn = u.preEntityType := rfl
    unfold Desk.name
    rw [turn]
    split
    · rfl
    · rfl
  refine ⟨decide (s.Accepts role), ⟨.asap, 0, 0, param, completion⟩, ?_⟩
  unfold requestEnter at entered
  unfold Desk.request
  simp only [decide_eq_true_eq]
  -- The desk asks the two questions of the source in the same order.
  by_cases direct : s.jlPreviousAp = none ∧ s.jlPreviousSta = none ∧ s.Accepts role
  · rw [if_pos direct] at entered
    rw [if_pos (show s.desk.previous .ap = none ∧ s.desk.previous .sta = none ∧ s.Accepts role from direct)]
    split at entered
    · obtain rfl := Option.some.inj entered
      simp only [naming, desk_requestStart, desk_setPrevious]
      rfl
    · cases entered
  · rw [if_neg direct] at entered
    rw [if_neg (show ¬(s.desk.previous .ap = none ∧ s.desk.previous .sta = none ∧ s.Accepts role) from direct)]
    by_cases queued : s.following role = none ∧ s.Accepts role
    · rw [if_pos queued] at entered
      rw [if_pos (show s.desk.following role = none ∧ s.Accepts role from queued)]
      split at entered
      · obtain rfl := Option.some.inj entered
        simp only [naming, desk_rlStart, desk_setFollowing]
        rfl
      · cases entered
    · rw [if_neg queued] at entered
      rw [if_neg (show ¬(s.desk.following role = none ∧ s.Accepts role) from queued)]
      obtain rfl := Option.some.inj entered
      rfl

/-! ## Refinement -/

/-- The launch timer is about to start a role beside the other. -/
def Collides (gap : Interleaving δ) (s : Launcher δ) : Prop :=
  ∃ role, s.preEntityType = .ofRole role ∧ s.previous role = none ∧ s.following role ≠ none ∧
    s.previous role.other ≠ none ∧ s.MaskOpen role gap

end Launcher

/-- The step is no launch-timer expiry that collides. -/
def Event.Aligned {δ : Type} [Inhabited δ] (s : Launcher δ) : Event δ → Prop
  | .launchExpiry gap => ¬Launcher.Collides gap { s with rlTimer := false }
  | _ => True

namespace Launcher
variable {δ : Type} [Inhabited δ] {s t : Launcher δ}

theorem collides_iff {gap : Interleaving δ} {allowed : Role → Bool}
    (mask : ∀ role, s.preEntityType = .ofRole role → s.previous role = none →
      allowed role = decide (s.MaskOpen role gap)) :
    s.desk.Collides allowed ↔ s.Collides gap := by
  unfold Desk.Collides Collides
  apply exists_congr
  intro role
  constructor
  · rintro ⟨turn, idle, waiting, busy, open'⟩
    exact ⟨turn, idle, waiting, busy, of_decide_eq_true ((mask role turn idle).symm.trans open')⟩
  · rintro ⟨turn, idle, waiting, busy, open'⟩
    exact ⟨turn, idle, waiting, busy, (mask role turn idle).trans (decide_eq_true open')⟩

theorem enterSta_moves (aligned : Prop) {hitSta : Option (Request δ)} {memory : Memory} {gap : Interleaving δ}
    (entered : s.enterSta hitSta memory gap = some t) :
    Relation.ReflTransGen (Desk.Move aligned) s.desk t.desk := by
  cases hitSta with
  | none =>
    obtain rfl := Option.some.inj entered
    exact .refl
  | some hit =>
    obtain ⟨result, answered, rfl⟩ := Option.map_eq_some_iff.mp entered
    obtain ⟨admitted, admission, rfl⟩ := Option.map_eq_some_iff.mp answered
    obtain ⟨accepted, entity, same⟩ := requestEnter_desk admission
    have moved : Relation.ReflTransGen (Desk.Move aligned) s.desk admitted.2.desk := by
      rw [same]
      exact .single (.request _ _ _ _)
    -- Keeping the request in the cache is no move.
    simp only
    split
    · exact moved
    · exact moved

theorem enterAp_moves (aligned : Prop) {hitAp : Option (Request δ)} {memory : Memory} {gap : Interleaving δ}
    (entered : s.enterAp hitAp memory gap = some t) :
    Relation.ReflTransGen (Desk.Move aligned) s.desk t.desk := by
  cases hitAp with
  | none =>
    obtain rfl := Option.some.inj entered
    exact .refl
  | some hit =>
    obtain ⟨admitted, admission, rfl⟩ := Option.map_eq_some_iff.mp entered
    obtain ⟨accepted, entity, same⟩ := requestEnter_desk admission
    rw [same]
    exact .single (.request _ _ _ _)

/-- An expiry of the enter timer is at most one request for each role. -/
theorem rlEnterHandler_moves (aligned : Prop) {memory : Memory} {gap : Interleaving δ}
    (entered : s.rlEnterHandler memory gap = some t) :
    Relation.ReflTransGen (Desk.Move aligned) s.desk t.desk := by
  unfold rlEnterHandler at entered
  split at entered
  · simp only at entered
    split at entered
    · obtain rfl := Option.some.inj entered
      rw [desk_posts]
      exact .refl
    · obtain ⟨u, station, finished⟩ := Option.bind_eq_some_iff.mp entered
      obtain ⟨v, accessPoint, rfl⟩ := Option.map_eq_some_iff.mp finished
      have first := enterSta_moves aligned station
      have second := enterAp_moves aligned accessPoint
      simp only [desk_posts, desk_setBits] at first second
      exact first.trans second
  · obtain rfl := Option.some.inj entered
    exact .refl

/-- Every step of the launcher is a few moves at the desk, and none of them
collides when the step is aligned. -/
theorem step_moves {event : Event δ} (taken : s.step event = some t) :
    Relation.ReflTransGen (Desk.Move (event.Aligned s)) s.desk t.desk := by
  cases event with
  | post call =>
    obtain rfl := Option.some.inj taken
    rw [desk_post]
  | enterExpiry memory gap =>
    simp only [step] at taken
    split at taken
    · have stopped : ({ s with enterTimer := false } : Launcher δ).desk = s.desk := rfl
      rw [← stopped]
      exact rlEnterHandler_moves _ taken
    · cases taken
  | launchExpiry gap =>
    simp only [step] at taken
    split at taken
    · obtain rfl := Option.some.inj taken
      obtain ⟨done, allowed, same, mask⟩ := rlLaunchHandler_desk gap { s with rlTimer := false }
      rw [same]
      apply Relation.ReflTransGen.single
      exact .tick _ done allowed fun aligned collides => aligned ((collides_iff mask).mp collides)
    · cases taken

end Launcher

end BekenSdk.RoleLaunch
