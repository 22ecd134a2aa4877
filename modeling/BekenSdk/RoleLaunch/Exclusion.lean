import BekenSdk.RoleLaunch.Desk

/-! One launch at a time. A role that is started beside the other is started by
a launch-timer expiry that collides, so the runs in which the two roles keep
apart are those without one. Collisions happen: a direct start does not take
over the turn that an earlier pair of launches left with the other role.
-/

set_option autoImplicit false

namespace BekenSdk.RoleLaunch
open BekenSdk.Base

/-! ## The property -/

/-- The last launch of the role, if there was one, is complete. -/
def Completed (role : Role) : List Milestone → Prop
  | [] => True
  | .started started :: earlier => started ≠ role ∧ Completed role earlier
  | .completed completed :: earlier => completed = role ∨ Completed role earlier

/-- Every launch was started after the last one of the other role was complete. -/
def Orderly : List Milestone → Prop
  | [] => True
  | .started role :: earlier => Completed role.other earlier ∧ Orderly earlier
  | .completed _ :: earlier => Orderly earlier

/-- No two launches are in progress. -/
def Launcher.Exclusive {δ : Type} (s : Launcher δ) : Prop := s.jlPreviousSta = none ∨ s.jlPreviousAp = none

/-! ## At the desk -/

namespace Desk
variable {α : Type} {d : Desk α} {role : Role}

structure Apart (d : Desk α) : Prop where
  exclusive : d.previous .sta = none ∨ d.previous .ap = none
  settled : ∀ role, d.previous role = none → Completed role d.history
  orderly : Orderly d.history

theorem Apart.beside (apart : d.Apart) (busy : d.previous role ≠ none) : d.previous role.other = none := by
  cases role with
  | sta => exact apart.exclusive.resolve_left busy
  | ap => exact apart.exclusive.resolve_right busy

/-- The desk is apart once each role is looked at with the other in mind. -/
theorem apart_of (role : Role) (exclusive : d.previous role = none ∨ d.previous role.other = none)
    (mine : d.previous role = none → Completed role d.history)
    (others : d.previous role.other = none → Completed role.other d.history) (orderly : Orderly d.history) :
    d.Apart := by
  cases role with
  | sta =>
    refine ⟨exclusive, fun role => ?_, orderly⟩
    cases role with
    | sta => exact mine
    | ap => exact others
  | ap =>
    refine ⟨exclusive.symm, fun role => ?_, orderly⟩
    cases role with
    | sta => exact others
    | ap => exact mine

/-- The role has nothing launched any more; its waiting entity may start when
the other role has nothing launched either. -/
theorem promote_apart {allowed : Bool} (mine : Completed role d.history)
    (others : d.previous role.other = none → Completed role.other d.history) (orderly : Orderly d.history)
    (free : allowed = true → d.following role ≠ none → d.previous role.other = none) :
    (d.promote role allowed).2.Apart := by
  have kept : ∀ entity, Function.update d.previous role entity role.other = d.previous role.other :=
    fun entity => Function.update_of_ne role.other_ne _ _
  unfold promote
  split
  next entity waiting =>
    have idle := free rfl (waiting ▸ Option.some_ne_none entity)
    apply apart_of role
    · exact Or.inr ((kept _).trans idle)
    · intro none
      simp at none
    · intro _
      exact ⟨role.other_ne.symm, others idle⟩
    · exact ⟨others idle, orderly⟩
  all_goals
    apply apart_of role
    · exact Or.inl (Function.update_self _ _ _)
    · intro _
      exact mine
    · intro idle
      exact others ((kept _).symm.trans idle)
    · exact orderly

theorem consult_previous (d : Desk α) (role : Role) (previous : Nat) :
    (d.consult role previous).previous = d.previous := by
  unfold consult
  split <;> rfl

theorem consult_history (d : Desk α) (role : Role) (previous : Nat) :
    (d.consult role previous).history = d.history := by
  unfold consult
  split <;> rfl

theorem launch_apart {done allowed : Bool} (apart : d.Apart)
    (free : d.previous role = none → d.following role ≠ none → allowed = true → d.previous role.other = none) :
    (d.launch role done allowed).2.Apart := by
  unfold launch
  cases launched : d.previous role with
  | none =>
    simp only
    split
    · exact apart
    next waiting =>
      exact promote_apart (apart.settled _ launched) (apart.settled _) apart.orderly
        fun allowed _ => free launched waiting allowed
  | some previous =>
    have idle := apart.beside (launched ▸ Option.some_ne_none previous)
    have settled := apart.settled _ idle
    simp only
    split
    · apply promote_apart
      · exact Or.inl rfl
      · intro _
        refine Or.inr ?_
        rw [consult_history]
        exact settled
      · change Orderly (d.consult role previous).history
        rw [consult_history]
        exact apart.orderly
      · intro _ _
        change (d.consult role previous).previous role.other = none
        rw [consult_previous]
        exact idle
    · have same := consult_previous d role previous
      have past := consult_history d role previous
      exact ⟨same ▸ apart.exclusive, fun r => by rw [same, past]; exact apart.settled r, past ▸ apart.orderly⟩

/-- A turn that is over leaves nothing launched. -/
theorem launch_over {done allowed : Bool} (ended : (d.launch role done allowed).1 = .statusOver) :
    (d.launch role done allowed).2.previous role = none := by
  have promoted : ∀ e : Desk α, (e.promote role allowed).1 = .statusOver →
      (e.promote role allowed).2.previous role = none := by
    intro e
    unfold promote
    split
    · exact nofun
    · exact fun _ => Function.update_self _ _ _
    · exact fun _ => Function.update_self _ _ _
  revert ended
  unfold launch
  cases launched : d.previous role with
  | none =>
    simp only
    split
    · exact fun _ => launched
    · exact promoted d
  | some previous =>
    simp only
    split
    · exact promoted _
    · exact nofun

theorem tick_apart {done allowed : Role → Bool} (apart : d.Apart) (aligned : ¬d.Collides allowed) :
    (d.tick done allowed).Apart := by
  have turn : ∀ first, d.turn = .ofRole first → (d.launchTurn first done allowed).Apart := by
    intro first named
    have once : (d.launch first (done first) (allowed first)).2.Apart := by
      apply launch_apart apart
      intro idle waiting mask
      by_contra busy
      exact aligned ⟨first, named, idle, waiting, busy, mask⟩
    unfold launchTurn
    simp only
    split
    next ended =>
      -- The first role is idle now, so the second may start.
      apply launch_apart
      · exact ⟨once.exclusive, once.settled, once.orderly⟩
      · intro _ _ _
        have idle := launch_over ended
        cases first with
        | sta => exact idle
        | ap => exact idle
    next => exact once
  unfold tick
  cases named : d.turn with
  | ap => exact turn .ap named
  | sta => exact turn .sta named
  | idle => exact apart
  | mesh => exact apart

theorem name_apart (apart : d.Apart) : (d.name role).Apart := by
  unfold name
  split
  · exact ⟨apart.exclusive, apart.settled, apart.orderly⟩
  · exact apart

/-- A direct start finds both roles idle. -/
theorem request_apart {accepted : Bool} {entity : α} (apart : d.Apart) : (d.request role accepted entity).Apart := by
  unfold request
  split
  next direct =>
    have idle : ∀ r, d.previous r = none := by
      intro r
      cases r with
      | sta => exact direct.2.1
      | ap => exact direct.1
    apply name_apart
    apply apart_of role
    · exact Or.inr ((Function.update_of_ne role.other_ne _ _).trans (idle _))
    · intro none
      simp at none
    · intro _
      exact ⟨role.other_ne.symm, apart.settled _ (idle _)⟩
    · exact ⟨apart.settled _ (idle _), apart.orderly⟩
  next =>
    split
    · apply name_apart
      exact ⟨apart.exclusive, apart.settled, apart.orderly⟩
    · exact apart

theorem moves_apart {aligned : Prop} {e : Desk α} (moves : Relation.ReflTransGen (Move aligned) d e)
    (holds : aligned) (apart : d.Apart) : e.Apart := by
  induction moves with
  | refl => exact apart
  | tail _ move ih =>
    cases move with
    | request => exact request_apart ih
    | tick _ _ fine => exact tick_apart ih (fine holds)

/-- A tick that collides leaves two launches in progress. -/
theorem tick_of_collides (done : Role → Bool) {allowed : Role → Bool} (collides : d.Collides allowed) :
    (d.tick done allowed).previous .sta ≠ none ∧ (d.tick done allowed).previous .ap ≠ none := by
  obtain ⟨role, named, idle, waiting, busy, mask⟩ := collides
  obtain ⟨entity, follows⟩ := Option.ne_none_iff_exists'.mp waiting
  have ticked : (d.tick done allowed).previous = Function.update d.previous role (some entity) := by
    cases role <;> simp [tick, named, PreEntityType.ofRole, launchTurn, launch, promote, idle, follows, mask]
  rw [ticked]
  cases role with
  | sta => exact ⟨by simp, busy⟩
  | ap => exact ⟨busy, by simp⟩

end Desk

/-! ## Runs of the launcher -/

section
variable {δ : Type}

theorem desk_boot_apart (memory : Nat → RlEntity δ) : (Launcher.boot memory).desk.Apart :=
  ⟨Or.inl rfl, fun _ _ => trivial, trivial⟩

variable [Inhabited δ] {memory : Nat → RlEntity δ} {moments : List (Moment δ)} {s t : Launcher δ}

theorem run_apart (run : Run Step (Launcher.boot memory) moments s)
    (aligned : ∀ moment ∈ moments, moment.event.Aligned moment.before) : s.desk.Apart := by
  refine run.invariant (fun moment => moment.event.Aligned moment.before) (fun _ s => s.desk.Apart) aligned
    (desk_boot_apart memory) ?_
  rintro past u ⟨before, event⟩ v apart fine ⟨rfl, taken⟩
  exact Desk.moves_apart (Launcher.step_moves taken) fine apart

theorem not_exclusive {event : Event δ} (taken : s.step event = some t) (misaligned : ¬event.Aligned s) :
    ¬t.Exclusive := by
  cases event with
  | post call => exact absurd trivial misaligned
  | enterExpiry enterMemory gap => exact absurd trivial misaligned
  | launchExpiry gap =>
    simp only [Launcher.step] at taken
    split at taken
    · obtain rfl := Option.some.inj taken
      obtain ⟨done, allowed, same, mask⟩ := Launcher.rlLaunchHandler_desk gap { s with rlTimer := false }
      have both := Desk.tick_of_collides done
        ((Launcher.collides_iff mask).mpr (not_not.mp misaligned))
      rw [← same] at both
      exact not_or.mpr both
    · cases taken

/-- A run keeps the roles apart, in all its states and with every start after
the other role's last launch was complete, if and only if no expiry collides. -/
theorem roles_apart_iff (run : Run Step (Launcher.boot memory) moments s) :
    ((∀ moment ∈ moments, moment.before.Exclusive) ∧ s.Exclusive ∧ Orderly s.history) ↔
      ∀ moment ∈ moments, moment.event.Aligned moment.before := by
  constructor
  · rintro ⟨visited, last, -⟩
    induction run with
    | nil => exact fun _ member => absurd member List.not_mem_nil
    | next before step ih =>
      obtain ⟨rfl, taken⟩ := step
      have earlier := ih (fun moment member => visited moment (List.mem_cons_of_mem _ member))
        (visited _ List.mem_cons_self)
      rintro moment member
      cases member with
      | head =>
        by_contra misaligned
        exact not_exclusive taken misaligned last
      | tail _ member => exact earlier moment member
  · intro aligned
    have apart := run_apart run aligned
    refine ⟨?_, apart.exclusive, apart.orderly⟩
    clear apart
    induction run with
    | nil => exact fun _ member => absurd member List.not_mem_nil
    | next before step ih =>
      obtain ⟨rfl, taken⟩ := step
      have fine := fun moment member => aligned moment (List.mem_cons_of_mem _ member)
      rintro moment member
      cases member with
      | head => exact (run_apart before fine).exclusive
      | tail _ member => exact ih fine moment member

end

/-- While an access point waits for a station there is one launch in progress. -/
theorem waiting_role_apart : ∃ (moments : List (Moment Unit)) (s : Launcher Unit),
    Run Step idleLauncher moments s ∧ s.jlFollowingAp.isSome ∧
      ((∀ moment ∈ moments, moment.before.Exclusive) ∧ s.Exclusive ∧ Orderly s.history) := by
  have queued : (idleLauncher.replay staThenAp).any (·.jlFollowingAp.isSome) = true := by
    decide
  obtain ⟨s, replayed, waiting⟩ := (Option.any_eq_true _ _).mp queued
  obtain ⟨moments, run, same⟩ := run_of_replay replayed
  refine ⟨moments, s, run, waiting, (roles_apart_iff run).mpr fun moment member => ?_⟩
  have listed : moment.event ∈ staThenAp := same ▸ List.mem_map_of_mem member
  have fine : ∀ event ∈ staThenAp, event.Aligned moment.before := by
    simp [staThenAp, enterAll, requestAp, requestSta, Event.Aligned]
  exact fine _ listed

/-- A station is started while an access point that was started directly is in progress. -/
theorem roles_collide : ¬∀ (moments : List (Moment Unit)) (s : Launcher Unit), Run Step idleLauncher moments s →
    (∀ moment ∈ moments, moment.before.Exclusive) ∧ s.Exclusive ∧ Orderly s.history := by
  intro claim
  have both : (idleLauncher.replay apThenSta).any
      (fun s => s.jlPreviousSta.isSome && s.jlPreviousAp.isSome) = true := by
    decide
  obtain ⟨s, replayed, busy⟩ := (Option.any_eq_true _ _).mp both
  obtain ⟨moments, run, -⟩ := run_of_replay replayed
  have apart := (claim moments s run).2.1
  rcases apart with idle | idle
  · simp [idle] at busy
  · simp [idle] at busy

end BekenSdk.RoleLaunch
