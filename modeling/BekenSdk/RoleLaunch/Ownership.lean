import BekenSdk.RoleLaunch.Desk

/-! Who frees a launch entity. At the desk every entity is under exactly one of
the four pointers until it is freed, and no move reads or frees one that is
gone; so it is in every run of the launcher.
-/

set_option autoImplicit false

namespace BekenSdk.RoleLaunch
open BekenSdk.Base

namespace Desk
variable {α : Type} {d : Desk α} {role : Role}

def Owns (d : Desk α) : Prop := Arena.Owned d.refs d.entities

/-! ## What a role holds -/

theorem refs_perm (role : Role) (d : Desk α) : d.refs.Perm (d.held role ++ d.held role.other) := by
  cases role with
  | sta => exact List.Perm.refl _
  | ap => exact List.perm_append_comm

theorem owns_iff (role : Role) : d.Owns ↔ Arena.Owned (d.held role ++ d.held role.other) d.entities := by
  constructor
  · intro owned
    exact owned.reorder (d.refs_perm role).symm
  · intro owned
    exact owned.reorder (d.refs_perm role)

/-- A role holds what it did when its own two pointers are the same. -/
theorem held_congr {e : Desk α} (previous : e.previous role = d.previous role)
    (following : e.following role = d.following role) : e.held role = d.held role := by
  unfold held
  rw [previous, following]

/-! ## Moves -/

/-- With nothing launched by the role, its waiting entity changes hands or is freed. -/
theorem promote_owns {allowed : Bool}
    (owned : Arena.Owned ((d.following role).toList ++ d.held role.other) d.entities) :
    (d.promote role allowed).2.Owns := by
  have kept : (d.promote role allowed).2.held role.other = d.held role.other := by
    apply held_congr
    · unfold promote
      split <;> exact Function.update_of_ne role.other_ne _ _
    · unfold promote
      split <;> exact Function.update_of_ne role.other_ne _ _
  rw [owns_iff role, kept]
  cases waiting : d.following role with
  | none =>
    have held : (d.promote role allowed).2.held role = [] := by
      cases allowed <;> simp [promote, Desk.held, waiting]
    have same : (d.promote role allowed).2.entities = d.entities := by
      cases allowed <;> simp [promote, waiting]
    rw [waiting] at owned
    rw [held, same]
    exact owned
  | some entity =>
    rw [waiting] at owned
    cases allowed with
    | true =>
      have held : (d.promote role true).2.held role = [entity] := by
        simp [promote, Desk.held, waiting]
      have same : (d.promote role true).2.entities = d.entities.access entity := by
        simp [promote, waiting]
      rw [held, same, owned.access_eq List.mem_cons_self]
      exact owned
    | false =>
      have held : (d.promote role false).2.held role = [] := by
        simp [promote, Desk.held, waiting]
      have same : (d.promote role false).2.entities = d.entities.free entity := by
        simp [promote, waiting]
      rw [held, same]
      exact owned.free

/-- Reading what one owns leaves no trace. -/
theorem consult_eq {previous : Nat} (owns : d.Owns) (launched : d.previous role = some previous) :
    d.consult role previous = d := by
  have owned := (owns_iff role).mp owns
  have mine : previous ∈ d.held role ++ d.held role.other := by
    simp [Desk.held, launched]
  unfold consult
  cases waiting : d.following role with
  | none =>
    simp only [owned.access_eq mine]
  | some entity =>
    have next : entity ∈ d.held role ++ d.held role.other := by
      simp [Desk.held, waiting]
    simp only [owned.access_eq next, owned.access_eq mine]

theorem launch_owns (role : Role) (done allowed : Bool) (owns : d.Owns) : (d.launch role done allowed).2.Owns := by
  have owned := (owns_iff role).mp owns
  unfold launch
  cases launched : d.previous role with
  | none =>
    simp only
    split
    · exact owns
    · apply promote_owns
      simpa only [Desk.held, launched, Option.toList_none, List.nil_append] using owned
  | some previous =>
    simp only [consult_eq owns launched]
    split
    · apply promote_owns
      have all : Arena.Owned (previous :: ((d.following role).toList ++ d.held role.other)) d.entities := by
        simpa only [Desk.held, launched, Option.toList_some, List.cons_append, List.nil_append] using owned
      exact all.free
    · exact owns

theorem tick_owns (done allowed : Role → Bool) (owns : d.Owns) : (d.tick done allowed).Owns := by
  have turn : ∀ first, (d.launchTurn first done allowed).Owns := by
    intro first
    have once := launch_owns first (done first) (allowed first) owns
    unfold launchTurn
    simp only
    split
    · apply launch_owns
      exact once
    · exact once
  unfold tick
  split
  · exact turn .ap
  · exact turn .sta
  · exact owns
  · exact owns

theorem name_owns (owns : d.Owns) : (d.name role).Owns := by
  unfold name
  split
  · exact owns
  · exact owns

/-- A pointer that was NULL takes the block just allocated. -/
theorem request_owns (role : Role) (accepted : Bool) (entity : α) (owns : d.Owns) :
    (d.request role accepted entity).Owns := by
  have owned := (owns_iff role).mp owns
  have alloc := owned.alloc entity
  have kept := role.other_ne
  unfold request
  split
  next direct =>
    have idle : d.previous role = none := by
      cases role with
      | sta => exact direct.2.1
      | ap => exact direct.1
    apply name_owns
    rw [owns_iff role]
    simpa [Desk.held, idle, Function.update_of_ne kept] using alloc
  next =>
    split
    next queued =>
      apply name_owns
      rw [owns_iff role]
      simp only [Desk.held, queued.1, Function.update_of_ne kept, Function.update_self, Option.toList_some,
        Option.toList_none, List.append_nil] at alloc ⊢
      exact alloc.reorder ((List.perm_append_singleton _ _).append_right _)
    next => exact owns

theorem Move.owns {aligned : Prop} {e : Desk α} (moved : Move aligned d e) (owns : d.Owns) : e.Owns := by
  cases moved with
  | request role accepted entity => exact request_owns role accepted entity owns
  | tick done allowed _ => exact tick_owns done allowed owns

theorem moves_own {aligned : Prop} {e : Desk α} (moves : Relation.ReflTransGen (Move aligned) d e)
    (owns : d.Owns) : e.Owns := by
  induction moves with
  | refl => exact owns
  | tail _ move ih => exact move.owns ih

end Desk

/-! ## Runs of the launcher -/

section
variable {δ : Type} [Inhabited δ]

omit [Inhabited δ] in
theorem desk_boot_owns (memory : Nat → RlEntity δ) : (Launcher.boot memory).desk.Owns :=
  Arena.Owned.empty memory

theorem run_owns {memory : Nat → RlEntity δ} {moments : List (Moment δ)} {s : Launcher δ}
    (run : Run Step (Launcher.boot memory) moments s) : s.desk.Owns :=
  run.invariant (fun _ => True) (fun _ s => s.desk.Owns) (fun _ _ => trivial) (desk_boot_owns memory)
    fun _ _ _ _ owns _ step => Desk.moves_own (Launcher.step_moves step.2) owns

/-- The launcher's four pointers, those that are not NULL. -/
def Launcher.pointers (s : Launcher δ) : List Nat :=
  s.jlPreviousSta.toList ++ s.jlFollowingSta.toList ++ s.jlPreviousAp.toList ++ s.jlFollowingAp.toList

/-- In every run, each entity allocated so far is either under exactly one of the
four pointers or was freed exactly once; the pointers lead to allocated entities,
and no entity was read or freed after it was freed. -/
theorem entities_owned {memory : Nat → RlEntity δ} {moments : List (Moment δ)} {s : Launcher δ}
    (run : Run Step (Launcher.boot memory) moments s) :
    (∀ entity, entity < s.entities.count → s.pointers.count entity + s.entities.freed.count entity = 1) ∧
    (∀ entity, entity ∈ s.pointers → s.entities.Live entity) ∧ s.entities.misused = [] := by
  have owned : Arena.Owned s.desk.refs s.entities := run_owns run
  have same : s.pointers = s.desk.refs := by
    simp [Launcher.pointers, Desk.refs, Desk.held, Launcher.desk, Launcher.previous, Launcher.following]
  rw [same]
  refine ⟨fun entity known => owned.count_add known, fun entity member => owned.mem_iff.mp member, owned.unmisused⟩

end

/-- Four entities later, two are launched and two were freed. -/
theorem entities_owned_after_four : ∃ s : Launcher Unit, idleLauncher.replay apThenSta = some s ∧
    s.entities.count = 4 ∧ s.entities.freed = [1, 0] ∧
    (∀ entity, entity < s.entities.count → s.pointers.count entity + s.entities.freed.count entity = 1) ∧
    (∀ entity, entity ∈ s.pointers → s.entities.Live entity) ∧ s.entities.misused = [] := by
  have counted : (idleLauncher.replay apThenSta).any
      (fun s => s.entities.count = 4 ∧ s.entities.freed = [1, 0]) = true := by
    decide
  obtain ⟨s, replayed, allocated⟩ := (Option.any_eq_true _ _).mp counted
  obtain ⟨moments, run, -⟩ := run_of_replay replayed
  have totals := of_decide_eq_true allocated
  exact ⟨s, replayed, totals.1, totals.2, entities_owned run⟩

end BekenSdk.RoleLaunch
