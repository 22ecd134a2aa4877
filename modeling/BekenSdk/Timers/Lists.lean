import BekenSdk.Timers.Service

/-! What the timer task does with control blocks and lists. The timers that it holds are on no
list while it works with them.
-/

set_option autoImplicit false

namespace BekenSdk.Timers
open Base

/-- The lists are of timers that live; those that are held live and are on no list. -/
structure Listing (held : List Nat) (s : State) : Prop where
  tame : s.wild = false
  listed : ∀ t ∈ s.currentList ++ s.overflowList, ∃ timer, s.blocks t = some timer ∧ timer.listed = true
  current : s.currentList.Nodup
  overflow : s.overflowList.Nodup
  off : ∀ t ∈ held, s.Lives t ∧ t ∉ s.currentList ++ s.overflowList
  distinct : held.Nodup
  fresh : ∀ t, s.Lives t → t < s.created

/-- The queue gets messages of timers that live, and none of those goes. -/
structure Kept (s s' : State) : Prop where
  queue : ∀ ok : Nat → Prop, (∀ t, s.Lives t → ok t) →
    s.xTimerQueue.Holding configTIMER_QUEUE_LENGTH (fun m => ok m.pxTimer) →
      s'.xTimerQueue.Holding configTIMER_QUEUE_LENGTH (fun m => ok m.pxTimer)
  lives : ∀ t, s'.Lives t ↔ s.Lives t
  task : s'.task = s.task

/-- An operation gets through. -/
def Goes (held : List Nat) (s : State) (result : Option State) : Prop :=
  ∃ s', result = some s' ∧ Listing held s' ∧ Kept s s'

section
variable {s s' s'' : State} {held : List Nat} {t u : Nat} {timer timer' : Timer} {id : CommandId}
  {value next now from' : UInt32} {list : List Nat}

theorem Kept.refl : Kept s s := ⟨fun _ _ holding => holding, fun _ => Iff.rfl, rfl⟩

theorem Kept.trans (first : Kept s s') (second : Kept s' s'') : Kept s s'' where
  queue := fun ok lives holding =>
    second.queue ok (fun t alive => lives t ((first.lives t).mp alive)) (first.queue ok lives holding)
  lives := fun t => (second.lives t).trans (first.lives t)
  task := second.task.trans first.task

theorem lives_iff : s.Lives t ↔ ∃ timer, s.blocks t = some timer := Option.isSome_iff_exists

theorem Listing.lives (listing : Listing held s) (member : t ∈ s.currentList ++ s.overflowList) : s.Lives t := by
  obtain ⟨timer, block, -⟩ := listing.listed t member
  exact lives_iff.mpr ⟨timer, block⟩

/-- A timer that is not held any more. -/
theorem Listing.drop (listing : Listing (t :: held) s) : Listing held s :=
  { listing with
    off := fun u member => listing.off u (List.mem_cons_of_mem _ member)
    distinct := (List.nodup_cons.mp listing.distinct).2 }

theorem Listing.hold (listing : Listing held s) (lives : s.Lives t) (off : t ∉ s.currentList ++ s.overflowList)
    (other : t ∉ held) : Listing (t :: held) s :=
  { listing with
    off := List.forall_mem_cons.mpr ⟨⟨lives, off⟩, listing.off⟩
    distinct := List.nodup_cons.mpr ⟨other, listing.distinct⟩ }

/-! ## Single changes -/

theorem put_block : (s.put t timer).blocks t = some timer := Function.update_self ..

theorem put_other (other : u ≠ t) : (s.put t timer).blocks u = s.blocks u := Function.update_of_ne other ..

theorem put_lives (lives : s.Lives t) : (s.put t timer).Lives u ↔ s.Lives u := by
  by_cases same : u = t
  · rw [same]
    exact ⟨fun _ => lives, fun _ => lives_iff.mpr ⟨timer, put_block⟩⟩
  · unfold State.Lives
    rw [put_other same]

theorem put_kept (lives : s.Lives t) :
    Kept s (s.put t timer) := ⟨fun _ _ holding => holding, fun _ => put_lives lives, rfl⟩

/-- What is written to the control block leaves the list item where it is. -/
theorem Listing.put (listing : Listing held s) (lives : s.Lives t)
    (still : t ∈ s.currentList ++ s.overflowList → timer.listed = true) : Listing held (s.put t timer) where
  tame := listing.tame
  listed := fun u member => by
    by_cases same : u = t
    · rw [same]
      exact ⟨timer, put_block, still (same ▸ member)⟩
    · rw [put_other same]
      exact listing.listed u member
  current := listing.current
  overflow := listing.overflow
  off := fun u member => ⟨(put_lives lives).mpr (listing.off u member).1, (listing.off u member).2⟩
  distinct := listing.distinct
  fresh := fun u alive => listing.fresh u ((put_lives lives).mp alive)

theorem command_listing (listing : Listing held s) : Listing held (s.xTimerGenericCommand t id value) := by
  unfold State.xTimerGenericCommand
  split
  · exact { listing with }
  · exact listing

theorem command_kept (lives : s.Lives t) : Kept s (s.xTimerGenericCommand t id value) := by
  unfold State.xTimerGenericCommand
  split
  next room => exact ⟨fun ok alive holding => holding.send room (alive t lives), fun _ => Iff.rfl, rfl⟩
  next => exact .refl

theorem callback_eq (lives : s.Lives t) : s.callback t = some s := by
  obtain ⟨timer, block⟩ := lives_iff.mp lives
  unfold State.callback
  rw [block]
  rfl

/-! ## Lists -/

/-- The timer that is removed is held. -/
theorem remove_goes (listing : Listing held s) (lives : s.Lives t) (other : t ∉ held) :
    Goes (t :: held) s (s.uxListRemove t) := by
  obtain ⟨timer, block⟩ := lives_iff.mp lives
  unfold State.uxListRemove
  rw [block]
  refine ⟨_, rfl, ?_, ⟨fun _ _ holding => holding, fun u => put_lives lives, rfl⟩⟩
  have gone : t ∉ s.currentList.erase t ++ s.overflowList.erase t := fun member =>
    (List.mem_append.mp member).elim listing.current.not_mem_erase listing.overflow.not_mem_erase
  have before {u : Nat} (member : u ∈ s.currentList.erase t ++ s.overflowList.erase t) :
      u ∈ s.currentList ++ s.overflowList :=
    List.mem_append.mpr ((List.mem_append.mp member).imp List.mem_of_mem_erase List.mem_of_mem_erase)
  have bare : Listing held
      { s with currentList := s.currentList.erase t, overflowList := s.overflowList.erase t } := {
    tame := listing.tame
    listed := fun u member => listing.listed u (before member)
    current := listing.current.erase t
    overflow := listing.overflow.erase t
    off := fun u member => ⟨(listing.off u member).1, fun inside => (listing.off u member).2 (before inside)⟩
    distinct := listing.distinct
    fresh := listing.fresh }
  exact (bare.put lives fun member => absurd member gone).hold (lives_iff.mpr ⟨_, put_block⟩) gone other

theorem insertItem_perm (lives : ∀ e ∈ list, s.Lives e) : ∃ list', s.insertItem t value list = some list' ∧ list'.Perm
    (t :: list) := by
  induction list with
  | nil => exact ⟨[t], rfl, .refl _⟩
  | cons e rest ih =>
    obtain ⟨here, others⟩ := List.forall_mem_cons.mp lives
    obtain ⟨timer, block⟩ := lives_iff.mp here
    rw [State.insertItem, block]
    dsimp only [Option.bind_some]
    split
    · obtain ⟨list', inserted, perm⟩ := ih others
      rw [inserted]
      exact ⟨e :: list', rfl, (perm.cons e).trans (.swap t e rest)⟩
    · exact ⟨_, rfl, .refl _⟩

/-- The timer comes into one of the lists. -/
theorem Listing.insert (listing : Listing (t :: held) s) {current overflow : List Nat} (nodupC : current.Nodup)
    (nodupO : overflow.Nodup)
    (cases : ∀ u, u ∈ current ++ overflow → u = t ∨ u ∈ s.currentList ++ s.overflowList) :
    Listing held ({ s with currentList := current, overflowList := overflow }.put t { timer with listed := true }) := by
  obtain ⟨lives, -⟩ := listing.off t List.mem_cons_self
  obtain ⟨other, distinct⟩ := List.nodup_cons.mp listing.distinct
  exact {
    tame := listing.tame
    listed := fun u member => by
      by_cases same : u = t
      · rw [same]
        exact ⟨_, put_block, rfl⟩
      · obtain ⟨timer', block, marked⟩ := listing.listed u ((cases u member).resolve_left same)
        exact ⟨timer', (put_other same).trans block, marked⟩
    current := nodupC
    overflow := nodupO
    off := fun u member => by
      obtain ⟨alive, away⟩ := listing.off u (List.mem_cons_of_mem _ member)
      refine ⟨(put_lives lives).mpr alive, fun inside => (cases u inside).elim ?_ away⟩
      rintro rfl
      exact other member
    distinct := distinct
    fresh := fun u alive => listing.fresh u ((put_lives lives).mp alive) }

theorem insertCurrent_goes (listing : Listing (t :: held) s) : Goes held s (s.insertCurrent t timer) := by
  obtain ⟨lives, off⟩ := listing.off t List.mem_cons_self
  obtain ⟨list, inserted, perm⟩ := @insertItem_perm s t timer.xItemValue s.currentList
    fun e member => listing.lives (List.mem_append_left _ member)
  have nodup : list.Nodup :=
    perm.nodup_iff.mpr (List.nodup_cons.mpr ⟨fun inside => off (List.mem_append_left _ inside), listing.current⟩)
  unfold State.insertCurrent
  rw [inserted]
  refine ⟨_, rfl, listing.insert nodup listing.overflow fun u member => ?_, fun _ _ holding => holding,
    fun u => put_lives lives, rfl⟩
  rw [List.mem_append, perm.mem_iff, List.mem_cons] at member
  rw [List.mem_append]
  tauto

theorem insertOverflow_goes (listing : Listing (t :: held) s) : Goes held s (s.insertOverflow t timer) := by
  obtain ⟨lives, off⟩ := listing.off t List.mem_cons_self
  obtain ⟨list, inserted, perm⟩ := @insertItem_perm s t timer.xItemValue s.overflowList
    fun e member => listing.lives (List.mem_append_right _ member)
  have nodup : list.Nodup :=
    perm.nodup_iff.mpr (List.nodup_cons.mpr ⟨fun inside => off (List.mem_append_right _ inside), listing.overflow⟩)
  unfold State.insertOverflow
  rw [inserted]
  refine ⟨_, rfl, listing.insert listing.current nodup fun u member => ?_, fun _ _ holding => holding,
    fun u => put_lives lives, rfl⟩
  rw [List.mem_append, perm.mem_iff, List.mem_cons] at member
  rw [List.mem_append]
  tauto

/-- A timer that has expired before is still held; the others are on a list. -/
theorem insertActive_goes (listing : Listing (t :: held) s) :
    ∃ expired s', s.prvInsertTimerInActiveList t next now from' = some (expired, s') ∧
      Listing (if expired then t :: held else held) s' ∧ Kept s s' := by
  obtain ⟨lives, off⟩ := listing.off t List.mem_cons_self
  obtain ⟨timer, block⟩ := lives_iff.mp lives
  have expired : Listing (t :: held) (s.put t { timer with xItemValue := next }) :=
    listing.put lives fun member => absurd member off
  unfold State.prvInsertTimerInActiveList
  rw [block]
  dsimp only [Option.bind_some]
  split
  · split
    · exact ⟨true, _, rfl, expired, put_kept lives⟩
    · obtain ⟨s', eq, after, kept⟩ := @insertOverflow_goes s held t { timer with xItemValue := next } listing
      rw [eq]
      exact ⟨false, s', rfl, after, kept⟩
  · split
    · exact ⟨true, _, rfl, expired, put_kept lives⟩
    · obtain ⟨s', eq, after, kept⟩ := @insertCurrent_goes s held t { timer with xItemValue := next } listing
      rw [eq]
      exact ⟨false, s', rfl, after, kept⟩

theorem Listing.of_expired {expired : Bool} (listing : Listing (if expired then t :: held else held) s) :
    Listing held s := by
  cases expired with
  | true => exact Listing.drop listing
  | false => exact listing

end

end BekenSdk.Timers
