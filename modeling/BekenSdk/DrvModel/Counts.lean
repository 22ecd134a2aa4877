import BekenSdk.DrvModel.Calls
import BekenSdk.DrvModel.Counting

/-! One user at a time holds a device as long as every open finds it closed and
succeeds. Between the calls the device is closed and not counted or opened and
counted once; in a call it is with one user, whose place says the rest.
-/

set_option autoImplicit false

namespace BekenSdk.DrvModel
open Base

variable {F : Type}

/-! ## Handles -/

section
variable {i j : Nat} {handle : UInt32} {allocated : Nat}

theorem and_high {a m : Nat} (low : i < 2 ^ 16) : (2 ^ 16 * a + i) &&& (2 ^ 16 * m) = 2 ^ 16 * (a &&& m) := by
  apply Nat.eq_of_testBit_eq
  intro j
  rw [Nat.testBit_and, Nat.testBit_two_pow_mul_add _ low, Nat.testBit_two_pow_mul, Nat.testBit_two_pow_mul,
    Nat.testBit_and]
  by_cases high : 16 ≤ j
  · simp [high, Nat.not_lt.mpr high]
  · simp [high]

theorem makeHandle_toNat (low : i < 2 ^ 16) : (UInt32.ofNat i + ddHandleMagicWord).toNat = 2 ^ 16 * 0xA5A5 + i := by
  have magic : ddHandleMagicWord.toNat = 2 ^ 16 * 0xA5A5 := rfl
  rw [UInt32.toNat_add, UInt32.toNat_ofNat', magic]
  omega

theorem id_toNat (handle : UInt32) : (handle &&& ddHandleIdMask).toNat = handle.toNat % 2 ^ 16 := by
  have mask : ddHandleIdMask.toNat = 2 ^ 16 - 1 := rfl
  rw [UInt32.toNat_and, mask, Nat.and_two_pow_sub_one_eq_mod]

theorem makeHandle_names (low : i < 2 ^ 16) (inside : i < allocated) :
    Names (ddevMakeHandle allocated i) j ↔ i = j := by
  have magic : (UInt32.ofNat i + ddHandleMagicWord) &&& ddHandleMagicMask = ddHandleMagicWord := by
    apply UInt32.toNat_inj.mp
    rw [UInt32.toNat_and, makeHandle_toNat low]
    exact @and_high i 0xA5A5 0xFFFF low
  rw [ddevMakeHandle, if_neg (Nat.not_le.mpr inside), Names, id_toNat, makeHandle_toNat low]
  constructor
  · rintro ⟨_, rfl⟩
    omega
  · rintro rfl
    exact ⟨magic, by omega⟩

theorem unvalid_names : ¬Names ddHandleUnvalid j := fun named => absurd named.1 (by decide)

theorem makeHandle_valid (low : i < 2 ^ 16) (inside : i < allocated) : ddevMakeHandle allocated i ≠ ddHandleUnvalid :=
  fun same => @unvalid_names i (same ▸ (makeHandle_names low inside).mpr rfl)

theorem getId_names (valid : ddevGetIdFromHandle handle ≠ ddIdUnvalid) :
    Names handle j ↔ (ddevGetIdFromHandle handle).toNat = j := by
  unfold ddevGetIdFromHandle at *
  split
  next magic => exact ⟨And.right, fun same => ⟨magic, same⟩⟩
  next other => exact absurd (if_neg other) valid

theorem getId_unvalid (unvalid : ddevGetIdFromHandle handle = ddIdUnvalid) : ¬Names handle j := by
  rintro ⟨magic, _⟩
  rw [ddevGetIdFromHandle, if_pos magic] at unvalid
  have value := congrArg UInt32.toNat unvalid
  rw [id_toNat, show ddIdUnvalid.toNat = 2 ^ 32 - 1 from rfl] at value
  omega

end

/-! ## Who holds a device -/

/-- What the place of the only user at a device says of the device. -/
def Phase.Fits (slot : Slot (DdOperations F)) (count : Nat) (handle : UInt32) : Phase → Prop
  | .opening id => slot.state = .closed ∧ slot.useCnt = 0 ∧ count = 0 ∧ slot.opens = true ∧ id < 2 ^ 16
  | .marking id status ran =>
    slot.state = .closed ∧ slot.useCnt = 0 ∧ count = 0 ∧ slot.opens = true ∧ id < 2 ^ 16 ∧
      status = drvSuccess ∧ ran = some drvSuccess
  | .counting id given status ran =>
    slot.state = .opened ∧ slot.useCnt = 0 ∧ count = 0 ∧ slot.opens = true ∧ id < 2 ^ 16 ∧
      status = drvSuccess ∧ ran = some drvSuccess ∧ given = handle
  | .checking _ left => slot.state = .opened ∧ slot.useCnt = 0 ∧ count = 0 ∧ left = 0
  | .closing _ left => slot.state = .opened ∧ slot.useCnt = 0 ∧ count = 0 ∧ left = 0 ∧ slot.closes = true
  | .unmarking _ left ran => slot.state = .opened ∧ slot.useCnt = 0 ∧ count = 0 ∧ left = 0 ∧ ran = slot.closes
  | .idle | .stuck => False

namespace Devices
variable {s t : Devices F} {user id j : Nat} {phase after : Phase} {slot : Slot (DdOperations F)}

inductive Held (s : Devices F) (id : Nat) : Prop where
  /-- No device is registered there. A user who came to the slot is about to fail. -/
  | free : (∀ slot, s.drvDevTbl[id]? = some slot → slot.name = none ∧ slot.state = .noDevice) →
      s.outstanding id = 0 →
      (∀ (v : Nat) (q : Phase), s.users[v]? = some q → q.device = some id →
        ∃ status ran, q = .counting id ddHandleUnvalid status ran) → Held s id
  | quiet {slot : Slot (DdOperations F)} : s.drvDevTbl[id]? = some slot → slot.name ≠ none →
      (∀ (v : Nat) (q : Phase), s.users[v]? = some q → q.device ≠ some id) →
      (slot.state = .closed ∧ slot.useCnt = 0 ∧ s.outstanding id = 0 ∨
        slot.state = .opened ∧ slot.useCnt = 1 ∧ s.outstanding id = 1) → Held s id
  | busy {slot : Slot (DdOperations F)} {user : Nat} {phase : Phase} : s.drvDevTbl[id]? = some slot →
      slot.name ≠ none → s.users[user]? = some phase → phase.device = some id →
      (∀ (v : Nat) (q : Phase), s.users[v]? = some q → q.device = some id → v = user) →
      phase.Fits slot (s.outstanding id) (ddevMakeHandle s.drvDevTbl.length id) → Held s id

structure Sound (s : Devices F) : Prop where
  held : ∀ id, s.Held id
  notes : ∀ note ∈ s.notes, note.Right

theorem Sound.counted (sound : s.Sound) : s.Counted where
  counts id slot here named := by
    cases sound.held id with
    | free none _ _ => exact absurd (none slot here).1 named
    | quiet there _ _ either =>
      cases here.symm.trans there
      rcases either with ⟨_, count, same⟩ | ⟨_, count, same⟩ <;> rw [count, same] <;> rfl
    | @busy _ _ phase there _ _ _ _ fits =>
      cases here.symm.trans there
      cases phase with
      | opening _ | marking _ _ _ | counting _ _ _ _ | checking _ _ | closing _ _ | unmarking _ _ _ =>
        rw [fits.2.1, fits.2.2.1]
        rfl
      | idle => exact fits.elim
      | stuck => exact fits.elim
  notes := sound.notes

/-- A step elsewhere leaves a device as it was. -/
theorem Held.frame (held : s.Held j) (slots : t.drvDevTbl[j]? = s.drvDevTbl[j]?)
    (length : t.drvDevTbl.length = s.drvDevTbl.length) (count : t.outstanding j = s.outstanding j)
    (users : ∀ (v : Nat) (q : Phase), q.device = some j → (t.users[v]? = some q ↔ s.users[v]? = some q)) :
    t.Held j := by
  cases held with
  | free none zero all =>
    exact .free (fun slot here => none slot (slots ▸ here)) (count.trans zero)
      fun v q there at' => all v q ((users v q at').mp there) at'
  | quiet here named nobody either =>
    exact .quiet (slots.trans here) named (fun v q there at' => nobody v q ((users v q at').mp there) at')
      (count ▸ either)
  | busy here named there at' only fits =>
    exact .busy (slots.trans here) named ((users _ _ at').mpr there) at'
      (fun v q there at' => only v q ((users v q at').mp there) at') (count ▸ length ▸ fits)

/-- A user's move does not change who is at the other devices. -/
theorem go_users (here : s.users[user]? = some phase) (old : phase.device ≠ some j) (new : after.device ≠ some j)
    (v : Nat) (q : Phase) (at' : q.device = some j) :
    (s.users.set user after)[v]? = some q ↔ s.users[v]? = some q := by
  rw [List.getElem?_set, if_pos (List.getElem?_eq_some_iff.mp here).1]
  split
  next same =>
    subst same
    rw [here]
    constructor
    · rintro ⟨rfl⟩
      exact absurd at' new
    · rintro ⟨rfl⟩
      exact absurd at' old
  · rfl

theorem go_self (here : s.users[user]? = some phase) : (s.users.set user after)[user]? = some after := by
  rw [List.getElem?_set, if_pos rfl, if_pos (List.getElem?_eq_some_iff.mp here).1]

/-- A user that was at no other device moves, and only its own device changes. -/
theorem Sound.of_held (sound : s.Sound) {change : Slot (DdOperations F) → Slot (DdOperations F)}
    (here : s.users[user]? = some phase) (users : t.users = s.users.set user after)
    (slots : t.drvDevTbl = s.drvDevTbl.modify id change) (elsewhere : ∀ j ≠ id, t.outstanding j = s.outstanding j)
    (old : ∀ j, phase.device = some j → j = id) (new : ∀ j, after.device = some j → j = id) (held : t.Held id)
    (notes : ∀ note ∈ t.notes, note.Right) : t.Sound where
  held j := by
    by_cases same : j = id
    · exact same ▸ held
    · have apart : id ≠ j := fun there => same there.symm
      apply (sound.held j).frame
      · rw [slots, List.getElem?_modify_ne _ _ apart]
      · rw [slots, List.length_modify]
      · exact elsewhere j same
      · rw [users]
        exact go_users here (fun at' => same (old j at')) fun at' => same (new j at')
  notes := notes

/-- What a device comes to when its user goes on. -/
def Next (t : Devices F) (id : Nat) (after : Phase) (slot : Slot (DdOperations F)) : Prop :=
  match after.device with
  | some _ => after.Fits slot (t.outstanding id) (ddevMakeHandle t.drvDevTbl.length id)
  | none => slot.state = .closed ∧ slot.useCnt = 0 ∧ t.outstanding id = 0 ∨
      slot.state = .opened ∧ slot.useCnt = 1 ∧ t.outstanding id = 1

theorem Held.of_next {new : Slot (DdOperations F)} (here : s.users[user]? = some phase)
    (users : t.users = s.users.set user after) (slots : t.drvDevTbl[id]? = some new) (named : new.name ≠ none)
    (only : ∀ (v : Nat) (q : Phase), s.users[v]? = some q → q.device = some id → v = user)
    (at' : after.device = some id ∨ after.device = none) (next : t.Next id after new) : t.Held id := by
  have moved (v : Nat) (q : Phase) (there : t.users[v]? = some q) (present : q.device = some id) : v = user := by
    rw [users, List.getElem?_set] at there
    split at there
    next same => exact same.symm
    · exact only v q there present
  have self : t.users[user]? = some after := users ▸ go_self here
  rcases at' with at' | at'
  · rw [Next, at'] at next
    exact .busy slots named self at' moved next
  · rw [Next, at'] at next
    refine .quiet slots named (fun v q there present => ?_) next
    obtain rfl := moved v q there present
    cases self.symm.trans there
    rw [at'] at present
    cases present

/-- The user of a device goes on. -/
theorem Sound.moved (sound : s.Sound) (change : Slot (DdOperations F) → Slot (DdOperations F))
    (here : s.users[user]? = some phase) (old : phase.device = some id)
    (valid : ∀ status ran, phase ≠ .counting id ddHandleUnvalid status ran)
    (users : t.users = s.users.set user after) (slots : t.drvDevTbl = s.drvDevTbl.modify id change)
    (name : ∀ slot, (change slot).name = slot.name) (new : after.device = some id ∨ after.device = none)
    (next : ∀ slot, s.drvDevTbl[id]? = some slot →
      phase.Fits slot (s.outstanding id) (ddevMakeHandle s.drvDevTbl.length id) →
      t.Next id after (change slot) ∧ (∀ j ≠ id, t.outstanding j = s.outstanding j) ∧ ∀ note ∈ t.notes, note.Right) :
    t.Sound := by
  have known : ∀ j, after.device = some j → j = id := by
    intro j at'
    rcases new with new | new
    · exact Option.some.inj (at'.symm.trans new)
    · rw [new] at at'
      cases at'
  cases sound.held id with
  | free _ _ all =>
    obtain ⟨status, ran, same⟩ := all user phase here old
    exact absurd same (valid status ran)
  | quiet _ _ nobody _ => exact absurd old (nobody user phase here)
  | @busy slot v q there named at' present only fits =>
    obtain rfl := only user phase here old
    cases here.symm.trans at'
    obtain ⟨following, elsewhere, notes⟩ := next slot there fits
    have changed : t.drvDevTbl[id]? = some (change slot) := by
      rw [slots, List.getElem?_modify_eq, there]
      rfl
    have held : t.Held id := Held.of_next here users changed (by rwa [name]) only new following
    exact sound.of_held here users slots elsewhere (fun j at' => Option.some.inj (at'.symm.trans old)) known held notes

/-- A user comes to a device that nobody is at. -/
theorem Sound.entered (sound : s.Sound) (change : Slot (DdOperations F) → Slot (DdOperations F))
    (here : s.users[user]? = some .idle) (there : s.drvDevTbl[id]? = some slot) (named : slot.name ≠ none)
    (nobody : ∀ (v : Nat) (q : Phase), s.users[v]? = some q → q.device ≠ some id)
    (users : t.users = s.users.set user after) (slots : t.drvDevTbl = s.drvDevTbl.modify id change)
    (name : (change slot).name = slot.name) (elsewhere : ∀ j ≠ id, t.outstanding j = s.outstanding j)
    (new : after.device = some id) (next : t.Next id after (change slot))
    (notes : ∀ note ∈ t.notes, note.Right) : t.Sound := by
  have changed : t.drvDevTbl[id]? = some (change slot) := by
    rw [slots, List.getElem?_modify_eq, there]
    rfl
  have held : t.Held id := Held.of_next here users changed (by rwa [name])
    (fun v q at' present => absurd present (nobody v q at')) (.inl new) next
  exact sound.of_held here users slots elsewhere (fun _ at' => nomatch at')
    (fun j at' => Option.some.inj (at'.symm.trans new)) held notes

/-! ## The steps -/

variable {status answer handle : UInt32} {ran : Option UInt32} {left : Nat} {devName : CString} {note : Note}

theorem inside_of_slot (there : s.drvDevTbl[id]? = some slot) : id < s.drvDevTbl.length :=
  (List.getElem?_eq_some_iff.mp there).1

theorem opens_eq (there : s.drvDevTbl[id]? = some slot) : s.opens id = slot.opens := by
  rw [opens, there, Option.any_some]

theorem closes_eq (there : s.drvDevTbl[id]? = some slot) : s.closes id = slot.closes := by
  rw [closes, there, Option.any_some]

theorem state_eq (there : s.drvDevTbl[id]? = some slot) : s.state id = slot.state := by
  rw [state, there, Option.map_some, Option.getD_some]

theorem outstanding_other (names : ∀ j, Names handle j ↔ id = j) (other : j ≠ id) (handles : List UInt32) :
    (handle :: handles).countP (fun handle => Names handle j) = handles.countP fun handle => Names handle j := by
  rw [List.countP_cons_of_neg]
  intro named
  exact other ((names j).mp (of_decide_eq_true named)).symm

/-- The open function came back with success. -/
theorem Sound.openReturns (sound : s.Sound) (here : s.users[user]? = some (.opening id)) :
    (s.go user (.marking id drvSuccess (some drvSuccess))).Sound := by
  refine sound.moved (fun slot => slot) here rfl (fun _ _ => Phase.noConfusion) rfl
    (List.modify_id _ _).symm (fun _ => rfl) (.inl rfl) ?_
  rintro slot there ⟨closed, count, zero, has, low⟩
  exact ⟨⟨closed, count, zero, has, low, rfl, rfl⟩, fun _ _ => rfl, sound.notes⟩

theorem Sound.mark (sound : s.Sound) (here : s.users[user]? = some (.marking id status ran)) :
    (s.mark user id status ran).Sound := by
  refine sound.moved Slot.markOpened here rfl (fun _ _ => Phase.noConfusion) rfl rfl (fun _ => rfl) (.inl rfl) ?_
  rintro slot there ⟨closed, count, zero, has, low, success, returned⟩
  refine ⟨⟨rfl, rfl, zero, has, low, success, returned, ?_⟩, fun _ _ => rfl, sound.notes⟩
  change _ = ddevMakeHandle (s.drvDevTbl.modify id Slot.markOpened).length id
  rw [List.length_modify]

/-- The call of `ddev_open` is over with a handle. -/
theorem Sound.count_valid (sound : s.Sound) (here : s.users[user]? = some (.counting id handle status ran))
    (valid : handle ≠ ddHandleUnvalid) : (s.count user id handle status ran).Sound := by
  rw [Devices.count, if_neg valid]
  refine sound.moved Slot.countUp here rfl ?_ rfl rfl (fun _ => rfl) (.inr rfl) ?_
  · rintro _ _ ⟨rfl⟩
    exact valid rfl
  · rintro slot there ⟨opened, count, zero, has, low, success, returned, given⟩
    have names (j : Nat) : Names handle j ↔ id = j := by
      rw [given]
      exact makeHandle_names low (inside_of_slot there)
    have one : (handle :: s.handles).countP (fun handle => Names handle id) = 1 := by
      rw [List.countP_cons_of_pos (by simpa using (names id).mpr rfl)]
      exact congrArg (· + 1) zero
    refine ⟨.inr ⟨opened, ?_, one⟩, fun j other => outstanding_other names other s.handles,
      List.forall_mem_cons.mpr ⟨?_, sound.notes⟩⟩
    · rw [Slot.countUp, count]
      rfl
    · rw [Note.Right, opens_eq there, state_eq there, returned, success, zero, has, opened]
      refine ⟨by simp, ?_, ?_⟩
      · exact ⟨fun _ => ⟨(names id).mpr rfl, rfl⟩, fun _ => rfl⟩
      · rintro _ ⟨rfl⟩ failed
        exact absurd rfl failed

/-- The user came to a slot without a device. -/
theorem Sound.count_unvalid (sound : s.Sound) (here : s.users[user]? = some (.counting id ddHandleUnvalid status ran)) :
    (s.count user id ddHandleUnvalid status ran).Sound := by
  rw [Devices.count, if_pos rfl]
  cases held : sound.held id with
  | quiet _ _ nobody _ => exact absurd rfl (nobody user _ here)
  | @busy slot v q there _ at' _ only fits =>
    obtain rfl := only user _ here rfl
    cases here.symm.trans at'
    obtain ⟨_, _, _, _, low, _, _, given⟩ := fits
    exact absurd given.symm (makeHandle_valid low (inside_of_slot there))
  | free none zero all =>
    refine sound.of_held here rfl rfl (fun _ _ => rfl) (fun j at' => (Option.some.inj at').symm)
      (fun _ at' => nomatch at') (.free ?_ zero ?_) sound.notes
    · intro slot there
      change (s.drvDevTbl.modify id Slot.countUp)[id]? = some slot at there
      rw [List.getElem?_modify_eq] at there
      obtain ⟨old, before, rfl⟩ := Option.map_eq_some_iff.mp there
      exact none old before
    · intro v q there at'
      change (s.users.set user .stuck)[v]? = some q at there
      rw [List.getElem?_set] at there
      split at there
      · split at there <;> cases there
        cases at'
      · exact all v q there at'

theorem Sound.count (sound : s.Sound) (here : s.users[user]? = some (.counting id handle status ran)) :
    (s.count user id handle status ran).Sound := by
  by_cases valid : handle = ddHandleUnvalid
  · subst valid
    exact sound.count_unvalid here
  · exact sound.count_valid here valid

theorem outstanding_erase (j : Nat) (member : handle ∈ s.handles) :
    (s.handles.erase handle).countP (fun handle => Names handle j) =
      s.outstanding j - if Names handle j then 1 else 0 := by
  rw [List.countP_erase, outstanding]
  simp [member]

theorem Sound.leave (sound : s.Sound) (here : s.users[user]? = some .idle) (member : handle ∈ s.handles) :
    (s.leave user handle).Sound := by
  unfold Devices.leave
  dsimp only
  split
  next unvalid =>
    have kept (j : Nat) : (s.handles.erase handle).countP (fun handle => Names handle j) = s.outstanding j := by
      rw [outstanding_erase j member, if_neg (getId_unvalid unvalid), Nat.sub_zero]
    exact ⟨fun j => (sound.held j).frame rfl rfl (kept j) fun _ _ _ => Iff.rfl, sound.notes⟩
  next valid =>
    generalize number : (ddevGetIdFromHandle handle).toNat = id
    have names (j : Nat) : Names handle j ↔ id = j := by rw [getId_names valid, number]
    have some_out : 0 < s.outstanding id :=
      List.countP_pos_iff.mpr ⟨handle, member, decide_eq_true ((names id).mpr rfl)⟩
    have elsewhere (j : Nat) (other : j ≠ id) :
        (s.handles.erase handle).countP (fun handle => Names handle j) = s.outstanding j := by
      rw [outstanding_erase j member, if_neg fun named => other ((names j).mp named).symm, Nat.sub_zero]
    cases sound.held id with
    | free _ zero _ => omega
    | @busy _ _ phase _ _ _ _ _ fits =>
      cases phase with
      | opening _ | marking _ _ _ | counting _ _ _ _ | checking _ _ | closing _ _ | unmarking _ _ _ =>
        have zero := fits.2.2.1
        omega
      | idle => exact fits.elim
      | stuck => exact fits.elim
    | @quiet slot there named nobody either =>
      rcases either with ⟨_, _, zero⟩ | ⟨opened, count, one⟩
      · omega
      · have none : (s.handles.erase handle).countP (fun handle => Names handle id) = 0 := by
          rw [outstanding_erase id member, one, if_pos ((names id).mpr rfl)]
        refine sound.entered Slot.countDown here there named nobody rfl rfl rfl elsewhere rfl ?_ sound.notes
        refine ⟨opened, ?_, none, none⟩
        rw [Slot.countDown, count]
        rfl

theorem Sound.check (sound : s.Sound) (here : s.users[user]? = some (.checking id left)) :
    (s.check user id left).Sound := by
  have valid (status ran) : Phase.checking id left ≠ .counting id ddHandleUnvalid status ran := Phase.noConfusion
  unfold Devices.check
  split
  next down =>
    split
    next has =>
      refine sound.moved (fun slot => slot) here rfl valid rfl (List.modify_id _ _).symm (fun _ => rfl) (.inl rfl) ?_
      rintro slot there ⟨opened, count, zero, none⟩
      rw [closes_eq there] at has
      exact ⟨⟨opened, count, zero, none, has⟩, fun _ _ => rfl, List.forall_mem_cons.mpr ⟨zero, sound.notes⟩⟩
    next lacks =>
      refine sound.moved (fun slot => slot) here rfl valid rfl (List.modify_id _ _).symm (fun _ => rfl) (.inl rfl) ?_
      rintro slot there ⟨opened, count, zero, none⟩
      rw [closes_eq there, Bool.not_eq_true] at lacks
      exact ⟨⟨opened, count, zero, none, lacks.symm⟩, fun _ _ => rfl, sound.notes⟩
  next up =>
    refine sound.moved (fun slot => slot) here rfl valid rfl (List.modify_id _ _).symm (fun _ => rfl) (.inr rfl) ?_
    rintro slot there ⟨opened, count, zero, none⟩
    rw [there, Option.map_some, count] at up
    exact absurd rfl up

theorem Sound.closeReturns (sound : s.Sound) (here : s.users[user]? = some (.closing id left)) :
    (s.go user (.unmarking id left true)).Sound := by
  refine sound.moved (fun slot => slot) here rfl (fun _ _ => Phase.noConfusion) rfl
    (List.modify_id _ _).symm (fun _ => rfl) (.inl rfl) ?_
  rintro slot there ⟨opened, count, zero, none, has⟩
  exact ⟨⟨opened, count, zero, none, has.symm⟩, fun _ _ => rfl, sound.notes⟩

theorem Sound.unmark (sound : s.Sound) {closed : Bool} (here : s.users[user]? = some (.unmarking id left closed)) :
    (s.unmark user id left closed).Sound := by
  refine sound.moved Slot.markClosed here rfl (fun _ _ => Phase.noConfusion) rfl rfl (fun _ => rfl) (.inr rfl) ?_
  rintro slot there ⟨opened, count, zero, none, same⟩
  refine ⟨.inl ⟨rfl, count, zero⟩, fun _ _ => rfl, List.forall_mem_cons.mpr ⟨?_, sound.notes⟩⟩
  rw [Note.Right, closes_eq there, same]
  exact ⟨fun has => ⟨none, has⟩, And.right⟩

/-- A user at a device is in a call that has found it closed or opened. -/
theorem fits_state {count : Nat} (fits : phase.Fits slot count handle) :
    slot.state = .closed ∨ slot.state = .opened := by
  cases phase with
  | opening _ | marking _ _ _ => exact .inl fits.1
  | counting _ _ _ _ | checking _ _ | closing _ _ | unmarking _ _ _ => exact .inr fits.1
  | idle => exact fits.elim
  | stuck => exact fits.elim

theorem fits_opened {count : Nat} (alone : s.Alone id) (here : s.users[user]? = some phase)
    (at' : phase.device = some id) (fits : phase.Fits slot count handle) : slot.state = .opened := by
  have other := alone phase (List.mem_of_getElem? here)
  cases phase with
  | opening _ | marking _ _ _ => exact absurd at' other
  | counting _ _ _ _ | checking _ _ | closing _ _ | unmarking _ _ _ => exact fits.1
  | idle => exact fits.elim
  | stuck => exact fits.elim

theorem Sound.enterFree (sound : s.Sound) (here : s.users[user]? = some .idle) (there : s.drvDevTbl[id]? = some slot)
    (free : slot.state = .noDevice) : (s.go user (.counting id ddHandleUnvalid drvFailure none)).Sound := by
  cases sound.held id with
  | quiet there' _ _ either =>
    cases there.symm.trans there'
    rcases either with ⟨closed, _⟩ | ⟨opened, _⟩
    · exact absurd (free.symm.trans closed) (by decide)
    · exact absurd (free.symm.trans opened) (by decide)
  | busy there' _ _ _ _ fits =>
    cases there.symm.trans there'
    rcases fits_state fits with closed | opened
    · exact absurd (free.symm.trans closed) (by decide)
    · exact absurd (free.symm.trans opened) (by decide)
  | free none zero all =>
    refine sound.of_held here rfl (List.modify_id _ _).symm (fun _ _ => rfl) (fun _ at' => nomatch at')
      (fun j at' => (Option.some.inj at').symm) (.free none zero ?_) sound.notes
    intro v q there at'
    change (s.users.set user _)[v]? = some q at there
    rw [List.getElem?_set] at there
    split at there
    · split at there <;> cases there
      exact ⟨_, _, rfl⟩
    · exact all v q there at'

theorem Sound.enterClosed (sound : s.Sound) (here : s.users[user]? = some .idle) (there : s.drvDevTbl[id]? = some slot)
    (closed : slot.state = .closed) (alone : s.Alone id) (has : slot.opens = true) (low : id < 2 ^ 16) :
    ((s.note (.openRun id (s.outstanding id))).go user (.opening id)).Sound := by
  cases sound.held id with
  | free none _ _ => exact absurd ((none slot there).2.symm.trans closed) (by decide)
  | busy there' _ here' at' _ fits =>
    cases there.symm.trans there'
    exact absurd (closed.symm.trans (fits_opened alone here' at' fits)) (by decide)
  | quiet there' named nobody either =>
    cases there.symm.trans there'
    rcases either with ⟨_, count, zero⟩ | ⟨opened, _⟩
    · exact sound.entered (fun slot => slot) here there named nobody rfl (List.modify_id _ _).symm rfl (fun _ _ => rfl)
        rfl ⟨closed, count, zero, has, low⟩ (List.forall_mem_cons.mpr ⟨zero, sound.notes⟩)
    · exact absurd (closed.symm.trans opened) (by decide)

theorem Sound.enterFound (sound : s.Sound) (here : s.users[user]? = some .idle) (there : s.drvDevTbl[id]? = some slot)
    (fine : s.state id = .noDevice ∨ s.state id = .closed ∧ s.Alone id ∧ s.opens id = true ∧ id < 2 ^ 16) :
    (s.enterFound user id).Sound := by
  unfold Devices.enterFound
  rw [state_eq there, opens_eq there] at *
  rcases fine with free | ⟨closed, alone, has, low⟩
  · rw [free]
    exact sound.enterFree here there free
  · rw [closed]
    dsimp only
    rw [if_pos has]
    exact sound.enterClosed here there closed alone has low

theorem Sound.stuck (sound : s.Sound) (here : s.users[user]? = some .idle) : (s.go user .stuck).Sound where
  held j := (sound.held j).frame rfl rfl rfl fun v q at' =>
    @go_users F s user j .idle .stuck here nofun nofun v q at'
  notes := sound.notes

theorem Sound.refused (sound : s.Sound) (failed : status ≠ drvSuccess) :
    Sound { s.note (.refused status) with handles := ddHandleUnvalid :: s.handles } where
  held j := by
    refine (sound.held j).frame rfl rfl ?_ fun _ _ _ => Iff.rfl
    exact List.countP_cons_of_neg (by simpa using @unvalid_names j)
  notes := List.forall_mem_cons.mpr ⟨failed, sound.notes⟩

theorem Sound.enter (sound : s.Sound) (here : s.users[user]? = some .idle) (fine : s.Fine (.open user devName status)) :
    (s.enter user devName status).Sound := by
  unfold Devices.enter
  dsimp only [Fine] at fine
  split
  next shape =>
    rw [shape] at fine
    exact sound.refused fine
  · exact sound.stuck here
  · exact sound.stuck here
  next id shape =>
    rw [shape] at fine
    have searched := @Table.search_searched _ s.drvDevTbl devName s.drvDevTbl.length
    unfold Table.searchShort at shape
    split at shape
    · cases shape
    · rw [shape] at searched
      cases searched with
      | found _ _ _ stops =>
        obtain ⟨slot, there, _⟩ := stops
        exact sound.enterFound here there fine

theorem Sound.step {event : Event} (sound : s.Sound) (fine : s.Fine event) (taken : Devices.step event s = some t) :
    t.Sound := by
  cases event with
  | «open» user devName status =>
    simp only [Devices.step] at taken
    obtain ⟨here, last⟩ := Option.ite_none_right_eq_some.mp taken
    obtain rfl := Option.some.inj last
    exact sound.enter here fine
  | openReturns user answer =>
    simp only [Devices.step] at taken
    split at taken
    next here =>
      obtain rfl := Option.some.inj taken
      obtain rfl : answer = drvSuccess := fine
      exact sound.openReturns here
    · cases taken
  | mark user =>
    simp only [Devices.step] at taken
    split at taken
    next here =>
      obtain rfl := Option.some.inj taken
      exact sound.mark here
    · cases taken
  | count user =>
    simp only [Devices.step] at taken
    split at taken
    next here =>
      obtain rfl := Option.some.inj taken
      exact sound.count here
    · cases taken
  | close user handle =>
    simp only [Devices.step] at taken
    obtain ⟨⟨here, member⟩, last⟩ := Option.ite_none_right_eq_some.mp taken
    obtain rfl := Option.some.inj last
    exact sound.leave here member
  | check user =>
    simp only [Devices.step] at taken
    split at taken
    next here =>
      obtain rfl := Option.some.inj taken
      exact sound.check here
    · cases taken
  | closeReturns user =>
    simp only [Devices.step] at taken
    split at taken
    next here =>
      obtain rfl := Option.some.inj taken
      exact sound.closeReturns here
    · cases taken
  | unmark user =>
    simp only [Devices.step] at taken
    split at taken
    next here =>
      obtain rfl := Option.some.inj taken
      exact sound.unmark here
    · cases taken

end Devices

/-! ## Registered devices -/

/-- A slot that no call has opened. -/
structure Slot.Unopened (slot : Slot (DdOperations F)) : Prop where
  count : slot.useCnt = 0
  free : slot.name = none → slot.state = .noDevice
  device : slot.name ≠ none → slot.state = .closed

theorem Slot.Unopened.zero : (Slot.zero : Slot (DdOperations F)).Unopened :=
  ⟨rfl, fun _ => rfl, fun named => absurd rfl named⟩

theorem registerDev_unopened {slots : Table (DdOperations F)} (all : ∀ slot ∈ slots, slot.Unopened)
    (devName : CString) (optr : DdOperations F) :
    ∀ slot ∈ (slots.registerDev (some devName) (some optr) true).2, slot.Unopened := by
  simp only [Table.registerDev]
  split
  next i first =>
    obtain ⟨inside, _⟩ := List.findIdx?_eq_some_iff_getElem.mp first
    have filled : ∀ slot ∈ slots.modify i (Slot.fill devName optr), slot.Unopened := by
      intro slot member
      rcases Table.mem_modify (List.getElem?_eq_getElem inside) member with rfl | member
      · exact ⟨(all _ (List.getElem_mem inside)).count, by rintro ⟨⟩, fun _ => rfl⟩
      · exact all slot member
    split
    · intro slot member
      rcases List.mem_append.mp member with member | member
      · exact filled slot member
      · rw [List.eq_of_mem_replicate member]
        exact .zero
    · exact filled
  · exact all

theorem registered_unopened (devices : List (CString × DdOperations F)) :
    ∀ slot ∈ registered devices, slot.Unopened := by
  suffices ∀ slots : Table (DdOperations F), (∀ slot ∈ slots, slot.Unopened) →
      ∀ slot ∈ devices.foldl (fun slots device => (slots.registerDev (some device.1) (some device.2) true).2) slots,
        slot.Unopened by
    refine this Table.init fun slot member => ?_
    rw [List.eq_of_mem_replicate member]
    exact .zero
  induction devices with
  | nil => exact fun _ all => all
  | cons device rest ih => exact fun slots all => ih _ (registerDev_unopened all device.1 device.2)

namespace Devices

theorem start_sound (devices : List (CString × DdOperations F)) (users : Nat) : (start devices users).Sound where
  held id := by
    have nobody (v : Nat) (q : Phase) (here : (start devices users).users[v]? = some q) : q.device ≠ some id := by
      rw [List.eq_of_mem_replicate (List.mem_of_getElem? here)]
      exact fun at' => nomatch at'
    have unopened (slot) (here : (registered devices)[id]? = some slot) : slot.Unopened :=
      registered_unopened devices slot (List.mem_of_getElem? here)
    by_cases named : ∃ slot, (registered devices)[id]? = some slot ∧ slot.name ≠ none
    · obtain ⟨slot, here, named⟩ := named
      exact .quiet here named nobody (.inl ⟨(unopened slot here).device named, (unopened slot here).count, rfl⟩)
    · refine .free (fun slot here => ?_) rfl fun v q there at' => absurd at' (nobody v q there)
      have none : slot.name = none := Classical.not_not.mp fun present => named ⟨slot, here, present⟩
      exact ⟨none, (unopened slot here).free none⟩
  notes _ member := absurd member List.not_mem_nil

/-- In every run in which each open finds its device closed, alone, and succeeds, the
counts are right in every state. -/
theorem counted_of_fine {devices : List (CString × DdOperations F)} {users : Nat}
    {moments : List (Moment (Devices F) Event)} {final : Devices F}
    (run : Run (Machine.Step Devices.step) (start devices users) moments final)
    (fine : ∀ moment ∈ moments, moment.before.Fine moment.event) : Machine.Always Counted moments final := by
  have sound : Machine.Always Sound moments final :=
    Machine.always_of_invariant run (start_sound devices users) (fun sound fine taken => sound.step fine taken) fine
  exact sound.mono fun s sound => sound.counted

end Devices

/-! ## Sample runs -/

def uart1DevName : CString := ⟨[0x75, 0x61, 0x72, 0x74, 0x31], by decide⟩
def uart2DevName : CString := ⟨[0x75, 0x61, 0x72, 0x74, 0x32], by decide⟩

def uartOp : DdOperations Unit := ⟨some (), some (), some (), some (), some ()⟩

namespace Devices

def uarts : Devices Unit := start [(uart1DevName, uartOp), (uart2DevName, uartOp)] 2

def uart1Handle : UInt32 := 0xA5A50000
def uart2Handle : UInt32 := 0xA5A50001

/-- Two users open a device each at the same time, and one closes its own and opens it again. -/
def inTurn : List Event :=
  [.count 0, .mark 0, .openReturns 0 0, .open 0 uart1DevName 0, .unmark 0, .closeReturns 0, .check 0,
    .close 0 uart1Handle, .count 1, .mark 1, .count 0, .mark 0, .openReturns 1 0, .openReturns 0 0,
    .open 1 uart2DevName 0, .open 0 uart1DevName 0]

/-- The second user opens the device that the first one has. -/
def shared : List Event :=
  [.count 1, .open 1 uart1DevName 0, .count 0, .mark 0, .openReturns 0 0, .open 0 uart1DevName 0]

theorem in_turn_counted :
    ∃ moments final, Run (Machine.Step Devices.step) uarts moments final ∧ moments.map Moment.event = inTurn ∧
      Machine.Always Counted moments final ∧ final.handles = [uart1Handle, uart2Handle] := by
  have found : (Machine.replay (Machine.guarded Fine Devices.step) uarts inTurn).any
      (fun final => final.handles == [uart1Handle, uart2Handle]) = true := by
    decide
  obtain ⟨moments, final, run, same, fine, shown⟩ := Machine.run_of_fine found
  exact ⟨moments, final, run, same, counted_of_fine run fine, eq_of_beq shown⟩

/-- A second handle of an opened device comes with the status of a failure. -/
theorem second_open_fails :
    ¬∀ (moments : List (Moment (Devices Unit) Event)) (final : Devices Unit),
      Run (Machine.Step Devices.step) uarts moments final → Machine.Always Counted moments final := by
  intro all
  have found : (Machine.replay Devices.step uarts shared).any (fun final =>
      final.notes.head? == some (.opened 0 none 1 true uart1Handle drvFailure .opened)) = true := by
    decide
  obtain ⟨moments, final, run, _, shown⟩ := Machine.run_of_any found
  have member := List.mem_of_head? (eq_of_beq shown)
  have right := (all moments final run).2.notes _ member
  exact absurd (right.2.1.mpr ⟨by decide, rfl⟩) (by decide)

end Devices

end BekenSdk.DrvModel
