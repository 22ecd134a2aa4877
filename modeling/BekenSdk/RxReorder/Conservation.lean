import BekenSdk.RxReorder.Window

/-! No frame is lost and none is there twice, as long as no frame with the
number that the window waits for arrives while there is one in the front slot.
-/

set_option autoImplicit false

namespace BekenSdk.RxReorder
open Base

namespace Reorder

/-- The frames of the driver are in hand, in a slot or delivered, or were freed,
each once. -/
def Owns (hand : List Nat) (s : Reorder) : Prop :=
  Arena.Owned (hand ++ (s.held ++ s.delivered)) s.memory

/-- What the window is to keep at every moment. -/
structure Conserved (s : Reorder) : Prop where
  counted : s.oooPktCnt.toNat = s.held.length
  owned : Arena.Owned (s.held ++ s.delivered) s.memory

variable {s : Reorder} {hand : List Nat} {frame index : Nat} {rxInfo : RxInfo}

/-! ## The steps of the functions -/

theorem held_length_le : s.held.length ≤ rxReordWinSize := by
  rw [held]
  exact (List.length_filterMap_le _ _).trans (List.length_range).le

theorem held_free (inside : index < rxReordWinSize) (slot : s.element index = some frame) :
    s.held.Perm (frame :: (List.range rxReordWinSize).filterMap (Function.update s.element index none)) := by
  have same : Function.update s.element index (some frame) = s.element := by
    rw [← slot, Function.update_eq_self]
  have freed := @filterMap_update_perm _ _ _ s.element inside frame
  rwa [same] at freed

theorem held_fill (inside : index < rxReordWinSize) (slot : s.element index = none) (frame : Nat) :
    ((List.range rxReordWinSize).filterMap (Function.update s.element index (some frame))).Perm
      (frame :: s.held) := by
  have same : Function.update s.element index none = s.element := by
    rw [← slot, Function.update_eq_self]
  have filled := @filterMap_update_perm _ _ _ s.element inside frame
  rwa [same] at filled

theorem Owns.deliver (owns : s.Owns (frame :: hand)) : (s.ethernetifInput frame).Owns hand := by
  have same := owns.access_eq List.mem_cons_self
  rw [Owns, ethernetifInput, same]
  apply owns.reorder
  have last : (hand ++ (s.held ++ frame :: s.delivered)).Perm (hand ++ frame :: (s.held ++ s.delivered)) :=
    List.perm_middle.append_left hand
  exact last.trans List.perm_middle

theorem Owns.free (owns : s.Owns (frame :: hand)) : (s.pbufFree frame).Owns hand :=
  Arena.Owned.free owns

theorem Owns.receive (owns : s.Owns []) (rxInfo : RxInfo) : (s.receive rxInfo).Owns [s.memory.count] :=
  Arena.Owned.alloc owns rxInfo

/-- A frame that leaves its slot is in hand. -/
theorem Owns.take (owns : s.Owns hand) (inside : index < rxReordWinSize) (slot : s.element index = some frame) :
    { s with element := Function.update s.element index none }.Owns (frame :: hand) := by
  apply owns.reorder
  have moved := (held_free inside slot).append_right s.delivered
  have whole := moved.append_left hand
  exact (whole.trans List.perm_middle).symm

theorem Owns.store (owns : s.Owns (frame :: hand)) (inside : index < rxReordWinSize) (slot : s.element index = none) :
    { s with element := Function.update s.element index (some frame) }.Owns hand := by
  apply owns.reorder
  have moved := (held_fill inside slot frame).append_right s.delivered
  have whole := moved.append_left hand
  exact whole.trans List.perm_middle

theorem Owns.flushSlot (owns : s.Owns hand) (inside : index < rxReordWinSize) : (s.flushSlot index).Owns hand := by
  rw [Reorder.flushSlot]
  split
  · exact owns
  next frame slot => exact (owns.take inside slot).deliver

theorem Owns.flushRounds {i left : Nat} (owns : s.Owns hand) : (s.flushRounds i left).Owns hand := by
  induction left generalizing s i with
  | zero => exact owns
  | succ left ih =>
    rw [Reorder.flushRounds]
    split
    · exact owns
    · exact ih (owns.flushSlot (Nat.mod_lt _ (by decide)))

theorem Owns.fwdRounds {rounds : Nat} (owns : s.Owns hand) : (Reorder.fwdRounds rounds s).Owns hand := by
  induction rounds generalizing s with
  | zero => exact owns
  | succ rounds ih =>
    cases slot : s.element s.rxStatusPos with
    | none => rwa [Reorder.fwdRounds, slot]
    | some frame =>
      rw [fwdRounds_some slot]
      exact ih (owns.flushSlot s.rxStatusPos.isLt)

/-- An update that finds a frame in the front slot forgets it. -/
theorem Owns.update_of_occupied (owns : s.Owns hand) (slot : s.element s.rxStatusPos = some frame) :
    s.rwmReorderUpdate.Owns (frame :: hand) :=
  owns.take s.rxStatusPos.isLt slot

/-! ## The counter -/

def Counted (s : Reorder) : Prop := s.oooPktCnt.toNat = s.held.length

theorem Counted.flushSlot (counted : s.Counted) (inside : index < rxReordWinSize) : (s.flushSlot index).Counted := by
  rw [Reorder.flushSlot]
  split
  · exact counted
  next frame slot =>
    have fewer := (held_free inside slot).length_eq
    rw [← counted, List.length_cons] at fewer
    have one : (1 : UInt8) ≤ s.oooPktCnt := by
      rw [UInt8.le_iff_toNat_le, fewer]
      exact Nat.le_add_left _ _
    have less := UInt8.toNat_sub_of_le _ _ one
    rw [fewer] at less
    exact less

theorem Counted.flushRounds {i left : Nat} (counted : s.Counted) : (s.flushRounds i left).Counted := by
  induction left generalizing s i with
  | zero => exact counted
  | succ left ih =>
    rw [Reorder.flushRounds]
    split
    · exact counted
    · exact ih (counted.flushSlot (Nat.mod_lt _ (by decide)))

theorem Counted.fwdRounds {rounds : Nat} (counted : s.Counted) : (Reorder.fwdRounds rounds s).Counted := by
  induction rounds generalizing s with
  | zero => exact counted
  | succ rounds ih =>
    cases slot : s.element s.rxStatusPos with
    | none => rwa [Reorder.fwdRounds, slot]
    | some frame =>
      rw [fwdRounds_some slot]
      exact ih (counted.flushSlot s.rxStatusPos.isLt)

/-! ## A frame and a time-out -/

theorem openWindow_receive : (s.receive rxInfo).openWindow rxInfo = (s.openWindow rxInfo).receive rxInfo := by
  cases first : s.isFirstPacket with
  | true => simp [openWindow, receive, first]
  | false => simp [openWindow, receive, first]

theorem Owns.openWindow (owns : s.Owns hand) : (s.openWindow rxInfo).Owns hand := by
  rw [Reorder.openWindow]
  split <;> exact owns

theorem Counted.openWindow (counted : s.Counted) : (s.openWindow rxInfo).Counted := by
  rw [Reorder.openWindow]
  split <;> exact counted

theorem Counted.fill (counted : s.Counted) (inside : index < rxReordWinSize) (slot : s.element index = none) :
    { s with element := Function.update s.element index (some frame), oooPktCnt := s.oooPktCnt + 1 }.Counted := by
  have more := (held_fill inside slot frame).length_eq
  have room := held_length_le (s := s)
  have sum := UInt8.toNat_add s.oooPktCnt 1
  rw [List.length_cons, ← counted] at more
  rw [← counted] at room
  rw [Counted, held, more, sum]
  exact Nat.mod_eq_of_lt (Nat.lt_of_le_of_lt (Nat.succ_le_succ room) (by decide))

theorem store_conserved {pos : UInt16} (counted : s.Counted) (owns : s.Owns [frame]) :
    (s.store frame pos).2.Conserved := by
  have inside : s.slotOf pos < rxReordWinSize := Nat.mod_lt _ (by decide)
  unfold store
  split
  · exact ⟨counted, owns.free⟩
  next slot => exact ⟨counted.fill inside slot, owns.store inside slot⟩

theorem outOfOrder_conserved (counted : s.Counted) (owns : s.Owns [frame]) :
    (s.outOfOrder frame rxInfo).2.Conserved := by
  rw [outOfOrder]
  split
  · split
    · apply store_conserved
      · exact counted.flushRounds
      · exact owns.flushRounds
    · exact ⟨counted, owns.free⟩
  · exact store_conserved counted owns

/-- The awaited frame goes up, and the frames behind it. -/
theorem inOrder_conserved {now : UInt32} (counted : s.Counted) (owns : s.Owns [frame])
    (empty : s.element s.rxStatusPos = none) : (s.inOrder frame now).2.Conserved := by
  have free : ((s.ethernetifInput frame).stamp now).element s.rxStatusPos = none := empty
  rw [inOrder, update_of_empty free]
  have moved : (((s.ethernetifInput frame).stamp now).moved 1).Owns [] := owns.deliver
  exact ⟨Counted.fwdRounds counted, moved.fwdRounds⟩

/-- A frame in the front slot is in nobody's hand when the awaited one is up. -/
theorem inOrder_forgets {old : Nat} {now : UInt32} (owns : s.Owns [frame])
    (slot : s.element s.rxStatusPos = some old) : (s.inOrder frame now).2.Owns [old] :=
  Owns.fwdRounds (Owns.update_of_occupied owns.deliver slot)

theorem giveUp_conserved (conserved : s.Conserved) : s.giveUp.Conserved := by
  unfold giveUp
  split
  next empty =>
    rw [update_of_empty empty]
    exact ⟨conserved.counted, conserved.owned⟩
  next => exact conserved

theorem timeout_conserved {now : UInt32} (conserved : s.Conserved) : (s.rwmReordTimeoutCb now).Conserved := by
  have armed : s.rearm.Conserved := ⟨conserved.counted, conserved.owned⟩
  have moved := giveUp_conserved armed
  unfold rwmReordTimeoutCb
  split
  · exact armed
  split
  · exact armed
  · exact ⟨Counted.fwdRounds moved.counted, @Owns.fwdRounds _ [] _ moved.owned⟩

end Reorder

/-- The frames for which there is the window. -/
def RxInfo.Reordered (rxInfo : RxInfo) : Prop := rxInfo.isAmsdu = false ∧ rxInfo.etherType = 0x80

instance (rxInfo : RxInfo) : Decidable rxInfo.Reordered := inferInstanceAs (Decidable (_ ∧ _))

/-- The awaited frame does not come while there is one in the front slot. -/
def FrontFree (s : Reorder) : Event → Prop
  | .frame rxInfo _ => rxInfo.Reordered → rxInfo.sn = (s.openWindow rxInfo).winStart →
    (s.openWindow rxInfo).element (s.openWindow rxInfo).rxStatusPos = none
  | .timeout _ => True

section
open Reorder
variable {s t : Reorder} {event : Event} {frame : Nat} {rxInfo : RxInfo} {now : UInt32}

theorem upload_conserved (counted : s.Counted) (owns : s.Owns [frame])
    (free : rxInfo.Reordered → rxInfo.sn = (s.openWindow rxInfo).winStart →
      (s.openWindow rxInfo).element (s.openWindow rxInfo).rxStatusPos = none) :
    (s.rwmUploadData frame rxInfo now).2.Conserved := by
  rw [rwmUploadData]
  split
  · exact ⟨counted, owns.free⟩
  next plain =>
    split
    next type =>
      dsimp only
      split
      next awaited =>
        apply inOrder_conserved counted.openWindow owns.openWindow
        exact free ⟨Bool.eq_false_iff.mpr plain, type⟩ awaited
      next => exact outOfOrder_conserved counted.openWindow owns.openWindow
    next => exact ⟨counted, owns.deliver⟩

theorem step_conserved (conserved : s.Conserved) (free : FrontFree s event) (taken : step event s = some t) :
    t.Conserved := by
  cases event with
  | frame rxInfo now =>
    obtain rfl := Option.some.inj taken
    have counted : (s.receive rxInfo).Counted := conserved.counted
    apply upload_conserved counted (Owns.receive conserved.owned rxInfo)
    rwa [openWindow_receive]
  | timeout now =>
    rw [step] at taken
    split at taken
    · obtain rfl := Option.some.inj taken
      exact timeout_conserved conserved
    · cases taken

/-- The frame in the front slot is nowhere after the awaited frame came. -/
theorem step_spoiled (conserved : s.Conserved) (occupied : ¬FrontFree s event) (taken : step event s = some t) :
    ¬t.Conserved := by
  cases event with
  | timeout now => exact absurd trivial occupied
  | frame rxInfo now =>
    obtain rfl := Option.some.inj taken
    simp only [FrontFree, Classical.not_imp] at occupied
    obtain ⟨⟨plain, type⟩, awaited, occupied⟩ := occupied
    obtain ⟨old, slot⟩ := Option.ne_none_iff_exists'.mp occupied
    have owns := @Owns.openWindow _ _ rxInfo (Owns.receive conserved.owned rxInfo)
    have uploaded : (s.receive rxInfo).rwmUploadData s.memory.count rxInfo now =
        ((s.receive rxInfo).openWindow rxInfo).inOrder s.memory.count now := by
      rw [rwmUploadData, if_neg (by rw [plain]; decide), if_pos type, openWindow_receive]
      exact if_pos awaited
    rw [openWindow_receive] at owns uploaded
    rw [uploaded]
    exact fun after => (inOrder_forgets owns slot).exact after.owned

theorem boot_conserved (memory : Nat → RxInfo) : (Reorder.boot memory).Conserved :=
  ⟨rfl, Arena.Owned.empty memory⟩

/-- A run conserves its frames, in all its states, if and only if the awaited
frame never comes while there is one in the front slot. -/
theorem frames_conserved_iff {memory : Nat → RxInfo} {moments : List (Moment Reorder Event)}
    (run : Run (Machine.Step step) (Reorder.boot memory) moments s) :
    Machine.Always Conserved moments s ↔ ∀ moment ∈ moments, FrontFree moment.before moment.event :=
  Machine.always_iff run (boot_conserved memory) step_conserved step_spoiled

end

/-! ## Sample runs -/

/-- The frame that the window is for, with the number `seq`. -/
def numbered (seq : Nat) : RxInfo := ⟨UInt16.ofNat (seq % 4096), false, 0x80, seq⟩

def arrives (seq : Nat) : Event := .frame (numbered seq) 0

def silent : Reorder := .boot fun _ => numbered 0

instance (s : Reorder) (event : Event) : Decidable (FrontFree s event) := by
  cases event with
  | frame rxInfo now => exact inferInstanceAs (Decidable (_ → _ → _))
  | timeout now => exact inferInstanceAs (Decidable True)

def gapFilled : List Event := [.timeout 60000, arrives 6, arrives 3, arrives 5, arrives 2]

/-- A gap is filled, and a time-out gives another one up. -/
theorem filled_gap_conserved : ∃ moments s, Run (Machine.Step Reorder.step) silent moments s ∧
    s.delivered.map (fun frame => (s.memory.content frame).seq) = [6, 5, 3, 2] ∧
      Machine.Always Reorder.Conserved moments s := by
  have filled : (Machine.replay (Machine.guarded FrontFree Reorder.step) silent gapFilled).any
      (fun s => decide (s.delivered.map (fun frame => (s.memory.content frame).seq) = [6, 5, 3, 2])) = true := by
    decide
  obtain ⟨moments, s, run, -, free, order⟩ := Machine.run_of_fine filled
  exact ⟨moments, s, run, of_decide_eq_true order, (frames_conserved_iff run).mpr free⟩

theorem held_frame_forgotten : ¬∀ moments s, Run (Machine.Step Reorder.step) silent moments s →
    Machine.Always Reorder.Conserved moments s := by
  intro claim
  have forgotten : (Machine.replay Reorder.step silent [arrives 3, arrives 8, arrives 3, arrives 0]).any
      (fun s => decide (s.oooPktCnt.toNat ≠ s.held.length)) = true := by
    decide
  obtain ⟨moments, s, run, -, miscounted⟩ := Machine.run_of_any forgotten
  exact of_decide_eq_true miscounted (claim moments s run).2.counted

end BekenSdk.RxReorder
