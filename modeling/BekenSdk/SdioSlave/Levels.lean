import BekenSdk.SdioSlave.Channel

/-! The interrupt level before and after the operations on a channel. Three of them have an exit that leaves the
interrupts off; an operation that calls one of these puts back its own level afterwards.
-/

set_option autoImplicit false

namespace BekenSdk.SdioSlave
open Base

/-- A call of one of the operations, with its arguments. -/
inductive Operation
  | pushFreeList (chanId direct : Nat) (headP tailP : NodePtr) (count : UInt32)
  | popFreeNode (chanId direct : Nat) (nodeP : Bool)
  | pushOngoingNode (chanId direct : Nat) (headP tailP : NodePtr) (count : UInt32)
  | popOngoingNode (chanId direct : Nat) (nodeP : NodePtr)
  | pushFinishList (chanId direct : Nat) (headP tailP : NodePtr) (count : UInt32)
  | popFinishNode (chanId direct : Nat) (nodeP : NodePtr)
  | getValidOngoingRxBufPtr (chanId : Nat) (count : UInt32) (bufP : Option BufPtr)
  | getValidOngoingTxBufPtr (chanId : Nat) (bufP : Option BufPtr)
  | addOngoingBufTransLen (chanId direct : Nat) (transLen : UInt32)

/-- The driver when the call returns. -/
def Operation.run (bidirect : Bool) (app : UInt32 → NodePtr → NodePtr → UInt32 → Driver → Driver) (d : Driver) :
    Operation → Driver
  | .pushFreeList chanId direct headP tailP count =>
    (bkSdioChanPushFreeList bidirect chanId direct headP tailP count d).2
  | .popFreeNode chanId direct nodeP => (bkSdioChanPopFreeNode bidirect chanId direct nodeP d).2.2
  | .pushOngoingNode chanId direct headP tailP count =>
    sdioChanPushOngoingNode bidirect chanId direct headP tailP count d
  | .popOngoingNode chanId direct nodeP => (sdioChanPopOngoingNode bidirect chanId direct nodeP d).2.2
  | .pushFinishList chanId direct headP tailP count =>
    (sdioChanPushFinishList bidirect chanId direct headP tailP count d).2
  | .popFinishNode chanId direct nodeP => (sdioChanPopFinishNode bidirect chanId direct nodeP d).2.2
  | .getValidOngoingRxBufPtr chanId count bufP =>
    (sdioSlaveGetValidOngoingRxBufPtr bidirect chanId count bufP d).2.2
  | .getValidOngoingTxBufPtr chanId bufP => (sdioSlaveGetValidOngoingTxBufPtr bidirect chanId bufP d).2.2
  | .addOngoingBufTransLen chanId direct transLen =>
    (sdioSlaveAddOngoingBufTransLen bidirect app chanId direct transLen d).2

/-- A list that claims to have nodes and is not as its record says. -/
def Corrupted (d : Driver) (list : SdioList) : Prop :=
  list.count ≠ 0 ∧ sdioListCheck d.nodes list.head list.tail list.count ≠ .ok

/-- The calls that leave the interrupts off: a node is taken from a corrupted ongoing or finish list, or room is
wanted for more bytes than a node has. -/
def Operation.Forgets (bidirect : Bool) (d : Driver) : Operation → Prop
  | .popOngoingNode chanId direct _ =>
    chanId < chanMaxCnt ∧ direct ≤ chanRx ∧ Corrupted d (d.chanBuf chanId (bufIndex bidirect direct)).ongoingList
  | .popFinishNode chanId direct _ =>
    chanId < chanMaxCnt ∧ direct ≤ chanRx ∧ Corrupted d (d.chanBuf chanId (bufIndex bidirect direct)).finishList
  | .getValidOngoingRxBufPtr chanId count _ =>
    let chanBufP := d.chanBuf chanId (bufIndex bidirect chanRx)
    chanId < chanMaxCnt ∧ (d.chan chanId).rxDirect = true ∧ chanBufP.ongoingList.head ≠ 0 ∧ chanBufP.bufSize < count
  | _ => False

section
variable {bidirect : Bool} {app : UInt32 → NodePtr → NodePtr → UInt32 → Driver → Driver} {d : Driver}
  {chanId direct : Nat} {nodeP : NodePtr}

theorem sdioListPopNode_fail {nodes : Nodes} {list : SdioList} {nodeP : NodePtr} :
    (sdioListPopNode nodes list nodeP).1 ≠ .ok ↔ sdioListCheck nodes list.head list.tail list.count ≠ .ok := by
  unfold sdioListPopNode
  split
  next wrong => exact iff_of_true nofun wrong
  next right =>
    refine iff_of_false ?_ right
    split <;> exact fun differ => differ rfl

/-- A node is popped with interrupts off, and the level comes back but for a list that is corrupted. -/
theorem popped_level {list : SdioList} {level : Level} {failed popped empty : BkErr × NodePtr × Driver}
    (off : failed.2.2.level = .off) (back : popped.2.2.level = level) (none : empty.2.2.level = level) :
    let after := (if list.count ≠ 0 then (if (sdioListPopNode d.nodes list 0).1 ≠ .ok then failed else popped)
      else empty).2.2.level
    (Corrupted d list → after = .off) ∧ (¬Corrupted d list → after = level) := by
  dsimp only
  split
  next some_count =>
    split
    next wrong => exact ⟨fun _ => off, fun right => absurd ⟨some_count, sdioListPopNode_fail.mp wrong⟩ right⟩
    next right => exact ⟨fun wrong => absurd (sdioListPopNode_fail.mpr wrong.2) right, fun _ => back⟩
  next no_count => exact ⟨fun wrong => absurd wrong.1 no_count, fun _ => none⟩

/-- Off on the exit that forgets, and as it was on every other. -/
theorem sdioChanPopOngoingNode_level :
    let after := (sdioChanPopOngoingNode bidirect chanId direct nodeP d).2.2.level
    ((Operation.popOngoingNode chanId direct nodeP).Forgets bidirect d → after = .off) ∧
      (¬(Operation.popOngoingNode chanId direct nodeP).Forgets bidirect d → after = d.level) := by
  unfold sdioChanPopOngoingNode Operation.Forgets
  dsimp only
  split
  next out => exact ⟨fun ⟨inside, _⟩ => absurd inside (Nat.not_lt.mpr out), fun _ => rfl⟩
  split
  next out => exact ⟨fun ⟨_, inside, _⟩ => absurd inside (Nat.not_le.mpr out), fun _ => rfl⟩
  next chan direction =>
    refine And.imp (fun lost forgets => lost forgets.2.2)
      (fun kept spared => kept fun wrong => spared ⟨Nat.not_le.mp chan, Nat.not_lt.mp direction, wrong⟩)
      (popped_level ?_ ?_ ?_) <;> rfl

theorem sdioChanPopFinishNode_level :
    let after := (sdioChanPopFinishNode bidirect chanId direct nodeP d).2.2.level
    ((Operation.popFinishNode chanId direct nodeP).Forgets bidirect d → after = .off) ∧
      (¬(Operation.popFinishNode chanId direct nodeP).Forgets bidirect d → after = d.level) := by
  unfold sdioChanPopFinishNode Operation.Forgets
  dsimp only
  split
  next out => exact ⟨fun ⟨inside, _⟩ => absurd inside (Nat.not_lt.mpr out), fun _ => rfl⟩
  split
  next out => exact ⟨fun ⟨_, inside, _⟩ => absurd inside (Nat.not_le.mpr out), fun _ => rfl⟩
  next chan direction =>
    refine And.imp (fun lost forgets => lost forgets.2.2)
      (fun kept spared => kept fun wrong => spared ⟨Nat.not_le.mp chan, Nat.not_lt.mp direction, wrong⟩)
      (popped_level ?_ ?_ ?_) <;> rfl

theorem sdioSlaveGetValidOngoingRxBufPtr_level {count : UInt32} {bufP : Option BufPtr} :
    let after := (sdioSlaveGetValidOngoingRxBufPtr bidirect chanId count bufP d).2.2.level
    ((Operation.getValidOngoingRxBufPtr chanId count bufP).Forgets bidirect d → after = .off) ∧
      (¬(Operation.getValidOngoingRxBufPtr chanId count bufP).Forgets bidirect d → after = d.level) := by
  unfold sdioSlaveGetValidOngoingRxBufPtr Operation.Forgets
  dsimp only
  split
  next out => exact ⟨fun ⟨inside, _⟩ => absurd inside (Nat.not_lt.mpr out), fun _ => rfl⟩
  split
  next closed =>
    refine ⟨fun ⟨_, opened, _⟩ => ?_, fun _ => rfl⟩
    rw [closed] at opened
    cases opened
  next chan opened =>
    split
    next none => exact ⟨fun ⟨_, _, some_node, _⟩ => absurd none some_node, fun _ => rfl⟩
    next some_node =>
      split
      next large =>
        exact ⟨fun _ => rfl,
          fun kept => absurd ⟨Nat.not_le.mp chan, Bool.eq_true_of_not_eq_false opened, some_node, large⟩ kept⟩
      next fits =>
        refine ⟨fun ⟨_, _, _, large⟩ => absurd large fits, fun _ => ?_⟩
        -- what the nested calls leave is put right at the end
        split
        · rfl
        · split <;> rfl

/-- The exits of the others all put back the level. -/
theorem sdioSlaveAddOngoingBufTransLen_level {transLen : UInt32} :
    (sdioSlaveAddOngoingBufTransLen bidirect app chanId direct transLen d).2.level = d.level := by
  unfold sdioSlaveAddOngoingBufTransLen
  dsimp only
  split
  · rfl
  split
  · rfl
  split
  · split <;> rfl
  · rfl

theorem sdioSlaveGetValidOngoingTxBufPtr_level {bufP : Option BufPtr} :
    (sdioSlaveGetValidOngoingTxBufPtr bidirect chanId bufP d).2.2.level = d.level := by
  unfold sdioSlaveGetValidOngoingTxBufPtr
  dsimp only
  split
  · rfl
  split
  · rfl
  split
  · rfl
  · split <;> rfl

theorem bkSdioChanPopFreeNode_level {given : Bool} :
    (bkSdioChanPopFreeNode bidirect chanId direct given d).2.2.level = d.level := by
  unfold bkSdioChanPopFreeNode
  dsimp only
  split
  · rfl
  split
  · rfl
  split
  · rfl
  split
  · split <;> rfl
  · rfl

/-- The level after a call. -/
theorem Operation.run_level (op : Operation) :
    (op.Forgets bidirect d → (op.run bidirect app d).level = .off) ∧
      (¬op.Forgets bidirect d → (op.run bidirect app d).level = d.level) := by
  cases op with
  | popOngoingNode => exact sdioChanPopOngoingNode_level
  | popFinishNode => exact sdioChanPopFinishNode_level
  | getValidOngoingRxBufPtr => exact sdioSlaveGetValidOngoingRxBufPtr_level
  | pushFreeList chanId direct headP tailP count =>
    refine ⟨False.elim, fun _ => ?_⟩
    show (bkSdioChanPushFreeList bidirect chanId direct headP tailP count d).2.level = d.level
    unfold bkSdioChanPushFreeList
    split
    · rfl
    · split <;> rfl
  | pushFinishList chanId direct headP tailP count =>
    refine ⟨False.elim, fun _ => ?_⟩
    show (sdioChanPushFinishList bidirect chanId direct headP tailP count d).2.level = d.level
    unfold sdioChanPushFinishList
    split
    · rfl
    · split <;> rfl
  | pushOngoingNode => exact ⟨False.elim, fun _ => rfl⟩
  | popFreeNode => exact ⟨False.elim, fun _ => bkSdioChanPopFreeNode_level⟩
  | getValidOngoingTxBufPtr => exact ⟨False.elim, fun _ => sdioSlaveGetValidOngoingTxBufPtr_level⟩
  | addOngoingBufTransLen => exact ⟨False.elim, fun _ => sdioSlaveAddOngoingBufTransLen_level⟩

end

theorem level_restored_iff (bidirect : Bool) (app : UInt32 → NodePtr → NodePtr → UInt32 → Driver → Driver)
    (op : Operation) (d : Driver) :
    (op.run bidirect app d).level = d.level ↔ ¬op.Forgets bidirect d ∨ d.level = .off := by
  obtain ⟨forgets, restores⟩ := @Operation.run_level bidirect app d op
  constructor
  · intro same
    by_cases taken : op.Forgets bidirect d
    · exact Or.inr ((forgets taken).symm.trans same).symm
    · exact Or.inl taken
  · rintro (kept | already)
    · exact restores kept
    · by_cases taken : op.Forgets bidirect d
      · exact (forgets taken).trans already.symm
      · exact restores taken

/-- A channel with a node for four bytes, with the interrupts on. -/
def sampleDriver : Driver where
  chan _ := ⟨false, true, fun _ => ⟨4, ⟨0, 0, 0⟩, ⟨0x100, 0x100, 1⟩, 0, ⟨0, 0, 0⟩, 0⟩⟩
  nodes _ := ⟨0, 0⟩
  data _ _ := 0
  fifo := []
  level := ⟨false, false⟩

/-- Room for five bytes is refused, and the interrupts stay off. -/
theorem refusal_leaves_interrupts_off :
    ((Operation.getValidOngoingRxBufPtr 0 5 none).run false (fun _ _ _ _ d => d) sampleDriver).level ≠
      sampleDriver.level := by
  decide

end BekenSdk.SdioSlave
