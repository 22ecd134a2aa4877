import BekenSdk.Base.Machine
import BekenSdk.SdioNodes.Driver

/-! Where the nodes are, and what the transfers reach. Every step passes nodes on
one by one, so none is lost or in two places. A transfer stays inside its
buffer exactly when the host's lengths fit the node that the command finds.
-/

set_option autoImplicit false

namespace BekenSdk.SdioNodes
open Base

namespace Sdio
variable {blk512 : Bool} {s t : Sdio} {node : Nat} {hand : List Nat} {head : Head} {cmd : Cmd} {memory : Bool}

/-! ## Nodes in one place -/

/-- How often a node is on a list or with a caller. -/
def places (s : Sdio) (node : Nat) : Nat :=
  (s.list .freeNodes).count node + (s.list .txDat).count node + (s.list .txingList).count node +
    (s.list .rxDat).count node + (s.list .rxingList).count node + s.held.count node

/-- Every node of the pool is in one place or in hand. -/
def Holds (s : Sdio) (hand : List Nat) : Prop :=
  ∀ node, s.places node + hand.count node = if node < cellCount then 1 else 0

/-- Every node of the pool is in exactly one of the lists or held by one caller. -/
def Conserved (s : Sdio) : Prop := ∀ node, s.places node = if node < cellCount then 1 else 0

theorem conserved_iff : s.Conserved ↔ s.Holds [] := Iff.rfl

theorem Holds.same (holds : s.Holds hand) (lists : t.list = s.list) (held : t.held = s.held) : t.Holds hand := by
  intro other
  have places : t.places other = s.places other := by rw [Sdio.places, lists, held, Sdio.places]
  rw [places, holds other]

theorem Conserved.same (kept : s.Conserved) (lists : t.list = s.list) (held : t.held = s.held) : t.Conserved :=
  conserved_iff.mpr (Holds.same (conserved_iff.mp kept) lists held)

/-- Adding to a list and taking from it. -/
theorem places_list (head : Head) (nodes : List Nat) (other : Nat) :
    places { s with list := Function.update s.list head nodes } other + (s.list head).count other =
      s.places other + nodes.count other := by
  cases head <;> simp [places] <;> omega

theorem Holds.push (holds : s.Holds (node :: hand)) (head : Head) : (s.suPushNode head node).Holds hand := by
  intro other
  have moved := @places_list s head (s.list head ++ [node]) other
  have before := holds other
  rw [List.count_append] at moved
  rw [List.count_cons] at before
  rw [List.count_singleton] at moved
  unfold suPushNode
  omega

theorem Holds.pop (holds : s.Holds hand) (head : Head) :
    (∃ node, (s.suPopNode head).1 = some node ∧ (s.suPopNode head).2.Holds (node :: hand)) ∨
      (s.suPopNode head).1 = none ∧ (s.suPopNode head).2 = s := by
  unfold suPopNode
  split
  · exact .inr ⟨rfl, rfl⟩
  next node others front =>
    refine .inl ⟨node, rfl, fun other => ?_⟩
    have moved := @places_list s head others other
    have before := holds other
    rw [front, List.count_cons] at moved
    rw [List.count_cons]
    dsimp only
    omega

theorem Holds.free (holds : s.Holds (node :: hand)) : (s.sdioFreeValidNode node).Holds hand :=
  @Holds.push { s with length := Function.update s.length node 0 } node hand (holds.same rfl rfl) .freeNodes

theorem Holds.alloc (holds : s.Holds hand) (bufSize : UInt32) (memory : Bool) :
    (∃ node, (s.sdioAllocValidNode bufSize memory).1 = some node ∧
        (s.sdioAllocValidNode bufSize memory).2.Holds (node :: hand)) ∨
      (s.sdioAllocValidNode bufSize memory).1 = none ∧ (s.sdioAllocValidNode bufSize memory).2.Holds hand := by
  unfold sdioAllocValidNode
  split
  · exact .inr ⟨rfl, holds⟩
  rcases holds.pop .freeNodes with ⟨node, first, taken⟩ | ⟨none, same⟩
  · rw [← Prod.eta (s.suPopNode .freeNodes), first]
    cases memory with
    | true => exact .inl ⟨node, rfl, taken.same rfl rfl⟩
    | false => exact .inr ⟨rfl, taken.push .freeNodes⟩
  · rw [← Prod.eta (s.suPopNode .freeNodes), none, same]
    exact .inr ⟨rfl, holds⟩

theorem Holds.hold (holds : s.Holds (node :: hand)) : (s.hold node).Holds hand := by
  intro other
  have before := holds other
  rw [List.count_cons] at before
  simp only [places, Sdio.hold, List.count_cons] at before ⊢
  omega

theorem Holds.letGo (holds : s.Holds hand) (member : node ∈ s.held) : (s.letGo node).Holds (node :: hand) := by
  intro other
  have before := holds other
  have erased := (List.perm_cons_erase member).count_eq other
  rw [List.count_cons] at erased
  rw [List.count_cons]
  simp only [places, Sdio.letGo] at before ⊢
  omega

/-! ## The steps -/

theorem Holds.start {offset len : UInt32} (holds : s.Holds []) :
    ∀ t ∈ (s.sdmaStart node offset len).after, t.Conserved := by
  unfold sdmaStart
  split
  · exact nofun
  · rintro t ⟨rfl⟩
    exact holds

theorem Holds.setRxLen (holds : s.Holds hand) : (s.setRxLen blk512 cmd).Holds hand := by
  cases blk512 <;> exact holds.same rfl rfl

theorem Holds.setStart (holds : s.Holds hand) : (s.setStart blk512 cmd).Holds hand := by
  unfold Sdio.setStart
  dsimp only
  split
  · split <;> split <;> exact holds.same rfl rfl
  · exact holds

theorem Holds.wrNode (holds : s.Holds hand) :
    (∃ node, (s.wrNode blk512 cmd memory).1 = some node ∧ (s.wrNode blk512 cmd memory).2.Holds (node :: hand)) ∨
      (s.wrNode blk512 cmd memory).1 = none ∧ (s.wrNode blk512 cmd memory).2.Holds hand := by
  unfold Sdio.wrNode
  rcases holds.pop .rxingList with ⟨node, first, taken⟩ | ⟨none, same⟩
  · rw [← Prod.eta (s.suPopNode .rxingList), first]
    dsimp only
    split
    · rcases taken.free.alloc (mSize cmd.totalSize) memory with ⟨other, found, left⟩ | ⟨absent, left⟩
      · exact .inl ⟨other, found, left.same rfl rfl⟩
      · exact .inr ⟨absent, left.same rfl rfl⟩
    · exact .inl ⟨node, rfl, taken⟩
  · rw [← Prod.eta (s.suPopNode .rxingList), none, same]
    exact holds.alloc _ _

theorem Holds.opWrDtcm (holds : s.Holds []) : ∀ t ∈ (s.opWrDtcm blk512 cmd memory).after, t.Conserved := by
  unfold Sdio.opWrDtcm
  dsimp only
  split
  · exact nofun
  rcases (@Holds.setRxLen blk512 s [] cmd holds).wrNode with ⟨node, found, taken⟩ | ⟨none, left⟩
  · rw [found]
    exact Holds.start (Holds.push (taken.setStart.same rfl rfl) .rxingList)
  · rw [none]
    rintro t ⟨rfl⟩
    exact conserved_iff.mpr (left.setStart.same rfl rfl)

theorem Holds.rdNode (holds : s.Holds hand) :
    (∃ node, s.rdNode.1 = some node ∧ s.rdNode.2.Holds (node :: hand)) ∨ s.rdNode.1 = none ∧ s.rdNode.2.Holds hand := by
  unfold Sdio.rdNode
  rcases holds.pop .txingList with ⟨node, first, taken⟩ | ⟨none, same⟩
  · rw [← Prod.eta (s.suPopNode .txingList), first]
    exact .inl ⟨node, rfl, taken⟩
  · rw [← Prod.eta (s.suPopNode .txingList), none, same]
    rcases holds.pop .txDat with ⟨node, first, taken⟩ | ⟨none, same⟩
    · exact .inl ⟨node, first, taken⟩
    · exact .inr ⟨none, by rwa [same]⟩

theorem Holds.setTxLen (holds : s.Holds hand) : (s.setTxLen cmd).Holds hand := by
  unfold Sdio.setTxLen
  dsimp only
  split <;> exact holds.same rfl rfl

theorem Holds.opRdDtcm (holds : s.Holds []) : ∀ t ∈ (s.opRdDtcm blk512 cmd).after, t.Conserved := by
  unfold Sdio.opRdDtcm
  dsimp only
  split
  · exact nofun
  rcases (@Holds.setTxLen s [] cmd holds).rdNode with ⟨node, found, taken⟩ | ⟨none, left⟩
  · rw [← Prod.eta (s.setTxLen cmd).rdNode, found]
    exact Holds.start (Holds.push (taken.same rfl rfl) .txingList)
  · rw [← Prod.eta (s.setTxLen cmd).rdNode, none]
    rintro t ⟨rfl⟩
    exact conserved_iff.mpr (left.same rfl rfl)

theorem Holds.sdioCmdHandler (holds : s.Holds []) :
    ∀ t ∈ (s.sdioCmdHandler blk512 cmd memory).after, t.Conserved := by
  unfold Sdio.sdioCmdHandler
  split
  · exact holds.opWrDtcm
  split
  · exact holds.opRdDtcm
  split
  · rintro t ⟨rfl⟩
    exact holds
  split
  · unfold opRdReg
    dsimp only
    split
    · exact nofun
    · rintro t ⟨rfl⟩
      exact holds
  · rintro t ⟨rfl⟩
    exact holds

theorem Holds.txDone (holds : s.Holds [node]) : ∀ t ∈ s.txDone node, t.Conserved := by
  unfold Sdio.txDone
  split
  · exact nofun
  · rintro t ⟨rfl⟩
    exact conserved_iff.mpr (holds.free.same rfl rfl)

theorem Holds.sdioTxCb (holds : s.Holds []) : ∀ t ∈ s.sdioTxCb blk512, t.Conserved := by
  unfold Sdio.sdioTxCb
  rcases holds.pop .txingList with ⟨node, first, taken⟩ | ⟨none, same⟩
  · rw [← Prod.eta (s.suPopNode .txingList), first]
    dsimp only
    split
    · split
      · exact Holds.txDone (taken.same rfl rfl)
      · rintro t ⟨rfl⟩
        exact conserved_iff.mpr (Holds.push (taken.same rfl rfl) .txingList)
    · split
      · exact nofun
      · rintro t ⟨rfl⟩
        exact conserved_iff.mpr (Holds.free (taken.same rfl rfl))
  · rw [← Prod.eta (s.suPopNode .txingList), none, same]
    dsimp only
    split
    · rintro t ⟨rfl⟩
      exact conserved_iff.mpr (holds.same rfl rfl)
    · exact nofun

theorem Holds.rxDone (holds : s.Holds [node]) : ∀ t ∈ s.rxDone node, t.Conserved := by
  unfold Sdio.rxDone
  split
  · exact nofun
  · rintro t ⟨rfl⟩
    exact holds.push .rxDat

theorem Holds.sdioRxCb (holds : s.Holds []) {hdr : FrameHdr} : ∀ t ∈ s.sdioRxCb blk512 hdr, t.Conserved := by
  unfold Sdio.sdioRxCb
  rcases holds.pop .rxingList with ⟨node, first, taken⟩ | ⟨none, same⟩
  · rw [← Prod.eta (s.suPopNode .rxingList), first]
    dsimp only
    split
    · split
      · split
        · rintro t ⟨rfl⟩
          exact conserved_iff.mpr ((Holds.free (taken.same rfl rfl)).same rfl rfl)
        · intro t whole
          obtain ⟨u, done, rfl⟩ := Option.map_eq_some_iff.mp whole
          have kept : u.Conserved := by
            refine Holds.rxDone ?_ u done
            exact taken.same rfl rfl
          exact kept.same rfl rfl
      · rintro t ⟨rfl⟩
        exact conserved_iff.mpr (Holds.push (taken.same rfl rfl) .rxingList)
    · exact Holds.rxDone (taken.same rfl rfl)
  · rw [← Prod.eta (s.suPopNode .rxingList), none, same]
    dsimp only
    split
    · rintro t ⟨rfl⟩
      exact conserved_iff.mpr (holds.same rfl rfl)
    · exact nofun

theorem Holds.readSync (holds : s.Holds []) (head : Head) : (s.readSync head).Conserved := by
  unfold Sdio.readSync
  rcases holds.pop head with ⟨node, first, taken⟩ | ⟨none, same⟩
  · rw [← Prod.eta (s.suPopNode head), first]
    exact taken.free
  · rw [← Prod.eta (s.suPopNode head), none, same]
    exact holds

theorem Holds.sdioRead (holds : s.Holds []) {userBuf : Bool} {count opFlag : UInt32} :
    (s.sdioRead userBuf count opFlag).Conserved := by
  unfold Sdio.sdioRead
  split
  · split
    · exact holds.readSync .txDat
    · exact holds
  split
  · split
    · exact holds.readSync .rxDat
    · exact holds
  split
  · rcases holds.pop .rxDat with ⟨node, first, taken⟩ | ⟨none, same⟩
    · rw [← Prod.eta (s.suPopNode .rxDat), first]
      exact taken.hold
    · rw [← Prod.eta (s.suPopNode .rxDat), none, same]
      exact holds
  · exact holds

theorem Holds.writeSync (holds : s.Holds []) (head : Head) (count : UInt32) (memory : Bool) :
    (s.writeSync head count memory).Conserved := by
  unfold Sdio.writeSync
  rcases holds.alloc count memory with ⟨node, found, taken⟩ | ⟨none, left⟩
  · rw [← Prod.eta (s.sdioAllocValidNode count memory), found]
    exact taken.push head
  · rw [← Prod.eta (s.sdioAllocValidNode count memory), none]
    exact left

theorem Holds.sdioWrite (holds : s.Holds []) {userBuf : Option Nat} {count opFlag : UInt32} :
    ∀ t ∈ s.sdioWrite userBuf count opFlag memory, t.Conserved := by
  unfold Sdio.sdioWrite
  split
  · rintro t ⟨rfl⟩
    exact holds
  next node =>
    split
    · rintro t ⟨rfl⟩
      exact holds
    split
    · intro t same
      obtain rfl := Option.some.inj same
      exact (holds.writeSync .txDat count memory).same rfl rfl
    split
    · split
      next member =>
        rintro t ⟨rfl⟩
        exact conserved_iff.mpr (((holds.letGo member).push .txDat).same rfl rfl)
      · exact nofun
    split
    · rintro t ⟨rfl⟩
      exact holds.writeSync .rxDat count memory
    · rintro t ⟨rfl⟩
      exact holds

theorem Holds.sdioCtrl (holds : s.Holds []) {request param : UInt32} :
    ∀ t ∈ s.sdioCtrl request param memory, t.Conserved := by
  unfold Sdio.sdioCtrl
  split
  · split
    next member =>
      rintro t ⟨rfl⟩
      exact (holds.letGo member).free
    · exact nofun
  split
  · rcases holds.alloc param memory with ⟨node, found, taken⟩ | ⟨none, left⟩
    · rw [← Prod.eta (s.sdioAllocValidNode param memory), found]
      rintro t ⟨rfl⟩
      exact taken.hold
    · rw [← Prod.eta (s.sdioAllocValidNode param memory), none]
      rintro t ⟨rfl⟩
      exact left
  split
  · rintro t ⟨rfl⟩
    exact conserved_iff.mpr (holds.same rfl rfl)
  split
  · rintro t ⟨rfl⟩
    exact conserved_iff.mpr (holds.same rfl rfl)
  · rintro t ⟨rfl⟩
    exact holds

theorem Conserved.perform (holds : s.Conserved) (event : Event) :
    ∀ t ∈ (perform blk512 s event).after, t.Conserved := by
  cases event with
  | cmd cmd memory => exact Holds.sdioCmdHandler holds
  | txCb => exact Holds.sdioTxCb holds
  | rxCb hdr => exact Holds.sdioRxCb holds
  | read userBuf count opFlag =>
    rintro t ⟨rfl⟩
    exact Holds.sdioRead holds
  | write userBuf count opFlag memory => exact Holds.sdioWrite holds
  | ctrl request param memory => exact Holds.sdioCtrl holds

theorem sdioInit_conserved : sdioInit.Conserved := by
  intro node
  simp only [places, sdioInit, if_true, reduceCtorEq, if_false, List.count_nil, Nat.add_zero]
  rw [List.nodup_range.count]
  simp only [List.mem_range]

/-! ## What the commands reach -/

/-- Where a frame of the command begins and how much of it comes. -/
def wrStart (blk512 : Bool) (cmd : Cmd) : Nat := if blk512 then cmd.startLen.toNat else 0

def wrLen (blk512 : Bool) (cmd : Cmd) : Nat := if blk512 then cmd.dataLen.toNat else min 4096 cmd.dataLen.toNat

/-- The bytes of a buffer from the node's address on, for a node of the length. -/
def room (length : UInt32) : Nat := length.toNat + cfgMsduResvTailLen + mallocMagicLen

/-- The frame fits the node that the transfer before left or, without one, a new node. -/
def WrFits (blk512 : Bool) (s : Sdio) (cmd : Cmd) (memory : Bool) : Prop :=
  cmd.dataLen ≠ 0 →
    match s.list .rxingList with
    | [] => memory = true → s.list .freeNodes ≠ [] →
      wrStart blk512 cmd + wrLen blk512 cmd ≤ room (newSize blk512 cmd)
    | node :: others => (blk512 = true → others = []) →
      if blk512 ∧ s.rxSeq ≠ cmd.seq then
        memory = true → wrStart blk512 cmd + wrLen blk512 cmd ≤ room (newSize blk512 cmd)
      else wrStart blk512 cmd + wrLen blk512 cmd ≤ room (s.length node)

/-- What the host wants of a frame is there, in the node that is being sent or the next one. -/
def RdFits (blk512 : Bool) (s : Sdio) (cmd : Cmd) : Prop :=
  cmd.dataLen ≠ 0 →
    match s.list .txingList, s.list .txDat with
    | node :: others, _ => (blk512 = true → others = []) →
      (if blk512 then s.tcLen.toNat else 0) + min 4096 cmd.dataLen.toNat ≤ room (s.length node)
    | [], node :: _ => (blk512 = true → s.tcLen = 0) → min 4096 cmd.dataLen.toNat ≤ room (s.length node)
    | [], [] => True

/-- The registers are counted in the bytes of a command. -/
def RegFits (cmd : Cmd) : Prop := 4 ≤ cmd.len ∧ cmd.len ≤ 67

def Fits (blk512 : Bool) (s : Sdio) : Event → Prop
  | .cmd cmd memory =>
    if cmd.opCode = opcWrDtcm then WrFits blk512 s cmd memory
    else if cmd.opCode = opcRdDtcm then RdFits blk512 s cmd
    else if cmd.opCode = opcWrReg ∨ cmd.opCode = opcRdReg then RegFits cmd
    else True
  | _ => True

theorem sdmaStart_inside {offset len : UInt32} :
    (∀ access ∈ (s.sdmaStart node offset len).accesses, access.Inside) ↔
      (len ≠ 0 → offset.toNat + len.toNat ≤ room (s.length node)) := by
  unfold sdmaStart
  split
  next zero => simp [zero]
  next some =>
    simp only [List.forall_mem_singleton, Access.Inside, buffer, room]
    constructor
    · intro inside _
      omega
    · intro inside
      have := inside some
      omega

theorem forall_range_pair {count : Nat} {first second : Nat → Access} {P : Access → Prop} :
    (∀ access ∈ (List.range count).flatMap fun i => [first i, second i], P access) ↔
      ∀ i < count, P (first i) ∧ P (second i) := by
  constructor
  · intro all i less
    have member (access) (here : access = first i ∨ access = second i) : P access :=
      all access (List.mem_flatMap.mpr ⟨i, List.mem_range.mpr less, by simpa using here⟩)
    exact ⟨member _ (.inl rfl), member _ (.inr rfl)⟩
  · intro all access member
    obtain ⟨i, less, here⟩ := List.mem_flatMap.mp member
    have both := all i (List.mem_range.mp less)
    rcases List.mem_pair.mp here with rfl | rfl
    · exact both.1
    · exact both.2

/-- Below four bytes the count of registers wraps to 255. -/
theorem regNumb_write (len : UInt8) :
    regNumb len 3 = if len.toNat < 4 then 255 else (len.toNat - 4) / 8 := by
  have bound := len.toNat_lt
  rw [regNumb, Int.shiftRight_eq_div_pow]
  split <;> omega

theorem regNumb_read (len : UInt8) :
    regNumb len 2 = if len.toNat < 4 then 255 else (len.toNat - 4) / 4 := by
  have bound := len.toNat_lt
  rw [regNumb, Int.shiftRight_eq_div_pow]
  split <;> omega

theorem regFits_iff : RegFits cmd ↔ 4 ≤ cmd.len.toNat ∧ cmd.len.toNat ≤ 67 := by
  rw [RegFits, UInt8.le_iff_toNat_le, UInt8.le_iff_toNat_le]
  rfl

theorem opWrReg_inside : (∀ access ∈ (s.opWrReg cmd).accesses, access.Inside) ↔ RegFits cmd := by
  unfold opWrReg
  dsimp only
  rw [forall_range_pair, regNumb_write, regFits_iff]
  simp only [Access.Inside, maxContentCount]
  constructor
  · intro all
    split at all
    · have := all 254 (by omega)
      omega
    · by_contra beyond
      have := all 7 (by omega)
      omega
  · intro fits i less
    rw [if_neg (by omega)] at *
    omega

theorem opRdReg_inside : (∀ access ∈ (s.opRdReg cmd).accesses, access.Inside) ↔ RegFits cmd := by
  have reads : (∀ access ∈ (List.range (regNumb cmd.len 2)).flatMap fun i => [Access.content i, .regVal i],
      access.Inside) ↔ RegFits cmd := by
    rw [forall_range_pair, regNumb_read, regFits_iff]
    simp only [Access.Inside, maxContentCount]
    constructor
    · intro all
      split at all
      · have := all 254 (by omega)
        omega
      · by_contra beyond
        have := all 15 (by omega)
        omega
    · intro fits i less
      rw [if_neg (by omega)] at less
      omega
  unfold opRdReg
  dsimp only
  split
  · exact reads
  · rw [List.forall_mem_append, reads, List.forall_mem_singleton]
    exact and_iff_left (Nat.min_le_left _ _)

theorem blockLen_min (dataLen : UInt16) : (minOf blockLen (dataLen.toUInt32 - 0)).toNat = min 4096 dataLen.toNat := by
  have whole : (dataLen.toUInt32).toNat = dataLen.toNat := UInt16.toNat_toUInt32 dataLen
  have block : blockLen.toNat = 4096 := rfl
  rw [UInt32.sub_zero, minOf, ← whole, ← block]
  simp only [UInt32.lt_iff_toNat_lt]
  split <;> omega

theorem minOf_zero {dataLen : UInt16} : minOf blockLen (dataLen.toUInt32 - 0) = 0 ↔ dataLen = 0 := by
  rw [← UInt32.toNat_inj, blockLen_min, ← UInt16.toNat_inj]
  change min 4096 dataLen.toNat = 0 ↔ dataLen.toNat = 0
  omega

theorem dataLen_zero {dataLen : UInt16} : dataLen.toUInt32 = 0 ↔ dataLen = 0 := by
  rw [← UInt32.toNat_inj, ← UInt16.toNat_inj, UInt16.toNat_toUInt32]
  rfl

/-- What a new node is like, and when there is one. -/
theorem alloc_spec (s : Sdio) (bufSize : UInt32) (memory : Bool) :
    ((s.sdioAllocValidNode bufSize memory).1.isSome ↔ bufSize ≠ 0 ∧ memory = true ∧ s.list .freeNodes ≠ []) ∧
      (∀ node ∈ (s.sdioAllocValidNode bufSize memory).1,
        (s.sdioAllocValidNode bufSize memory).2.length node = bufSize) ∧
      ∃ length list, (s.sdioAllocValidNode bufSize memory).2 = { s with length := length, list := list } := by
  unfold sdioAllocValidNode suPopNode
  split
  next zero => exact ⟨by simp [zero], nofun, _, _, rfl⟩
  next some =>
    cases free : s.list .freeNodes with
    | nil => exact ⟨by simp, nofun, _, _, rfl⟩
    | cons node others =>
      cases memory with
      | false => exact ⟨by simp, nofun, _, _, rfl⟩
      | true =>
        refine ⟨by simp [some], ?_, _, _, rfl⟩
        rintro _ ⟨rfl⟩
        exact Function.update_self _ _ _

theorem mSize_ne_zero (totalSize : UInt16) : mSize totalSize ≠ 0 := by
  unfold mSize
  split
  · decide
  split
  · decide
  split <;> decide

/-- A transfer into the node that the command has found. -/
theorem wr_started {taken : Sdio} (fresh : blk512 = false → taken.rxLen = cmd.dataLen.toUInt32 ∧ taken.rHdlLen = 0)
    {start : Sdio} (shape : start = taken.setStart blk512 cmd) (status : UInt16) :
    (∀ access ∈ (({ start with rxStatus := status, rxTransactionLen := start.rxTransaction blk512 cmd }.suPushNode
        .rxingList node).sdmaStart node (if blk512 then start.rcLen else 0)
          (start.rxTransaction blk512 cmd)).accesses, access.Inside) ↔
      (cmd.dataLen ≠ 0 → wrStart blk512 cmd + wrLen blk512 cmd ≤ room (taken.length node)) := by
  rw [sdmaStart_inside]
  cases blk512 with
  | true =>
    have length : start.length = taken.length := by
      rw [shape]
      simp only [setStart, if_true]
      split <;> split <;> rfl
    have begins : start.rcLen = cmd.startLen.toUInt32 := by
      rw [shape]
      simp only [setStart, if_true]
      split
      · split <;> rfl
      next same =>
        split
        · exact Classical.not_not.mp same
        · exact Classical.not_not.mp same
    change (cmd.dataLen.toUInt32 ≠ 0 → start.rcLen.toNat + cmd.dataLen.toUInt32.toNat ≤ room (start.length node)) ↔ _
    rw [begins, length, Ne, dataLen_zero, UInt16.toNat_toUInt32, UInt16.toNat_toUInt32]
    rfl
  | false =>
    obtain ⟨rxLen, rHdlLen⟩ := fresh rfl
    obtain rfl : start = taken := shape
    change (minOf blockLen (start.rxLen - start.rHdlLen) ≠ 0 →
      0 + (minOf blockLen (start.rxLen - start.rHdlLen)).toNat ≤ room (start.length node)) ↔ _
    rw [rxLen, rHdlLen, blockLen_min, Ne, minOf_zero]
    rfl

/-- The transfer into the node that the command has found, if any. -/
def wrAccesses (blk512 : Bool) (cmd : Cmd) : Option Nat × Sdio → List Access
  | (some node, taken) =>
    let start := taken.setStart blk512 cmd
    (({ start with rxStatus := rxNodeOk, rxTransactionLen := start.rxTransaction blk512 cmd }.suPushNode
      .rxingList node).sdmaStart node (if blk512 then start.rcLen else 0) (start.rxTransaction blk512 cmd)).accesses
  | (none, _) => []

theorem opWrDtcm_accesses (one : ¬(blk512 = true ∧ 2 ≤ s.suGetNodeCount .rxingList)) :
    (s.opWrDtcm blk512 cmd memory).accesses =
      wrAccesses blk512 cmd ((s.setRxLen blk512 cmd).wrNode blk512 cmd memory) := by
  have count : (s.setRxLen blk512 cmd).suGetNodeCount .rxingList = s.suGetNodeCount .rxingList := by
    cases blk512 <;> rfl
  unfold opWrDtcm
  dsimp only
  rw [count, if_neg one, ← Prod.eta ((s.setRxLen blk512 cmd).wrNode blk512 cmd memory)]
  cases ((s.setRxLen blk512 cmd).wrNode blk512 cmd memory).1 <;> rfl

/-- A transfer into a new node, if there is one. -/
theorem alloc_started {bufSize : UInt32} {found : Option Nat × Sdio} (some : cmd.dataLen ≠ 0 → bufSize ≠ 0)
    (node : found.1 = (s.sdioAllocValidNode bufSize memory).1)
    (length : found.2.length = (s.sdioAllocValidNode bufSize memory).2.length)
    (fresh : blk512 = false → found.2.rxLen = cmd.dataLen.toUInt32 ∧ found.2.rHdlLen = 0) :
    (∀ access ∈ wrAccesses blk512 cmd found, access.Inside) ↔
      (cmd.dataLen ≠ 0 → memory = true → s.list .freeNodes ≠ [] →
        wrStart blk512 cmd + wrLen blk512 cmd ≤ room bufSize) := by
  obtain ⟨present, size, _⟩ := alloc_spec s bufSize memory
  obtain ⟨first, taken⟩ := found
  simp only at node length fresh
  cases first with
  | none =>
    rw [← node] at present
    refine ⟨fun _ long there free => ?_, fun _ _ none => absurd none List.not_mem_nil⟩
    exact absurd (present.mpr ⟨some long, there, free⟩) Bool.false_ne_true
  | some n =>
    rw [← node] at present size
    obtain ⟨_, there, free⟩ := present.mp rfl
    refine (wr_started fresh rfl rxNodeOk).trans ?_
    rw [length, size n rfl]
    exact ⟨fun fits long _ _ => fits long, fun fits long => fits long there free⟩

theorem opWrDtcm_inside :
    (∀ access ∈ (s.opWrDtcm blk512 cmd memory).accesses, access.Inside) ↔ WrFits blk512 s cmd memory := by
  have lists : (s.setRxLen blk512 cmd).list = s.list := by cases blk512 <;> rfl
  have lengths : (s.setRxLen blk512 cmd).length = s.length := by cases blk512 <;> rfl
  have seq : (s.setRxLen blk512 cmd).rxSeq = s.rxSeq := by cases blk512 <;> rfl
  have fresh : blk512 = false →
      (s.setRxLen blk512 cmd).rxLen = cmd.dataLen.toUInt32 ∧ (s.setRxLen blk512 cmd).rHdlLen = 0 := by
    rintro rfl
    exact ⟨rfl, rfl⟩
  have some : cmd.dataLen ≠ 0 → newSize blk512 cmd ≠ 0 := by
    intro long
    cases blk512 with
    | true => exact mSize_ne_zero _
    | false => exact fun zero => long (dataLen_zero.mp zero)
  by_cases one : blk512 = true ∧ 2 ≤ s.suGetNodeCount .rxingList
  · obtain ⟨whole, two⟩ := one
    have none : (s.opWrDtcm blk512 cmd memory).accesses = [] := by
      unfold opWrDtcm
      rw [if_pos ⟨whole, by rw [suGetNodeCount, lists]; exact two⟩]
    rw [none, WrFits]
    refine ⟨fun _ _ => ?_, fun _ _ never => absurd never List.not_mem_nil⟩
    unfold suGetNodeCount at two
    split
    next front =>
      rw [front] at two
      exact absurd two (by decide)
    next node others front =>
      intro single
      rw [front, single whole, List.length_singleton] at two
      omega
  rw [opWrDtcm_accesses one, WrFits]
  generalize s.setRxLen blk512 cmd = u at *
  cases front : s.list .rxingList with
  | nil =>
    have shape : u.wrNode blk512 cmd memory = u.sdioAllocValidNode (newSize blk512 cmd) memory := by
      rw [wrNode, suPopNode, lists, front]
    obtain ⟨_, _, _, _, same⟩ := alloc_spec u (newSize blk512 cmd) memory
    rw [shape, ← lists]
    apply alloc_started some rfl rfl
    rw [same]
    exact fresh
  | cons node others =>
    have single (whole : blk512 = true) : others = [] := by
      by_contra more
      refine one ⟨whole, ?_⟩
      rw [suGetNodeCount, front, List.length_cons]
      exact Nat.succ_le_succ (List.length_pos_iff.mpr more)
    obtain ⟨p, popped, left, begun⟩ : ∃ p, u.suPopNode .rxingList = (Option.some node, p) ∧ p.length = s.length ∧
        (blk512 = false → p.rxLen = cmd.dataLen.toUInt32 ∧ p.rHdlLen = 0) := by
      rw [suPopNode, lists, front]
      exact ⟨_, rfl, lengths, fresh⟩
    dsimp only
    split
    next other =>
      obtain ⟨rfl, apart⟩ := other
      let renewed := (p.sdioFreeValidNode node).sdioAllocValidNode (mSize cmd.totalSize) memory
      have shape : u.wrNode true cmd memory = (renewed.1, { renewed.2 with rxSeq := cmd.seq }) := by
        rw [wrNode, popped]
        exact if_pos ⟨rfl, by rw [seq]; exact apart⟩
      have free : (p.sdioFreeValidNode node).list .freeNodes ≠ [] := by
        simp [sdioFreeValidNode, suPushNode]
      have started := @alloc_started true (p.sdioFreeValidNode node) cmd memory (mSize cmd.totalSize)
        (renewed.1, { renewed.2 with rxSeq := cmd.seq }) some rfl rfl nofun
      rw [shape, started]
      exact ⟨fun fits long _ there => fits long there free, fun fits long there _ => fits long single there⟩
    next same =>
      have shape : u.wrNode blk512 cmd memory = (Option.some node, p) := by
        rw [wrNode, popped]
        exact if_neg (by rw [seq]; exact same)
      have started := @wr_started blk512 node cmd p begun (p.setStart blk512 cmd) rfl rxNodeOk
      rw [left] at started
      rw [shape]
      refine started.trans ?_
      exact ⟨fun fits long _ => fits long, fun fits long => fits long single⟩

/-- A transfer out of the node that the command has found. -/
theorem rd_started {taken : Sdio} (txLen : taken.txLen = cmd.dataLen.toUInt32) (tHdlLen : taken.tHdlLen = 0)
    (tcLen : UInt32) :
    (∀ access ∈ (({ taken with txStatus := txNodeOk, txTransactionLen := minOf blockLen (taken.txLen - taken.tHdlLen) }.suPushNode
        .txingList node).sdmaStart node (if blk512 then tcLen else 0)
          (minOf blockLen (taken.txLen - taken.tHdlLen))).accesses, access.Inside) ↔
      (cmd.dataLen ≠ 0 →
        (if blk512 then tcLen.toNat else 0) + min 4096 cmd.dataLen.toNat ≤ room (taken.length node)) := by
  rw [sdmaStart_inside, txLen, tHdlLen, blockLen_min, Ne, minOf_zero]
  cases blk512 <;> rfl

theorem opRdDtcm_inside : (∀ access ∈ (s.opRdDtcm blk512 cmd).accesses, access.Inside) ↔ RdFits blk512 s cmd := by
  obtain ⟨valid, set⟩ : ∃ valid, s.setTxLen cmd =
      { s with txValid := valid, txLen := cmd.dataLen.toUInt32, tHdlLen := 0 } := by
    unfold setTxLen
    dsimp only
    split <;> exact ⟨_, rfl⟩
  unfold opRdDtcm
  rw [set]
  dsimp only [suGetNodeCount]
  rw [RdFits]
  split
  next stopped =>
    refine ⟨fun _ _ => ?_, fun _ _ never => absurd never List.not_mem_nil⟩
    obtain ⟨whole, counts⟩ := stopped
    split
    next node others front =>
      intro single
      rw [front, single whole, List.length_singleton] at counts
      rcases counts with two | ⟨none, _⟩
      · exact absurd two (by decide)
      · exact absurd none (by decide)
    next front _ =>
      intro start
      rw [front, List.length_nil, start whole] at counts
      rcases counts with two | ⟨_, later⟩
      · exact absurd two (by decide)
      · exact absurd rfl later
    · trivial
  next going =>
    unfold rdNode suPopNode
    dsimp only
    cases front : s.list .txingList with
    | cons node others =>
      have single (whole : blk512 = true) : others = [] := by
        by_contra more
        refine going ⟨whole, .inl ?_⟩
        rw [front, List.length_cons]
        exact Nat.succ_le_succ (List.length_pos_iff.mpr more)
      apply Iff.trans (rd_started rfl rfl s.tcLen)
      exact ⟨fun fits long _ => fits long, fun fits long => fits long single⟩
    | nil =>
      have start (whole : blk512 = true) : s.tcLen = 0 := by
        by_contra later
        refine going ⟨whole, .inr ⟨?_, later⟩⟩
        rw [front, List.length_nil]
      cases data : s.list .txDat with
      | nil =>
        dsimp only
        rw [data]
        exact ⟨fun _ _ => trivial, fun _ _ never => absurd never List.not_mem_nil⟩
      | cons node others =>
        dsimp only
        rw [data]
        refine (@rd_started blk512 node cmd _ rfl rfl s.tcLen).trans ?_
        have zero : (if blk512 then s.tcLen.toNat else 0) = 0 := by
          split
          next whole =>
            rw [start whole]
            rfl
          · rfl
        rw [zero, Nat.zero_add]
        exact ⟨fun fits long _ => fits long, fun fits long => fits long start⟩

theorem perform_inside_iff {event : Event} :
    (∀ access ∈ (perform blk512 s event).accesses, access.Inside) ↔ Fits blk512 s event := by
  cases event with
  | cmd cmd memory =>
    unfold perform Fits
    dsimp only
    unfold sdioCmdHandler
    by_cases write : cmd.opCode = opcWrDtcm
    · rw [if_pos write, if_pos write]
      exact opWrDtcm_inside
    by_cases read : cmd.opCode = opcRdDtcm
    · rw [if_neg write, if_neg write, if_pos read, if_pos read]
      exact opRdDtcm_inside
    rw [if_neg write, if_neg write, if_neg read, if_neg read]
    by_cases writeReg : cmd.opCode = opcWrReg
    · rw [if_pos writeReg, if_pos (.inl writeReg)]
      exact opWrReg_inside
    by_cases readReg : cmd.opCode = opcRdReg
    · rw [if_neg writeReg, if_pos readReg, if_pos (.inr readReg)]
      exact opRdReg_inside
    · rw [if_neg writeReg, if_neg readReg, if_neg (not_or.mpr ⟨writeReg, readReg⟩)]
      exact iff_of_true (fun _ never => absurd never List.not_mem_nil) trivial
  | txCb | rxCb | read | write | ctrl => exact iff_of_true (fun _ never => absurd never List.not_mem_nil) trivial

end Sdio

end BekenSdk.SdioNodes

/-! ## Runs

Runs of the host's commands, the callbacks and the callers, in any order.
-/

namespace BekenSdk.SdioNodes
open Base

/-- Nothing follows a failed assertion. -/
def step (blk512 : Bool) (event : Event) (s : Option Sdio) : Option (Option Sdio) :=
  s.map fun s => (perform blk512 s event).after

variable {blk512 : Bool} {moments : List (Moment (Option Sdio) Event)} {final : Option Sdio}

theorem conserved_of_run (run : Run (Machine.Step (step blk512)) (some sdioInit) moments final) :
    Machine.Always (fun s => ∀ sdio ∈ s, sdio.Conserved) moments final := by
  have initial : ∀ sdio ∈ some sdioInit, sdio.Conserved := by
    rintro _ ⟨rfl⟩
    exact Sdio.sdioInit_conserved
  refine @Machine.always_of_invariant _ _ _ _ _ _ _ (fun _ _ => True) run initial ?_ fun _ _ => trivial
  intro s t event conserved _ taken
  obtain ⟨before, rfl, rfl⟩ := Option.map_eq_some_iff.mp taken
  exact (conserved before rfl).perform event

def writeCmd (dataLen : UInt16) : Event :=
  .cmd { opCode := opcWrDtcm, len := 0, dataLen := dataLen, startLen := 0, seq := 0, totalSize := dataLen } true

/-- A frame of the host is received, read and given back. -/
def frameRead : List Event :=
  [.ctrl sdioCmdPushFreeNode 0 true, .read false 0 h2sRdSpecial, .rxCb { len := 1500, seq := 0 }, writeCmd 1500]

end BekenSdk.SdioNodes
