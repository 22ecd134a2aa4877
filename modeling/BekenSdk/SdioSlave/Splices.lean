import BekenSdk.Base.Machine
import BekenSdk.SdioSlave.Lists

/-! Sequences of calls on one list, with any chains as arguments. The check of a chain tells exactly whether it is one
with that end and that number of nodes; what it does not tell is whether the chain is part of the list already.
-/

set_option autoImplicit false

namespace BekenSdk.SdioSlave
open Base

variable {nodes : Nodes} {list : SdioList} {members more : List NodePtr} {p headP tailP : NodePtr}
  {count compute : UInt32}

/-! ## What the check tells -/

/-- A walk that ends well was along a chain with that end, and has counted the rest of it. -/
theorem chain_of_walk (walked : sdioListWalk nodes tailP count compute p = .ok) (ended : tailP ≠ 0 → (nodes tailP).next = 0) :
    ∃ rest, rest ≠ [] ∧ Chain nodes p rest ∧ lastOf rest = tailP ∧ rest.length = (count - compute).toNat + 1 := by
  fun_induction sdioListWalk nodes tailP count compute p with
  | case1 => cases walked
  | case2 some_node =>
    exact ⟨[tailP], List.cons_ne_nil _ _, ⟨rfl, some_node, ended some_node⟩, rfl, by rw [UInt32.sub_self]; rfl⟩
  | case3 => cases walked
  | case4 compute cur some_node before ih =>
    obtain ⟨rest, some_rest, chain, last, counted⟩ := ih walked
    have apart : compute.toNat ≠ count.toNat := fun same => before (UInt32.toNat_inj.mp same)
    have small := compute.toNat_lt
    have large := count.toNat_lt
    refine ⟨cur :: rest, List.cons_ne_nil _ _, ⟨rfl, some_node, chain⟩, ?_, ?_⟩
    · have shorter : lastOf ([cur] ++ rest) = lastOf rest := lastOf_append some_rest
      exact shorter.trans last
    · rw [List.length_cons, counted]
      simp only [UInt32.toNat_sub, UInt32.toNat_add, UInt32.reduceToNat]
      omega

/-- The check passes exactly the chains that are as the arguments say. -/
theorem sdioListCheck_iff : sdioListCheck nodes headP tailP count = .ok ↔
    ∃ more, more ≠ [] ∧ Lists nodes ⟨headP, tailP, count⟩ more := by
  constructor
  · intro checked
    unfold sdioListCheck at checked
    split at checked
    · cases checked
    split at checked
    · cases checked
    next open_end =>
      have ended : tailP ≠ 0 → (nodes tailP).next = 0 := by
        intro some_tail
        by_contra more
        exact open_end ⟨some_tail, more⟩
      obtain ⟨more, some_more, chain, last, counted⟩ := chain_of_walk checked ended
      refine ⟨more, some_more, chain, last.symm, ?_, chain.nodup⟩
      -- a count of 0 would need more nodes than there are
      have few := length_lt_of_nodup chain.nodup chain.nonzero
      have large := count.toNat_lt
      rw [counted] at few ⊢
      simp only [UInt32.toNat_sub, UInt32.reduceToNat] at few ⊢
      omega
  · rintro ⟨more, some_more, lists⟩
    exact lists.check some_more

/-! ## Chains that share nodes -/

/-- Chains that come to one node end together. -/
theorem Chain.last_eq {q n : NodePtr} (chain : Chain nodes p members) (other : Chain nodes q more) (inside : n ∈ members)
    (inOther : n ∈ more) : lastOf members = lastOf more := by
  obtain ⟨front, rest, rfl, from_here⟩ := chain.suffix inside
  obtain ⟨otherFront, otherRest, rfl, from_there⟩ := other.suffix inOther
  rw [lastOf_append (List.cons_ne_nil _ _), lastOf_append (List.cons_ne_nil _ _), from_here.unique from_there]

theorem Chain.disjoint_iff {q : NodePtr} (chain : Chain nodes p members) (other : Chain nodes q more)
    (some_node : members ≠ []) (some_more : more ≠ []) : members.Disjoint more ↔ lastOf more ≠ lastOf members := by
  constructor
  · intro apart same
    exact apart (lastOf_mem some_node) (same ▸ lastOf_mem some_more)
  · intro ends n inside inOther
    exact ends (chain.last_eq other inside inOther).symm

theorem setNext_self (same : (nodes p).next = headP) : nodes.setNext p headP = nodes := by
  rw [Nodes.setNext, ← same]
  exact Function.update_eq_self p nodes

theorem setNext_setNext : (nodes.setNext p headP).setNext p tailP = nodes.setNext p tailP := by
  rw [Nodes.setNext, Nodes.setNext, Nodes.setNext, Function.update_idem, Function.update_self]

theorem count_moved (some_more : more ≠ []) (counted : count.toNat = more.length) : list.count + count ≠ list.count := by
  intro same
  have sum := congrArg UInt32.toNat same
  have large := list.count.toNat_lt
  have added := count.toNat_lt
  have positive := List.length_pos_iff.mpr some_more
  rw [UInt32.toNat_add] at sum
  omega

/-- A chain that ends where the list does is refused only when its nodes have been counted in. -/
theorem Lists.push_own (lists : Lists nodes list members) (some_node : members ≠ [])
    (own : Lists nodes ⟨headP, list.tail, count⟩ more) (some_more : more ≠ []) :
    (sdioListPushList nodes list headP list.tail count).1 ≠ .ok ∧
      (sdioListPushList nodes list headP list.tail count).2 = ({ list with count := list.count + count }, nodes) := by
  have checked := own.check some_more
  have listed := lists.check some_node
  have some_head : list.head ≠ 0 := fun none => some_node (lists.head_zero.mp none)
  have ended : (nodes list.tail).next = 0 := by
    rw [lists.tail]
    exact lists.chain.last_next some_node
  -- both writes are to the last node, whose next one is NULL again
  have untouched : (nodes.setNext list.tail headP).setNext list.tail 0 = nodes := by
    rw [setNext_setNext, setNext_self ended]
  unfold sdioListPushList
  rw [if_neg (fun wrong => wrong checked), if_neg some_head, if_neg (fun wrong => wrong listed)]
  dsimp only
  rw [untouched]
  refine ⟨fun accepted => ?_, rfl⟩
  obtain ⟨longer, -, relisted⟩ := sdioListCheck_iff.mp accepted
  have same : longer = members := relisted.chain.unique lists.chain
  have counted : (list.count + count).toNat = longer.length := relisted.count
  rw [same, ← lists.count] at counted
  exact count_moved some_more own.count (UInt32.toNat_inj.mp counted)

/-! ## Sequences of calls -/

/-- The headers in memory and the record of a list. -/
structure ListMemory where
  nodes : Nodes
  list : SdioList

inductive ListCall
  | pushList (headP tailP : NodePtr) (count : UInt32)
  | popNode (nodeP : NodePtr)
  /-- A caller writes a header. -/
  | relink (p : NodePtr) (node : Node)

/-- The nodes of a list that is as recorded. -/
def ListMemory.Denotes (s : ListMemory) (members : List NodePtr) : Prop := Lists s.nodes s.list members

def ListMemory.WellFormed (s : ListMemory) : Prop := ∃ members, s.Denotes members

namespace ListCall

def perform (s : ListMemory) : ListCall → ListMemory
  | .pushList headP tailP count =>
    let result := sdioListPushList s.nodes s.list headP tailP count
    ⟨result.2.2, result.2.1⟩
  | .popNode nodeP =>
    let result := sdioListPopNode s.nodes s.list nodeP
    ⟨result.2.2.2, result.2.2.1⟩
  | .relink p node => { s with nodes := Function.update s.nodes p node }

/-- The error that a call returns. -/
def reply (s : ListMemory) : ListCall → BkErr
  | .pushList headP tailP count => (sdioListPushList s.nodes s.list headP tailP count).1
  | .popNode nodeP => (sdioListPopNode s.nodes s.list nodeP).1
  | .relink _ _ => .ok

/-- What a successful call makes of the nodes of the list. -/
def Does (s : ListMemory) (members after : List NodePtr) : ListCall → Prop
  | .pushList headP tailP count => ∃ more, Lists s.nodes ⟨headP, tailP, count⟩ more ∧ after = members ++ more
  | .popNode nodeP => ∃ n, members = n :: after ∧ (sdioListPopNode s.nodes s.list nodeP).2.1 = n
  | .relink _ _ => after = members

/-- A call has succeeded and the list has the nodes that it should have, or it has failed and left everything. -/
def Right (s : ListMemory) (call : ListCall) : Prop :=
  (call.reply s = .ok ∧ ∃ members after, s.Denotes members ∧ (call.perform s).Denotes after ∧ call.Does s members after) ∨
    call.reply s ≠ .ok ∧ call.perform s = s

/-- Callers write no header of a node on the list. -/
def Spares (s : ListMemory) : ListCall → Prop
  | .pushList _ _ _ => True
  | .popNode _ => True
  | .relink p _ => ∀ members, s.Denotes members → p ∉ members

/-- The list is empty, the chain is not as the arguments say, or it does not end at the last node of the list. -/
def Fine (s : ListMemory) : ListCall → Prop
  | .pushList headP tailP count =>
    s.list.head = 0 ∨ sdioListCheck s.nodes headP tailP count ≠ .ok ∨ tailP ≠ s.list.tail
  | .popNode _ => True
  | .relink _ _ => True

variable {s : ListMemory} {call : ListCall}

theorem pushList_right_iff (denotes : s.Denotes members) :
    (pushList headP tailP count).Right s ↔ (pushList headP tailP count).Fine s := by
  by_cases refused : sdioListCheck s.nodes headP tailP count ≠ .ok
  · have left : sdioListPushList s.nodes s.list headP tailP count =
        (sdioListCheck s.nodes headP tailP count, s.list, s.nodes) := if_pos refused
    refine iff_of_true (.inr ⟨?_, ?_⟩) (.inr (.inl refused))
    · rwa [reply, left]
    · rw [perform, left]
  obtain ⟨more, some_more, chain⟩ := sdioListCheck_iff.mp (not_not.mp refused)
  -- the chain is as the arguments say; whether it shares nodes with the list shows at the ends
  have joined (apart : members.Disjoint more) : (pushList headP tailP count).Right s := by
    obtain ⟨longer, after, pushed, lists, -⟩ := Lists.push denotes chain some_more apart
    refine .inl ⟨?_, members, members ++ more, denotes, ?_, more, chain, rfl⟩
    · rw [reply, pushed]
    · rw [perform, pushed]
      exact lists
  by_cases empty : members = []
  · rw [empty] at joined
    exact iff_of_true (joined (List.disjoint_nil_left more)) (.inl (Lists.head_zero denotes |>.mpr empty))
  have ends := denotes.chain.disjoint_iff chain.chain empty some_more
  rw [← denotes.tail, show lastOf more = tailP from chain.tail.symm] at ends
  by_cases own : tailP = s.list.tail
  · have wrong : ¬(pushList headP tailP count).Fine s := by
      rintro (none | bad | apart)
      · exact empty (Lists.head_zero denotes |>.mp none)
      · exact refused bad
      · exact apart own
    refine iff_of_false ?_ wrong
    subst own
    obtain ⟨failed, result⟩ := Lists.push_own denotes empty chain some_more
    rintro (⟨done, -⟩ | ⟨-, same⟩)
    · exact failed done
    · dsimp only [perform] at same
      rw [result] at same
      exact count_moved some_more chain.count (congrArg (·.list.count) same)
  · exact iff_of_true (joined (ends.mpr own)) (.inr (.inr own))

/-- Taking a node is right on every list that is as recorded. -/
theorem popNode_right {nodeP : NodePtr} (denotes : s.Denotes members) : (popNode nodeP).Right s := by
  cases members with
  | nil =>
    have refused : sdioListCheck s.nodes s.list.head s.list.tail s.list.count ≠ .ok := by
      unfold sdioListCheck
      rw [if_pos (Lists.head_zero denotes |>.mpr rfl)]
      exact nofun
    have left : sdioListPopNode s.nodes s.list nodeP = (.fail, 0, s.list, s.nodes) := if_pos refused
    refine .inr ⟨?_, ?_⟩
    · rw [reply, left]
      exact nofun
    · dsimp only [perform]
      rw [left]
  | cons n rest =>
    obtain ⟨left, popped, lists⟩ := Lists.pop denotes nodeP
    refine .inl ⟨?_, n :: rest, rest, denotes, ?_, n, rfl, ?_⟩
    · rw [reply, popped]
    · dsimp only [perform]
      rw [popped]
      exact lists
    · rw [popped]

theorem relink_denotes {node : Node} (denotes : s.Denotes members) (outside : p ∉ members) :
    ((relink p node).perform s).Denotes members where
  chain := denotes.chain.congr fun n inside => by
    have apart : n ≠ p := fun same => outside (same ▸ inside)
    dsimp only [perform]
    rw [Function.update_of_ne apart]
  tail := denotes.tail
  count := denotes.count
  nodup := denotes.nodup

/-- On a list that is as recorded a call is right exactly when it is fine. -/
theorem right_iff (wellFormed : s.WellFormed) (spares : call.Spares s) : call.Right s ↔ call.Fine s := by
  obtain ⟨members, denotes⟩ := wellFormed
  cases call with
  | pushList headP tailP count => exact pushList_right_iff denotes
  | popNode nodeP => exact iff_of_true (popNode_right denotes) trivial
  | relink p node =>
    have kept := @relink_denotes members p s node denotes (spares members denotes)
    exact iff_of_true (.inl ⟨rfl, members, members, denotes, kept, rfl⟩) trivial

theorem Right.wellFormed (right : call.Right s) (wellFormed : s.WellFormed) : (call.perform s).WellFormed := by
  obtain ⟨-, members, after, -, denotes, -⟩ | ⟨-, same⟩ := right
  · exact ⟨after, denotes⟩
  · rwa [same]

def step (call : ListCall) (s : ListMemory) : Option ListMemory := some (call.perform s)

/-- In every sequence of calls on a list that is as recorded, all are right if and only if all are fine. -/
theorem calls_right_iff {start final : ListMemory} {moments : List (Moment ListMemory ListCall)}
    (run : Run (Machine.Step step) start moments final) (wellFormed : start.WellFormed)
    (spared : ∀ moment ∈ moments, moment.event.Spares moment.before) :
    (∀ moment ∈ moments, moment.event.Right moment.before) ↔ ∀ moment ∈ moments, moment.event.Fine moment.before := by
  constructor
  · intro right moment member
    have always := @Machine.always_of_invariant ListMemory ListCall step start final moments ListMemory.WellFormed
      (fun s call => call.Right s) run wellFormed
      (fun kept rightly taken => Option.some.inj taken ▸ rightly.wellFormed kept) right
    exact (right_iff (always.1 moment member) (spared moment member)).mp (right moment member)
  · intro fine moment member
    have always := @Machine.always_of_invariant ListMemory ListCall step start final moments ListMemory.WellFormed
      (fun s call => call.Spares s ∧ call.Fine s) run wellFormed
      (fun kept both taken => Option.some.inj taken ▸ ((right_iff kept both.1).mpr both.2).wellFormed kept)
      (fun moment member => ⟨spared moment member, fine moment member⟩)
    exact (right_iff (always.1 moment member) (spared moment member)).mpr (fine moment member)

end ListCall

/-! ## A chain that is part of the list -/

/-- A node that links to a second one, and others. -/
def threeNodes : Nodes := fun p => if p = 1 then ⟨2, 0⟩ else ⟨0, 0⟩

def twoListed : ListMemory := ⟨threeNodes, ⟨1, 2, 2⟩⟩

theorem twoListed_denotes : twoListed.Denotes [1, 2] where
  chain := ⟨rfl, by decide, rfl, by decide, rfl⟩
  tail := rfl
  count := rfl
  nodup := by decide

def sampleCalls : List (Moment ListMemory ListCall) :=
  [⟨(ListCall.pushList 3 3 1).perform twoListed, .popNode 0⟩, ⟨twoListed, .pushList 3 3 1⟩]

theorem push_then_pop_right : sampleCalls.length = 2 ∧ ∀ moment ∈ sampleCalls, moment.event.Right moment.before := by
  have run : Run (Machine.Step ListCall.step) twoListed sampleCalls _ := .next (.next .nil ⟨rfl, rfl⟩) ⟨rfl, rfl⟩
  refine ⟨rfl, (ListCall.calls_right_iff run ⟨[1, 2], twoListed_denotes⟩ ?_).mpr ?_⟩
  · exact List.forall_mem_cons.mpr ⟨trivial, List.forall_mem_singleton.mpr trivial⟩
  · exact List.forall_mem_cons.mpr ⟨trivial, List.forall_mem_singleton.mpr (.inr (.inr (by decide)))⟩

/-- The last node of the list is pushed once more: the call fails with a count of three, and no node can be taken. -/
theorem own_tail_counted :
    let call := ListCall.pushList 2 2 1
    let after := call.perform twoListed
    call.reply twoListed = .list ∧ after.list.count = 3 ∧ ¬call.Right twoListed ∧ ¬after.WellFormed ∧
      (ListCall.popNode 0).reply after = .fail := by
  intro call after
  have refused : call.reply twoListed = .list := by
    simp [call, ListCall.reply, twoListed, sdioListPushList, sdioListCheck, sdioListWalk, threeNodes, Nodes.setNext,
      Function.update]
  have broken : sdioListCheck after.nodes after.list.head after.list.tail after.list.count = .list := by
    simp [after, call, ListCall.perform, twoListed, sdioListPushList, sdioListCheck, sdioListWalk, threeNodes,
      Nodes.setNext, Function.update]
  have counted : after.list.count = 3 := by
    simp [after, call, ListCall.perform, twoListed, sdioListPushList, sdioListCheck, sdioListWalk, threeNodes,
      Nodes.setNext, Function.update]
  refine ⟨refused, counted, ?_, ?_, ?_⟩
  · rintro (⟨done, -⟩ | ⟨-, same⟩)
    · cases refused.symm.trans done
    · have before : after.list.count = 2 := congrArg (·.list.count) same
      rw [counted] at before
      exact absurd before (by decide)
  · rintro ⟨members, denotes⟩
    by_cases empty : members = []
    · have none := denotes.count
      rw [empty, counted] at none
      exact absurd none (by decide)
    · cases broken.symm.trans (Lists.check denotes empty)
  · rw [ListCall.reply, sdioListPopNode, if_pos (by rw [broken]; rintro ⟨⟩)]

end BekenSdk.SdioSlave
