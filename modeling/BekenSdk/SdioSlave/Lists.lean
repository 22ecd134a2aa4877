import Mathlib.Data.List.Nodup
import Mathlib.Algebra.Group.Nat.Defs
import Mathlib.Data.Fintype.Card
import Mathlib.Logic.Function.Basic

/-! The lists of `sdio_utils.c`: nodes linked through their headers, with a record of the first, the last and their
number. Every operation first walks the list to see whether the record is right.
-/

set_option autoImplicit false

namespace BekenSdk.SdioSlave

/-- The address of a node; zero is NULL. -/
abbrev NodePtr := UInt32

/-- `next` and `len` of `sdio_node_t`. -/
structure Node where
  next : NodePtr
  len : UInt32

abbrev Nodes := NodePtr → Node

def Nodes.setNext (nodes : Nodes) (p next : NodePtr) : Nodes :=
  Function.update nodes p { nodes p with next := next }

structure SdioList where
  head : NodePtr
  tail : NodePtr
  count : UInt32

inductive BkErr
  | ok
  | fail
  | nullPointerParam
  | chanIdInvalid
  | directInvalid
  | directNotInit
  | noBuffer
  | noTransactionFinishNode
  | list
  deriving DecidableEq

/-- The loop of `sdio_list_check`. -/
def sdioListWalk (nodes : Nodes) (pushTail : NodePtr) (count compute : UInt32) (cur : NodePtr) : BkErr :=
  if cur = 0 then .list
  else if compute = count then (if cur = pushTail then .ok else .list)
  else sdioListWalk nodes pushTail count (compute + 1) (nodes cur).next
  termination_by (count - compute).toNat
  decreasing_by
    rename_i other
    have apart : compute.toNat ≠ count.toNat := fun same => other (UInt32.toNat_inj.mp same)
    have small := compute.toNat_lt
    have large := count.toNat_lt
    simp only [UInt32.toNat_sub, UInt32.toNat_add, UInt32.reduceToNat]
    omega

def sdioListCheck (nodes : Nodes) (pushHead pushTail : NodePtr) (count : UInt32) : BkErr :=
  if pushHead = 0 then .list
  else if pushTail ≠ 0 ∧ (nodes pushTail).next ≠ 0 then .list
  else sdioListWalk nodes pushTail count 1 pushHead

/-- `sdio_list_pop_node`: the result, `*node_p`, the list and the headers. A list that claims to have no node leaves
`*node_p` as it is. -/
def sdioListPopNode (nodes : Nodes) (list : SdioList) (nodeP : NodePtr) : BkErr × NodePtr × SdioList × Nodes :=
  if sdioListCheck nodes list.head list.tail list.count ≠ .ok then (.fail, 0, list, nodes)
  else if list.count ≠ 0 then
    let tmpNodeP := list.head
    let left : SdioList :=
      if list.head = list.tail then ⟨0, 0, list.count - 1⟩ else ⟨(nodes list.head).next, list.tail, list.count - 1⟩
    (.ok, tmpNodeP, left, nodes.setNext tmpNodeP 0)
  else (.ok, nodeP, list, nodes)

def sdioListPushList (nodes : Nodes) (list : SdioList) (headP tailP : NodePtr) (count : UInt32) :
    BkErr × SdioList × Nodes :=
  if sdioListCheck nodes headP tailP count ≠ .ok then (sdioListCheck nodes headP tailP count, list, nodes)
  else if list.head = 0 then
    let list : SdioList := ⟨headP, tailP, count⟩
    (sdioListCheck nodes list.head list.tail list.count, list, nodes)
  else if sdioListCheck nodes list.head list.tail list.count ≠ .ok then
    (sdioListCheck nodes list.head list.tail list.count, list, nodes)
  else
    let nodes := nodes.setNext list.tail headP
    let nodes := nodes.setNext tailP 0
    let list : SdioList := ⟨list.head, tailP, list.count + count⟩
    (sdioListCheck nodes list.head list.tail list.count, list, nodes)

/-! ## Lists that are as recorded -/

/-- The nodes from a pointer on, to the end. -/
def Chain (nodes : Nodes) : NodePtr → List NodePtr → Prop
  | p, [] => p = 0
  | p, n :: rest => p = n ∧ n ≠ 0 ∧ Chain nodes (nodes n).next rest

/-- The last node, or NULL. -/
def lastOf : List NodePtr → NodePtr
  | [] => 0
  | [n] => n
  | _ :: m :: rest => lastOf (m :: rest)

/-- A list with its record. -/
structure Lists (nodes : Nodes) (list : SdioList) (members : List NodePtr) : Prop where
  chain : Chain nodes list.head members
  tail : list.tail = lastOf members
  count : list.count.toNat = members.length
  nodup : members.Nodup

variable {nodes other : Nodes} {list : SdioList} {members more : List NodePtr} {p n : NodePtr} {count compute : UInt32}

theorem Chain.nonzero (chain : Chain nodes p members) : ∀ n ∈ members, n ≠ 0 := by
  induction members generalizing p with
  | nil => exact fun _ none => absurd none (List.not_mem_nil)
  | cons n rest ih => exact List.forall_mem_cons.mpr ⟨chain.2.1, ih chain.2.2⟩

theorem Chain.congr (chain : Chain nodes p members) (same : ∀ n ∈ members, (other n).next = (nodes n).next) :
    Chain other p members := by
  induction members generalizing p with
  | nil => exact chain
  | cons n rest ih =>
    obtain ⟨here, some_node, later⟩ := chain
    refine ⟨here, some_node, ?_⟩
    rw [same n List.mem_cons_self]
    exact ih later fun m inside => same m (List.mem_cons_of_mem _ inside)

theorem setNext_next {m next : NodePtr} : (nodes.setNext n next m).next = if m = n then next else (nodes m).next := by
  unfold Nodes.setNext Function.update
  split
  next same => subst same; rfl
  · rfl

theorem Chain.setNext (chain : Chain nodes p members) {next : NodePtr} (outside : n ∉ members) :
    Chain (nodes.setNext n next) p members :=
  chain.congr fun m inside => by
    have apart : m ≠ n := fun same => outside (same ▸ inside)
    rw [setNext_next, if_neg apart]

theorem Chain.last_next (chain : Chain nodes p members) (some_node : members ≠ []) :
    (nodes (lastOf members)).next = 0 := by
  induction members generalizing p with
  | nil => exact absurd rfl some_node
  | cons n rest ih =>
    cases rest with
    | nil => exact chain.2.2
    | cons m rest => exact ih chain.2.2 (List.cons_ne_nil _ _)

theorem Chain.unique (chain : Chain nodes p members) (other : Chain nodes p more) : members = more := by
  induction members generalizing p more with
  | nil =>
    cases more with
    | nil => rfl
    | cons n rest => exact absurd (other.1.symm.trans chain) other.2.1
  | cons n rest ih =>
    cases more with
    | nil => exact absurd (chain.1.symm.trans other) chain.2.1
    | cons m others =>
      obtain rfl : n = m := chain.1.symm.trans other.1
      rw [ih chain.2.2 other.2.2]

theorem Lists.unique (lists : Lists nodes list members) (other : Lists nodes list more) : members = more :=
  lists.chain.unique other.chain

theorem Lists.head_zero (lists : Lists nodes list members) : list.head = 0 ↔ members = [] := by
  constructor
  · intro none
    cases members with
    | nil => rfl
    | cons n rest => exact absurd (lists.chain.1.symm.trans none) lists.chain.2.1
  · rintro rfl
    exact lists.chain

/-- A node of a chain begins what is left of it. -/
theorem Chain.suffix (chain : Chain nodes p members) (inside : n ∈ members) :
    ∃ front rest, members = front ++ n :: rest ∧ Chain nodes n (n :: rest) := by
  induction members generalizing p with
  | nil => exact absurd inside List.not_mem_nil
  | cons m rest ih =>
    cases inside with
    | head => exact ⟨[], rest, rfl, rfl, chain.2⟩
    | tail _ later =>
      obtain ⟨front, others, same, from_here⟩ := ih chain.2.2 later
      exact ⟨m :: front, others, congrArg (m :: ·) same, from_here⟩

/-- A chain has an end, so it does not come to a node twice. -/
theorem Chain.nodup (chain : Chain nodes p members) : members.Nodup := by
  induction members generalizing p with
  | nil => exact List.nodup_nil
  | cons n rest ih =>
    obtain ⟨rfl, some_node, later⟩ := chain
    refine List.nodup_cons.mpr ⟨fun again => ?_, ih later⟩
    obtain ⟨front, others, same, from_here⟩ := later.suffix again
    have whole : Chain nodes p (p :: rest) := ⟨rfl, some_node, later⟩
    have shorter := congrArg List.length (List.cons.inj (whole.unique from_here)).2
    rw [same, List.length_append, List.length_cons] at shorter
    omega

theorem lastOf_mem (some_node : members ≠ []) : lastOf members ∈ members := by
  induction members with
  | nil => exact absurd rfl some_node
  | cons n rest ih =>
    cases rest with
    | nil => exact List.mem_cons_self
    | cons m rest => exact List.mem_cons_of_mem _ (ih (List.cons_ne_nil _ _))

theorem lastOf_append (some_node : more ≠ []) : lastOf (members ++ more) = lastOf more := by
  induction members with
  | nil => rfl
  | cons n rest ih =>
    cases rest with
    | nil =>
      cases more with
      | nil => exact absurd rfl some_node
      | cons m later => rfl
    | cons m rest => exact ih

/-- The pointers other than NULL are fewer than the numbers of 32 bits. -/
theorem length_lt_of_nodup (nodup : members.Nodup) (nonzero : ∀ n ∈ members, n ≠ 0) : members.length < 2 ^ 32 := by
  have all : (0 :: members).Nodup := List.nodup_cons.mpr ⟨fun inside => nonzero 0 inside rfl, nodup⟩
  have values : ((0 :: members).map fun n => (⟨n.toNat, n.toNat_lt⟩ : Fin (2 ^ 32))).Nodup :=
    all.map fun n m same => UInt32.toNat_inj.mp (congrArg Fin.val same)
  have few := values.length_le_card
  simp only [List.length_map, List.length_cons, Fintype.card_fin] at few
  omega

/-- The walk through a list finds the last node when it has counted them. -/
theorem sdioListWalk_ok (chain : Chain nodes p members) (some_node : members ≠ []) (nodup : members.Nodup)
    (counted : compute.toNat + members.length = count.toNat + 1) :
    sdioListWalk nodes (lastOf members) count compute p = .ok := by
  induction members generalizing p compute with
  | nil => exact absurd rfl some_node
  | cons n rest ih =>
    obtain ⟨rfl, here, later⟩ := chain
    rw [sdioListWalk, if_neg here]
    cases rest with
    | nil =>
      have last : compute = count := UInt32.toNat_inj.mp (by simpa using counted)
      rw [if_pos last]
      exact if_pos rfl
    | cons m rest =>
      have before : compute ≠ count := fun same => by
        subst same
        simp only [List.length_cons] at counted
        omega
      have step : (compute + 1).toNat = compute.toNat + 1 := by
        have := count.toNat_lt
        simp only [List.length_cons] at counted
        simp only [UInt32.toNat_add, UInt32.reduceToNat]
        omega
      rw [if_neg before]
      exact ih later (List.cons_ne_nil _ _) nodup.of_cons (by
        simp only [List.length_cons] at counted ⊢
        omega)

theorem Lists.check (lists : Lists nodes list members) (some_node : members ≠ []) :
    sdioListCheck nodes list.head list.tail list.count = .ok := by
  obtain ⟨chain, tail, counted, nodup⟩ := lists
  have head : list.head ≠ 0 := by
    cases members with
    | nil => exact absurd rfl some_node
    | cons n rest => exact chain.1 ▸ chain.2.1
  unfold sdioListCheck
  rw [if_neg head, tail, if_neg (fun wrong => wrong.2 (chain.last_next some_node))]
  exact sdioListWalk_ok chain some_node nodup (by simp [counted]; omega)

theorem Lists.pop (lists : Lists nodes list (n :: members)) (nodeP : NodePtr) :
    ∃ left, sdioListPopNode nodes list nodeP = (.ok, n, left, nodes.setNext n 0) ∧
      Lists (nodes.setNext n 0) left members := by
  have checked := lists.check (List.cons_ne_nil _ _)
  obtain ⟨⟨head, _, chain⟩, tail, counted, nodup⟩ := lists
  have some_count : list.count ≠ 0 := by
    intro none
    rw [none] at counted
    simp at counted
  have fewer : (list.count - 1).toNat = members.length := by
    have := list.count.toNat_lt
    simp only [List.length_cons] at counted
    simp only [UInt32.toNat_sub, UInt32.reduceToNat]
    omega
  have outside : n ∉ members := (List.nodup_cons.mp nodup).1
  unfold sdioListPopNode
  rw [if_neg (fun wrong => wrong checked), if_pos some_count, head]
  refine ⟨_, rfl, ?_⟩
  cases members with
  | nil =>
    have only : n = list.tail := tail.symm
    rw [if_pos only]
    exact ⟨rfl, rfl, fewer, List.nodup_nil⟩
  | cons m rest =>
    have more : n ≠ list.tail := by
      rw [tail]
      exact fun same => outside (same ▸ lastOf_mem (List.cons_ne_nil m rest))
    rw [if_neg more]
    exact ⟨chain.setNext outside, tail, fewer, nodup.of_cons⟩

theorem Chain.append (chain : Chain nodes p members) (later : Chain nodes n more) (some_node : members ≠ [])
    (nodup : members.Nodup) (apart : members.Disjoint more) :
    Chain (nodes.setNext (lastOf members) n) p (members ++ more) := by
  induction members generalizing p with
  | nil => exact absurd rfl some_node
  | cons m rest ih =>
    obtain ⟨here, nonzero, next⟩ := chain
    obtain ⟨outside, others⟩ := List.nodup_cons.mp nodup
    refine ⟨here, nonzero, ?_⟩
    rw [setNext_next]
    cases rest with
    | nil =>
      rw [if_pos (show m = lastOf [m] from rfl)]
      exact later.setNext fun inside => apart List.mem_cons_self inside
    | cons k rest =>
      have before : m ≠ lastOf (m :: k :: rest) := fun same => outside (same ▸ lastOf_mem (List.cons_ne_nil k rest))
      rw [if_neg before]
      exact ih next (List.cons_ne_nil _ _) others fun a inside => apart (List.mem_cons_of_mem _ inside)

/-- Nodes that are in no list yet come to the end of a list. -/
theorem Lists.push (lists : Lists nodes list members) {headP tailP : NodePtr}
    (fresh : Lists nodes ⟨headP, tailP, count⟩ more) (some_node : more ≠ []) (apart : members.Disjoint more) :
    ∃ longer after, sdioListPushList nodes list headP tailP count = (.ok, longer, after) ∧
      Lists after longer (members ++ more) ∧ ∀ n, n ∉ members → n ∉ more → after n = nodes n := by
  have checked := fresh.check some_node
  unfold sdioListPushList
  rw [if_neg (fun wrong => wrong checked)]
  cases members with
  | nil =>
    rw [if_pos (show list.head = 0 from lists.chain)]
    exact ⟨_, _, Prod.ext checked rfl, fresh, fun _ _ _ => rfl⟩
  | cons m rest =>
    have own := lists.check (List.cons_ne_nil _ _)
    rw [if_neg (lists.chain.1 ▸ lists.chain.2.1), if_neg (fun wrong => wrong own)]
    have both : (m :: rest ++ more).Nodup := List.nodup_append'.mpr ⟨lists.nodup, fresh.nodup, apart⟩
    have chain : Chain (nodes.setNext (lastOf (m :: rest)) headP) list.head (m :: rest ++ more) :=
      lists.chain.append fresh.chain (List.cons_ne_nil _ _) lists.nodup apart
    have last : lastOf (m :: rest ++ more) = tailP := (lastOf_append some_node).trans fresh.tail.symm
    have ended := chain.last_next (List.cons_ne_nil _ _)
    rw [last] at ended
    have after : Lists ((nodes.setNext list.tail headP).setNext tailP 0) ⟨list.head, tailP, list.count + count⟩
        (m :: rest ++ more) := by
      rw [lists.tail]
      refine ⟨chain.congr fun k _ => ?_, last.symm, ?_, both⟩
      · rw [setNext_next (n := tailP)]
        split
        next same => rw [same, ended]
        · rfl
      · have few := length_lt_of_nodup both chain.nonzero
        have old := lists.count
        have added : count.toNat = more.length := fresh.count
        rw [List.length_append] at few ⊢
        simp only [UInt32.toNat_add]
        omega
    refine ⟨_, _, Prod.ext (after.check (List.cons_ne_nil _ _)) rfl, after, fun n out other => ?_⟩
    have first : n ≠ list.tail := fun same => out (same ▸ lists.tail ▸ lastOf_mem (List.cons_ne_nil _ _))
    have second : n ≠ tailP := by
      rintro rfl
      have end_of_more : n = lastOf more := fresh.tail
      exact other (end_of_more ▸ lastOf_mem some_node)
    rw [Nodes.setNext, Function.update_of_ne second, Nodes.setNext, Function.update_of_ne first]

end BekenSdk.SdioSlave
