import BekenSdk.Base.Arena
import Mathlib.Logic.Relation
import Mathlib.Data.List.Infix

/-! What the layer is for: nodes wait in lanes, one for each client, and leave
at the front. A node that comes in goes to the end of its lane or past the lanes.
When it goes past its lane only while that is empty, the nodes of a lane leave in
the order in which they came.
-/

set_option autoImplicit false

namespace BekenSdk.TxBuffering
open Base

/-- `hand` is the node that comes in, `sent` are the ones that left to be sent,
the latest first. -/
@[ext] structure Lanes (K α : Type) where
  queue : K → List Nat
  hand : Option Nat
  sent : List Nat
  memory : Arena α

namespace Lanes

section
variable {K α : Type} [DecidableEq K]

def setQueue (k : K) (nodes : List Nat) (l : Lanes K α) : Lanes K α :=
  { l with queue := Function.update l.queue k nodes }

def send (node : Nat) (l : Lanes K α) : Lanes K α :=
  { l with sent := node :: l.sent, memory := l.memory.access node }

def free (node : Nat) (l : Lanes K α) : Lanes K α := { l with memory := l.memory.free node }

def drop (l : Lanes K α) : Lanes K α := { l with hand := none }

/-- The moves over the lanes in `places`; `lane` is the lane of a node. A node
goes past its lane while others wait there only if it `overtakes`, and it is
dropped only if the layer `loses` it. -/
inductive Move (places : List K) (lane : α → Option K) (overtakes loses : Prop) : Lanes K α → Lanes K α → Prop where
  | submit (l : Lanes K α) (value : α) : l.hand = none →
    Move places lane overtakes loses l
      { l with hand := some l.memory.count, memory := l.memory.alloc value }
  | put (l : Lanes K α) (k : K) (node : Nat) : l.hand = some node → k ∈ places →
    lane (l.memory.content node) = some k →
    Move places lane overtakes loses l (l.setQueue k (l.queue k ++ [node])).drop
  | pass (l : Lanes K α) (node : Nat) : l.hand = some node →
    (∀ k, lane (l.memory.content node) = some k → l.queue k ≠ [] → overtakes) →
    Move places lane overtakes loses l (l.send node).drop
  | lose (l : Lanes K α) : loses → Move places lane overtakes loses l l.drop
  | discard (l : Lanes K α) (k : K) (node : Nat) (others : List Nat) : k ∈ places → l.queue k = node :: others →
    Move places lane overtakes loses l ((l.setQueue k others).free node)
  | forward (l : Lanes K α) (k : K) (node : Nat) (others : List Nat) : k ∈ places → l.queue k = node :: others →
    Move places lane overtakes loses l ((l.setQueue k others).send node)

/-! ## Nodes are where they should be -/

variable {places : List K} {lane : α → Option K} {overtakes loses : Prop} {l m : Lanes K α} {k : K} {node : Nat}

def queued (places : List K) (l : Lanes K α) : List Nat := places.flatMap l.queue

/-- The nodes are in hand, in a lane or sent, or were freed, each once. -/
def Owns (places : List K) (l : Lanes K α) : Prop :=
  Arena.Owned (l.hand.toList ++ (l.queued places ++ l.sent)) l.memory

theorem queued_setQueue (nodup : places.Nodup) (member : k ∈ places) (nodes : List Nat) :
    ∃ others, (l.queued places).Perm (l.queue k ++ others) ∧
      ((l.setQueue k nodes).queued places).Perm (nodes ++ others) :=
  Arena.flatMap_change_perm nodup member l.queue nodes

/-- The references without the node at the front of a lane, and the node. -/
theorem take_perm {others : List Nat} (nodup : places.Nodup) (member : k ∈ places)
    (front : l.queue k = node :: others) :
    (node :: (l.hand.toList ++ ((l.setQueue k others).queued places ++ l.sent))).Perm
      (l.hand.toList ++ (l.queued places ++ l.sent)) := by
  obtain ⟨rest, before, after⟩ := queued_setQueue (l := l) nodup member others
  rw [front] at before
  have moved : (node :: (l.setQueue k others).queued places).Perm (l.queued places) :=
    (after.cons node).trans before.symm
  have whole := (moved.append_right l.sent).append_left l.hand.toList
  exact List.perm_middle.symm.trans whole

theorem Move.owns (nodup : places.Nodup) (move : Move places lane overtakes loses l m) (kept : ¬loses)
    (owns : l.Owns places) : m.Owns places := by
  cases move with
  | submit value free =>
    rw [Owns, free] at owns
    exact owns.alloc value
  | put k node held member lane =>
    rw [Owns, held] at owns
    apply owns.reorder
    obtain ⟨rest, before, after⟩ := queued_setQueue (l := l) nodup member (l.queue k ++ [node])
    have last : (l.queue k ++ [node] ++ rest).Perm (node :: (l.queue k ++ rest)) := by
      rw [List.append_assoc]
      exact List.perm_middle
    have moved := (after.trans last).trans (before.symm.cons node)
    exact moved.append_right l.sent
  | pass node held =>
    rw [Owns, held] at owns
    rw [Owns, drop, send, owns.access_eq List.mem_cons_self]
    exact owns.reorder List.perm_middle
  | lose lossy => exact absurd lossy kept
  | discard k node others member front =>
    have found := owns.reorder (take_perm nodup member front)
    exact found.free
  | forward k node others member front =>
    have found := owns.reorder (take_perm nodup member front)
    rw [Owns, send, setQueue, found.access_eq List.mem_cons_self]
    apply found.reorder
    have middle : (l.hand.toList ++ ((l.setQueue k others).queued places ++ node :: l.sent)).Perm
        (l.hand.toList ++ node :: ((l.setQueue k others).queued places ++ l.sent)) :=
      List.perm_middle.append_left _
    exact middle.trans List.perm_middle

theorem moves_own (nodup : places.Nodup) (moves : Relation.ReflTransGen (Move places lane overtakes loses) l m)
    (kept : ¬loses) (owns : l.Owns places) : m.Owns places := by
  induction moves with
  | refl => exact owns
  | tail _ move ih => exact move.owns nodup kept ih

/-! ## Nodes of a lane are in order -/

/-- The nodes for `k`, among some. -/
def only (lane : α → Option K) (k : K) (l : Lanes K α) (nodes : List Nat) : List Nat :=
  nodes.filter fun node => decide (lane (l.memory.content node) = some k)

def sentTo (lane : α → Option K) (k : K) (l : Lanes K α) : List Nat := l.only lane k l.sent.reverse

/-- The nodes that came for `k`, in the order in which they came. -/
def submitted (lane : α → Option K) (k : K) (l : Lanes K α) : List Nat := l.only lane k (List.range l.memory.count)

/-- First the ones that were sent, then the ones in the lane and the one in hand
are the ones that came, but for the freed ones. -/
def InOrder (lane : α → Option K) (k : K) (l : Lanes K α) : Prop :=
  l.sentTo lane k ++ l.queue k ++ l.only lane k l.hand.toList =
    (l.submitted lane k).filter fun node => decide (node ∉ l.memory.freed)

theorem mem_only {nodes : List Nat} :
    node ∈ l.only lane k nodes ↔ node ∈ nodes ∧ lane (l.memory.content node) = some k := by
  rw [only, List.mem_filter, decide_eq_true_iff]

theorem only_congr {nodes : List Nat} (same : ∀ node ∈ nodes, m.memory.content node = l.memory.content node) :
    m.only lane k nodes = l.only lane k nodes := by
  apply List.filter_congr
  intro node member
  rw [same node member]

theorem only_append (first second : List Nat) :
    l.only lane k (first ++ second) = l.only lane k first ++ l.only lane k second :=
  List.filter_append ..

theorem only_one_self (mine : lane (l.memory.content node) = some k) : l.only lane k [node] = [node] := by
  simp [only, mine]

theorem only_one_other (other : lane (l.memory.content node) ≠ some k) : l.only lane k [node] = [] := by
  simp [only, other]

/-- What is in the lane came for it. -/
theorem InOrder.queue_lane (order : l.InOrder lane k) (member : node ∈ l.queue k) :
    lane (l.memory.content node) = some k := by
  have listed : node ∈ (l.submitted lane k).filter fun node => decide (node ∉ l.memory.freed) := by
    rw [← order]
    exact List.mem_append_left _ (List.mem_append_right _ member)
  exact (mem_only.mp (List.mem_of_mem_filter listed)).2

theorem submitted_nodup : (l.submitted lane k).Nodup := List.nodup_range.filter _

theorem InOrder.nodup (order : l.InOrder lane k) :
    (l.sentTo lane k ++ l.queue k ++ l.only lane k l.hand.toList).Nodup := by
  rw [order]
  exact submitted_nodup.filter _

theorem submit_inOrder {value : α} (free : l.hand = none) (owns : l.Owns places) (order : l.InOrder lane k) :
    InOrder lane k { l with hand := some l.memory.count, memory := l.memory.alloc value } := by
  have known : ∀ node, node < l.memory.count → (l.memory.alloc value).content node = l.memory.content node :=
    fun node old => Function.update_of_ne (Nat.ne_of_lt old) _ _
  have unfreed : l.memory.count ∉ l.memory.freed := fun gone => by
    have listed := owns.each.mem_iff.mp (List.mem_append_right _ gone)
    exact absurd (List.mem_range.mp listed) (Nat.lt_irrefl _)
  have sent : sentTo lane k { l with hand := some l.memory.count, memory := l.memory.alloc value } =
    l.sentTo lane k := by
    apply only_congr
    intro node member
    apply known
    have listed := owns.each.mem_iff.mp (List.mem_append_left _ (List.mem_append_right _
      (List.mem_append_right _ (List.mem_reverse.mp member))))
    exact List.mem_range.mp listed
  have came : submitted lane k { l with hand := some l.memory.count, memory := l.memory.alloc value } =
      l.submitted lane k ++ only lane k { l with memory := l.memory.alloc value } [l.memory.count] := by
    rw [submitted, Arena.alloc, List.range_succ, only_append]
    congr 1
    apply only_congr
    exact fun node member => known node (List.mem_range.mp member)
  rw [InOrder, sent, came, List.filter_append]
  rw [InOrder, free] at order
  have before : l.sentTo lane k ++ l.queue k =
      (l.submitted lane k).filter fun node => decide (node ∉ l.memory.freed) := by
    rw [← order]
    exact (List.append_nil _).symm
  have last : (only lane k { l with memory := l.memory.alloc value } [l.memory.count]).filter
      (fun node => decide (node ∉ l.memory.freed)) = only lane k
      { l with memory := l.memory.alloc value } [l.memory.count] := by
    apply List.filter_eq_self.mpr
    intro node member
    obtain rfl := List.mem_singleton.mp (mem_only.mp member).1
    exact decide_eq_true unfreed
  exact congrArg₂ (· ++ ·) before last.symm

theorem put_inOrder {k' : K} (held : l.hand = some node) (mine : lane (l.memory.content node) = some k')
    (order : l.InOrder lane k) : InOrder lane k (l.setQueue k' (l.queue k' ++ [node])).drop := by
  rw [InOrder, held] at order
  by_cases same : k = k'
  · subst same
    have one : l.only lane k (some node).toList = [node] := only_one_self mine
    rw [one] at order
    have queue : (l.setQueue k (l.queue k ++ [node])).drop.queue k = l.queue k ++ [node] := Function.update_self _ _ _
    rw [InOrder, queue, ← List.append_assoc]
    exact (List.append_nil _).trans order
  · have other : lane (l.memory.content node) ≠ some k := fun clash => same (Option.some.inj (clash.symm.trans mine))
    have none : l.only lane k (some node).toList = [] := only_one_other other
    rw [none] at order
    have queue : (l.setQueue k' (l.queue k' ++ [node])).drop.queue k = l.queue k := Function.update_of_ne same _ _
    rw [InOrder, queue]
    exact order

theorem send_sentTo : (l.send node).sentTo lane k = l.sentTo lane k ++ l.only lane k [node] := by
  have same : ∀ other, (l.send node).memory.content other = l.memory.content other := fun other =>
    congrFun (Arena.access_content _ _) other
  rw [sentTo, only_congr fun other _ => same other, sentTo, ← only_append]
  exact congrArg _ List.reverse_cons

theorem send_submitted : (l.send node).submitted lane k = l.submitted lane k := by
  have same : ∀ other, (l.send node).memory.content other = l.memory.content other := fun other =>
    congrFun (Arena.access_content _ _) other
  rw [submitted, only_congr fun other _ => same other, send, Arena.access_count]
  rfl

theorem send_only (nodes : List Nat) : (l.send node).only lane k nodes = l.only lane k nodes :=
  only_congr fun other _ => congrFun (Arena.access_content _ _) other

theorem pass_inOrder (held : l.hand = some node)
    (alone : lane (l.memory.content node) = some k → l.queue k = []) (order : l.InOrder lane k) :
    InOrder lane k (l.send node).drop := by
  have sent : (l.send node).drop.sentTo lane k = l.sentTo lane k ++ l.only lane k [node] := send_sentTo
  have came : (l.send node).drop.submitted lane k = l.submitted lane k := send_submitted
  have freed : (l.send node).drop.memory.freed = l.memory.freed := Arena.access_freed _ _
  rw [InOrder, held] at order
  rw [InOrder, sent, came, freed, ← order]
  have queue : (l.send node).drop.queue k = l.queue k := rfl
  rw [queue]
  by_cases mine : lane (l.memory.content node) = some k
  · rw [alone mine, List.append_nil]
    exact (List.append_nil _).trans (congrArg (· ++ l.only lane k [node]) (List.append_nil _).symm)
  · have none : l.only lane k (some node).toList = [] := only_one_other mine
    rw [none, only_one_other mine, List.append_nil]
    rfl

/-- The node at the front of its lane is the next one to be sent. -/
theorem forward_inOrder {k' : K} {others : List Nat} (front : l.queue k' = node :: others)
    (order : l.InOrder lane k) (theirs : l.InOrder lane k') : InOrder lane k ((l.setQueue k' others).send node) := by
  have mine : lane (l.memory.content node) = some k' := theirs.queue_lane (front ▸ List.mem_cons_self)
  have sent : ((l.setQueue k' others).send node).sentTo lane k = l.sentTo lane k ++ l.only lane k [node] := send_sentTo
  have came : ((l.setQueue k' others).send node).submitted lane k = l.submitted lane k := send_submitted
  have freed : ((l.setQueue k' others).send node).memory.freed = l.memory.freed := Arena.access_freed _ _
  have hand : ((l.setQueue k' others).send node).only lane k ((l.setQueue k' others).send node).hand.toList =
      l.only lane k l.hand.toList := send_only _
  rw [InOrder, sent, came, freed, hand, ← order]
  by_cases same : k = k'
  · subst same
    have queue : ((l.setQueue k others).send node).queue k = others := Function.update_self _ _ _
    rw [queue, front, only_one_self mine]
    simp only [List.append_assoc, List.cons_append, List.nil_append]
  · have other : lane (l.memory.content node) ≠ some k := fun clash => same (Option.some.inj (clash.symm.trans mine))
    have queue : ((l.setQueue k' others).send node).queue k = l.queue k := Function.update_of_ne same _ _
    rw [queue, only_one_other other, List.append_nil]

theorem free_only (nodes : List Nat) : (l.free node).only lane k nodes = l.only lane k nodes :=
  only_congr fun other _ => congrFun (Arena.access_content _ _) other

theorem free_submitted : (l.free node).submitted lane k = l.submitted lane k := by
  have count : (l.free node).memory.count = l.memory.count := Arena.access_count _ _
  rw [submitted, free_only, count]
  rfl

omit [DecidableEq K] in
/-- The nodes that were not freed are the ones from before, less this one. -/
theorem free_kept (nodes : List Nat) : nodes.filter (fun other => decide (other ∉ (l.free node).memory.freed)) =
    (nodes.filter fun other => decide (other ∉ l.memory.freed)).filter fun other => decide (other ≠ node) := by
  rw [List.filter_filter]
  apply List.filter_congr
  intro other _
  simp [free, Arena.free, not_or]

theorem filter_middle {before after : List Nat} (nodup : (before ++ node :: after).Nodup) :
    (before ++ node :: after).filter (fun other => decide (other ≠ node)) = before ++ after := by
  obtain ⟨absent, -⟩ := List.nodup_cons.mp (List.nodup_middle.mp nodup)
  have others : (before ++ after).filter (fun other => decide (other ≠ node)) = before ++ after := by
    apply List.filter_eq_self.mpr
    intro other member
    exact decide_eq_true fun same => absent (same ▸ member)
  rw [List.filter_append] at others ⊢
  rw [List.filter_cons_of_neg (by simp), others]

/-- A node that is freed leaves the order of the others as it is. -/
theorem discard_inOrder {k' : K} {others : List Nat} (front : l.queue k' = node :: others)
    (order : l.InOrder lane k) (theirs : l.InOrder lane k') : InOrder lane k ((l.setQueue k' others).free node) := by
  have mine : lane (l.memory.content node) = some k' := theirs.queue_lane (front ▸ List.mem_cons_self)
  have sent : ((l.setQueue k' others).free node).sentTo lane k = l.sentTo lane k := free_only _
  have hand : ((l.setQueue k' others).free node).only lane k ((l.setQueue k' others).free node).hand.toList =
      l.only lane k l.hand.toList := free_only _
  have came : ((l.setQueue k' others).free node).submitted lane k = l.submitted lane k := free_submitted
  have kept := @free_kept _ _ (l.setQueue k' others) node (l.submitted lane k)
  have before : ((l.submitted lane k).filter fun other => decide (other ∉ (l.setQueue k' others).memory.freed)) =
      l.sentTo lane k ++ l.queue k ++ l.only lane k l.hand.toList := order.symm
  have nodup := order.nodup
  rw [InOrder, sent, hand, came, kept, before]
  by_cases here : k = k'
  · subst here
    have queue : ((l.setQueue k others).free node).queue k = others := Function.update_self _ _ _
    rw [front, List.append_assoc, List.cons_append] at nodup
    rw [queue, front, List.append_assoc, List.append_assoc, List.cons_append]
    exact (filter_middle nodup).symm
  · have queue : ((l.setQueue k' others).free node).queue k = l.queue k := Function.update_of_ne here _ _
    rw [queue]
    symm
    apply List.filter_eq_self.mpr
    intro listed member
    apply decide_eq_true
    rintro rfl
    rw [order] at member
    have lane := (mem_only.mp (List.mem_of_mem_filter member)).2
    exact here (Option.some.inj (lane.symm.trans mine))

theorem Move.inOrder (move : Move places lane overtakes loses l m) (kept : ¬loses) (behind : ¬overtakes)
    (owns : l.Owns places) (order : ∀ k, l.InOrder lane k) (k : K) : m.InOrder lane k := by
  cases move with
  | submit value free => exact submit_inOrder free owns (order k)
  | put k' node held member mine => exact put_inOrder held mine (order k)
  | pass node held alone =>
    apply pass_inOrder held _ (order k)
    intro mine
    by_contra waiting
    exact behind (alone k mine waiting)
  | lose lossy => exact absurd lossy kept
  | discard k' node others member front => exact discard_inOrder front (order k) (order k')
  | forward k' node others member front => exact forward_inOrder front (order k) (order k')

theorem moves_inOrder (nodup : places.Nodup) (moves : Relation.ReflTransGen (Move places lane overtakes loses) l m)
    (kept : ¬loses) (behind : ¬overtakes) (owns : l.Owns places) (order : ∀ k, l.InOrder lane k) (k : K) :
    m.InOrder lane k := by
  induction moves generalizing k with
  | refl => exact order k
  | tail before move ih => exact move.inOrder kept behind (moves_own nodup before kept owns) ih k

end

end Lanes

end BekenSdk.TxBuffering
