import BekenSdk.RwMsg.Exchange

/-! Where the nodes are, and what the receive task knows of them. The steps of the
calls keep the invariant as long as no node is freed that is on the list or that
the receive task gets to.
-/

set_option autoImplicit false

namespace BekenSdk.RwMsg
open Base

namespace Stage

def mayList : Stage → Bool
  | pushed | waiting | expired | failed => true
  | _ => false

def answered : Stage → Bool
  | signalled => true
  | freed ret | returned ret => ret = 0
  | _ => false

theorem gone_of_mayList {stage : Stage} (listed : stage.mayList = true) : stage.gone = false := by
  cases stage <;> first | rfl | cases listed

theorem holdsNode_of_mayList {stage : Stage} (listed : stage.mayList = true) : stage.holdsNode = true := by
  cases stage <;> first | rfl | cases listed

theorem submitted_of_gone {stage : Stage} (gone : stage.gone = true) : stage.submitted = true := by
  cases stage <;> first | rfl | cases gone

theorem submitted_of_exit {stage : Stage} {ret : Int} (exits : stage.exit = some ret) : stage.submitted = true := by
  cases stage <;> first | rfl | cases exits

/-- Only a send that failed leaves its node where it is. -/
theorem failed_of_exit {stage : Stage} {ret : Int} (exits : stage.exit = some ret) (listed : stage.mayList = true) :
    stage = .failed := by
  cases stage with
  | failed => rfl
  | signalled => cases listed
  | removed => cases listed
  | _ => cases exits

theorem answered_of_exit {stage : Stage} {ret : Int} (exits : stage.exit = some ret)
    (zero : (freed ret).answered = true) : stage.answered = true := by
  cases stage with
  | signalled => rfl
  | failed => cases exits; cases zero
  | removed => cases exits; cases zero
  | _ => cases exits

end Stage

namespace Exchange

/-- Nobody was served before the node with the same id and came after it. -/
def Unserved (s : Exchange) (n : Nat) : Prop :=
  ∀ entry ∈ s.confirms, s.reqid entry.1 = s.reqid n → s.rwMsgTxHead.turn entry.1 < s.rwMsgTxHead.turn n

/-- Nobody on the list who waits for the message came before the node. -/
def First (s : Exchange) (rxMsg : KeMsg) (txNode : Nat) : Prop :=
  ∀ k ∈ s.rwMsgTxHead.listed, s.reqid k = rxMsg.id → s.rwMsgTxHead.turn txNode ≤ s.rwMsgTxHead.turn k

def Answered (s : Exchange) (n : Nat) : Prop :=
  ∃ rxMsg, (n, rxMsg) ∈ s.confirms ∧ Holds (s.cfm n) 0 rxMsg.param

def Ahead (s : Exchange) (rxMsg : KeMsg) : Nat → Nat → Prop :=
  s.rwMsgTxHead.Ahead fun k => s.reqid k ≠ rxMsg.id

def Receiving (s : Exchange) : Prop :=
  match s.receiver with
  | .standing rxMsg txNode => (∀ n, s.Ahead rxMsg txNode n → s.Unserved n) ∧ s.First rxMsg txNode
  | .passing rxMsg txNode =>
    (∀ n, s.Ahead rxMsg txNode n → s.Unserved n) ∧ s.First rxMsg txNode ∧ s.reqid txNode ≠ rxMsg.id
  | .found rxMsg txNode => s.Unserved txNode ∧ s.First rxMsg txNode ∧ s.reqid txNode = rxMsg.id
  | .extracted rxMsg txNode => (txNode, rxMsg) ∈ s.confirms
  | .copied rxMsg txNode => (txNode, rxMsg) ∈ s.confirms ∧ Holds (s.cfm txNode) 0 rxMsg.param
  | _ => True

structure Sound (s : Exchange) : Prop where
  list : s.rwMsgTxHead.Sound
  known : ∀ n, n ∈ s.rwMsgTxHead.pushed ↔ (s.stage n).submitted = true
  listed : ∀ n ∈ s.rwMsgTxHead.listed, (s.stage n).mayList = true
  reached : ∀ n, s.Reached n → n ∈ s.rwMsgTxHead.pushed ∧ (s.stage n).gone = false
  each : ∀ entry ∈ s.confirms, entry.2.id = s.reqid entry.1 ∧ entry.1 ∈ s.rwMsgTxHead.pushed
  ordered : s.confirms.Pairwise fun later earlier => s.reqid later.1 = s.reqid earlier.1 →
    s.rwMsgTxHead.turn earlier.1 < s.rwMsgTxHead.turn later.1
  unserved : ∀ n ∈ s.rwMsgTxHead.listed, s.Unserved n
  answered : ∀ n, (s.stage n).answered = true ∨ s.semaphore n = true → s.Answered n
  receiving : s.Receiving
  untouched : s.late = []

section
variable {s t : Exchange} {n k : Nat} {stage : Stage} {keeps : List Nat → Nat → Option Nat}
  {rxMsg : KeMsg}

theorem touch_eq {nodes : List Nat} (held : ∀ n ∈ nodes, (s.stage n).gone = false) : s.touch nodes = s := by
  have none : nodes.filter (fun n => (s.stage n).gone) = [] :=
    List.filter_eq_nil_iff.mpr fun n member gone => Bool.false_ne_true ((held n member).symm.trans gone)
  rw [touch, none]
  rfl

/-- Where no two entries have one key, a key has no more than one entry. -/
theorem filter_key {α : Type} {entries : List (Nat × α)} {value : α}
    (apart : entries.Pairwise fun later earlier => later.1 ≠ earlier.1) (member : (n, value) ∈ entries) :
    entries.filter (fun entry => entry.1 = n) = [(n, value)] := by
  induction entries with
  | nil => cases member
  | cons first rest ih =>
    obtain ⟨others, apart⟩ := List.pairwise_cons.mp apart
    rcases List.mem_cons.mp member with rfl | later
    · have none : rest.filter (fun entry => entry.1 = n) = [] :=
        List.filter_eq_nil_iff.mpr fun entry known same => others entry known (of_decide_eq_true same).symm
      simp only [List.filter_cons, decide_true, if_true, none]
    · have other : first.1 ≠ n := others _ later
      simp only [List.filter_cons, decide_eq_true_eq, if_neg other]
      exact ih apart later

namespace Sound

theorem init (cfm : Nat → Cells) : Sound (Exchange.init cfm) where
  list := .empty
  known _ := ⟨fun member => absurd member List.not_mem_nil, fun none => nomatch none⟩
  listed _ member := absurd member List.not_mem_nil
  reached _ reach := reach.elim
  each _ member := absurd member List.not_mem_nil
  ordered := .nil
  unserved _ member := absurd member List.not_mem_nil
  answered _ either := either.elim (fun none => nomatch none) fun none => nomatch none
  receiving := trivial
  untouched := rfl

theorem mem_pushed (sound : s.Sound) (member : n ∈ s.rwMsgTxHead.listed) : n ∈ s.rwMsgTxHead.pushed :=
  sound.list.mem_pushed.mpr (.inl member)

theorem not_gone (sound : s.Sound) (member : n ∈ s.rwMsgTxHead.listed) : (s.stage n).gone = false :=
  Stage.gone_of_mayList (sound.listed n member)

/-! ## The calls -/

theorem setStage (sound : s.Sound) (same : stage.submitted = (s.stage n).submitted)
    (lists : n ∈ s.rwMsgTxHead.listed → stage.mayList = true) (held : s.Reached n → stage.gone = false)
    (answers : stage.answered = true → s.Answered n) : (s.setStage n stage).Sound where
  list := sound.list
  known k := by
    by_cases here : k = n
    · subst here
      simpa only [Exchange.setStage, Function.update_self, same] using sound.known k
    · simpa only [Exchange.setStage, Function.update_of_ne here] using sound.known k
  listed k member := by
    by_cases here : k = n
    · subst here
      simpa only [Exchange.setStage, Function.update_self] using lists member
    · simpa only [Exchange.setStage, Function.update_of_ne here] using sound.listed k member
  reached k reach := by
    refine ⟨(sound.reached k reach).1, ?_⟩
    by_cases here : k = n
    · subst here
      simpa only [Exchange.setStage, Function.update_self] using held reach
    · simpa only [Exchange.setStage, Function.update_of_ne here] using (sound.reached k reach).2
  each := sound.each
  ordered := sound.ordered
  unserved := sound.unserved
  answered k either := by
    by_cases here : k = n
    · subst here
      simp only [Exchange.setStage, Function.update_self] at either
      exact either.elim answers fun given => sound.answered k (.inr given)
    · simp only [Exchange.setStage, Function.update_of_ne here] at either
      exact sound.answered k either
  receiving := sound.receiving
  untouched := sound.untouched

theorem setSemaphore (sound : s.Sound) (given : Bool) (answers : given = true → s.Answered n) :
    Sound { s with semaphore := Function.update s.semaphore n given } where
  list := sound.list
  known := sound.known
  listed := sound.listed
  reached := sound.reached
  each := sound.each
  ordered := sound.ordered
  unserved := sound.unserved
  answered k either := by
    by_cases here : k = n
    · subst here
      simp only [Function.update_self] at either
      exact either.elim (fun done => sound.answered k (.inl done)) answers
    · simp only [Function.update_of_ne here] at either
      exact sound.answered k either
  receiving := sound.receiving
  untouched := sound.untouched

end Sound

/-! ## What the receive task sees of the calls -/

/-- The nodes that were on the list keep their ids and their order, and what is new on
it came later. -/
structure Undisturbed (s t : Exchange) : Prop where
  list : t.rwMsgTxHead.Sound
  receiver : t.receiver = s.receiver
  confirms : t.confirms = s.confirms
  cfm : t.cfm = s.cfm
  reqid : ∀ k ∈ s.rwMsgTxHead.pushed, t.reqid k = s.reqid k
  pushed : ∀ k ∈ s.rwMsgTxHead.pushed, k ∈ t.rwMsgTxHead.pushed
  turn : ∀ k ∈ s.rwMsgTxHead.pushed, t.rwMsgTxHead.turn k = s.rwMsgTxHead.turn k
  listed : ∀ k ∈ t.rwMsgTxHead.listed,
    k ∈ s.rwMsgTxHead.listed ∨ ∀ j ∈ s.rwMsgTxHead.pushed, t.rwMsgTxHead.turn j < t.rwMsgTxHead.turn k
  ahead : ∀ rxMsg p k, t.Ahead rxMsg p k → s.Ahead rxMsg p k ∨ k ∈ t.rwMsgTxHead.listed

section
variable {t : Exchange} (keep : Undisturbed s t) (sound : s.Sound)
include keep

theorem Undisturbed.reached (reach : t.Reached k) : s.Reached k ∨ k ∈ t.rwMsgTxHead.listed := by
  unfold Reached at reach ⊢
  rw [keep.receiver] at reach
  cases shape : s.receiver <;> simp only [shape] at reach ⊢ <;>
    first | exact keep.ahead _ _ _ reach | exact Or.inl reach

include sound

theorem Undisturbed.unserved_pushed (known : k ∈ s.rwMsgTxHead.pushed) (before : s.Unserved k) : t.Unserved k := by
  intro entry member same
  rw [keep.confirms] at member
  have old := (sound.each entry member).2
  rw [keep.reqid _ old, keep.reqid k known] at same
  rw [keep.turn _ old, keep.turn k known]
  exact before entry member same

theorem Undisturbed.unserved (member : k ∈ t.rwMsgTxHead.listed) : t.Unserved k := by
  rcases keep.listed k member with old | new
  · exact keep.unserved_pushed sound (sound.mem_pushed old) (sound.unserved k old)
  · intro entry served _
    rw [keep.confirms] at served
    exact new _ (sound.each entry served).2

theorem Undisturbed.unserved_ahead {p : Nat} (known : ∀ n, s.Ahead rxMsg p n → n ∈ s.rwMsgTxHead.pushed)
    (before : ∀ n, s.Ahead rxMsg p n → s.Unserved n) : ∀ n, t.Ahead rxMsg p n → t.Unserved n := by
  intro n reach
  rcases keep.ahead _ _ _ reach with old | new
  · exact keep.unserved_pushed sound (known n old) (before n old)
  · exact keep.unserved sound new

theorem Undisturbed.first (known : k ∈ s.rwMsgTxHead.pushed) (before : s.First rxMsg k) : t.First rxMsg k := by
  intro j member same
  rcases keep.listed j member with old | new
  · have there := sound.mem_pushed old
    rw [keep.turn k known, keep.turn j there]
    exact before j old ((keep.reqid j there).symm.trans same)
  · exact Nat.le_of_lt (new k known)

theorem Undisturbed.receiving : t.Receiving := by
  have now := sound.receiving
  have known := fun n reach => (sound.reached n reach).1
  unfold Receiving at now ⊢
  unfold Reached at known
  rw [keep.receiver]
  cases shape : s.receiver with
  | standing rxMsg txNode =>
    simp only [shape] at now known ⊢
    exact ⟨keep.unserved_ahead sound known now.1, keep.first sound (known _ (.here _)) now.2⟩
  | passing rxMsg txNode =>
    simp only [shape] at now known ⊢
    refine ⟨keep.unserved_ahead sound known now.1, keep.first sound (known _ (.here _)) now.2.1, ?_⟩
    rw [keep.reqid _ (known _ (.here _))]
    exact now.2.2
  | found rxMsg txNode =>
    simp only [shape] at now known ⊢
    refine ⟨keep.unserved_pushed sound (known _ rfl) now.1, keep.first sound (known _ rfl) now.2.1, ?_⟩
    rw [keep.reqid _ (known _ rfl)]
    exact now.2.2
  | extracted rxMsg txNode => simpa only [shape, keep.confirms] using now
  | copied rxMsg txNode => simpa only [shape, keep.confirms, keep.cfm] using now
  | _ => trivial

theorem Undisturbed.preserves (known : ∀ n, n ∈ t.rwMsgTxHead.pushed ↔ (t.stage n).submitted = true)
    (listed : ∀ n ∈ t.rwMsgTxHead.listed, (t.stage n).mayList = true)
    (gone : ∀ n ∈ s.rwMsgTxHead.pushed, (t.stage n).gone = (s.stage n).gone)
    (answered : ∀ n, (t.stage n).answered = true ∨ t.semaphore n = true → s.Answered n)
    (untouched : t.late = []) : t.Sound where
  list := keep.list
  known := known
  listed := listed
  reached n reach := by
    rcases keep.reached reach with old | new
    · obtain ⟨pushed, held⟩ := sound.reached n old
      exact ⟨keep.pushed n pushed, (gone n pushed).trans held⟩
    · exact ⟨keep.list.mem_pushed.mpr (.inl new), Stage.gone_of_mayList (listed n new)⟩
  each entry member := by
    rw [keep.confirms] at member
    obtain ⟨same, pushed⟩ := sound.each entry member
    exact ⟨same.trans (keep.reqid _ pushed).symm, keep.pushed _ pushed⟩
  ordered := by
    rw [keep.confirms]
    refine sound.ordered.imp_of_mem fun {later earlier} first second order same => ?_
    have there := (sound.each later first).2
    have here := (sound.each earlier second).2
    rw [keep.reqid _ there, keep.reqid _ here] at same
    rw [keep.turn _ there, keep.turn _ here]
    exact order same
  unserved n member := keep.unserved sound member
  answered n either := by
    obtain ⟨rxMsg, member, held⟩ := answered n either
    exact ⟨rxMsg, keep.confirms ▸ member, keep.cfm ▸ held⟩
  receiving := keep.receiving sound
  untouched := untouched

end

namespace Sound

/-- A node that was never on the list may be filled in. -/
theorem setReqid (sound : s.Sound) (fresh : n ∉ s.rwMsgTxHead.pushed) (reqid : UInt16) :
    Sound { s with reqid := Function.update s.reqid n reqid } := by
  have same : ∀ k ∈ s.rwMsgTxHead.pushed, Function.update s.reqid n reqid k = s.reqid k := by
    intro k known
    have other : k ≠ n := fun clash => fresh (clash ▸ known)
    exact Function.update_of_ne other _ _
  have keep : Undisturbed s { s with reqid := Function.update s.reqid n reqid } := by
    refine ⟨sound.list, rfl, rfl, rfl, same, fun _ => id, fun _ _ => rfl, fun _ => .inl, fun rxMsg p k reach => ?_⟩
    left
    induction reach with
    | here => exact .here _
    | on past gone next _ ih =>
      have known := (sound.list.left gone next).1
      exact .on (by simpa only [same _ known] using past) gone next ih
  exact keep.preserves sound sound.known sound.listed (fun _ _ => rfl) sound.answered sound.untouched

theorem push (sound : s.Sound) (allocated : s.stage n = .allocated) :
    Sound { s.setStage n .pushed with rwMsgTxHead := s.rwMsgTxHead.pushBack n } := by
  have fresh : n ∉ s.rwMsgTxHead.pushed := by
    rw [sound.known, allocated]
    exact Bool.false_ne_true
  have keep : Undisturbed s { s.setStage n .pushed with rwMsgTxHead := s.rwMsgTxHead.pushBack n } := by
    refine ⟨sound.list.pushBack fresh, rfl, rfl, rfl, fun _ _ => rfl, fun k known => List.mem_append_left _ known,
      fun k known => LinkedList.turn_pushBack known, fun k member => ?_, fun _ _ _ reach => .inl reach.of_pushBack⟩
    rcases List.mem_append.mp member with old | new
    · exact Or.inl old
    · obtain rfl := List.mem_singleton.mp new
      exact Or.inr fun j known => LinkedList.turn_lt_pushBack fresh known
  refine keep.preserves sound (fun k => ?_) (fun k member => ?_) (fun k known => ?_) (fun k either => ?_) sound.untouched
  · by_cases here : k = n
    · subst here
      simp [Exchange.setStage, LinkedList.pushBack, Stage.submitted]
    · simpa [Exchange.setStage, LinkedList.pushBack, Function.update_of_ne here, here] using sound.known k
  · by_cases here : k = n
    · subst here
      simp only [Exchange.setStage, Function.update_self]
      rfl
    · have old := (List.mem_append.mp member).resolve_right fun new => here (List.mem_singleton.mp new)
      simpa only [Exchange.setStage, Function.update_of_ne here] using sound.listed k old
  · have other : k ≠ n := fun clash => fresh (clash ▸ known)
    simp only [Exchange.setStage, Function.update_of_ne other]
  · by_cases here : k = n
    · subst here
      simp only [Exchange.setStage, Function.update_self] at either
      exact either.elim (by rintro ⟨⟩) fun given => sound.answered k (.inr given)
    · simp only [Exchange.setStage, Function.update_of_ne here] at either
      exact sound.answered k either

/-- Whoever takes a node off the list. -/
theorem extract (keeps_next : ∀ listed n q, keeps listed n = some q → LinkedList.following n listed = some q)
    (sound : s.Sound) : Sound { s with rwMsgTxHead := s.rwMsgTxHead.extract keeps n } := by
  have fewer : ∀ k ∈ (s.rwMsgTxHead.extract keeps n).listed, k ∈ s.rwMsgTxHead.listed :=
    fun k member => ((LinkedList.mem_listed_extract sound.list).mp member).2
  have keep : Undisturbed s { s with rwMsgTxHead := s.rwMsgTxHead.extract keeps n } := by
    refine ⟨sound.list.extract keeps_next, rfl, rfl, rfl, fun _ _ => rfl, fun k known => ?_, fun k known => ?_,
      fun k member => .inl (fewer k member), fun _ _ _ reach => reach.of_extract sound.list keeps_next⟩
    · simpa only [LinkedList.pushed_extract] using known
    · simp only [LinkedList.turn_extract]
  refine keep.preserves sound (fun k => ?_) (fun k member => sound.listed k (fewer k member)) (fun _ _ => rfl)
    sound.answered sound.untouched
  simpa only [LinkedList.pushed_extract] using sound.known k

end Sound

end

end Exchange

end BekenSdk.RwMsg
