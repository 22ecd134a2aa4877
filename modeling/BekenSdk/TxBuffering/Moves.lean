import BekenSdk.TxBuffering.Buffering
import BekenSdk.TxBuffering.Lanes

/-! Every call of the layer is a series of moves of nodes in lanes. -/

set_option autoImplicit false

namespace BekenSdk.TxBuffering
open Base Relation

def clients : List Client := .gcSta :: (List.range maxBufingClientNum).map .goSap

theorem clients_nodup : clients.Nodup := by decide

abbrev Passage (overtakes loses : Prop) : Lanes Client MsduNode → Lanes Client MsduNode → Prop :=
  ReflTransGen (Lanes.Move clients MsduNode.client overtakes loses)

namespace TxBufing
variable {s t : TxBufing} {hand : Option Nat} {node clientIdx : Nat} {flag : VifType} {client : Client}
  {overtakes loses : Prop}

/-- The state with a node in hand. -/
def lanesWith (hand : Option Nat) (s : TxBufing) : Lanes Client MsduNode where
  queue := fun client => (s.chain client).bufingList
  hand := hand
  sent := s.sent.map Prod.fst
  memory := s.memory

def lanes (s : TxBufing) : Lanes Client MsduNode := s.lanesWith none

/-! ## Steps that the lanes do not see -/

theorem lanesWith_setClient {value : TxBufingClient} (same : value.bufingList = (s.chain client).bufingList) :
    (s.setClient client value).lanesWith hand = s.lanesWith hand := by
  refine Lanes.ext ?_ rfl rfl rfl
  funext other
  by_cases here : other = client
  · subst here
    simp [lanesWith, setClient, same]
  · simp [lanesWith, setClient, Function.update_of_ne here]

@[simp] theorem lanesWith_setTimer (running : Bool) : (s.setTimer client running).lanesWith hand = s.lanesWith hand :=
  lanesWith_setClient rfl

@[simp] theorem lanesWith_setCntrlSrc (src : UInt32) : (s.setCntrlSrc client src).lanesWith hand = s.lanesWith hand :=
  lanesWith_setClient rfl

@[simp] theorem lanesWith_sender (room : Bool) (cidAndFlag : UInt32) :
    (s.bmsgTxBufingSender room cidAndFlag).lanesWith hand = s.lanesWith hand := by
  rw [bmsgTxBufingSender]
  split <;> rfl

@[simp] theorem lanesWith_clearCntrlSrc : (s.clearCntrlSrc client).lanesWith hand = s.lanesWith hand := by
  cases client with
  | gcSta => exact lanesWith_setCntrlSrc _
  | goSap clientIdx =>
    rw [clearCntrlSrc]
    split
    · exact lanesWith_setCntrlSrc _
    split
    · exact lanesWith_setCntrlSrc _
    · rfl

theorem lanesWith_setList (nodes : List Nat) :
    (s.setList client nodes).lanesWith hand = (s.lanesWith hand).setQueue client nodes := by
  refine Lanes.ext ?_ rfl rfl rfl
  funext other
  by_cases here : other = client
  · subst here
    simp [lanesWith, setList, setClient, Lanes.setQueue]
  · simp [lanesWith, setList, setClient, Lanes.setQueue, Function.update_of_ne here]

/-! ## Lists -/

theorem chain_member (known : rwmGetBufingChain clientIdx flag = some client)
    (inside : clientIdx < maxBufingClientNum) : client ∈ clients := by
  cases flag with
  | sta =>
    obtain rfl := Option.some.inj known
    exact List.mem_cons_self
  | ap =>
    obtain rfl := Option.some.inj known
    exact List.mem_cons_of_mem _ (List.mem_map_of_mem (List.mem_range.mpr inside))
  | ibss => cases known
  | meshPoint => cases known
  | unknown => cases known

theorem count_eq (known : rwmGetBufingChain clientIdx flag = some client) (inside : clientIdx < maxBufingClientNum) :
    s.rwmGetClientBufingCount clientIdx flag = (s.chain client).bufingList.length := by
  rw [rwmGetClientBufingCount, known]
  exact if_neg (Nat.not_le_of_lt inside)

/-- A list gives its front node, if it has one. -/
theorem pop_eq (known : rwmGetBufingChain clientIdx flag = some client) (inside : clientIdx < maxBufingClientNum) :
    s.rwmPopBufingData clientIdx flag = match (s.chain client).bufingList with
      | [] => (none, s)
      | node :: others => (some node, s.setList client others) := by
  rw [rwmPopBufingData, known]
  exact if_neg (Nat.not_le_of_lt inside)

theorem pop_none (popped : s.rwmPopBufingData clientIdx flag = (none, t)) : t = s := by
  rw [rwmPopBufingData] at popped
  split at popped
  · exact (congrArg Prod.snd popped).symm
  split at popped
  · exact (congrArg Prod.snd popped).symm
  split at popped
  · exact (congrArg Prod.snd popped).symm
  · cases popped

/-- What is popped was at the front of a list. -/
theorem pop_some (popped : s.rwmPopBufingData clientIdx flag = (some node, t)) :
    ∃ client others, client ∈ clients ∧ (s.chain client).bufingList = node :: others ∧ t = s.setList client others := by
  rw [rwmPopBufingData] at popped
  split at popped
  · cases popped
  next client known =>
    split at popped
    · cases popped
    next inside =>
      split at popped
      · cases popped
      next front others listed =>
        cases popped
        exact ⟨client, others, chain_member known (Nat.lt_of_not_le inside), listed, rfl⟩

theorem pop_free (popped : s.rwmPopBufingData clientIdx flag = (some node, t)) :
    Passage overtakes loses (s.lanesWith hand) ((t.osFree node).lanesWith hand) := by
  obtain ⟨client, others, member, front, rfl⟩ := pop_some popped
  have move := @Lanes.Move.discard _ _ _ _ MsduNode.client overtakes loses
    (s.lanesWith hand) client node others member front
  rw [← lanesWith_setList] at move
  exact ReflTransGen.single move

theorem pop_transfer {how : TxuCntrl} (popped : s.rwmPopBufingData clientIdx flag = (some node, t)) :
    Passage overtakes loses (s.lanesWith hand) ((t.rwmTransferNode node how).lanesWith hand) := by
  obtain ⟨client, others, member, front, rfl⟩ := pop_some popped
  have move := @Lanes.Move.forward _ _ _ _ MsduNode.client overtakes loses
    (s.lanesWith hand) client node others member front
  rw [← lanesWith_setList] at move
  exact ReflTransGen.single move

theorem flushRounds_passage (rounds : Nat) :
    Passage overtakes loses (s.lanesWith hand) ((s.flushRounds clientIdx flag rounds).lanesWith hand) := by
  induction rounds generalizing s with
  | zero => exact ReflTransGen.refl
  | succ rounds ih =>
    rw [flushRounds]
    split
    next t popped =>
      rw [pop_none popped]
    next node t popped => exact (pop_free popped).trans ih

theorem flush_passage :
    Passage overtakes loses (s.lanesWith hand) ((s.rwmFlushBufingList clientIdx flag).lanesWith hand) := by
  rw [rwmFlushBufingList]
  split
  · exact ReflTransGen.refl
  split
  · exact ReflTransGen.refl
  · rw [lanesWith_setTimer]
    exact flushRounds_passage _

/-! ## Calls -/

theorem addTail_passage (known : rwmGetBufingChain clientIdx flag = some client)
    (inside : clientIdx < maxBufingClientNum) (mine : (s.memory.content node).client = some client) :
    Passage overtakes loses (s.lanesWith (some node)) (s.addTail node clientIdx flag).lanes := by
  have move := @Lanes.Move.put _ _ _ clients MsduNode.client overtakes loses
    (s.lanesWith (some node)) client node rfl (chain_member known inside) mine
  have added : s.addTail node clientIdx flag = s.setList client ((s.chain client).bufingList ++ [node]) := by
    rw [addTail, known]
    exact if_neg (Nat.not_le_of_lt inside)
  have same : (s.addTail node clientIdx flag).lanes =
      ((s.lanesWith (some node)).setQueue client ((s.lanesWith (some node)).queue client ++ [node])).drop := by
    rw [added, lanes, lanesWith_setList]
    rfl
  rw [same]
  exact ReflTransGen.single move

theorem push_passage (known : rwmGetBufingChain clientIdx flag = some client)
    (inside : clientIdx < maxBufingClientNum) (mine : (s.memory.content node).client = some client) :
    Passage overtakes loses (s.lanesWith (some node)) (s.rwmPushBufingData node clientIdx flag).lanes := by
  rw [rwmPushBufingData]
  split
  next full =>
    split
    next t popped =>
      -- a full list is not empty
      rw [pop_eq known inside] at popped
      rw [count_eq known inside] at full
      cases listed : (s.chain client).bufingList with
      | nil =>
        rw [listed] at full
        exact absurd full (by decide)
      | cons front others =>
        rw [listed] at popped
        cases popped
    next discard t popped =>
      have freed := @pop_free _ _ (some node) _ _ _ overtakes loses popped
      obtain ⟨_, others, _, _, rfl⟩ := pop_some popped
      apply freed.trans
      apply addTail_passage known inside
      have same := congrFun (Arena.access_content discard s.memory) node
      exact (congrArg MsduNode.client same).trans mine
  next => exact addTail_passage known inside mine

theorem transferNode_passage {how : TxuCntrl}
    (alone : ∀ client, (s.memory.content node).client = some client → (s.chain client).bufingList ≠ [] → overtakes) :
    Passage overtakes loses (s.lanesWith (some node)) (s.rwmTransferNode node how).lanes :=
  ReflTransGen.single (Lanes.Move.pass (s.lanesWith (some node)) node rfl alone)

theorem save_passage {env : Env} {vifIdx staIdx : Nat}
    (mine : (s.memory.content node).client = rwmGetBufingChain staIdx (env.vifType vifIdx))
    (outside : maxBufingClientNum ≤ staIdx ∨ rwmGetBufingChain staIdx (env.vifType vifIdx) = none → loses) :
    Passage overtakes loses (s.lanesWith (some node)) (s.rwmTxBufingSaveData env node vifIdx staIdx).lanes := by
  have lost : loses → Passage overtakes loses (s.lanesWith (some node)) s.lanes := fun lossy =>
    ReflTransGen.single (Lanes.Move.lose (s.lanesWith (some node)) lossy)
  unfold rwmTxBufingSaveData
  dsimp only
  split
  next unknown => exact lost (outside (Or.inr unknown))
  next client known =>
    have kept : ∀ t : TxBufing, t.memory = s.memory → (t.memory.content node).client = some client := by
      intro t same
      rw [same, mine, known]
    split
    next beyond => exact lost (outside (Or.inl beyond))
    next inside =>
      have inside := Nat.lt_of_not_le inside
      split
      · rw [← @lanesWith_setTimer _ _ client true]
        exact push_passage known inside (kept _ rfl)
      · exact push_passage known inside (kept _ rfl)

theorem start_lanes (triggerSource : UInt32) :
    (s.rwmTriggerTxBufingStart triggerSource clientIdx).lanes = s.lanes := by
  unfold rwmTriggerTxBufingStart
  split
  · rfl
  split
  · rfl
  · rw [lanes, lanesWith_setTimer, lanesWith_setCntrlSrc, lanes]

theorem stop_lanes (triggerSource : UInt32) (room : Bool) :
    (s.rwmTriggerTxBufingStop triggerSource clientIdx room).lanes = s.lanes := by
  unfold rwmTriggerTxBufingStop
  dsimp only
  split
  · rfl
  split
  · rfl
  split
  · rfl
  split
  · rw [lanes, lanesWith_setCntrlSrc, lanes]
  split
  · rw [lanes, lanesWith_setTimer, lanesWith_sender, lanesWith_setCntrlSrc, lanes]
  · rw [lanes, lanesWith_setTimer, lanesWith_setCntrlSrc, lanes]

theorem resend_lanes (cidAndFlag : UInt32) (room : Bool) (left : Nat) :
    (s.resend cidAndFlag room client node left).lanes = (s.rwmTransferNode node .moreData).lanes := by
  unfold resend
  dsimp only
  split
  · exact lanesWith_sender _ _
  · rfl

theorem restore_passage (env : Env) (cidAndFlag : UInt32) (room : Bool) :
    Passage overtakes loses s.lanes (s.rwmTxBufingRestoreData env cidAndFlag room).lanes := by
  unfold rwmTxBufingRestoreData
  split
  · exact ReflTransGen.refl
  next flag _ =>
    unfold restoreClient
    split
    · exact ReflTransGen.refl
    split
    · exact ReflTransGen.refl
    split
    · exact ReflTransGen.refl
    split
    next t popped =>
      rw [pop_none popped]
    next node t popped =>
      rw [resend_lanes]
      exact pop_transfer popped

theorem ending_passage {env : Env} (ended : s.rwmTxBufingEnd env clientIdx = some t) :
    Passage overtakes loses s.lanes t.lanes := by
  obtain ⟨client, -, rfl⟩ := Option.map_eq_some_iff.mp ended
  rw [lanes, ← @lanesWith_clearCntrlSrc _ _ client]
  exact flush_passage

theorem check_eq (env : Env) (vifIdx staIdx : Nat) (value : MsduNode) :
    (s.rwmTxNodeAlloc value).rwmCheckTxBufing env vifIdx staIdx = s.rwmCheckTxBufing env vifIdx staIdx := rfl

theorem chain_of_check {env : Env} {vifIdx staIdx : Nat} (checked : s.rwmCheckTxBufing env vifIdx staIdx = true) :
    rwmGetBufingChain staIdx (env.vifType vifIdx) ≠ none := by
  unfold rwmCheckTxBufing at checked
  dsimp only at checked
  cases type : env.vifType vifIdx with
  | sta => exact Option.some_ne_none _
  | ap => exact Option.some_ne_none _
  | ibss => simp [type, rwmGetBufingChain] at checked
  | meshPoint => simp [type, rwmGetBufingChain] at checked
  | unknown => simp [type, rwmGetBufingChain] at checked

theorem sendNow_passage
    (alone : ∀ client, (s.memory.content node).client = some client → (s.chain client).bufingList ≠ [] → overtakes) :
    Passage overtakes loses (s.lanesWith (some node)) (s.sendNow node).lanes := by
  unfold sendNow
  split
  · exact transferNode_passage alone
  · exact transferNode_passage alone

end TxBufing

/-- The layer accepts a node for whose station index it has no list. -/
def Loses (s : TxBufing) : Event → Prop
  | .transfer env vifIdx dstmac allocated => allocated = true ∧
    s.rwmCheckTxBufing env vifIdx (env.rwmMgmtTxGetStaidx vifIdx dstmac) = true ∧
      maxBufingClientNum ≤ env.rwmMgmtTxGetStaidx vifIdx dstmac
  | _ => False

/-- A node is sent at once while others of its client wait. -/
def Overtakes (s : TxBufing) : Event → Prop
  | .transfer env vifIdx dstmac allocated => allocated = true ∧
    s.rwmCheckTxBufing env vifIdx (env.rwmMgmtTxGetStaidx vifIdx dstmac) = false ∧
      ∃ client, TxBufing.rwmGetBufingChain (env.rwmMgmtTxGetStaidx vifIdx dstmac) (env.vifType vifIdx) = some client ∧
        (s.chain client).bufingList ≠ []
  | _ => False

namespace TxBufing
variable {s t : TxBufing} {event : Event}

theorem transfer_passage (env : Env) (vifIdx dstmac : Nat) (allocated : Bool) :
    Passage (Overtakes s (.transfer env vifIdx dstmac allocated)) (Loses s (.transfer env vifIdx dstmac allocated))
      s.lanes (s.rwmTransfer env vifIdx dstmac allocated).2.lanes := by
  cases allocated with
  | false => exact ReflTransGen.refl
  | true =>
    unfold rwmTransfer
    dsimp only
    rw [if_neg (by decide), check_eq]
    have submitted := fun value => ReflTransGen.single (@Lanes.Move.submit _ _ _ clients
      MsduNode.client (Overtakes s (.transfer env vifIdx dstmac true))
      (Loses s (.transfer env vifIdx dstmac true)) s.lanes value rfl)
    have fresh : ∀ value, (s.rwmTxNodeAlloc value).memory.content s.lanes.memory.count = value := fun value =>
      Function.update_self _ _ _
    split
    next checked =>
      apply (submitted _).trans
      apply save_passage (s := s.rwmTxNodeAlloc _)
      · rw [fresh]
      · rintro (beyond | unknown)
        · exact ⟨rfl, checked, beyond⟩
        · exact absurd unknown (chain_of_check checked)
    next checked =>
      apply (submitted _).trans
      apply sendNow_passage (s := s.rwmTxNodeAlloc _)
      intro client mine waiting
      rw [fresh] at mine
      exact ⟨rfl, Bool.eq_false_iff.mpr checked, client, mine, waiting⟩

/-- What an event does to the lanes. -/
theorem step_passage (taken : step event s = some t) : Passage (Overtakes s event) (Loses s event) s.lanes t.lanes := by
  cases event with
  | transfer env vifIdx dstmac allocated =>
    obtain rfl := Option.some.inj taken
    exact transfer_passage env vifIdx dstmac allocated
  | useLowRateOnce =>
    obtain rfl := Option.some.inj taken
    exact ReflTransGen.refl
  | start triggerSource clientIdx =>
    obtain rfl := Option.some.inj taken
    rw [start_lanes]
  | stop triggerSource clientIdx room =>
    obtain rfl := Option.some.inj taken
    rw [stop_lanes]
  | restore env cidAndFlag room =>
    obtain rfl := Option.some.inj taken
    exact restore_passage env cidAndFlag room
  | bmsg env room =>
    rw [step] at taken
    split at taken
    · cases taken
    next cidAndFlag others _ =>
      obtain rfl := Option.some.inj taken
      exact restore_passage (s := { s with bmsgs := others }) env cidAndFlag room
  | gcTimeout =>
    rw [step] at taken
    split at taken
    · obtain rfl := Option.some.inj taken
      exact flush_passage
    · cases taken
  | timeout clientIdx =>
    rw [step] at taken
    split at taken
    · obtain rfl := Option.some.inj taken
      exact flush_passage
    · cases taken
  | ending env clientIdx => exact ending_passage taken

end TxBufing

end BekenSdk.TxBuffering
