import BekenSdk.TxBuffering.Moves

/-! No node is lost and none is there twice, as long as every node that the
layer accepts has a station index for which there is a list.
-/

set_option autoImplicit false

namespace BekenSdk.TxBuffering
open Base

namespace TxBufing

def queue (client : Client) (s : TxBufing) : List Nat := (s.chain client).bufingList

def queued (s : TxBufing) : List Nat := clients.flatMap fun client => s.queue client

/-- The nodes are in a list or sent, or were freed, each once. -/
def Conserved (s : TxBufing) : Prop := Arena.Owned (s.queued ++ s.sent.map Prod.fst) s.memory

variable {s t : TxBufing} {event : Event}

theorem conserved_iff : s.Conserved ↔ s.lanes.Owns clients := Iff.rfl

theorem init_conserved (memory : Nat → MsduNode) : (init memory).Conserved := Arena.Owned.empty memory

theorem step_conserved (conserved : s.Conserved) (kept : ¬Loses s event) (taken : step event s = some t) :
    t.Conserved :=
  Lanes.moves_own clients_nodup (step_passage taken) kept conserved

theorem save_beyond {env : Env} {node vifIdx staIdx : Nat} (beyond : maxBufingClientNum ≤ staIdx) :
    s.rwmTxBufingSaveData env node vifIdx staIdx = s := by
  unfold rwmTxBufingSaveData
  dsimp only
  split
  · rfl
  · exact if_pos beyond

/-- A lost node is accepted, and put nowhere. -/
theorem step_loses (lost : Loses s event) (taken : step event s = some t) :
    ∃ value client, value.client = some client ∧ t = s.rwmTxNodeAlloc value := by
  cases event with
  | transfer env vifIdx dstmac allocated =>
    obtain ⟨rfl, checked, beyond⟩ := lost
    obtain rfl := Option.some.inj taken
    obtain ⟨client, known⟩ := Option.ne_none_iff_exists'.mp (chain_of_check checked)
    refine ⟨⟨vifIdx, env.rwmMgmtTxGetStaidx vifIdx dstmac, some client⟩, client, rfl, ?_⟩
    unfold rwmTransfer
    dsimp only
    rw [if_neg (by decide), check_eq, if_pos checked, known]
    exact save_beyond beyond
  | useLowRateOnce => exact lost.elim
  | start triggerSource clientIdx => exact lost.elim
  | stop triggerSource clientIdx room => exact lost.elim
  | restore env cidAndFlag room => exact lost.elim
  | bmsg env room => exact lost.elim
  | gcTimeout => exact lost.elim
  | timeout clientIdx => exact lost.elim
  | ending env clientIdx => exact lost.elim

theorem step_spoiled (conserved : s.Conserved) (lost : ¬¬Loses s event) (taken : step event s = some t) :
    ¬t.Conserved := by
  obtain ⟨value, -, -, rfl⟩ := step_loses (not_not.mp lost) taken
  exact (Arena.Owned.alloc conserved value).exact

/-- A run conserves its nodes, in all its states, if and only if no node is
accepted with a station index for which there is no list. -/
theorem nodes_conserved_iff {memory : Nat → MsduNode} {moments : List (Moment TxBufing Event)}
    (run : Run (Machine.Step step) (TxBufing.init memory) moments s) :
    Machine.Always Conserved moments s ↔ ∀ moment ∈ moments, ¬Loses moment.before moment.event :=
  Machine.always_iff run (init_conserved memory) step_conserved step_spoiled

end TxBufing

/-! ## Sample runs -/

/-- A device with a station interface 0 and an access point interface 1, whose
stations have the last byte of their address as index. -/
def tables (apId : Nat) : Env where
  vifPresent := fun vifIdx => decide (vifIdx < 2)
  vifType := fun vifIdx => if vifIdx = 0 then .sta else .ap
  apId := fun _ => apId
  staMac2idx := fun dstmac => dstmac
  instNbr := fun _ => 1
  psModeOn := fun _ => false
  p2pIsPresent := fun _ => true

def submits (apId vifIdx dstmac : Nat) : Event := .transfer (tables apId) vifIdx dstmac true

def quiet : TxBufing := .init fun _ => ⟨0, 0, none⟩

instance (s : TxBufing) (event : Event) : Decidable (Loses s event) := by
  cases event with
  | transfer env vifIdx dstmac allocated => exact inferInstanceAs (Decidable (_ ∧ _ ∧ _))
  | _ => exact inferInstanceAs (Decidable False)

def sleepAndWake : List Event :=
  [.bmsg (tables 0) true, .bmsg (tables 0) true, .stop txBufingSrcStaPs 1 true, submits 0 1 1, submits 0 0 0,
    submits 0 1 1, .start txBufingSrcStaPs 1]

/-- Two nodes wait for a station, and a third one does not. -/
theorem woken_station_conserved : ∃ moments s, Run (Machine.Step TxBufing.step) quiet moments s ∧
    s.sent = [(2, .moreData), (0, .moreData), (1, .none)] ∧ Machine.Always TxBufing.Conserved moments s := by
  have woken : (Machine.replay (Machine.guarded (fun s event => ¬Loses s event) TxBufing.step) quiet
      sleepAndWake).any (fun s => decide (s.sent = [(2, .moreData), (0, .moreData), (1, .none)])) = true := by
    decide
  obtain ⟨moments, s, run, -, kept, sent⟩ := Machine.run_of_fine woken
  exact ⟨moments, s, run, of_decide_eq_true sent, (TxBufing.nodes_conserved_iff run).mpr kept⟩

/-- While the group owner is in power save, the interface has no access point. -/
theorem node_lost : ¬∀ moments s, Run (Machine.Step TxBufing.step) quiet moments s →
    Machine.Always TxBufing.Conserved moments s := by
  intro claim
  have lost : (Machine.replay TxBufing.step quiet [submits 0xff 0 0, .start txBufingSrcP2pPs 0]).any
      (fun s => decide (s.memory.count = 1 ∧ s.queued = [] ∧ s.sent = [] ∧ s.memory.freed = [])) = true := by
    decide
  obtain ⟨moments, s, run, -, nowhere⟩ := Machine.run_of_any lost
  obtain ⟨count, queued, sent, freed⟩ := of_decide_eq_true nowhere
  have each := (claim moments s run).2.each.length_eq
  rw [queued, sent, freed, count] at each
  cases each

/-! ## Order

The nodes of a client are sent in the order in which they were submitted, as
long as none is sent at once while others of the client wait.
-/

namespace TxBufing

/-- The nodes that were sent for a client, in the order of sending. -/
def sentTo (client : Client) (s : TxBufing) : List Nat := s.lanes.sentTo MsduNode.client client

/-- The nodes that were submitted for a client, in the order of submission. -/
def submitted (client : Client) (s : TxBufing) : List Nat := s.lanes.submitted MsduNode.client client

/-- For every client, the nodes that were sent, and then the ones that wait, are
the submitted ones in their order, but for the freed ones. -/
def InOrder (s : TxBufing) : Prop :=
  ∀ client, s.sentTo client ++ s.queue client =
    (s.submitted client).filter fun node => decide (node ∉ s.memory.freed)

variable {s t : TxBufing} {event : Event} {client : Client}

theorem inOrder_iff : s.InOrder ↔ ∀ client, s.lanes.InOrder MsduNode.client client := by
  apply forall_congr'
  intro client
  rw [Lanes.InOrder]
  have none : s.lanes.only MsduNode.client client s.lanes.hand.toList = [] := rfl
  rw [none, List.append_nil]
  rfl

/-- The nodes are in order and each is in one place. -/
structure Orderly (s : TxBufing) : Prop where
  conserved : s.Conserved
  inOrder : s.InOrder

theorem init_orderly (memory : Nat → MsduNode) : (init memory).Orderly :=
  ⟨init_conserved memory, fun _ => rfl⟩

theorem step_orderly (orderly : s.Orderly) (fine : ¬Loses s event ∧ ¬Overtakes s event)
    (taken : step event s = some t) :
    t.Orderly := by
  refine ⟨step_conserved orderly.conserved fine.1 taken, inOrder_iff.mpr ?_⟩
  have order := inOrder_iff.mp orderly.inOrder
  exact Lanes.moves_inOrder clients_nodup (step_passage taken) fine.1 fine.2 orderly.conserved order

/-- The node that comes in is the last of its client. -/
theorem submit_last {value : MsduNode} (orderly : s.Orderly) (mine : value.client = some client) :
    (s.rwmTxNodeAlloc value).sentTo client ++ s.queue client ++ [s.memory.count] =
      ((s.rwmTxNodeAlloc value).submitted client).filter fun node => decide (node ∉ s.memory.freed) := by
  have order := @Lanes.submit_inOrder _ _ _ _ MsduNode.client _ _ value rfl (conserved_iff.mp orderly.conserved)
    (inOrder_iff.mp orderly.inOrder client)
  have content : (s.memory.alloc value).content s.memory.count = value := Function.update_self _ _ _
  have one : (s.rwmTxNodeAlloc value).lanes.only MsduNode.client client [s.memory.count] = [s.memory.count] :=
    Lanes.only_one_self (by rw [← mine]; exact congrArg MsduNode.client content)
  rw [← one]
  exact order

theorem step_lost_order (orderly : s.Orderly) (lost : Loses s event) (taken : step event s = some t) : ¬t.InOrder := by
  obtain ⟨value, client, mine, rfl⟩ := step_loses lost taken
  intro order
  have with_last := submit_last orderly mine
  have without := (order client).trans with_last.symm
  have lengths := congrArg List.length without
  simp [queue, rwmTxNodeAlloc] at lengths

theorem overtakes_eq (overtakes : Overtakes s event) (taken : step event s = some t) :
    ∃ value client, value.client = some client ∧ s.queue client ≠ [] ∧
      t = (s.rwmTxNodeAlloc value).sendNow s.memory.count := by
  cases event with
  | transfer env vifIdx dstmac allocated =>
    obtain ⟨rfl, checked, client, known, waiting⟩ := overtakes
    obtain rfl := Option.some.inj taken
    refine ⟨⟨vifIdx, env.rwmMgmtTxGetStaidx vifIdx dstmac, some client⟩, client, rfl, waiting, ?_⟩
    unfold rwmTransfer
    dsimp only
    rw [if_neg (by decide), check_eq, if_neg (Bool.eq_false_iff.mp checked), known]
  | useLowRateOnce => exact overtakes.elim
  | start triggerSource clientIdx => exact overtakes.elim
  | stop triggerSource clientIdx room => exact overtakes.elim
  | restore env cidAndFlag room => exact overtakes.elim
  | bmsg env room => exact overtakes.elim
  | gcTimeout => exact overtakes.elim
  | timeout clientIdx => exact overtakes.elim
  | ending env clientIdx => exact overtakes.elim

theorem sendNow_lanes (node : Nat) : (s.sendNow node).lanes = s.lanes.send node := by
  unfold sendNow
  split <;> rfl

theorem sendNow_freed (node : Nat) : (s.sendNow node).memory.freed = s.memory.freed := by
  have same := congrArg (fun l => l.memory.freed) (sendNow_lanes (s := s) node)
  exact same.trans (Arena.access_freed _ _)

/-- A node that was sent past its list is before nodes that came earlier. -/
theorem step_overtaken (orderly : s.Orderly) (overtakes : Overtakes s event) (taken : step event s = some t) :
    ¬t.InOrder := by
  obtain ⟨value, client, mine, waiting, rfl⟩ := overtakes_eq overtakes taken
  intro order
  have last := submit_last orderly mine
  have content : (s.memory.alloc value).content s.memory.count = value := Function.update_self _ _ _
  have one : (s.rwmTxNodeAlloc value).lanes.only MsduNode.client client [s.memory.count] = [s.memory.count] :=
    Lanes.only_one_self (by rw [← mine]; exact congrArg MsduNode.client content)
  have passed := order client
  have sent : ((s.rwmTxNodeAlloc value).sendNow s.memory.count).sentTo client =
      (s.rwmTxNodeAlloc value).sentTo client ++ [s.memory.count] := by
    rw [sentTo, sendNow_lanes, Lanes.send_sentTo, one]
    rfl
  have came : ((s.rwmTxNodeAlloc value).sendNow s.memory.count).submitted client =
      (s.rwmTxNodeAlloc value).submitted client := by
    rw [submitted, sendNow_lanes, Lanes.send_submitted]
    rfl
  have freed : ((s.rwmTxNodeAlloc value).sendNow s.memory.count).memory.freed = s.memory.freed :=
    sendNow_freed s.memory.count
  have list : ((s.rwmTxNodeAlloc value).sendNow s.memory.count).queue client = s.queue client :=
    congrFun (congrArg Lanes.queue (sendNow_lanes (s := s.rwmTxNodeAlloc value) s.memory.count)) client
  rw [sent, came, freed, list, ← last, List.append_assoc, List.append_assoc] at passed
  have turned := List.append_cancel_left passed
  -- then the node would be the one that waits longest
  obtain ⟨front, others, listed⟩ := List.exists_cons_of_ne_nil waiting
  rw [listed] at turned
  obtain rfl : s.memory.count = front := (List.cons.inj turned).1
  have known : s.memory.count ∈ s.queue client := listed ▸ List.mem_cons_self
  have came : s.memory.count ∈ (s.submitted client).filter fun node => decide (node ∉ s.memory.freed) := by
    rw [← orderly.inOrder client]
    exact List.mem_append_right _ known
  have old := List.mem_range.mp (Lanes.mem_only.mp (List.mem_of_mem_filter came)).1
  exact Nat.lt_irrefl _ old

theorem step_disorder (orderly : s.Orderly) (bad : ¬(¬Loses s event ∧ ¬Overtakes s event))
    (taken : step event s = some t) : ¬t.InOrder := by
  by_cases lost : Loses s event
  · exact step_lost_order orderly lost taken
  · exact step_overtaken orderly (by_contra fun behind => bad ⟨lost, behind⟩) taken

/-! ## Nodes that are freed -/

/-- The step frees no node, or the oldest one of a full list. -/
def FreesOldest (s t : TxBufing) : Prop :=
  t.memory.freed = s.memory.freed ∨ ∃ client node others, s.queue client = node :: others ∧
    maxTxbufferCount ≤ (s.queue client).length ∧ t.memory.freed = node :: s.memory.freed

theorem pop_freed {node discard clientIdx : Nat} {flag : VifType}
    (popped : s.rwmPopBufingData clientIdx flag = (some discard, t)) :
    ((t.osFree discard).addTail node clientIdx flag).memory.freed = discard :: s.memory.freed := by
  obtain ⟨_, others, _, _, rfl⟩ := pop_some popped
  rw [addTail]
  split
  · rfl
  · split <;> rfl

theorem addTail_freed {node clientIdx : Nat} {flag : VifType} :
    (s.addTail node clientIdx flag).memory.freed = s.memory.freed := by
  rw [addTail]
  split
  · rfl
  · split <;> rfl

theorem push_freesOldest {node clientIdx : Nat} {flag : VifType}
    (known : rwmGetBufingChain clientIdx flag = some client) (inside : clientIdx < maxBufingClientNum) :
    FreesOldest s (s.rwmPushBufingData node clientIdx flag) := by
  rw [rwmPushBufingData]
  split
  next full =>
    rw [count_eq known inside] at full
    split
    next t popped => exact Or.inl (congrArg (fun u => u.memory.freed) (pop_none popped))
    next discard t popped =>
      have freed := @pop_freed _ _ node _ _ _ popped
      rw [pop_eq known inside] at popped
      cases listed : (s.chain client).bufingList with
      | nil =>
        rw [listed] at popped
        cases popped
      | cons front others =>
        rw [listed] at popped
        obtain rfl : front = discard := Option.some.inj (congrArg Prod.fst popped)
        exact Or.inr ⟨client, front, others, listed, full, freed⟩
  next => exact Or.inl addTail_freed

theorem save_freesOldest {env : Env} {node vifIdx staIdx : Nat} :
    FreesOldest s (s.rwmTxBufingSaveData env node vifIdx staIdx) := by
  unfold rwmTxBufingSaveData
  dsimp only
  split
  · exact Or.inl rfl
  next client known =>
    split
    · exact Or.inl rfl
    next inside =>
      have inside := Nat.lt_of_not_le inside
      split
      next none =>
        rcases @push_freesOldest (s.setTimer client true) _ node _ _ known inside with same | ⟨c, rest⟩
        · exact Or.inl same
        · have list : (s.setTimer client true).queue c = s.queue c :=
            congrFun (congrArg Lanes.queue (@lanesWith_setTimer s .none client true)) c
          rw [list] at rest
          exact Or.inr ⟨c, rest⟩
      next => exact push_freesOldest known inside

theorem resend_freed {node left : Nat} (cidAndFlag : UInt32) (room : Bool) :
    (s.resend cidAndFlag room client node left).memory.freed = s.memory.freed := by
  have same := congrArg (fun l => l.memory.freed)
    (@resend_lanes s node client cidAndFlag room left)
  exact same.trans (Arena.access_freed _ _)

theorem restore_freed (env : Env) (cidAndFlag : UInt32) (room : Bool) :
    (s.rwmTxBufingRestoreData env cidAndFlag room).memory.freed = s.memory.freed := by
  unfold rwmTxBufingRestoreData
  split
  · rfl
  unfold restoreClient
  split
  · rfl
  split
  · rfl
  split
  · rfl
  split
  next t popped => rw [pop_none popped]
  next node t popped =>
    obtain ⟨_, others, _, _, rfl⟩ := pop_some popped
    exact resend_freed cidAndFlag room

end TxBufing

/-- The events that empty a list. -/
def Event.flushes : Event → Bool
  | .gcTimeout | .timeout _ | .ending _ _ => true
  | _ => false

namespace TxBufing
variable {s t : TxBufing} {event : Event}

theorem transfer_freesOldest (env : Env) (vifIdx dstmac : Nat) (allocated : Bool) :
    FreesOldest s (s.rwmTransfer env vifIdx dstmac allocated).2 := by
  unfold rwmTransfer
  dsimp only
  split
  · exact Or.inl rfl
  split
  · exact save_freesOldest (s := s.rwmTxNodeAlloc _)
  · exact Or.inl (sendNow_freed s.memory.count)

/-- A transmission frees at most the oldest node of a full list, and starts,
stops and restores free none. -/
theorem step_freesOldest (other : event.flushes = false) (taken : step event s = some t) : FreesOldest s t := by
  cases event with
  | transfer env vifIdx dstmac allocated =>
    obtain rfl := Option.some.inj taken
    exact transfer_freesOldest env vifIdx dstmac allocated
  | useLowRateOnce =>
    obtain rfl := Option.some.inj taken
    exact Or.inl rfl
  | start triggerSource clientIdx =>
    obtain rfl := Option.some.inj taken
    exact Or.inl (congrArg (fun l => l.memory.freed) (start_lanes triggerSource))
  | stop triggerSource clientIdx room =>
    obtain rfl := Option.some.inj taken
    exact Or.inl (congrArg (fun l => l.memory.freed) (stop_lanes triggerSource room))
  | restore env cidAndFlag room =>
    obtain rfl := Option.some.inj taken
    exact Or.inl (restore_freed env cidAndFlag room)
  | bmsg env room =>
    rw [step] at taken
    split at taken
    · cases taken
    · obtain rfl := Option.some.inj taken
      exact Or.inl (restore_freed env _ room)
  | gcTimeout => cases other
  | timeout clientIdx => cases other
  | ending env clientIdx => cases other

/-- A run sends the nodes of every client in the order of submission, with none
missing that waits or is lost, in all its states, if and only if no node is sent
at once while others of its client wait and none is accepted without a list for
it. But for time-outs and ends, the nodes that are freed are the oldest of full
lists. -/
theorem transmission_ordered_iff {memory : Nat → MsduNode} {moments : List (Moment TxBufing Event)}
    (run : Run (Machine.Step step) (TxBufing.init memory) moments s) :
    (Machine.Always InOrder moments s ↔
      ∀ moment ∈ moments, ¬Loses moment.before moment.event ∧ ¬Overtakes moment.before moment.event) ∧
    ∀ moment ∈ moments, moment.event.flushes = false → ∀ after, step moment.event moment.before = some after →
      FreesOldest moment.before after := by
  constructor
  · exact @Machine.always_iff_of_invariant _ _ _ _ _ _ _ _ (fun _ _ => True) _ run (init_orderly memory)
      (fun _ orderly => orderly.inOrder) (fun orderly _ => step_orderly orderly)
      (fun orderly _ => step_disorder orderly) (fun _ _ => trivial)
  · exact fun moment _ other after taken => step_freesOldest other taken

end TxBufing

/-! ## Sample runs -/

instance (s : TxBufing) (event : Event) : Decidable (Overtakes s event) := by
  cases event with
  | transfer env vifIdx dstmac allocated =>
    -- there is at most one client to look at
    let staIdx := env.rwmMgmtTxGetStaidx vifIdx dstmac
    refine decidable_of_iff (allocated = true ∧ s.rwmCheckTxBufing env vifIdx staIdx = false ∧
      ((TxBufing.rwmGetBufingChain staIdx (env.vifType vifIdx)).any
        fun client => decide ((s.chain client).bufingList ≠ [])) = true) ?_
    simp only [Overtakes, Option.any_eq_true, decide_eq_true_eq]
    rfl
  | _ => exact inferInstanceAs (Decidable False)

/-- Two nodes wait for a station and are sent when it wakes up. -/
theorem woken_station_ordered : ∃ moments s, Run (Machine.Step TxBufing.step) quiet moments s ∧
    s.sent = [(2, .moreData), (0, .moreData), (1, .none)] ∧ Machine.Always TxBufing.InOrder moments s := by
  have woken : (Machine.replay (Machine.guarded (fun s event => ¬Loses s event ∧ ¬Overtakes s event)
      TxBufing.step) quiet sleepAndWake).any
      (fun s => decide (s.sent = [(2, .moreData), (0, .moreData), (1, .none)])) = true := by
    decide
  obtain ⟨moments, s, run, -, fine, sent⟩ := Machine.run_of_fine woken
  exact ⟨moments, s, run, of_decide_eq_true sent, (TxBufing.transmission_ordered_iff run).1.mpr fine⟩

/-- A node is submitted after the stop and before the core task restores. -/
theorem node_overtaken : ¬∀ moments s, Run (Machine.Step TxBufing.step) quiet moments s →
    ∀ client, (s.sentTo client).Sublist (s.submitted client) := by
  intro claim
  have overtaken : (Machine.replay TxBufing.step quiet [.bmsg (tables 0) true, submits 0 1 1,
      .stop txBufingSrcStaPs 1 true, submits 0 1 1, .start txBufingSrcStaPs 1]).any
      (fun s => decide (s.sentTo (.goSap 1) = [1, 0] ∧ s.submitted (.goSap 1) = [0, 1])) = true := by
    decide
  obtain ⟨moments, s, run, -, order⟩ := Machine.run_of_any overtaken
  obtain ⟨sent, came⟩ := of_decide_eq_true order
  have sub := claim moments s run (.goSap 1)
  rw [sent, came] at sub
  exact absurd sub (by decide)

end BekenSdk.TxBuffering
