import BekenSdk.SdioSlave.Receive

/-! The receive stream of the slave. The copy counts words in steps of four, and a transfer that needs the next node
goes into the one that was just finished: what is left are transfers of less than eight bytes that fit in the node at
hand.
-/

set_option autoImplicit false

namespace BekenSdk.SdioSlave
open Base

section
variable {bidirect : Bool} {d after : Driver} {node n m : NodePtr} {offset wordCnt i : Nat} {words copied rest : List Word}
  {count : UInt32} {queued members : List NodePtr} {list : SdioList} {nodes : Nodes}

/-! ## The copy -/

/-- The words that a transfer of `count` bytes takes from the FIFO. -/
def copiedCount (count : Nat) : Nat := (count / 4 + 3) / 4 + if count % 4 = 0 then 0 else 1

theorem copiedCount_le (count : Nat) : copiedCount count ≤ (count + 3) / 4 := by
  unfold copiedCount
  split <;> omega

theorem copiedCount_few {count : Nat} (few : count < 8) : copiedCount count = (count + 3) / 4 := by
  unfold copiedCount
  split <;> omega

theorem copiedCount_many {count : Nat} (many : 8 ≤ count) : 4 * copiedCount count < count := by
  unfold copiedCount
  split <;> omega

theorem copiedCount_pos {count : Nat} (some_bytes : 0 < count) : 0 < copiedCount count := by
  unfold copiedCount
  split <;> omega

/-- What the copy leaves of the driver. -/
structure Copied (d : Driver) (node : NodePtr) (offset : Nat) (fifo : List Word) (after : Driver) : Prop where
  chan : after.chan = d.chan
  nodes : after.nodes = d.nodes
  level : after.level = d.level
  fifo : after.fifo = fifo
  data : ∀ p k, p ≠ node ∨ k < offset → after.data p k = d.data p k

theorem store_data {s : Store} {p : NodePtr} {k : Nat} (outside : p ≠ s.node ∨ k < s.offset) :
    (d.store s).data p k = d.data p k := by
  unfold Driver.store Function.update
  dsimp only
  split
  next same =>
    subst same
    exact storeBytes_outside (Or.inl (outside.resolve_left fun differ => differ rfl))
  · rfl

theorem copyWords_spec (enough : d.fifo = copied ++ rest) (number : copied.length = (wordCnt - i + 3) / 4) :
    ∃ after, copyWords wordCnt i node offset d = some (offset + 4 * copied.length, placed node offset copied, after) ∧
      Copied d node offset rest after := by
  induction copied generalizing i offset d with
  | nil =>
    have done : ¬i < wordCnt := by
      simp only [List.length_nil] at number
      omega
    rw [copyWords, if_neg done]
    exact ⟨d, rfl, rfl, rfl, rfl, enough, fun _ _ _ => rfl⟩
  | cons w copied ih =>
    simp only [List.length_cons] at number
    rw [copyWords, if_pos (by omega), sdioHalSlaveReadData, enough]
    dsimp only [List.cons_append]
    obtain ⟨after, copy, chan, nodes, level, fifo, data⟩ :=
      @ih ({ d with fifo := copied ++ rest }.store ⟨node, offset, w⟩) (offset + 4) (i + 4) rfl (by omega)
    rw [copy]
    refine ⟨after, ?_, chan, nodes, level, fifo, fun p k outside => ?_⟩
    · simp only [placed, List.length_cons]
      congr 2
      omega
    · rw [data p k (outside.imp_right fun before => by omega), store_data outside]

theorem placed_append {last : Word} :
    placed node offset copied ++ [⟨node, offset + 4 * copied.length, last⟩] = placed node offset (copied ++ [last]) := by
  induction copied generalizing offset with
  | nil => rfl
  | cons w copied ih =>
    have shift : offset + 4 * (copied.length + 1) = offset + 4 + 4 * copied.length := by omega
    simp only [placed, List.cons_append, List.length_cons, shift, ih]

theorem sdioSlaveRxFifoToBuf_spec {tar : BufPtr} (enough : d.fifo = copied ++ rest)
    (number : copied.length = copiedCount count.toNat) :
    ∃ after, sdioSlaveRxFifoToBuf tar count d = some (placed tar.1 tar.2.toNat copied, after) ∧
      Copied d tar.1 tar.2.toNat rest after := by
  unfold copiedCount at number
  unfold sdioSlaveRxFifoToBuf
  dsimp only
  split at number
  next whole =>
    have words : copied.length = (count.toNat / 4 - 0 + 3) / 4 := by omega
    obtain ⟨after, copy, kept⟩ := @copyWords_spec _ tar.1 tar.2.toNat _ 0 _ _ enough words
    rw [copy]
    exact ⟨after, if_neg fun part => part whole, kept⟩
  next part =>
    obtain ⟨whole, last, rfl⟩ : ∃ whole last, copied = whole ++ [last] := by
      refine ⟨copied.dropLast, copied.getLast ?_, (List.dropLast_append_getLast _).symm⟩
      rintro rfl
      simp at number
    rw [List.length_append, List.length_singleton] at number
    have words : whole.length = (count.toNat / 4 - 0 + 3) / 4 := by omega
    obtain ⟨after, copy, chan, nodes, level, fifo, data⟩ :=
      @copyWords_spec _ tar.1 tar.2.toNat _ 0 _ (last :: rest) (by rw [enough]; simp) words
    rw [copy]
    dsimp only
    rw [if_pos part, sdioHalSlaveReadData, fifo]
    dsimp only
    rw [placed_append]
    refine ⟨_, rfl, chan, nodes, level, rfl, fun p k outside => ?_⟩
    rw [store_data (outside.imp_right fun before => Nat.lt_of_lt_of_le before (Nat.le_add_right _ _))]
    exact data p k outside

/-! ## The channel -/

@[simp] theorem rx_setChanBuf {buf : ChanBuf} :
    (d.setChanBuf chanPlatform (bufIndex bidirect chanRx) buf).rx bidirect = buf := by
  simp [Driver.rx, Driver.chanBuf, Driver.setChanBuf]

@[simp] theorem setChanBuf_opened {buf : ChanBuf} :
    ((d.setChanBuf chanPlatform (bufIndex bidirect chanRx) buf).chan chanPlatform).rxDirect =
      (d.chan chanPlatform).rxDirect := by
  simp [Driver.setChanBuf]

/-- Room in the node at hand. -/
def Room (bidirect : Bool) (d : Driver) (count : UInt32) : Prop :=
  (d.rx bidirect).transactionLen.toNat + count.toNat ≤ (d.rx bidirect).bufSize.toNat

theorem getRxBufPtr_none (opened : (d.chan chanPlatform).rxDirect = true) (none_queued : (d.rx bidirect).ongoingList.head = 0) :
    sdioSlaveGetValidOngoingRxBufPtr bidirect chanPlatform count none d = (.noBuffer, none, d) := by
  unfold sdioSlaveGetValidOngoingRxBufPtr
  rw [if_neg (by decide), if_neg (by rw [opened]; decide)]
  dsimp only
  rw [show (rtosDisableInt d).chanBuf chanPlatform (bufIndex bidirect chanRx) = d.rx bidirect from rfl, if_pos none_queued]
  rfl

theorem left_iff (filled : (d.rx bidirect).transactionLen.toNat ≤ (d.rx bidirect).bufSize.toNat) :
    (d.rx bidirect).bufSize - (d.rx bidirect).transactionLen ≥ count ↔ Room bidirect d count := by
  have large := (d.rx bidirect).bufSize.toNat_lt
  rw [ge_iff_le, UInt32.le_iff_toNat_le, UInt32.toNat_sub, Room]
  omega

theorem getRxBufPtr_room (opened : (d.chan chanPlatform).rxDirect = true)
    (some_queued : (d.rx bidirect).ongoingList.head ≠ 0) (fits : count ≤ (d.rx bidirect).bufSize)
    (filled : (d.rx bidirect).transactionLen.toNat ≤ (d.rx bidirect).bufSize.toNat) (room : Room bidirect d count) :
    sdioSlaveGetValidOngoingRxBufPtr bidirect chanPlatform count none d =
      (.ok, some ((d.rx bidirect).ongoingList.head, (d.rx bidirect).transactionLen), d) := by
  unfold sdioSlaveGetValidOngoingRxBufPtr
  rw [if_neg (by decide), if_neg (by rw [opened]; decide)]
  dsimp only
  rw [show (rtosDisableInt d).chanBuf chanPlatform (bufIndex bidirect chanRx) = d.rx bidirect from rfl,
    if_neg some_queued, if_neg (UInt32.not_lt.mpr fits), if_pos ((left_iff filled).mpr room)]
  rfl

/-- A node that is handed on to the finish list. -/
theorem handOn (queued : Lists d.nodes (d.rx bidirect).ongoingList (n :: members)) :
    ∃ popped, sdioChanPopOngoingNode bidirect chanPlatform chanRx 0 d = (.ok, n, popped) ∧
      (popped.nodes n).next = 0 ∧ popped.data = d.data ∧ popped.fifo = d.fifo ∧
      (popped.chan chanPlatform).rxDirect = (d.chan chanPlatform).rxDirect ∧
      ∃ left, Lists popped.nodes left members ∧
        popped.rx bidirect = { d.rx bidirect with ongoingList := left } := by
  obtain ⟨left, popped, lists⟩ := queued.pop 0
  have some_count : (d.rx bidirect).ongoingList.count ≠ 0 := by
    intro none
    have counted := queued.count
    rw [none] at counted
    cases counted
  unfold sdioChanPopOngoingNode
  rw [if_neg (by decide), if_neg (by decide)]
  dsimp only
  rw [show (rtosDisableInt d).chanBuf chanPlatform (bufIndex bidirect chanRx) = d.rx bidirect from rfl, if_pos some_count,
    show (rtosDisableInt d).nodes = d.nodes from rfl, popped]
  refine ⟨_, if_neg fun wrong => wrong rfl, ?_, rfl, rfl, setChanBuf_opened, left, lists, rx_setChanBuf⟩
  exact setNext_next.trans (if_pos rfl)

/-- A node alone in the finish list. -/
theorem pushFinish (finish : (d.rx bidirect).finishList = ⟨0, 0, 0⟩) (some_node : n ≠ 0) (last : (d.nodes n).next = 0) :
    ∃ pushed, sdioChanPushFinishList bidirect chanPlatform chanRx n n 1 d = (.ok, pushed) ∧
      pushed.nodes = d.nodes ∧ pushed.data = d.data ∧ pushed.fifo = d.fifo ∧
      (pushed.chan chanPlatform).rxDirect = (d.chan chanPlatform).rxDirect ∧
      pushed.rx bidirect = { d.rx bidirect with finishList := ⟨n, n, 1⟩ } := by
  have alone : Lists d.nodes ⟨n, n, 1⟩ [n] := ⟨⟨rfl, some_node, last⟩, rfl, rfl, List.nodup_singleton n⟩
  unfold sdioChanPushFinishList
  rw [if_neg (by decide), if_neg (by decide)]
  dsimp only
  rw [show (rtosDisableInt d).chanBuf chanPlatform (bufIndex bidirect chanRx) = d.rx bidirect from rfl, finish,
    show (rtosDisableInt d).nodes = d.nodes from rfl, sdioListPushList,
    if_neg (fun wrong => wrong (alone.check (List.cons_ne_nil _ _))), if_pos rfl]
  exact ⟨_, rfl, rfl, rfl, rfl, setChanBuf_opened, rx_setChanBuf⟩

theorem getRxBufPtr_next (opened : (d.chan chanPlatform).rxDirect = true)
    (queued : Lists d.nodes (d.rx bidirect).ongoingList (n :: members))
    (finish : (d.rx bidirect).finishList = ⟨0, 0, 0⟩) (fits : count ≤ (d.rx bidirect).bufSize)
    (filled : (d.rx bidirect).transactionLen.toNat ≤ (d.rx bidirect).bufSize.toNat) (room : ¬Room bidirect d count) :
    ∃ after, sdioSlaveGetValidOngoingRxBufPtr bidirect chanPlatform count none d = (.ok, some (n, 0), after) ∧
      after.fifo = d.fifo ∧ Lists after.nodes (after.rx bidirect).ongoingList members := by
  have some_queued : (d.rx bidirect).ongoingList.head ≠ 0 := queued.chain.1 ▸ queued.chain.2.1
  obtain ⟨popped, pop, last, data, fifo, _, left, lists, rx⟩ := @handOn _ (rtosDisableInt d) _ _ queued
  have nothing : (popped.rx bidirect).finishList = ⟨0, 0, 0⟩ := by rw [rx]; exact finish
  obtain ⟨pushed, push, nodes, _, kept, _, final⟩ := pushFinish nothing queued.chain.2.1 last
  unfold sdioSlaveGetValidOngoingRxBufPtr
  rw [if_neg (by decide), if_neg (by rw [opened]; decide)]
  dsimp only
  rw [show (rtosDisableInt d).chanBuf chanPlatform (bufIndex bidirect chanRx) = d.rx bidirect from rfl,
    if_neg some_queued, if_neg (UInt32.not_lt.mpr fits), if_neg (fun left => room ((left_iff filled).mp left)), pop]
  dsimp only
  rw [if_pos ⟨rfl, queued.chain.2.1⟩, push]
  refine ⟨_, rfl, kept.trans fifo, ?_⟩
  show Lists pushed.nodes ((pushed.setChanBuf chanPlatform (bufIndex bidirect chanRx) _).rx bidirect).ongoingList members
  rw [rx_setChanBuf, nodes]
  show Lists popped.nodes (pushed.rx bidirect).ongoingList members
  rw [final, rx]
  exact lists

/-! ## A transfer -/

/-- The channel between two things that happen. -/
structure Ready (bidirect : Bool) (s : Slave) (queued : List NodePtr) : Prop where
  opened : (s.driver.chan chanPlatform).rxDirect = true
  ongoing : Lists s.driver.nodes (s.driver.rx bidirect).ongoingList queued
  finish : (s.driver.rx bidirect).finishList = ⟨0, 0, 0⟩
  filled : (s.driver.rx bidirect).transactionLen.toNat < (s.driver.rx bidirect).bufSize.toNat
  finishing : ∀ packetLen, s.finishing = some packetLen → queued ≠ [] ∧ Room bidirect s.driver packetLen

variable {s t : Slave}

theorem receive_none (opened : (d.chan chanPlatform).rxDirect = true) (none_queued : (d.rx bidirect).ongoingList.head = 0) :
    receive bidirect words count d = some (.fail, [], { d with fifo := d.fifo ++ words }) := by
  unfold receive sdioSlaveRx
  rw [@getRxBufPtr_none bidirect { d with fifo := d.fifo ++ words } count opened none_queued]

theorem words_split (number : words.length = (count.toNat + 3) / 4) :
    ∃ copied rest, d.fifo ++ words = copied ++ rest ∧ copied.length = copiedCount count.toNat := by
  refine ⟨_, _, (List.take_append_drop (copiedCount count.toNat) _).symm, List.length_take_of_le ?_⟩
  have := copiedCount_le count.toNat
  rw [List.length_append]
  omega

theorem receive_room (opened : (d.chan chanPlatform).rxDirect = true)
    (some_queued : (d.rx bidirect).ongoingList.head ≠ 0) (fits : count ≤ (d.rx bidirect).bufSize)
    (filled : (d.rx bidirect).transactionLen.toNat ≤ (d.rx bidirect).bufSize.toNat) (room : Room bidirect d count)
    (number : words.length = (count.toNat + 3) / 4) :
    ∃ copied rest after, receive bidirect words count d =
        some (.ok, placed (d.rx bidirect).ongoingList.head (d.rx bidirect).transactionLen.toNat copied, after) ∧
      d.fifo ++ words = copied ++ rest ∧ copied.length = copiedCount count.toNat ∧
      Copied d (d.rx bidirect).ongoingList.head (d.rx bidirect).transactionLen.toNat rest after := by
  obtain ⟨copied, rest, split, length⟩ := words_split (d := d) number
  obtain ⟨after, copy, chan, nodes, level, fifo, data⟩ := @sdioSlaveRxFifoToBuf_spec { d with fifo := d.fifo ++ words }
    copied rest count ((d.rx bidirect).ongoingList.head, (d.rx bidirect).transactionLen) split length
  refine ⟨copied, rest, after, ?_, split, length, chan, nodes, level, fifo, data⟩
  have found := @getRxBufPtr_room bidirect { d with fifo := d.fifo ++ words } count opened some_queued fits filled room
  unfold receive sdioSlaveRx
  rw [found]
  dsimp only
  rw [show (({ d with fifo := d.fifo ++ words } : Driver).rx bidirect) = d.rx bidirect from rfl, copy]

theorem receive_next (opened : (d.chan chanPlatform).rxDirect = true)
    (queued : Lists d.nodes (d.rx bidirect).ongoingList (n :: members))
    (finish : (d.rx bidirect).finishList = ⟨0, 0, 0⟩) (fits : count ≤ (d.rx bidirect).bufSize)
    (filled : (d.rx bidirect).transactionLen.toNat ≤ (d.rx bidirect).bufSize.toNat) (room : ¬Room bidirect d count)
    (number : words.length = (count.toNat + 3) / 4) :
    ∃ copied after, receive bidirect words count d = some (.ok, placed n 0 copied, after) ∧
      copied.length = copiedCount count.toNat ∧ Lists after.nodes (after.rx bidirect).ongoingList members := by
  obtain ⟨copied, rest, split, length⟩ := words_split (d := d) number
  obtain ⟨next, found, fifo, lists⟩ :=
    @getRxBufPtr_next bidirect { d with fifo := d.fifo ++ words } n count members opened queued finish fits filled room
  obtain ⟨after, copy, chan, nodes, _, _, _⟩ := @sdioSlaveRxFifoToBuf_spec next copied rest count (n, 0)
    (fifo.trans split) length
  refine ⟨copied, after, ?_, length, ?_⟩
  · unfold receive sdioSlaveRx
    rw [found]
    dsimp only
    rw [copy]
    rfl
  · rw [nodes, show after.rx bidirect = next.rx bidirect by unfold Driver.rx Driver.chanBuf; rw [chan]]
    exact lists

theorem lacking_iff (queued : Lists d.nodes (d.rx bidirect).ongoingList members) :
    Lacking bidirect d count ↔ members = [] ∨ (∃ n, members = [n]) ∧ ¬Room bidirect d count := by
  unfold Lacking Room
  constructor
  · rintro (none | ⟨n, one, large⟩)
    · exact Or.inl (queued.unique none)
    · exact Or.inr ⟨⟨n, queued.unique one⟩, Nat.not_le.mpr large⟩
  · rintro (rfl | ⟨⟨n, rfl⟩, large⟩)
    · exact Or.inl queued
    · exact Or.inr ⟨n, queued, Nat.not_le.mp large⟩

theorem flatMap_bytes_length : (copied.flatMap Word.bytes).length = 4 * copied.length := by
  induction copied with
  | nil => rfl
  | cons w copied ih =>
    rw [List.flatMap_cons, List.length_append, ih, List.length_cons]
    show 4 + _ = _
    omega

theorem payload_length (number : words.length = (count.toNat + 3) / 4) : (payload words count).length = count.toNat := by
  rw [payload, List.length_take, flatMap_bytes_length]
  omega

/-- What a transfer that fits does. -/
theorem receive_fits (ready : Ready bidirect s queued) (allowed : Allowed bidirect s (.transfer words count))
    (fits : Fits bidirect s.driver words count) :
    ∃ outcome, receive bidirect words count s.driver = some outcome ∧
      TransferMet bidirect s.driver words count outcome ∧
      Ready bidirect ⟨outcome.2.2, if outcome.1 = .ok then some count else none⟩ queued := by
  obtain ⟨some_bytes, small, number⟩ := allowed
  by_cases none_queued : (s.driver.rx bidirect).ongoingList.head = 0
  · have empty := ready.ongoing.head_zero.mp none_queued
    refine ⟨_, receive_none ready.opened none_queued, ⟨fun _ => ⟨nofun, rfl, rfl⟩, fun some_node => ?_⟩, ?_⟩
    · exact absurd ((lacking_iff ready.ongoing).mpr (Or.inl empty)) some_node
    · exact ⟨ready.opened, ready.ongoing, ready.finish, ready.filled, nofun⟩
  · obtain ⟨clean, few, room, rounded⟩ := fits.resolve_left none_queued
    obtain ⟨copied, rest, after, taken, split, length, chan, nodes, level, fifo, data⟩ :=
      receive_room ready.opened none_queued small (Nat.le_of_lt ready.filled) room number
    have some_node : queued ≠ [] := fun empty => none_queued (ready.ongoing.head_zero.mpr empty)
    have all : copied = words := by
      rw [clean, List.nil_append] at split
      have same : copied.length = words.length := by rw [length, copiedCount_few few, number]
      have none_left : rest = [] := by
        have := congrArg List.length split
        rw [List.length_append] at this
        exact List.length_eq_zero_iff.mp (by omega)
      rw [split, none_left, List.append_nil]
    subst all
    have rx : after.rx bidirect = s.driver.rx bidirect := by unfold Driver.rx Driver.chanBuf; rw [chan]
    have ongoing : Lists after.nodes (after.rx bidirect).ongoingList queued := by rw [nodes, rx]; exact ready.ongoing
    refine ⟨_, taken, ⟨fun lacks => ?_, fun _ => ?_⟩, ?_⟩
    · rcases (lacking_iff ready.ongoing).mp lacks with empty | ⟨_, large⟩
      · exact absurd empty some_node
      · exact absurd room large
    · refine ⟨_, _, copied, queued, rfl, rfl, ongoing, ?_, fun _ => Nat.le_refl _, rounded, data⟩
      cases queued with
      | nil => exact absurd rfl some_node
      | cons n others => exact ready.ongoing.chain.1 ▸ List.mem_cons_self
    · refine ⟨by rw [chan]; exact ready.opened, ongoing, by rw [rx]; exact ready.finish, by rw [rx]; exact ready.filled, ?_⟩
      intro packetLen same
      obtain rfl := Option.some.inj same
      exact ⟨some_node, by unfold Room; rw [rx]; exact room⟩

theorem placed_inj {more : List Word} {other : Nat} (some_words : copied ≠ [])
    (same : placed n offset copied = placed m other more) : n = m ∧ offset = other ∧ copied = more := by
  induction copied generalizing offset other more with
  | nil => exact absurd rfl some_words
  | cons w copied ih =>
    cases more with
    | nil => cases same
    | cons v more =>
      obtain ⟨first, later⟩ := List.cons.inj same
      obtain ⟨rfl, rfl, rfl⟩ := Store.mk.inj first
      refine ⟨rfl, rfl, ?_⟩
      cases copied with
      | nil =>
        cases more with
        | nil => rfl
        | cons u more => cases later
      | cons u copied => rw [(ih (List.cons_ne_nil _ _) later).2.2]

/-- Nor does any other transfer into an empty FIFO go well. -/
theorem receive_unfit (ready : Ready bidirect s queued) (allowed : Allowed bidirect s (.transfer words count))
    (clean : s.driver.fifo = []) (unfit : ¬Fits bidirect s.driver words count) :
    ∃ outcome, receive bidirect words count s.driver = some outcome ∧
      ¬TransferMet bidirect s.driver words count outcome := by
  obtain ⟨some_bytes, small, number⟩ := allowed
  have some_queued : (s.driver.rx bidirect).ongoingList.head ≠ 0 := fun none => unfit (Or.inl none)
  have filled := Nat.le_of_lt ready.filled
  have copies : ∀ {copied : List Word}, copied.length = copiedCount count.toNat → copied ≠ [] := by
    rintro copied length rfl
    exact absurd length (Nat.ne_of_lt (copiedCount_pos some_bytes))
  by_cases room : Room bidirect s.driver count
  · obtain ⟨copied, rest, after, taken, _, length, _⟩ := receive_room ready.opened some_queued small filled room number
    refine ⟨_, taken, fun met => ?_⟩
    have not_lacking : ¬Lacking bidirect s.driver count := fun lacks =>
      ((lacking_iff ready.ongoing).mp lacks).elim
        (fun empty => some_queued (ready.ongoing.head_zero.mpr empty)) (fun more => more.2 room)
    obtain ⟨node, offset, stored, _, same, complete, _, _, _, inside, _⟩ := met.2 not_lacking
    obtain ⟨_, rfl, rfl⟩ := placed_inj (copies length) same
    by_cases few : count.toNat < 8
    · refine unfit (Or.inr ⟨clean, few, room, ?_⟩)
      rw [number, ← copiedCount_few few, ← length]
      exact inside
    · have sizes := congrArg List.length complete
      rw [payload_length number, List.length_take, flatMap_bytes_length, length] at sizes
      have short := copiedCount_many (Nat.not_lt.mp few)
      omega
  · obtain ⟨n, members, rfl⟩ : ∃ n members, queued = n :: members := by
      cases queued with
      | nil => exact absurd (ready.ongoing.head_zero.mpr rfl) some_queued
      | cons n members => exact ⟨n, members, rfl⟩
    obtain ⟨copied, after, taken, length, lists⟩ :=
      receive_next ready.opened ready.ongoing ready.finish small filled room number
    refine ⟨_, taken, fun met => ?_⟩
    by_cases alone : members = []
    · exact (met.1 ((lacking_iff ready.ongoing).mpr (Or.inr ⟨⟨n, by rw [alone]⟩, room⟩))).1 rfl
    · have not_lacking : ¬Lacking bidirect s.driver count := fun lacks =>
        ((lacking_iff ready.ongoing).mp lacks).elim nofun
          fun ⟨⟨_, one⟩, _⟩ => alone (List.cons.inj one).2
      obtain ⟨node, offset, stored, left, same, _, lists', inside, _⟩ := met.2 not_lacking
      obtain ⟨rfl, _⟩ := placed_inj (copies length) same
      rw [lists'.unique lists] at inside
      exact (List.nodup_cons.mp ready.ongoing.nodup).1 inside

/-! ## The other events -/

theorem linkNodes_outside (out : n ∉ members) : linkNodes nodes members n = nodes n := by
  induction members with
  | nil => rfl
  | cons m rest ih =>
    have first : n ≠ m := fun same => out (same ▸ List.mem_cons_self)
    cases rest with
    | nil => exact Function.update_of_ne first _ _
    | cons k rest =>
      exact (Function.update_of_ne first _ _).trans (ih fun inside => out (List.mem_cons_of_mem _ inside))

theorem linkNodes_chain (nodup : members.Nodup) (nonzero : ∀ n ∈ members, n ≠ 0) :
    Chain (linkNodes nodes members) (members.headD 0) members := by
  induction members with
  | nil => rfl
  | cons n rest ih =>
    obtain ⟨outside, others⟩ := List.nodup_cons.mp nodup
    obtain ⟨here, later⟩ := List.forall_mem_cons.mp nonzero
    cases rest with
    | nil => exact ⟨rfl, here, setNext_next.trans (if_pos rfl)⟩
    | cons m rest =>
      refine ⟨rfl, here, ?_⟩
      have next : (linkNodes nodes (n :: m :: rest) n).next = m := setNext_next.trans (if_pos rfl)
      rw [next]
      exact (ih others later).setNext outside

theorem bkSdioSlaveSyncRead_after {headP tailP : NodePtr} {ret : BkErr}
    (pushed : sdioListPushList d.nodes (d.rx bidirect).ongoingList headP tailP count = (ret, list, nodes)) :
    ∃ after, bkSdioSlaveSyncRead bidirect chanPlatform headP tailP count d = (ret, after) ∧ after.nodes = nodes ∧
      after.rx bidirect = { d.rx bidirect with ongoingList := list } ∧
      (after.chan chanPlatform).rxDirect = (d.chan chanPlatform).rxDirect ∧ after.fifo = d.fifo := by
  unfold bkSdioSlaveSyncRead
  rw [if_neg (by decide)]
  dsimp only
  rw [show (rtosDisableInt d).chanBuf chanPlatform (bufIndex bidirect chanRx) = d.rx bidirect from rfl,
    show (rtosDisableInt d).nodes = d.nodes from rfl, pushed]
  exact ⟨_, rfl, rfl, rx_setChanBuf, setChanBuf_opened, rfl⟩

variable {app : UInt32 → NodePtr → NodePtr → UInt32 → Driver → Driver}

theorem syncRead_ready (ready : Ready bidirect s queued) (allowed : Allowed bidirect s (.syncRead members))
    (taken : step bidirect app (.syncRead members) s = some t) :
    Ready bidirect t (queued ++ members) ∧ t.driver.fifo = s.driver.fifo ∧
      (t.driver.rx bidirect).bufSize = (s.driver.rx bidirect).bufSize ∧
      (t.driver.rx bidirect).transactionLen = (s.driver.rx bidirect).transactionLen := by
  obtain ⟨nodup, nonzero, fresh⟩ := allowed
  have apart := fresh queued ready.ongoing
  have before : Lists (linkNodes s.driver.nodes members) (s.driver.rx bidirect).ongoingList queued := by
    refine ⟨ready.ongoing.chain.congr fun n inside => ?_, ready.ongoing.tail, ready.ongoing.count, ready.ongoing.nodup⟩
    rw [linkNodes_outside fun other => apart inside other]
  obtain ⟨ret, list, nodes, pushed, lists⟩ : ∃ ret list nodes, sdioListPushList (linkNodes s.driver.nodes members)
      (s.driver.rx bidirect).ongoingList (members.headD 0) (lastOf members) (UInt32.ofNat members.length) =
        (ret, list, nodes) ∧ Lists nodes list (queued ++ members) := by
    by_cases none : members = []
    · subst none
      exact ⟨.list, _, _, rfl, by rw [List.append_nil]; exact before⟩
    · have few := length_lt_of_nodup nodup nonzero
      obtain ⟨longer, after, push, lists, _⟩ := before.push
        ⟨linkNodes_chain nodup nonzero, rfl, UInt32.toNat_ofNat_of_lt' few, nodup⟩ none apart
      exact ⟨_, _, _, push, lists⟩
  obtain ⟨after, read, linked, rx, opened, fifo⟩ :=
    @bkSdioSlaveSyncRead_after bidirect { s.driver with nodes := linkNodes s.driver.nodes members } _ _ _ _ _ _ pushed
  rw [step] at taken
  dsimp only at taken
  rw [read] at taken
  obtain rfl := Option.some.inj taken
  refine ⟨⟨opened.trans ready.opened, by rw [linked, rx]; exact lists, by rw [rx]; exact ready.finish,
    by rw [rx]; exact ready.filled, fun packetLen pending => ?_⟩, fifo, by rw [rx]; rfl, by rw [rx]; rfl⟩
  obtain ⟨some_node, room⟩ := ready.finishing packetLen pending
  exact ⟨fun none => some_node (List.append_eq_nil_iff.mp none).1, by unfold Room; rw [rx]; exact room⟩

/-- The node is taken from the finish list again. -/
theorem popFinish (finish : (d.rx bidirect).finishList = ⟨n, n, 1⟩) (some_node : n ≠ 0) (last : (d.nodes n).next = 0) :
    ∃ after, sdioChanPopFinishNode bidirect chanPlatform chanRx m d = (.ok, n, after) ∧
      after.nodes = d.nodes.setNext n 0 ∧ (after.chan chanPlatform).rxDirect = (d.chan chanPlatform).rxDirect ∧
      after.rx bidirect = { d.rx bidirect with finishList := ⟨0, 0, 0⟩ } := by
  have alone : Lists d.nodes ⟨n, n, 1⟩ [n] := ⟨⟨rfl, some_node, last⟩, rfl, rfl, List.nodup_singleton n⟩
  have popped : sdioListPopNode d.nodes ⟨n, n, 1⟩ 0 = (.ok, n, ⟨0, 0, 0⟩, d.nodes.setNext n 0) := by
    unfold sdioListPopNode
    rw [if_neg (fun wrong => wrong (alone.check (List.cons_ne_nil _ _))), if_pos (show (1 : UInt32) ≠ 0 by decide)]
    dsimp only
    rw [if_pos rfl]
    rfl
  unfold sdioChanPopFinishNode
  rw [if_neg (by decide), if_neg (by decide)]
  dsimp only
  rw [show (rtosDisableInt d).chanBuf chanPlatform (bufIndex bidirect chanRx) = d.rx bidirect from rfl, finish,
    show (rtosDisableInt d).nodes = d.nodes from rfl, popped, if_pos (show (1 : UInt32) ≠ 0 by decide)]
  exact ⟨_, rfl, rfl, setChanBuf_opened, rx_setChanBuf⟩

theorem addTransLen_part (part : (d.rx bidirect).transactionLen + count ≠ (d.rx bidirect).bufSize) :
    ∃ after, sdioSlaveAddOngoingBufTransLen bidirect app chanPlatform chanRx count d = (.ok, after) ∧
      after.nodes = d.nodes ∧ (after.chan chanPlatform).rxDirect = (d.chan chanPlatform).rxDirect ∧
      after.rx bidirect = { d.rx bidirect with transactionLen := (d.rx bidirect).transactionLen + count } := by
  unfold sdioSlaveAddOngoingBufTransLen
  rw [if_neg (by decide), if_neg (by decide)]
  dsimp only
  rw [show (rtosDisableInt d).chanBuf chanPlatform (bufIndex bidirect chanRx) = d.rx bidirect from rfl, if_neg part]
  exact ⟨_, rfl, rfl, setChanBuf_opened, rx_setChanBuf⟩

theorem addTransLen_full (quiet : ∀ cb headP tailP count d, app cb headP tailP count d = d)
    (queued : Lists d.nodes (d.rx bidirect).ongoingList (n :: members))
    (finish : (d.rx bidirect).finishList = ⟨0, 0, 0⟩)
    (full : (d.rx bidirect).transactionLen + count = (d.rx bidirect).bufSize) :
    ∃ after left, sdioSlaveAddOngoingBufTransLen bidirect app chanPlatform chanRx count d = (.ok, after) ∧
      Lists after.nodes left members ∧ (after.chan chanPlatform).rxDirect = (d.chan chanPlatform).rxDirect ∧
      after.rx bidirect = { d.rx bidirect with ongoingList := left, transactionLen := 0 } := by
  have nonzero := queued.chain.2.1
  have outside := (List.nodup_cons.mp queued.nodup).1
  -- the driver with the new length, and then one call after the other
  let counted := (rtosDisableInt d).setChanBuf chanPlatform (bufIndex bidirect chanRx)
    { d.rx bidirect with transactionLen := (d.rx bidirect).transactionLen + count }
  have rxCounted : counted.rx bidirect =
      { d.rx bidirect with transactionLen := (d.rx bidirect).transactionLen + count } := rx_setChanBuf
  obtain ⟨popped, pop, last, _, _, openedPop, left, lists, rxPop⟩ :=
    @handOn bidirect counted n members (by rw [rxCounted]; exact queued)
  let emptied := popped.setChanBuf chanPlatform (bufIndex bidirect chanRx) { popped.rx bidirect with transactionLen := 0 }
  have rxEmptied : emptied.rx bidirect = { popped.rx bidirect with transactionLen := 0 } := rx_setChanBuf
  obtain ⟨pushed, push, nodesPush, _, _, openedPush, rxPush⟩ :=
    @pushFinish bidirect emptied n (by rw [rxEmptied, rxPop, rxCounted]; exact finish) nonzero last
  have lastPush : (pushed.nodes n).next = 0 := by rw [nodesPush]; exact last
  obtain ⟨taken, take, nodesTake, openedTake, rxTake⟩ :=
    @popFinish bidirect pushed n n (by rw [rxPush]) nonzero lastPush
  have told : sdioChanNotifyCb bidirect app chanPlatform chanRx pushed = pushed := by
    unfold sdioChanNotifyCb
    dsimp only
    rw [quiet, ite_self]
  refine ⟨rtosEnableInt d.level taken, left, ?_, ?_, ?_, ?_⟩
  · unfold sdioSlaveAddOngoingBufTransLen
    rw [if_neg (by decide), if_neg (by decide)]
    dsimp only
    rw [show (rtosDisableInt d).chanBuf chanPlatform (bufIndex bidirect chanRx) = d.rx bidirect from rfl, if_pos full,
      show (rtosDisableInt d).setChanBuf chanPlatform (bufIndex bidirect chanRx) _ = counted from rfl, pop]
    dsimp only
    rw [if_pos rfl, show popped.chanBuf chanPlatform (bufIndex bidirect chanRx) = popped.rx bidirect from rfl,
      show popped.setChanBuf chanPlatform (bufIndex bidirect chanRx) _ = emptied from rfl, push]
    dsimp only
    rw [told, take]
  · show Lists taken.nodes left members
    rw [nodesTake, nodesPush]
    exact ⟨lists.chain.setNext outside, lists.tail, lists.count, lists.nodup⟩
  · exact openedTake.trans (openedPush.trans (setChanBuf_opened.trans (openedPop.trans setChanBuf_opened)))
  · show taken.rx bidirect = _
    rw [rxTake, rxPush, rxEmptied, rxPop, rxCounted, finish.symm]

/-- A packet is counted; the node that it fills is handed on, and the application told of it. -/
theorem memoryFinish_ready (quiet : ∀ cb headP tailP count d, app cb headP tailP count d = d)
    (ready : Ready bidirect s queued) (taken : step bidirect app .memoryFinish s = some t) :
    ∃ left, Ready bidirect t left := by
  rw [step] at taken
  cases pending : s.finishing with
  | none =>
    rw [pending] at taken
    cases taken
  | some packetLen =>
    rw [pending] at taken
    obtain rfl := Option.some.inj taken
    obtain ⟨some_node, room⟩ := ready.finishing packetLen pending
    have sum : ((s.driver.rx bidirect).transactionLen + packetLen).toNat =
        (s.driver.rx bidirect).transactionLen.toNat + packetLen.toNat := by
      have := (s.driver.rx bidirect).bufSize.toNat_lt
      unfold Room at room
      rw [UInt32.toNat_add]
      omega
    by_cases full : (s.driver.rx bidirect).transactionLen + packetLen = (s.driver.rx bidirect).bufSize
    · obtain ⟨n, members, rfl⟩ : ∃ n members, queued = n :: members := by
        cases queued with
        | nil => exact absurd rfl some_node
        | cons n members => exact ⟨n, members, rfl⟩
      obtain ⟨after, left, add, lists, opened, rx⟩ :=
        @addTransLen_full _ _ _ _ _ app quiet ready.ongoing ready.finish full
      refine ⟨members, ?_⟩
      rw [add]
      exact ⟨opened.trans ready.opened, by rw [rx]; exact lists, by rw [rx]; exact ready.finish,
        by rw [rx]; exact Nat.zero_lt_of_lt ready.filled, nofun⟩
    · obtain ⟨after, add, nodes, opened, rx⟩ := @addTransLen_part _ _ _ app full
      refine ⟨queued, ?_⟩
      rw [add]
      refine ⟨opened.trans ready.opened, by rw [nodes, rx]; exact ready.ongoing, by rw [rx]; exact ready.finish, ?_, nofun⟩
      rw [rx]
      dsimp only
      rw [sum]
      exact Nat.lt_of_le_of_ne room fun same => full (UInt32.toNat_inj.mp (sum.trans same))

/-- Every event but a transfer leaves the channel ready. -/
theorem step_ready (quiet : ∀ cb headP tailP count d, app cb headP tailP count d = d) {event : Event}
    (ready : Ready bidirect s queued) (allowed : Allowed bidirect s event)
    (fits : ∀ words count, event = .transfer words count → Fits bidirect s.driver words count)
    (taken : step bidirect app event s = some t) : ∃ left, Ready bidirect t left := by
  cases event with
  | syncRead members => exact ⟨_, (syncRead_ready ready allowed taken).1⟩
  | transfer words count =>
    obtain ⟨outcome, received, _, after⟩ := receive_fits ready allowed (fits words count rfl)
    rw [step] at taken
    split at taken
    · rw [received] at taken
      obtain rfl := Option.some.inj taken
      exact ⟨queued, after⟩
    · cases taken
  | memoryFinish => exact memoryFinish_ready quiet ready taken
  | fifoReset =>
    obtain rfl := Option.some.inj taken
    exact ⟨queued, ready.opened, ready.ongoing, ready.finish, ready.filled, ready.finishing⟩

theorem Initial.ready (initial : Initial bidirect s) : Ready bidirect s [] := by
  refine ⟨initial.opened, ?_, initial.finish, by rw [initial.empty]; exact initial.room, fun _ pending => ?_⟩
  · rw [initial.ongoing]
    exact ⟨rfl, rfl, rfl, List.nodup_nil⟩
  · rw [initial.idle] at pending
    cases pending

/-! ## Runs -/

/-- The transfer ends, and its bytes are where they belong. -/
def Met (bidirect : Bool) (s : Slave) (words : List Word) (count : UInt32) : Prop :=
  ∃ outcome, receive bidirect words count s.driver = some outcome ∧ TransferMet bidirect s.driver words count outcome

end

/-- In a run whose transfers fit, each goes well; and at the end of such a run, with nothing in the FIFO, no others do. -/
theorem transfers_met {bidirect : Bool} {app : UInt32 → NodePtr → NodePtr → UInt32 → Driver → Driver}
    {start final : Slave} {moments : List (Moment Slave Event)}
    (quiet : ∀ cb headP tailP count d, app cb headP tailP count d = d) (initial : Initial bidirect start)
    (run : Run (Machine.Step (step bidirect app)) start moments final)
    (allowed : ∀ moment ∈ moments, Allowed bidirect moment.before moment.event)
    (fits : ∀ moment ∈ moments, ∀ words count, moment.event = .transfer words count →
      Fits bidirect moment.before.driver words count) :
    (∀ moment ∈ moments, ∀ words count, moment.event = .transfer words count → Met bidirect moment.before words count) ∧
      ∀ words count, Allowed bidirect final (.transfer words count) → final.driver.fifo = [] →
        (Met bidirect final words count ↔ Fits bidirect final.driver words count) := by
  have always := @Machine.always_of_invariant _ _ _ _ _ _ (fun s => ∃ queued, Ready bidirect s queued)
    (fun s event => Allowed bidirect s event ∧
      ∀ words count, event = .transfer words count → Fits bidirect s.driver words count)
    run ⟨[], initial.ready⟩
    (fun ⟨_, ready⟩ ⟨ok, fine⟩ taken => step_ready quiet ready ok fine taken)
    (fun moment here => ⟨allowed moment here, fits moment here⟩)
  constructor
  · intro moment here words count transferred
    obtain ⟨queued, ready⟩ := always.1 moment here
    obtain ⟨outcome, received, met, _⟩ :=
      receive_fits ready (transferred ▸ allowed moment here) (fits moment here words count transferred)
    exact ⟨outcome, received, met⟩
  · intro words count ok clean
    obtain ⟨queued, ready⟩ := always.2
    constructor
    · rintro ⟨outcome, received, met⟩
      by_cases fine : Fits bidirect final.driver words count
      · exact fine
      · obtain ⟨other, again, bad⟩ := receive_unfit ready ok clean fine
        obtain rfl := Option.some.inj (received.symm.trans again)
        exact absurd met bad
    · intro fine
      obtain ⟨outcome, received, met, _⟩ := receive_fits ready ok fine
      exact ⟨outcome, received, met⟩

/-- A channel for nodes of eight bytes. -/
def sampleSlave : Slave where
  driver :=
    { chan _ := ⟨false, true, fun _ => ⟨8, ⟨0, 0, 0⟩, ⟨0, 0, 0⟩, 0, ⟨0, 0, 0⟩, 0⟩⟩
      nodes _ := ⟨0, 0⟩
      data _ _ := 0
      fifo := []
      level := ⟨false, false⟩ }
  finishing := none

theorem sampleSlave_initial : Initial false sampleSlave := ⟨rfl, rfl, rfl, rfl, by decide, rfl⟩

theorem sampleSlave_allowed : Allowed false sampleSlave (.syncRead [0x100]) := by
  refine ⟨List.nodup_singleton _, fun n here => ?_, fun queued lists => ?_⟩
  · rw [List.mem_singleton.mp here]
    decide
  · rw [lists.head_zero.mp rfl]
    exact fun _ none => absurd none List.not_mem_nil

/-- A node is queued, and there is room for four bytes. -/
theorem four_bytes_met :
    ∃ t, step false (fun _ _ _ _ d => d) (.syncRead [0x100]) sampleSlave = some t ∧ Met false t [⟨1, 2, 3, 4⟩] 4 := by
  obtain ⟨t, taken⟩ : ∃ t, step false (fun _ _ _ _ d => d) (.syncRead [0x100]) sampleSlave = some t := ⟨_, rfl⟩
  obtain ⟨ready, clean, size, empty⟩ := syncRead_ready sampleSlave_initial.ready sampleSlave_allowed taken
  have run : Run (Machine.Step (step false fun _ _ _ _ d => d)) sampleSlave [⟨sampleSlave, .syncRead [0x100]⟩] t :=
    .next .nil ⟨rfl, taken⟩
  refine ⟨t, taken, ((transfers_met (fun _ _ _ _ _ => rfl) sampleSlave_initial run ?_ ?_).2 _ _ ?_ clean).mpr ?_⟩
  · exact List.forall_mem_singleton.mpr sampleSlave_allowed
  · exact List.forall_mem_singleton.mpr nofun
  · exact ⟨by decide, by rw [size]; decide, rfl⟩
  · refine Or.inr ⟨clean, by decide, ?_, ?_⟩ <;> rw [size, empty] <;> decide

/-- Two words come, and one is stored. -/
theorem eight_bytes_incomplete :
    ¬∀ (start final : Slave) (moments : List (Moment Slave Event)), Initial false start →
      Run (Machine.Step (step false fun _ _ _ _ d => d)) start moments final →
      (∀ moment ∈ moments, Allowed false moment.before moment.event) →
      ∀ moment ∈ moments, ∀ words count, moment.event = .transfer words count → Met false moment.before words count := by
  intro claimed
  obtain ⟨t, taken⟩ : ∃ t, step false (fun _ _ _ _ d => d) (.syncRead [0x100]) sampleSlave = some t := ⟨_, rfl⟩
  obtain ⟨ready, clean, size, empty⟩ := syncRead_ready sampleSlave_initial.ready sampleSlave_allowed taken
  have idle : t.finishing = none := by
    obtain rfl := Option.some.inj taken
    rfl
  have allowed : Allowed false t (.transfer [⟨1, 2, 3, 4⟩, ⟨5, 6, 7, 8⟩] 8) := ⟨by decide, by rw [size]; decide, rfl⟩
  have unfit : ¬Fits false t.driver [⟨1, 2, 3, 4⟩, ⟨5, 6, 7, 8⟩] 8 := by
    rintro (none | ⟨_, few, _⟩)
    · exact absurd (ready.ongoing.head_zero.mp none) (List.cons_ne_nil _ _)
    · exact absurd few (by decide)
  obtain ⟨outcome, received, bad⟩ := receive_unfit ready allowed clean unfit
  have last : step false (fun _ _ _ _ d => d) (.transfer [⟨1, 2, 3, 4⟩, ⟨5, 6, 7, 8⟩] 8) t =
      some ⟨outcome.2.2, if outcome.1 = .ok then some 8 else none⟩ := by
    rw [step, idle, received]
    rfl
  have run : Run (Machine.Step (step false fun _ _ _ _ d => d)) sampleSlave
      [⟨t, .transfer [⟨1, 2, 3, 4⟩, ⟨5, 6, 7, 8⟩] 8⟩, ⟨sampleSlave, .syncRead [0x100]⟩] _ :=
    .next (.next .nil ⟨rfl, taken⟩) ⟨rfl, last⟩
  obtain ⟨other, again, met⟩ := claimed _ _ _ sampleSlave_initial run
    (List.forall_mem_cons.mpr ⟨allowed, List.forall_mem_singleton.mpr sampleSlave_allowed⟩)
    _ List.mem_cons_self _ _ rfl
  obtain rfl := Option.some.inj (again.symm.trans received)
  exact bad met

end BekenSdk.SdioSlave
