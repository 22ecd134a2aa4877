import BekenSdk.RwMsg.Custody

/-! Who may touch a node when, and which confirm goes to which request. A node goes
wrong in two ways: a call whose send failed frees it while it is on the list, and
a call that waited too long frees it while the receive task is on its way to it.
-/

set_option autoImplicit false

namespace BekenSdk.RwMsg
open Base

/-- What holds of the requests: a node is on the list while it is allocated, it is
taken off once and before it is freed, the receive task never touches it later, and
who returns 0 has one confirm, its own, in the order of the requests with its id. -/
structure Orderly (s : Exchange) : Prop where
  once : s.rwMsgTxHead.listed.Nodup ∧ s.rwMsgTxHead.removed.Nodup
  listed : ∀ n ∈ s.rwMsgTxHead.listed, (s.stage n).holdsNode = true ∧ n ∉ s.rwMsgTxHead.removed
  freed : ∀ n, (s.stage n).gone = true → n ∈ s.rwMsgTxHead.removed ∧ n ∉ s.rwMsgTxHead.listed
  untouched : s.late = []
  answered : ∀ n, s.stage n = .returned 0 → ∃ rxMsg, s.confirms.filter (fun entry => entry.1 = n) = [(n, rxMsg)] ∧
    rxMsg.id = s.reqid n ∧ Holds (s.cfm n) 0 rxMsg.param
  ordered : s.confirms.Pairwise fun later earlier => s.reqid later.1 = s.reqid earlier.1 →
    s.rwMsgTxHead.turn earlier.1 < s.rwMsgTxHead.turn later.1
  waiting : ∀ entry ∈ s.confirms, ∀ n ∈ s.rwMsgTxHead.listed, s.reqid entry.1 = s.reqid n →
    s.rwMsgTxHead.turn entry.1 < s.rwMsgTxHead.turn n

/-- A call whose send failed does not free its node on the list, and no call frees
a node that the receive task gets to. -/
def Careful (s : Exchange) (event : Event) : Prop :=
  match event with
  | .release n => (s.stage n = .failed → n ∉ s.rwMsgTxHead.listed) ∧ ¬s.Reached n
  | _ => True

namespace Exchange

section
variable {s t : Exchange} {n k : Nat} {keeps : List Nat → Nat → Option Nat} {rxMsg : KeMsg}

namespace Sound

/-- The whole claim from the invariant. -/
theorem orderly (sound : s.Sound) : Orderly s where
  once := ⟨sound.list.listed_nodup, sound.list.removed_nodup⟩
  listed n member := ⟨Stage.holdsNode_of_mayList (sound.listed n member), sound.list.apart member⟩
  freed n gone := by
    have out : n ∉ s.rwMsgTxHead.listed := fun member => Bool.false_ne_true ((sound.not_gone member).symm.trans gone)
    have pushed := (sound.known n).mpr (Stage.submitted_of_gone gone)
    exact ⟨(sound.list.mem_pushed.mp pushed).resolve_left out, out⟩
  untouched := sound.untouched
  answered n done := by
    obtain ⟨rxMsg, member, held⟩ := sound.answered n (.inl (by rw [done]; rfl))
    refine ⟨rxMsg, ?_, (sound.each _ member).1, held⟩
    -- two entries of one node would have to come one before the other
    refine filter_key (sound.ordered.imp fun {later earlier} order same => ?_) member
    have before := order (congrArg s.reqid same)
    rw [same] at before
    exact Nat.lt_irrefl _ before
  ordered := sound.ordered
  waiting entry member n listed := sound.unserved n listed entry member

/-! ## The steps of a call -/

theorem request {event : Event}
    (keeps_next : ∀ listed n q, keeps listed n = some q → LinkedList.following n listed = some q) (sound : s.Sound)
    (careful : Careful s event) (taken : s.requestStep keeps event = some t) : t.Sound := by
  have off : ∀ {n : Nat}, (s.stage n).submitted = false → ¬s.Reached n := by
    intro n unlisted reach
    exact Bool.false_ne_true (unlisted.symm.trans ((sound.known n).mp (sound.reached n reach).1))
  have out : ∀ {n : Nat}, (s.stage n).mayList = false → n ∉ s.rwMsgTxHead.listed := by
    intro n never member
    exact Bool.false_ne_true (never.symm.trans (sound.listed n member))
  cases event with
  | call n reqid memory =>
    obtain ⟨uncalled, last⟩ := Option.ite_none_right_eq_some.mp taken
    obtain rfl := Option.some.inj last
    have new : (s.stage n).submitted = false := by rw [uncalled]; rfl
    have absent := @out n (by rw [uncalled]; rfl)
    cases memory with
    | false =>
      exact sound.setStage new.symm (fun member => absurd member absent) (fun reach => absurd reach (off new))
        fun none => nomatch none
    | true =>
      have fresh : n ∉ s.rwMsgTxHead.pushed := by
        rw [sound.known, new]
        exact Bool.false_ne_true
      have staged := @setStage s n .allocated sound new.symm (fun member => absurd member absent)
        (fun _ => rfl) fun none => nomatch none
      exact (staged.setReqid fresh reqid).setSemaphore false fun none => nomatch none
  | post n sent =>
    obtain ⟨uncalled, last⟩ := Option.ite_none_right_eq_some.mp taken
    obtain rfl := Option.some.inj last
    have new : (s.stage n).submitted = false := by rw [uncalled]; rfl
    have absent := @out n (by rw [uncalled]; rfl)
    exact sound.setStage new.symm (fun member => absurd member absent) (fun _ => rfl) fun none => nomatch none
  | push n =>
    obtain ⟨allocated, last⟩ := Option.ite_none_right_eq_some.mp taken
    obtain rfl := Option.some.inj last
    exact sound.push allocated
  | send n sent =>
    obtain ⟨pushed, last⟩ := Option.ite_none_right_eq_some.mp taken
    obtain rfl := Option.some.inj last
    cases sent with
    | true => exact sound.setStage (by rw [pushed]; rfl) (fun _ => rfl) (fun _ => rfl) fun none => nomatch none
    | false => exact sound.setStage (by rw [pushed]; rfl) (fun _ => rfl) (fun _ => rfl) fun none => nomatch none
  | get n =>
    obtain ⟨⟨waiting, given⟩, last⟩ := Option.ite_none_right_eq_some.mp taken
    obtain rfl := Option.some.inj last
    have answered := sound.answered n (.inr given)
    -- whoever was answered came off the list before
    have absent : n ∉ s.rwMsgTxHead.listed := by
      intro member
      obtain ⟨rxMsg, served, -⟩ := answered
      exact Nat.lt_irrefl _ (sound.unserved n member _ served rfl)
    have staged := @setStage s n .signalled sound (by rw [waiting]; rfl) (fun member => absurd member absent)
      (fun _ => rfl) fun _ => answered
    exact staged.setSemaphore false fun none => nomatch none
  | expire n =>
    obtain ⟨⟨waiting, -⟩, last⟩ := Option.ite_none_right_eq_some.mp taken
    obtain rfl := Option.some.inj last
    exact sound.setStage (by rw [waiting]; rfl) (fun _ => rfl) (fun _ => rfl) fun none => nomatch none
  | extract n =>
    obtain ⟨expired, last⟩ := Option.ite_none_right_eq_some.mp taken
    obtain rfl := Option.some.inj last
    have gone : n ∉ (s.rwMsgTxHead.extract keeps n).listed :=
      fun member => ((LinkedList.mem_listed_extract sound.list).mp member).1 rfl
    exact (@extract s n keeps keeps_next sound).setStage (by rw [expired]; rfl) (fun member => absurd member gone)
      (fun _ => rfl) fun none => nomatch none
  | release n =>
    obtain ⟨ret, exits, rfl⟩ := Option.map_eq_some_iff.mp taken
    obtain ⟨freed, reach⟩ := careful
    refine sound.setStage (Stage.submitted_of_exit exits).symm (fun member => ?_) (fun reached => absurd reached reach)
      fun zero => sound.answered n (.inl (Stage.answered_of_exit exits zero))
    exact absurd member (freed (Stage.failed_of_exit exits (sound.listed n member)))
  | leave n =>
    rw [requestStep] at taken
    split at taken
    next ret freed =>
      obtain rfl := Option.some.inj taken
      have gone : (s.stage n).gone = true := by rw [freed]; rfl
      refine sound.setStage (by rw [freed]; rfl) (fun member => absurd member (out (by rw [freed]; rfl)))
        (fun reach => absurd ((sound.reached n reach).2.symm.trans gone) Bool.false_ne_true) fun zero => ?_
      exact sound.answered n (.inl (by rw [freed]; exact zero))
    · cases taken
  | _ => cases taken

/-! ## The steps of the receive task -/

theorem setReceiver (sound : s.Sound) (receiver : Receiver)
    (reached : ∀ n, Reached n { s with receiver := receiver } →
      n ∈ s.rwMsgTxHead.pushed ∧ (s.stage n).gone = false)
    (receiving : Receiving { s with receiver := receiver }) : Sound { s with receiver := receiver } :=
  ⟨sound.list, sound.known, sound.listed, reached, sound.each, sound.ordered, sound.unserved, sound.answered, receiving,
    sound.untouched⟩

theorem setRxHead (sound : s.Sound) (rxHead : List KeMsg) : Sound { s with rwMsgRxHead := rxHead } :=
  ⟨sound.list, sound.known, sound.listed, sound.reached, sound.each, sound.ordered, sound.unserved, sound.answered,
    sound.receiving, sound.untouched⟩

theorem pick (sound : s.Sound) (first : s.rwMsgTxHead.pick = some k) :
    Sound { s with receiver := .standing rxMsg k } := by
  have member : k ∈ s.rwMsgTxHead.listed := List.mem_of_mem_head? first
  have only : ∀ {n : Nat}, s.Ahead rxMsg k n → n = k := fun ahead => ahead.eq_of_listed member
  refine sound.setReceiver _ (fun n reach => ?_) ⟨fun n reach => ?_, fun j listed _ => ?_⟩
  · obtain rfl := only reach
    exact ⟨sound.mem_pushed member, sound.not_gone member⟩
  · obtain rfl := only reach
    exact sound.unserved n member
  · exact sound.list.pick_least first listed

theorem compare (sound : s.Sound) (standing : s.receiver = .standing rxMsg k) :
    Sound { s.touch [k] with
      receiver := if rxMsg.id = s.reqid k then .found rxMsg k else .passing rxMsg k } := by
  have now := sound.receiving
  have reached := sound.reached
  unfold Receiving at now
  unfold Reached at reached
  rw [standing] at now reached
  rw [touch_eq fun n member => List.mem_singleton.mp member ▸ (reached k (.here _)).2]
  by_cases same : rxMsg.id = s.reqid k
  · rw [if_pos same]
    refine sound.setReceiver _ (fun n here => ?_) ⟨now.1 k (.here _), now.2, same.symm⟩
    obtain rfl : n = k := here
    exact reached n (.here _)
  · rw [if_neg same]
    exact sound.setReceiver _ reached ⟨now.1, now.2, fun equal => same equal.symm⟩

theorem next (sound : s.Sound) (passing : s.receiver = .passing rxMsg k) :
    Sound { s.touch [k] with
      receiver := match s.rwMsgTxHead.next k with
        | some after => .standing rxMsg after
        | none => .unmatched rxMsg } := by
  have now := sound.receiving
  have reached := sound.reached
  unfold Receiving at now
  unfold Reached at reached
  rw [passing] at now reached
  obtain ⟨unserved, first, other⟩ := now
  rw [touch_eq fun n member => List.mem_singleton.mp member ▸ (reached k (.here _)).2]
  cases found : s.rwMsgTxHead.next k with
  | none => exact sound.setReceiver _ (fun _ none => none.elim) trivial
  | some after =>
    have step : ∀ n, s.Ahead rxMsg after n → s.Ahead rxMsg k n ∨ n ∈ s.rwMsgTxHead.listed :=
      fun n reach => LinkedList.Sound.ahead_next found other reach
    refine sound.setReceiver _ (fun n reach => ?_) ⟨fun n reach => ?_, fun j member same => ?_⟩
    · rcases step n reach with old | new
      · exact reached n old
      · exact ⟨sound.mem_pushed new, sound.not_gone new⟩
    · rcases step n reach with old | new
      · exact unserved n old
      · exact sound.unserved n new
    · -- the node passed waits for something else, so who waits for this comes behind it
      have behind : s.rwMsgTxHead.turn k ≠ s.rwMsgTxHead.turn j := by
        intro equal
        obtain rfl := LinkedList.Sound.turn_inj (reached k (.here _)).1 equal
        exact other same
      have later := Nat.lt_of_le_of_ne (first j member same) behind
      exact (sound.list.next_successor found).2.2 j member later

/-- The node found is taken off the list, and the message is its confirm. -/
theorem take (keeps_next : ∀ listed n q, keeps listed n = some q → LinkedList.following n listed = some q)
    (sound : s.Sound) (found : s.receiver = .found rxMsg k) :
    Sound { s.touch (s.rwMsgTxHead.searched k) with
      rwMsgTxHead := s.rwMsgTxHead.extract keeps k
      receiver := .extracted rxMsg k
      confirms := (k, rxMsg) :: s.confirms } := by
  rw [touch_eq fun n member => sound.not_gone (LinkedList.mem_of_searched member)]
  have without := @extract s k keeps keeps_next sound
  have gone : k ∉ (s.rwMsgTxHead.extract keeps k).listed :=
    fun member => ((LinkedList.mem_listed_extract sound.list).mp member).1 rfl
  have now := without.receiving
  have reached := without.reached
  unfold Receiving at now
  unfold Reached at reached
  simp only [found] at now reached
  obtain ⟨unserved, first, same⟩ := now
  obtain ⟨pushed, held⟩ := reached k rfl
  constructor
  · exact without.list
  · exact without.known
  · exact without.listed
  · exact reached
  · refine List.forall_mem_cons.mpr ⟨⟨same.symm, pushed⟩, without.each⟩
  · refine List.pairwise_cons.mpr ⟨fun entry member equal => unserved entry member equal.symm, without.ordered⟩
  · intro n member
    refine List.forall_mem_cons.mpr ⟨fun equal => ?_, without.unserved n member⟩
    refine Nat.lt_of_le_of_ne (first n member (equal.symm.trans same)) fun clash => ?_
    exact gone (LinkedList.Sound.turn_inj pushed clash ▸ member)
  · intro n either
    obtain ⟨confirm, member, holds⟩ := without.answered n either
    exact ⟨confirm, List.mem_cons_of_mem _ member, holds⟩
  · exact List.mem_cons_self
  · exact without.untouched

theorem copy (sound : s.Sound) (extracted : s.receiver = .extracted rxMsg k) :
    Sound { s.touch [k] with
      cfm :=
        if rxMsg.param.length = 0 then s.cfm
        else Function.update s.cfm k (storeBytes (s.cfm k) 0 rxMsg.param)
      receiver := .copied rxMsg k } := by
  have now := sound.receiving
  have reached := sound.reached
  unfold Receiving at now
  unfold Reached at reached
  rw [extracted] at now reached
  rw [touch_eq fun n member => List.mem_singleton.mp member ▸ (reached k rfl).2]
  by_cases empty : rxMsg.param.length = 0
  · rw [if_pos empty]
    have nothing := List.eq_nil_of_length_eq_zero empty
    exact sound.setReceiver _ reached ⟨now, nothing ▸ trivial⟩
  · rw [if_neg empty]
    have holds : Holds (Function.update s.cfm k (storeBytes (s.cfm k) 0 rxMsg.param) k) 0 rxMsg.param := by
      rw [Function.update_self]
      exact holds_storeBytes _ _ _
    constructor
    · exact sound.list
    · exact sound.known
    · exact sound.listed
    · exact reached
    · exact sound.each
    · exact sound.ordered
    · exact sound.unserved
    · intro n either
      by_cases here : n = k
      · subst here
        exact ⟨rxMsg, now, holds⟩
      · obtain ⟨confirm, member, held⟩ := sound.answered n either
        refine ⟨confirm, member, ?_⟩
        simpa only [Function.update_of_ne here] using held
    · exact ⟨now, holds⟩
    · exact sound.untouched

theorem signal (sound : s.Sound) (copied : s.receiver = .copied rxMsg k) :
    Sound { s.touch [k] with
      semaphore := Function.update s.semaphore k true
      receiver := .handled rxMsg } := by
  have now := sound.receiving
  have reached := sound.reached
  unfold Receiving at now
  unfold Reached at reached
  rw [copied] at now reached
  rw [touch_eq fun n member => List.mem_singleton.mp member ▸ (reached k rfl).2]
  have given := @setSemaphore s k sound true fun _ => ⟨rxMsg, now⟩
  exact given.setReceiver _ (fun _ none => none.elim) trivial

theorem receive {event : Event}
    (keeps_next : ∀ listed n q, keeps listed n = some q → LinkedList.following n listed = some q) (sound : s.Sound)
    (taken : s.receiveStep keeps event = some t) : t.Sound := by
  unfold receiveStep at taken
  split at taken
  next idle =>
    split at taken
    next rest full =>
      obtain rfl := Option.some.inj taken
      exact (sound.setRxHead rest).setReceiver _ (fun _ none => none.elim) trivial
    · cases taken
  next rxMsg popped =>
    split at taken
    next txNode first =>
      obtain rfl := Option.some.inj taken
      exact sound.pick first
    · obtain rfl := Option.some.inj taken
      exact sound.setReceiver _ (fun _ none => none.elim) trivial
  next rxMsg txNode standing =>
    obtain rfl := Option.some.inj taken
    exact sound.compare standing
  next rxMsg txNode passing =>
    have after := sound.next passing
    split at taken
    next found =>
      obtain rfl := Option.some.inj taken
      rwa [found] at after
    next found =>
      obtain rfl := Option.some.inj taken
      rwa [found] at after
  next rxMsg txNode found =>
    obtain rfl := Option.some.inj taken
    exact sound.take keeps_next found
  next rxMsg txNode extracted =>
    obtain rfl := Option.some.inj taken
    exact sound.copy extracted
  next rxMsg txNode copied =>
    obtain rfl := Option.some.inj taken
    exact sound.signal copied
  next rxMsg unmatched =>
    obtain rfl := Option.some.inj taken
    exact sound.setReceiver _ (fun _ none => none.elim) trivial
  next handled =>
    obtain rfl := Option.some.inj taken
    exact sound.setReceiver _ (fun _ none => none.elim) trivial
  · cases taken

theorem step {event : Event}
    (keeps_next : ∀ listed n q, keeps listed n = some q → LinkedList.following n listed = some q) (sound : s.Sound)
    (careful : Careful s event) (taken : Exchange.step keeps event s = some t) : t.Sound := by
  cases event with
  | forward rxMsg =>
    obtain rfl := Option.some.inj taken
    exact sound.setRxHead _
  | call | post | push | send | get | expire | extract | release | leave => exact sound.request keeps_next careful taken
  | pop | pick | compare | next | take | copy | signal | handle | discard => exact sound.receive keeps_next taken

end Sound

end

end Exchange

/-! ## Runs -/

section
variable {keeps : List Nat → Nat → Option Nat} {cfm : Nat → Cells} {moments : List (Moment Exchange Event)}
  {final : Exchange}

/-- Every run that frees no node on the list after a send that failed, and none that
the receive task gets to, keeps the protocol, whatever the order of its steps. -/
theorem careful_orderly
    (keeps_next : ∀ listed n q, keeps listed n = some q → LinkedList.following n listed = some q)
    (run : Run (Machine.Step (Exchange.step keeps)) (Exchange.init cfm) moments final)
    (careful : ∀ moment ∈ moments, Careful moment.before moment.event) : Machine.Always Orderly moments final := by
  have sound := Machine.always_of_invariant run (.init cfm)
    (fun kept careful taken => Exchange.Sound.step keeps_next kept careful taken) careful
  exact sound.mono fun s now => now.orderly

end

/-! ## Sample runs -/

def noBytes : Nat → Cells := fun _ _ => 0

def keepsNext (listed : List Nat) (n : Nat) : Option Nat := LinkedList.following n listed

/-- A call of `rw_msg_send` up to its wait. The latest step is first. -/
def request (n : Nat) (reqid : UInt16) : List Event := [.send n true, .push n, .call n reqid true]

def timeOut (n : Nat) : List Event := [.leave n, .release n, .extract n, .expire n]

/-- A message that is for the first node of the list. -/
def confirm (rxMsg : KeMsg) : List Event :=
  [.discard, .signal, .copy, .take, .compare, .pick, .pop, .forward rxMsg]

def answer (n : Nat) : List Event := [.leave n, .release n, .get n]

/-- The call gives its node back off the list, and while no message is looked at. -/
def quiet (s : Exchange) (event : Event) : Bool :=
  match event with
  | .release n => decide (n ∉ s.rwMsgTxHead.listed) && decide (s.receiver = .idle)
  | _ => true

theorem careful_of_quiet {s : Exchange} {event : Event} (still : quiet s event = true) : Careful s event := by
  cases event with
  | release n =>
    obtain ⟨off, idle⟩ := (Bool.and_eq_true _ _).mp still
    refine ⟨fun _ => of_decide_eq_true off, fun reach => ?_⟩
    unfold Exchange.Reached at reach
    rwa [of_decide_eq_true idle] at reach
  | _ => trivial

/-- Two calls with one id are served in turn, while a third one times out. -/
theorem served_in_turn : ∃ moments final,
    Run (Machine.Step (Exchange.step keepsNext)) (Exchange.init noBytes) moments final ∧
    final.stage 0 = .returned 0 ∧ final.stage 1 = .returned 0 ∧ final.stage 2 = .returned (-1) ∧
    final.confirms = [(1, ⟨7, [3]⟩), (0, ⟨7, [1, 2]⟩)] ∧ Machine.Always Orderly moments final := by
  have served : (Machine.replay (Machine.guarded (fun s event => quiet s event = true) (Exchange.step keepsNext))
      (Exchange.init noBytes)
      (answer 1 ++ confirm ⟨7, [3]⟩ ++ timeOut 2 ++ answer 0 ++ confirm ⟨7, [1, 2]⟩ ++ request 2 9 ++ request 1 7 ++
        request 0 7)).any
      (fun s => decide (s.stage 0 = .returned 0 ∧ s.stage 1 = .returned 0 ∧ s.stage 2 = .returned (-1) ∧
        s.confirms = [(1, ⟨7, [3]⟩), (0, ⟨7, [1, 2]⟩)])) = true := by
    decide
  obtain ⟨moments, final, run, -, still, shown⟩ := Machine.run_of_fine served
  obtain ⟨first, second, third, confirms⟩ := of_decide_eq_true shown
  have orderly := careful_orderly (fun _ _ _ same => same) run fun moment member =>
    careful_of_quiet (still moment member)
  exact ⟨moments, final, run, first, second, third, confirms, orderly⟩

/-- The queue to the core is full, and the call frees its node on the list, where
the next message finds it. -/
theorem failed_send_touched : ¬∀ moments final,
    Run (Machine.Step (Exchange.step keepsNext)) (Exchange.init noBytes) moments final →
    Machine.Always Orderly moments final := by
  intro claim
  have touched : (Machine.replay (Exchange.step keepsNext) (Exchange.init noBytes)
      [.compare, .pick, .pop, .forward ⟨8, []⟩, .leave 0, .release 0, .send 0 false, .push 0, .call 0 7 true]).any
      (fun s => decide (s.late = [0])) = true := by
    decide
  obtain ⟨moments, final, run, -, shown⟩ := Machine.run_of_any touched
  have untouched := (claim moments final run).2.untouched
  rw [of_decide_eq_true shown] at untouched
  cases untouched

/-- The confirm is found just before the wait ends, and is copied to the buffer of a
call that has returned. -/
theorem late_confirm_copied : ¬∀ moments final,
    Run (Machine.Step (Exchange.step keepsNext)) (Exchange.init noBytes) moments final →
    Machine.Always Orderly moments final := by
  intro claim
  have copied : (Machine.replay (Exchange.step keepsNext) (Exchange.init noBytes)
      ([.copy, .take] ++ timeOut 0 ++ [.compare, .pick, .pop, .forward ⟨7, [5]⟩] ++ request 0 7)).any
      (fun s => decide (s.stage 0 = .returned (-1) ∧ s.cfm 0 0 = 5 ∧ s.late = [0])) = true := by
    decide
  obtain ⟨moments, final, run, -, shown⟩ := Machine.run_of_any copied
  have untouched := (claim moments final run).2.untouched
  rw [(of_decide_eq_true shown).2.2] at untouched
  cases untouched

end BekenSdk.RwMsg
