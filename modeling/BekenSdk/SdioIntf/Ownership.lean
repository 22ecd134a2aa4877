import BekenSdk.Base.Machine
import BekenSdk.SdioIntf.Commands
import BekenSdk.SdioIntf.ScanEnds

/-! Who has the nodes: every node that was returned is with the MAC or has been given back once, and every command was
refused or has had one message of its own. Both hold in exactly the runs whose frames are data and commands of the
right kinds, with a descriptor for the data unless the MAC has nothing.
-/

set_option autoImplicit false

namespace BekenSdk.SdioIntf
open Base SdioScan

/-! ## What is claimed -/

/-- Refused without a message, or one message that had not been allocated before. -/
def Handled.Right (handled : Handled) : Prop :=
  handled.ret = sdioIntfFailure ∧ handled.sent = [] ∨
    handled.ret = sdioIntfSuccess ∧ ∃ place, handled.sent = [.msg place] ∧ handled.earlier ≤ place

namespace Intf
variable (s : Intf)

/-- The nodes of the frames that the MAC has. -/
def withMac : List Nat := s.mac.map Txdesc.origAddr

structure Owned : Prop where
  kept : ∀ node ∈ s.withMac, s.released.count node = 0
  released : ∀ node, node < s.rxed → node ∉ s.withMac → s.released.count node = 1
  handled : ∀ handled ∈ s.handled, handled.Right

variable {s} {t : Intf} {frame : Frame} {finds : Finds frame}

/-- A command that can be taken: too short, or none of those that go wrong. -/
def CommandFine (s : Intf) (frame : Frame) : Prop :=
  frame.len ≤ frameHdrLen ∨
    frame.command ≠ scmdBcnChange ∧ (frame.command = scmd80211Scan → s.scanStartFlag = 0 → TlvsEnd frame.scan)

/-- Data with a descriptor, or while the MAC has nothing, and commands. -/
def FrameFine (s : Intf) (frame : Frame) (finds : Finds frame) : Prop :=
  frame.type = mvmsDat ∧ (finds.txdesc ≠ txdescStaUsed ∨ s.mac = []) ∨
    frame.type = mvmsCmd ∧ CommandFine s frame

end Intf

def Owned (s : Option Intf) : Prop := ∃ t, s = some t ∧ t.Owned

def Fine (s : Option Intf) : Event → Prop
  | .rxed frame finds => ∀ t, s = some t → t.FrameFine frame finds
  | _ => True

/-! ## Why it holds -/

namespace Intf
variable {s t : Intf} {frame : Frame} {finds : Finds frame} {kmsg : Kmsg} {ret : UInt32}

/-- The list has what the MAC has, in order, and every node is on it or has been given back. -/
structure Accounted (s : Intf) : Prop where
  inOrder : s.withMac = s.inboundList
  once : ∀ node, s.released.count node + s.inboundList.count node = if node < s.rxed then 1 else 0
  handled : ∀ handled ∈ s.handled, handled.Right

theorem Accounted.owned (accounted : s.Accounted) : s.Owned where
  kept node member := by
    rw [accounted.inOrder] at member
    have once := accounted.once node
    have listed := List.count_pos_iff.2 member
    split at once <;> omega
  released node less absent := by
    rw [accounted.inOrder] at absent
    have once := accounted.once node
    rw [if_pos less, List.count_eq_zero.2 absent] at once
    exact once
  handled := accounted.handled

theorem sdioIntfInit_accounted : sdioIntfInit.Accounted :=
  ⟨rfl, fun _ => rfl, fun _ none => absurd none List.not_mem_nil⟩

/-- A confirm of the frame that the MAC has had longest gives its node back. -/
theorem Accounted.confirm {desc : Txdesc} {later : List Txdesc} (accounted : s.Accounted) (first : s.mac = desc :: later) :
    { s with mac := later }.inboundCfm.Accounted := by
  have listed : s.inboundList = desc.origAddr :: later.map Txdesc.origAddr := by
    rw [← accounted.inOrder, withMac, first, List.map_cons]
  have same : { s with mac := later }.inboundCfm =
      { s with mac := later, inboundList := later.map Txdesc.origAddr, released := s.released ++ [desc.origAddr] } := by
    simp only [inboundCfm, listed, sdioReleaseOneNode]
  rw [same]
  refine ⟨rfl, fun node => ?_, accounted.handled⟩
  have once := accounted.once node
  rw [listed, List.count_cons] at once
  show (s.released ++ [desc.origAddr]).count node + (later.map Txdesc.origAddr).count node = if node < s.rxed then 1 else 0
  rw [List.count_append, List.count_singleton]
  omega

/-- The next node is nobody's. -/
theorem Accounted.next_absent (accounted : s.Accounted) :
    s.released.count s.rxed = 0 ∧ s.inboundList.count s.rxed = 0 := by
  have once := accounted.once s.rxed
  rw [if_neg (Nat.lt_irrefl _)] at once
  omega

/-- The next node on one of the two lists. -/
theorem Accounted.next_once (accounted : s.Accounted) (node : Nat) :
    s.released.count node + s.inboundList.count node + [s.rxed].count node = if node < s.rxed + 1 then 1 else 0 := by
  have once := accounted.once node
  rw [once, List.count_singleton]
  by_cases same : s.rxed = node
  · subst same
    simp
  · have apart : ¬(s.rxed == node) = true := fun equal => same (beq_iff_eq.1 equal)
    rw [if_neg apart, Nat.add_zero]
    exact if_congr (by omega) rfl rfl

/-! ## Data -/

theorem Accounted.pushed (accounted : s.Accounted) (room : finds.txdesc ≠ txdescStaUsed) :
    (rxedDat finds s.rxed { s with rxed := s.rxed + 1 }).2.Accounted := by
  simp only [rxedDat, sdioEmbGetTxInfo, ne_eq, not_true_eq_false, if_false, if_neg room]
  refine ⟨?_, fun node => ?_, accounted.handled⟩
  · show (s.mac ++ [sdioEmbTxdesc frame s.rxed 0xFF]).map Txdesc.origAddr = s.inboundList ++ [s.rxed]
    rw [List.map_append, ← accounted.inOrder]
    rfl
  · show s.released.count node + (s.inboundList ++ [s.rxed]).count node = if node < s.rxed + 1 then 1 else 0
    rw [List.count_append, ← Nat.add_assoc, accounted.next_once]

/-- Without a descriptor the first node of the list is given back. -/
theorem rxedDat_full (full : finds.txdesc = txdescStaUsed) :
    (rxedDat finds s.rxed { s with rxed := s.rxed + 1 }).2 =
      { s with rxed := s.rxed + 1, inboundList := s.inboundList ++ [s.rxed] }.inboundCfm := by
  simp only [rxedDat, sdioEmbGetTxInfo, ne_eq, not_true_eq_false, if_false, if_pos full]

theorem Accounted.full_alone (accounted : s.Accounted) (full : finds.txdesc = txdescStaUsed) (alone : s.mac = []) :
    (rxedDat finds s.rxed { s with rxed := s.rxed + 1 }).2.Accounted := by
  have empty : s.inboundList = [] := by rw [← accounted.inOrder, withMac, alone, List.map_nil]
  rw [rxedDat_full full]
  simp only [empty, List.nil_append, inboundCfm, sdioReleaseOneNode]
  refine ⟨by rw [withMac, alone, List.map_nil], fun node => ?_, accounted.handled⟩
  have once := accounted.next_once node
  rw [empty, List.count_nil, Nat.add_zero] at once
  show (s.released ++ [s.rxed]).count node + 0 = if node < s.rxed + 1 then 1 else 0
  rw [List.count_append, Nat.add_zero, once]

/-- With a frame in the MAC the node given back is that frame's. -/
theorem Accounted.full_spoils (accounted : s.Accounted) (full : finds.txdesc = txdescStaUsed) (busy : s.mac ≠ []) :
    ¬(rxedDat finds s.rxed { s with rxed := s.rxed + 1 }).2.Owned := by
  obtain ⟨desc, later, first⟩ := List.exists_cons_of_ne_nil busy
  have listed : s.inboundList = desc.origAddr :: later.map Txdesc.origAddr := by
    rw [← accounted.inOrder, withMac, first, List.map_cons]
  intro owned
  rw [rxedDat_full full] at owned
  have kept := owned.kept desc.origAddr
  simp only [inboundCfm, listed, List.cons_append, sdioReleaseOneNode, withMac, first, List.map_cons] at kept
  have early := kept List.mem_cons_self
  rw [List.count_append, List.count_singleton_self] at early
  exact absurd early (Nat.succ_ne_zero _)

/-! ## Commands -/

/-- The command's node is given back and its answer noted. -/
structure Answered (s t : Intf) (entry : Handled) : Prop where
  inboundList : t.inboundList = s.inboundList
  rxed : t.rxed = s.rxed + 1
  released : t.released = s.released ++ [s.rxed]
  mac : t.mac = s.mac
  handled : t.handled = s.handled ++ [entry]

theorem Accounted.answered {entry : Handled} (accounted : s.Accounted) (answered : Answered s t entry)
    (right : entry.Right) : t.Accounted where
  inOrder := by rw [withMac, answered.mac, answered.inboundList, ← accounted.inOrder, withMac]
  once node := by
    have once := accounted.next_once node
    rw [answered.released, answered.inboundList, answered.rxed, List.count_append]
    omega
  handled := by
    rw [answered.handled, List.forall_mem_append, List.forall_mem_singleton]
    exact ⟨accounted.handled, right⟩

theorem commandFine_iff : CommandFine s frame ↔ ¬BcnChange frame ∧ (ScanTaken s frame → TlvsEnd frame.scan) := by
  unfold CommandFine BcnChange ScanTaken
  by_cases short : frame.len ≤ frameHdrLen
  · simp only [short, not_true_eq_false, false_and, not_false_eq_true, true_or, and_self, false_implies]
  · simp only [short, not_false_eq_true, true_and, false_or, and_imp, ne_eq]

/-- What a round with a command comes to. -/
theorem rxedCmd_cases (finds : Finds frame) (s : Intf) :
    (∃ t entry, rxedCmd finds s.rxed { s with rxed := s.rxed + 1 } = .ok t ∧ Answered s t entry ∧
        (entry.Right ↔ ¬BcnChange frame) ∧ (ScanTaken s frame → finds.Ends)) ∨
      rxedCmd finds s.rxed { s with rxed := s.rxed + 1 } = .error .assertion ∨
      rxedCmd finds s.rxed { s with rxed := s.rxed + 1 } = .error .lost ∧ ScanTaken s frame ∧ ¬finds.Ends := by
  have result := @sdioH2eMsgConversion_result { s with rxed := s.rxed + 1 } frame finds .stack
  unfold rxedCmd
  generalize sdioH2eMsgConversion frame finds .stack { s with rxed := s.rxed + 1 } = converted at result
  cases result with
  | failed other =>
    refine Or.inl ⟨_, ⟨sdioIntfFailure, s.kmsgs.length, []⟩, rfl, ⟨rfl, rfl, rfl, rfl, ?_⟩, ?_, ?_⟩
    · show s.handled ++ [⟨_, _, s.sent.drop s.sent.length⟩] = _
      rw [List.drop_length]
    · exact iff_of_true (Or.inl ⟨rfl, rfl⟩) other.1
    · exact fun taken => absurd taken other.2
  | bcnChange beacons =>
    refine Or.inl ⟨_, ⟨sdioIntfSuccess, s.kmsgs.length, [.stack]⟩, rfl, ⟨rfl, rfl, rfl, rfl, ?_⟩, ?_, ?_⟩
    · show s.handled ++ [⟨_, _, (s.sent ++ [Kmsg.stack]).drop s.sent.length⟩] = _
      rw [List.drop_left]
    · refine iff_of_false ?_ (not_not.2 beacons)
      rintro (⟨failed, _⟩ | ⟨_, place, sent, _⟩)
      · cases failed
      · cases sent
    · exact fun scan => absurd (beacons.2.symm.trans scan.2.1) (by decide)
  | @made t kept other ends =>
    refine Or.inl ⟨_, ⟨sdioIntfSuccess, s.kmsgs.length, [.msg s.kmsgs.length]⟩, rfl,
      ⟨kept.inboundList, kept.rxed, congrArg (· ++ [s.rxed]) kept.released, kept.mac, ?_⟩, ?_, ends⟩
    · show t.handled ++ [⟨_, _, (t.sent ++ [Kmsg.msg s.kmsgs.length]).drop s.sent.length⟩] = _
      rw [kept.sent, List.drop_left, kept.handled]
    · exact iff_of_true (Or.inr ⟨rfl, _, rfl, Nat.le_refl _⟩) other
  | assertion => exact Or.inr (Or.inl rfl)
  | lost taken endless => exact Or.inr (Or.inr ⟨rfl, taken, endless⟩)

end Intf

/-! ## One event -/

variable {s t : Option Intf} {event : Event}

/-- Nothing, or the state of the accounts. -/
def Accounted (s : Option Intf) : Prop := ∃ t, s = some t ∧ t.Accounted

/-- A round is for data, for a command, or leaves its node with nobody. -/
theorem rxedFrame_eq {frame : Frame} (finds : Finds frame) (s : Intf) :
    s.rxedFrame finds =
      if frame.type = mvmsDat then .ok (Intf.rxedDat finds s.rxed { s with rxed := s.rxed + 1 })
      else if frame.type = mvmsCmd then
        (Intf.rxedCmd finds s.rxed { s with rxed := s.rxed + 1 }).map fun s => (true, s)
      else .ok (true, { s with rxed := s.rxed + 1 }) := by
  simp only [Intf.rxedFrame, Intf.sdioGetRxedNode, ite_self]

theorem Accounted.step (accounted : Accounted s) (fine : Fine s event) (taken : step event s = some t) : Accounted t := by
  obtain ⟨s, rfl, accounted⟩ := accounted
  cases event with
  | rxed frame finds =>
    rw [SdioIntf.step, rxedFrame_eq] at taken
    rcases fine s rfl with ⟨data, room⟩ | ⟨command, fine⟩
    · rw [if_pos data] at taken
      obtain rfl := Option.some.inj taken
      refine ⟨_, rfl, ?_⟩
      by_cases full : finds.txdesc = txdescStaUsed
      · exact accounted.full_alone full (room.resolve_left fun free => free full)
      · exact accounted.pushed full
    · have other : ¬frame.type = mvmsDat := fun data => absurd (data.symm.trans command) (by decide)
      rw [if_neg other, if_pos command] at taken
      obtain ⟨beacons, ends⟩ := Intf.commandFine_iff.1 fine
      rcases Intf.rxedCmd_cases finds s with ⟨u, entry, same, answered, right, _⟩ | stopped | ⟨_, scan, endless⟩
      · rw [same] at taken
        obtain rfl := Option.some.inj taken
        exact ⟨u, rfl, accounted.answered answered (right.2 beacons)⟩
      · rw [stopped] at taken
        cases taken
      · exact absurd ((ends_iff finds).2 (ends scan)) endless
  | confirm =>
    rw [SdioIntf.step] at taken
    cases first : s.mac with
    | nil => rw [first] at taken; cases taken
    | cons desc later =>
      rw [first] at taken
      obtain rfl := Option.some.inj taken
      exact ⟨_, rfl, accounted.confirm first⟩
  | scanuStartCfm =>
    obtain rfl := Option.some.inj taken
    exact ⟨_, rfl, accounted.inOrder, accounted.once, accounted.handled⟩
  | response =>
    obtain rfl := Option.some.inj taken
    exact ⟨_, rfl, accounted.inOrder, accounted.once, accounted.handled⟩

/-- A node that is given to nobody is never given back. -/
theorem Intf.Accounted.dropped {s : Intf} (accounted : s.Accounted) : ¬{ s with rxed := s.rxed + 1 }.Owned := by
  intro owned
  obtain ⟨notReleased, notListed⟩ := accounted.next_absent
  have once := owned.released s.rxed (Nat.lt_succ_self _) ?_
  · exact absurd (notReleased.symm.trans once) Nat.zero_ne_one
  · show s.rxed ∉ s.withMac
    rw [accounted.inOrder]
    exact List.count_eq_zero.1 notListed

theorem Accounted.spoils (accounted : Accounted s) (wrong : ¬Fine s event) (taken : SdioIntf.step event s = some t) :
    ¬Owned t := by
  obtain ⟨s, rfl, accounted⟩ := accounted
  cases event with
  | rxed frame finds =>
    have unfit : ¬s.FrameFine frame finds := fun fine => wrong fun _ same => Option.some.inj same ▸ fine
    rw [SdioIntf.step, rxedFrame_eq] at taken
    by_cases data : frame.type = mvmsDat
    · rw [if_pos data] at taken
      obtain rfl := Option.some.inj taken
      have full : finds.txdesc = txdescStaUsed := by
        by_contra free
        exact unfit (Or.inl ⟨data, Or.inl free⟩)
      have busy : s.mac ≠ [] := fun alone => unfit (Or.inl ⟨data, Or.inr alone⟩)
      rintro ⟨_, same, owned⟩
      exact accounted.full_spoils full busy (Option.some.inj same ▸ owned)
    rw [if_neg data] at taken
    by_cases command : frame.type = mvmsCmd
    · rw [if_pos command] at taken
      have unfine := mt Intf.commandFine_iff.2 fun fine => unfit (Or.inr ⟨command, fine⟩)
      rcases Intf.rxedCmd_cases finds s with ⟨u, entry, same, answered, right, ends⟩ | stopped | ⟨lost, _⟩
      · rw [same] at taken
        obtain rfl := Option.some.inj taken
        rintro ⟨_, same, owned⟩
        obtain rfl := Option.some.inj same
        have member : entry ∈ u.handled := by
          rw [answered.handled]
          exact List.mem_append_right _ (List.mem_singleton.2 rfl)
        exact unfine ⟨right.1 (owned.handled entry member), fun scan => (ends_iff finds).1 (ends scan)⟩
      · rw [stopped] at taken
        cases taken
      · rw [lost] at taken
        obtain rfl := Option.some.inj taken
        rintro ⟨_, ⟨⟩, _⟩
    · rw [if_neg command] at taken
      obtain rfl := Option.some.inj taken
      rintro ⟨_, same, owned⟩
      exact accounted.dropped (Option.some.inj same ▸ owned)
  | confirm => exact absurd trivial wrong
  | scanuStartCfm => exact absurd trivial wrong
  | response => exact absurd trivial wrong

/-! ## Results -/

section
variable {moments : List (Moment (Option Intf) Event)} {final : Option Intf}

/-- In a run the nodes are given back once, none of them while the MAC has its frame, and the commands have their
messages, if and only if the frames are of the right kinds and come when there is room. -/
theorem owned_iff (run : Run (Machine.Step step) (some Intf.sdioIntfInit) moments final) :
    Machine.Always Owned moments final ↔ ∀ moment ∈ moments, Fine moment.before moment.event :=
  @Machine.always_iff_of_invariant _ _ _ _ _ _ Accounted Owned (fun _ _ => True) Fine run
    ⟨_, rfl, Intf.sdioIntfInit_accounted⟩ (fun _ ⟨t, same, accounted⟩ => ⟨t, same, accounted.owned⟩)
    (fun accounted _ fine taken => accounted.step fine taken)
    (fun accounted _ wrong taken => accounted.spoils wrong taken) fun _ _ => trivial

end

/-! ## Sample runs -/

def sampleScan : ScanCmd where
  size := 15
  mem := fun _ => 0

def sampleFrame (type command : UInt16) : Frame where
  len := 100
  type
  ethHdr := ⟨List.replicate 6 0xFF, List.replicate 6 0, 0x0008⟩
  command
  scan := sampleScan

/-- It has no TLVs. -/
theorem sampleScan_ends : cmdConversion80211Scan sampleScan 0 = some (Scan.start sampleScan).finish := by
  rw [cmdConversion80211Scan, loop, if_neg (by decide), Option.map_some]

def sampleFinds (type command : UInt16) (txdesc : UInt32) : Finds (sampleFrame type command) where
  memory := true
  txdesc
  conversion :=
    { result := some (Scan.start sampleScan).finish
      ended := by
        rintro _ ⟨rfl⟩
        exact ⟨0, sampleScan_ends⟩
      goesOn := nofun }

def sampleData (txdesc : UInt32) : Event := .rxed (sampleFrame mvmsDat 0) (sampleFinds mvmsDat 0 txdesc)

def sampleCommand (command : UInt16) : Event :=
  .rxed (sampleFrame mvmsCmd command) (sampleFinds mvmsCmd command txdescStaIdle)

/-- A data frame goes to the MAC, a command is taken while it is there, and then it is confirmed. -/
theorem frames_owned : ∃ moments final,
    Run (Machine.Step step) (some Intf.sdioIntfInit) moments final ∧
      moments.map Moment.event = [.confirm, sampleCommand scmdResetReq, sampleData txdescStaIdle] ∧
      Machine.Always Owned moments final := by
  let one := (step (sampleData txdescStaIdle) (some Intf.sdioIntfInit)).getD none
  let two := (step (sampleCommand scmdResetReq) one).getD none
  have run : Run (Machine.Step step) (some Intf.sdioIntfInit)
      [⟨two, .confirm⟩, ⟨one, sampleCommand scmdResetReq⟩, ⟨some Intf.sdioIntfInit, sampleData txdescStaIdle⟩]
      ((step .confirm two).getD none) :=
    .next (.next (.next .nil ⟨rfl, rfl⟩) ⟨rfl, rfl⟩) ⟨rfl, rfl⟩
  refine ⟨_, _, run, rfl, (owned_iff run).2 ?_⟩
  simp only [List.forall_mem_cons]
  refine ⟨trivial, ?_, ?_, fun _ none => absurd none List.not_mem_nil⟩
  · exact fun _ _ => Or.inr ⟨rfl, Or.inr ⟨by decide, fun scan => absurd scan (by decide)⟩⟩
  · exact fun _ _ => Or.inl ⟨rfl, Or.inl (by decide)⟩

/-- The second frame finds no descriptor, and the node of the first, which the MAC has, is given back. -/
theorem full_gives_back_early : ¬∀ (moments : List (Moment (Option Intf) Event)) (final : Option Intf),
    Run (Machine.Step step) (some Intf.sdioIntfInit) moments final → Machine.Always Owned moments final := by
  intro all
  let one := (step (sampleData txdescStaIdle) (some Intf.sdioIntfInit)).getD none
  have run : Run (Machine.Step step) (some Intf.sdioIntfInit)
      [⟨one, sampleData txdescStaUsed⟩, ⟨some Intf.sdioIntfInit, sampleData txdescStaIdle⟩]
      ((step (sampleData txdescStaUsed) one).getD none) :=
    .next (.next .nil ⟨rfl, rfl⟩) ⟨rfl, rfl⟩
  obtain ⟨t, same, owned⟩ := (all _ _ run).2
  obtain rfl := Option.some.inj same
  exact absurd (owned.kept 0 (by decide)) (by decide)

end BekenSdk.SdioIntf
