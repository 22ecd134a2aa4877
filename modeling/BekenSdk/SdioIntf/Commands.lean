import BekenSdk.Base.Machine
import BekenSdk.SdioScan.Tlvs

/-! What the frames of the host are, and the messages of the kernel that its commands are converted to (sdio_intf.c,
without CFG_REAL_SDIO and CFG_WIFI_AP_MODE). A message is known by its place among all that were ever allocated.
-/

set_option autoImplicit false

namespace BekenSdk.SdioIntf
open Base SdioScan

/-- stm32_ms_type. -/
def mvmsDat : UInt16 := 0
def mvmsCmd : UInt16 := 1
def mvmsTxdone : UInt16 := 2
def mvmsEvent : UInt16 := 3

def scmd80211Scan : UInt16 := 0x0006
def scmd80211Associate : UInt16 := 0x0050
def scmd80211KeyMaterial : UInt16 := 0x005e
def scmdResetReq : UInt16 := 0x00b1
def scmdMeConfigReq : UInt16 := 0x00b2
def scmdMeChanConfigReq : UInt16 := 0x00b3
def scmdStartReq : UInt16 := 0x00b4
def scmdAddIfReq : UInt16 := 0x00b5
def scmdSetPortReq : UInt16 := 0x00b6
def scmdApmStart : UInt16 := 0x00b7
def scmdBcnChange : UInt16 := 0x00b8
def scmdMgmtTxReq : UInt16 := 0x00b9
def scmdAddStaReq : UInt16 := 0x00ba
def scmdAddWepKey : UInt16 := 0x00bb

def sdioIntfSuccess : UInt32 := 0
def sdioIntfFailure : UInt32 := 0xFFFFFFFF

/-- The sizes of STM32_FRAME_HDR and STM32_TXPD_S. -/
def frameHdrLen : UInt16 := 4
def txpdLen : UInt16 := 24

structure EthHdr where
  hDest : List UInt8
  hSrc : List UInt8
  hProto : UInt16

/-- A frame as it lies in a node's buffer: what the code reads of it as data, and what it reads of it as a command. -/
structure Frame where
  len : UInt16
  type : UInt16
  ethHdr : EthHdr
  command : UInt16
  scan : ScanCmd

/-- How the loop over the TLVs goes: it ends in the state, or it does not end. -/
structure Conversion (cmd : ScanCmd) where
  result : Option Scan
  ended : ∀ scan, result = some scan → ∃ rounds, cmdConversion80211Scan cmd rounds = some scan
  goesOn : result = none → ∀ rounds, cmdConversion80211Scan cmd rounds = none

def txdescStaIdle : UInt32 := 0
def txdescStaUsed : UInt32 := 1

/-- What a round of the loop over the frames finds besides its frame. -/
structure Finds (frame : Frame) where
  memory : Bool
  /-- The status of the next descriptor. -/
  txdesc : UInt32
  conversion : Conversion frame.scan

inductive MsgId where
  | mmKeyAddReq | apmStartReq | meMgmtTxReq | meStaAddReq | mmResetReq | meConfigReq | meChanConfigReq
  | meSetControlPortReq | mmStartReq | smConnectReq | mmAddIfReq | scanuStartReq
  deriving DecidableEq

inductive TaskId where
  | mm | apm | me | sm | scanu | api | drv
  deriving DecidableEq

structure KeMsg where
  id : MsgId
  destId : TaskId
  srcId : TaskId

/-- The pointer to a message; until it is set it is what the stack had. -/
inductive Kmsg where
  | stack
  | msg (place : Nat)
  deriving DecidableEq

/-- A frame that the MAC has: `host` of its descriptor, with the node for its address. -/
structure Txdesc where
  origAddr : Nat
  ethDestAddr : List UInt8
  ethSrcAddr : List UInt8
  /-- Counted from the start of the buffer. -/
  packetAddr : Nat
  packetLen : UInt16
  statusDescAddr : Nat
  ethertype : UInt16
  tid : UInt8
  vifIdx : UInt8
  staid : UInt8

/-- A command with what it was answered, how many messages there had been, and the messages sent for it. -/
structure Handled where
  ret : UInt32
  earlier : Nat
  sent : List Kmsg

/-- The variables of sdio_intf.c, then what has been done. Nodes are numbered as `sdio_get_rxed_node` returns them. -/
structure Intf where
  inboundList : List Nat
  scanStartFlag : UInt32
  scanRespCmdSn : UInt32
  seq : UInt32
  rxed : Nat
  released : List Nat
  mac : List Txdesc
  kmsgs : List KeMsg
  sent : List Kmsg
  handled : List Handled

/-- An assertion that fails, or what no state describes: a loop without end, or a write to some other object. -/
inductive Halt where
  | assertion
  | lost
  deriving DecidableEq

/-- What the conversions have in common: a message of their own, and the pointer to it. -/
def cmdConversion (id : MsgId) (destId srcId : TaskId) (memory : Bool) (s : Intf) : Except Halt (Kmsg × Intf) :=
  if memory then .ok (.msg s.kmsgs.length, { s with kmsgs := s.kmsgs ++ [⟨id, destId, srcId⟩] }) else .error .assertion

def cmdConversionAddWepKey := cmdConversion .mmKeyAddReq .mm .drv
def cmdConversionStartApm := cmdConversion .apmStartReq .apm .drv
def cmdConversionMgmtTxReq := cmdConversion .meMgmtTxReq .me .drv
def cmdConversionAddStaReq := cmdConversion .meStaAddReq .me .drv
def cmdConversionResetReq := cmdConversion .mmResetReq .mm .api
def cmdConversionMeConfigReq := cmdConversion .meConfigReq .me .api
def cmdConversionMeChanConfigReq := cmdConversion .meChanConfigReq .me .api
def cmdConversionSetPortReq := cmdConversion .meSetControlPortReq .me .api
def cmdConversionStartReq := cmdConversion .mmStartReq .mm .api
def cmdConversionAssocReq := cmdConversion .smConnectReq .sm .api
def cmdConversionKeyMaterialReq := cmdConversion .mmKeyAddReq .mm .api
def cmdConversionAddIfReq := cmdConversion .mmAddIfReq .mm .api

def respIncSeqnum (s : Intf) : UInt32 × Intf := (s.seq + 1, { s with seq := s.seq + 1 })

/-- The copies to `ssid[]` stay in it. -/
def ssidInside (scan : Scan) : Bool :=
  scan.ssidWrites.all fun place => decide (place.1 + place.2 ≤ macSsidSize * scanSsidMax)

/-- `cmd_conversion_802_11_scan` around its loop. -/
def cmdConversionScan {frame : Frame} (finds : Finds frame) (s : Intf) : Except Halt (Kmsg × Intf) := do
  let (kmsg, s) ← cmdConversion .scanuStartReq .scanu .api finds.memory s
  match finds.conversion.result with
  | none => .error .lost
  | some scan =>
    if ssidInside scan then
      let (sn, s) := respIncSeqnum s
      .ok (kmsg, { s with scanRespCmdSn := sn })
    else .error .lost

def succeeded (converted : Except Halt (Kmsg × Intf)) : Except Halt (UInt32 × Kmsg × Intf) :=
  converted.map fun (kmsg, s) => (sdioIntfSuccess, kmsg, s)

/-- The pointer is returned too: it is the caller's. -/
def sdioH2eMsgConversion (frame : Frame) (finds : Finds frame) (kmsg : Kmsg) (s : Intf) :
    Except Halt (UInt32 × Kmsg × Intf) :=
  if frame.len ≤ frameHdrLen then .ok (sdioIntfFailure, kmsg, s)
  else if frame.command = scmdAddWepKey then succeeded (cmdConversionAddWepKey finds.memory s)
  else if frame.command = scmdApmStart then succeeded (cmdConversionStartApm finds.memory s)
  -- only a message on the console
  else if frame.command = scmdBcnChange then .ok (sdioIntfSuccess, kmsg, s)
  else if frame.command = scmdMgmtTxReq then succeeded (cmdConversionMgmtTxReq finds.memory s)
  else if frame.command = scmdAddStaReq then succeeded (cmdConversionAddStaReq finds.memory s)
  else if frame.command = scmd80211Scan then
    if s.scanStartFlag = 0 then succeeded (cmdConversionScan finds { s with scanStartFlag := 1 })
    else .ok (sdioIntfFailure, kmsg, s)
  else if frame.command = scmdResetReq then succeeded (cmdConversionResetReq finds.memory s)
  else if frame.command = scmdMeConfigReq then succeeded (cmdConversionMeConfigReq finds.memory s)
  else if frame.command = scmdMeChanConfigReq then succeeded (cmdConversionMeChanConfigReq finds.memory s)
  else if frame.command = scmdStartReq then succeeded (cmdConversionStartReq finds.memory s)
  else if frame.command = scmdAddIfReq then succeeded (cmdConversionAddIfReq finds.memory s)
  else if frame.command = scmd80211KeyMaterial then succeeded (cmdConversionKeyMaterialReq finds.memory s)
  else if frame.command = scmd80211Associate then succeeded (cmdConversionAssocReq finds.memory s)
  else if frame.command = scmdSetPortReq then succeeded (cmdConversionSetPortReq finds.memory s)
  else .ok (sdioIntfFailure, kmsg, s)

/-! ## What a conversion does -/

/-- Nothing else of the state has changed but the messages, the flag and the sequence numbers. -/
structure Converted (s t : Intf) : Prop where
  inboundList : t.inboundList = s.inboundList
  rxed : t.rxed = s.rxed
  released : t.released = s.released
  mac : t.mac = s.mac
  sent : t.sent = s.sent
  handled : t.handled = s.handled

/-- A command for beacons is taken. -/
def BcnChange (frame : Frame) : Prop := ¬frame.len ≤ frameHdrLen ∧ frame.command = scmdBcnChange

/-- A scan is taken up. -/
def ScanTaken (s : Intf) (frame : Frame) : Prop :=
  ¬frame.len ≤ frameHdrLen ∧ frame.command = scmd80211Scan ∧ s.scanStartFlag = 0

section
variable {s : Intf} {id : MsgId} {destId srcId : TaskId} {memory : Bool} {frame : Frame} {finds : Finds frame}
  {first : Kmsg} {other : Except Halt (UInt32 × Kmsg × Intf)} {command : UInt16}

/-- The loop over the TLVs ends with every copy in `ssid[]`. -/
def Finds.Ends (finds : Finds frame) : Prop := ∃ scan, finds.conversion.result = some scan ∧ ssidInside scan = true

/-- What comes of a command: a refusal, the pointer as it was for beacons, or a message of its own. -/
inductive Result (finds : Finds frame) (first : Kmsg) (s : Intf) : Except Halt (UInt32 × Kmsg × Intf) → Prop where
  | failed (other : ¬BcnChange frame ∧ ¬ScanTaken s frame) : Result finds first s (.ok (sdioIntfFailure, first, s))
  | bcnChange (taken : BcnChange frame) : Result finds first s (.ok (sdioIntfSuccess, first, s))
  | made {t : Intf} (converted : Converted s t) (other : ¬BcnChange frame) (ends : ScanTaken s frame → finds.Ends) :
      Result finds first s (.ok (sdioIntfSuccess, .msg s.kmsgs.length, t))
  | assertion : Result finds first s (.error .assertion)
  | lost (taken : ScanTaken s frame) (endless : ¬finds.Ends) : Result finds first s (.error .lost)

theorem Result.branch {test : Prop} [Decidable test] {yes no : Except Halt (UInt32 × Kmsg × Intf)}
    (taken : test → Result finds first s yes) (rest : ¬test → Result finds first s no) :
    Result finds first s (if test then yes else no) := by
  split
  next on => exact taken on
  next off => exact rest off

theorem Result.plain (ordinary : command ≠ scmdBcnChange ∧ command ≠ scmd80211Scan)
    (rest : frame.command ≠ command → Result finds first s other) :
    Result finds first s
      (if frame.command = command then succeeded (cmdConversion id destId srcId memory s) else other) := by
  refine .branch (fun same => ?_) rest
  subst same
  cases memory with
  | true => exact .made ⟨rfl, rfl, rfl, rfl, rfl, rfl⟩ (fun bcn => ordinary.1 bcn.2) fun scan => absurd scan.2.1 ordinary.2
  | false => exact .assertion

theorem Result.scan (taken : ScanTaken s frame) :
    Result finds first s (succeeded (cmdConversionScan finds { s with scanStartFlag := 1 })) := by
  have beacons : ¬BcnChange frame := fun bcn => absurd (bcn.2.symm.trans taken.2.1) (by decide)
  unfold cmdConversionScan cmdConversion
  cases finds.memory with
  | false => exact .assertion
  | true =>
    cases found : finds.conversion.result with
    | none => exact .lost taken fun ⟨_, ended, _⟩ => nomatch found.symm.trans ended
    | some scan =>
      cases inside : ssidInside scan with
      | true =>
        simp only [if_true, bind, Except.bind, inside]
        exact .made ⟨rfl, rfl, rfl, rfl, rfl, rfl⟩ beacons fun _ => ⟨scan, found, inside⟩
      | false =>
        simp only [if_true, bind, Except.bind, inside, Bool.false_eq_true, if_false]
        refine .lost taken ?_
        rintro ⟨_, ended, right⟩
        obtain rfl := Option.some.inj (found.symm.trans ended)
        exact absurd (inside.symm.trans right) Bool.false_ne_true

theorem sdioH2eMsgConversion_result : Result finds first s (sdioH2eMsgConversion frame finds first s) := by
  refine .branch (fun short => .failed ⟨fun taken => taken.1 short, fun taken => taken.1 short⟩) fun long => ?_
  refine .plain (by decide) fun _ => .plain (by decide) fun _ => ?_
  refine .branch (fun bcn => .bcnChange ⟨long, bcn⟩) fun beacons => ?_
  have noBeacons : ¬BcnChange frame := fun taken => beacons taken.2
  refine .plain (by decide) fun _ => .plain (by decide) fun _ => ?_
  refine .branch (fun scan => ?_) fun scan => ?_
  · refine .branch (fun idle => .scan ⟨long, scan, idle⟩) fun busy => .failed ⟨noBeacons, fun taken => busy taken.2.2⟩
  refine .plain (by decide) fun _ => .plain (by decide) fun _ => .plain (by decide) fun _ => .plain (by decide) fun _ => ?_
  refine .plain (by decide) fun _ => .plain (by decide) fun _ => .plain (by decide) fun _ => .plain (by decide) fun _ => ?_
  exact .failed ⟨noBeacons, fun taken => scan taken.2.1⟩

end

end BekenSdk.SdioIntf

/-! ## Frames

The loop over the frames of the host, and the confirms of the MAC (sdio_intf.c).
-/

namespace BekenSdk.SdioIntf
open Base

/-- Where the Ethernet header of a data frame is in its buffer. -/
def contentOffset : Nat := frameHdrLen.toNat + txpdLen.toNat

namespace Intf

/-- The frame's node gets the next number. -/
def sdioGetRxedNode (s : Intf) : Nat × Intf := (s.rxed, { s with rxed := s.rxed + 1 })

def sdioReleaseOneNode (s : Intf) (node : Nat) : Intf := { s with released := s.released ++ [node] }

/-- The first node of the list, whoever it is for. -/
def inboundCfm (s : Intf) : Intf :=
  match s.inboundList with
  | [] => s
  | node :: others => { s with inboundList := others }.sdioReleaseOneNode node

end Intf

def sdioEmbGetTxInfo : UInt32 × UInt8 := (sdioIntfSuccess, 0xFF)

def sdioEmbTxdesc (frame : Frame) (node : Nat) (tid : UInt8) : Txdesc where
  origAddr := node
  ethDestAddr := frame.ethHdr.hDest
  ethSrcAddr := frame.ethHdr.hSrc
  packetAddr := contentOffset + 14
  packetLen := frame.len - 14 - frameHdrLen - txpdLen
  statusDescAddr := contentOffset + 14
  ethertype := frame.ethHdr.hProto
  tid
  vifIdx := 0
  staid := 0

namespace Intf
variable {frame : Frame}

/-- A data frame; whether the loop goes on is returned. -/
def rxedDat (finds : Finds frame) (node : Nat) (s : Intf) : Bool × Intf :=
  let s := { s with inboundList := s.inboundList ++ [node] }
  let (status, tid) := sdioEmbGetTxInfo
  if status ≠ sdioIntfSuccess then (false, s)
  else if finds.txdesc = txdescStaUsed then (false, s.inboundCfm)
  else (true, { s with mac := s.mac ++ [sdioEmbTxdesc frame node tid] })

def sdioH2eKmsgHdlr (s : Intf) (kmsg : Kmsg) : Intf := { s with sent := s.sent ++ [kmsg] }

/-- What is sent for the command and how it was answered is noted. -/
def rxedCmd (finds : Finds frame) (node : Nat) (s : Intf) : Except Halt Intf := do
  let (ret, kmsg, t) ← sdioH2eMsgConversion frame finds .stack s
  let t := if ret = sdioIntfSuccess then t.sdioH2eKmsgHdlr kmsg else t
  .ok { t.sdioReleaseOneNode node with handled := t.handled ++ [⟨ret, s.kmsgs.length, t.sent.drop s.sent.length⟩] }

/-- One round of the loop. -/
def rxedFrame (finds : Finds frame) (s : Intf) : Except Halt (Bool × Intf) :=
  let (node, s) := s.sdioGetRxedNode
  if frame.type = mvmsDat then .ok (s.rxedDat finds node)
  else if frame.type = mvmsCmd then (s.rxedCmd finds node).map fun s => (true, s)
  else if frame.type = mvmsEvent then .ok (true, s)
  else if frame.type = mvmsTxdone then .ok (true, s)
  else .ok (true, s)

/-- The frames that the driver has; what is left of them is returned. -/
def sdioEmbRxedEvt : List ((frame : Frame) × Finds frame) → Intf →
    Except Halt (List ((frame : Frame) × Finds frame) × Intf)
  | [], s => .ok ([], s)
  | ⟨_, finds⟩ :: frames, s => do
    let (on, s) ← s.rxedFrame finds
    if on then sdioEmbRxedEvt frames s else .ok (frames, s)

/-- After `INIT_LIST_HEAD`. -/
def sdioIntfInit : Intf where
  inboundList := []
  scanStartFlag := 0
  scanRespCmdSn := 0
  seq := 0
  rxed := 0
  released := []
  mac := []
  kmsgs := []
  sent := []
  handled := []

end Intf

/-- A round for a frame, a confirm of the MAC for the frame it has had longest, or a response to the host: it takes
a sequence number, and the one to SCANU_START_CFM clears the flag. -/
inductive Event where
  | rxed (frame : Frame) (finds : Finds frame)
  | confirm
  | scanuStartCfm
  | response

/-- No state is known after `Halt.lost`, and nothing follows a failed assertion. -/
def step : Event → Option Intf → Option (Option Intf)
  | _, none => none
  | .rxed _ finds, some s =>
    match s.rxedFrame finds with
    | .ok (_, t) => some (some t)
    | .error .lost => some none
    | .error .assertion => none
  | .confirm, some s =>
    match s.mac with
    | [] => none
    | _ :: later => some (some { s with mac := later }.inboundCfm)
  | .scanuStartCfm, some s => some (some { s with scanStartFlag := 0 })
  | .response, some s => some (some (respIncSeqnum s).2)

variable {s t : Intf} {frames rest : List ((frame : Frame) × Finds frame)}

/-- The rounds for the frames, the latest first. -/
def rounds (frames : List ((frame : Frame) × Finds frame)) : List Event :=
  frames.reverse.map fun frame => .rxed frame.1 frame.2

theorem replay_rounds (start : Option Intf) (frame : (frame : Frame) × Finds frame) :
    Machine.replay step start (rounds (frame :: frames)) =
      (step (.rxed frame.1 frame.2) start).bind fun t => Machine.replay step t (rounds frames) := by
  unfold rounds
  rw [List.reverse_cons, List.map_append]
  generalize frames.reverse = earlier
  induction earlier with
  | nil => exact (Option.bind_fun_some _).symm
  | cons first earlier ih =>
    rw [List.map_cons, List.cons_append, Machine.replay, ih, Option.bind_assoc]
    rfl

/-- A call that returns has been rounds for its first frames, so runs of rounds have whatever the calls can do. -/
theorem sdioEmbRxedEvt_rounds (done : s.sdioEmbRxedEvt frames = .ok (rest, t)) :
    ∃ taken, frames = taken ++ rest ∧ Machine.replay step (some s) (rounds taken) = some (some t) := by
  induction frames generalizing s with
  | nil =>
    obtain ⟨rfl, rfl⟩ := done
    exact ⟨[], rfl, rfl⟩
  | cons first frames ih =>
    obtain ⟨frame, finds⟩ := first
    rw [Intf.sdioEmbRxedEvt] at done
    cases round : s.rxedFrame finds with
    | error halt => rw [round] at done; cases done
    | ok both =>
      obtain ⟨on, next⟩ := both
      rw [round] at done
      have stepped : step (.rxed frame finds) (some s) = some (some next) := by simp only [step, round]
      cases on with
      | true =>
        obtain ⟨taken, same, replayed⟩ := ih done
        refine ⟨⟨frame, finds⟩ :: taken, by rw [same, List.cons_append], ?_⟩
        rw [replay_rounds, stepped]
        exact replayed
      | false =>
        obtain ⟨rfl, rfl⟩ := done
        refine ⟨[⟨frame, finds⟩], rfl, ?_⟩
        rw [replay_rounds, stepped]
        rfl

end BekenSdk.SdioIntf
