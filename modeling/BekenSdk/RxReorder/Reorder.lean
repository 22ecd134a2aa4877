import BekenSdk.Base.Arena
import BekenSdk.Base.Machine
import Mathlib.Algebra.Ring.Nat

/-! The window in which received frames are put back into order (`rw_msdu.c`
with `CFG_RWNX_REODER`). One window serves all frames; the timer and the
receiving task take turns.
-/

set_option autoImplicit false

namespace BekenSdk.RxReorder
open Base

abbrev rxReordWinSize : Nat := 6
def macSeqctrlNumMax : UInt16 := 0xfff
def rxCntrlReordMaxWait : UInt32 := 50000

instance : NeZero rxReordWinSize := ⟨by decide⟩

/-- `RW_RXIFO_ST` as far as `rwm_upload_data` reads it. The last field is not
there: it is the number that the sender gave the frame, of which `sn` is the
low part. -/
structure RxInfo where
  sn : UInt16
  isAmsdu : Bool
  etherType : UInt16
  seq : Nat
  deriving DecidableEq

inductive RwStatus where
  | rwSuccess
  | rwFailure
  deriving DecidableEq

/-- The statics of the file. Frames are blocks of memory that the driver
allocates; `delivered` are the ones that went up, the latest first. `start` is
`winStart` without the wrap, and nothing reads it. -/
structure Reorder where
  element : Nat → Option Nat
  oooPktCnt : UInt8
  winStart : UInt16
  rxStatusPos : Fin rxReordWinSize
  snRxTime : UInt32
  isFirstPacket : Bool
  rwmReorderTimer : Option UInt32
  memory : Arena RxInfo
  delivered : List Nat
  start : Nat

namespace Reorder

def boot (memory : Nat → RxInfo) : Reorder where
  element := fun _ => none
  oooPktCnt := 0
  winStart := 0
  rxStatusPos := ⟨0, by decide⟩
  snRxTime := 0
  isFirstPacket := true
  rwmReorderTimer := none
  memory := Arena.empty memory
  delivered := []
  start := 0

/-- The network stack takes the frame over. -/
def ethernetifInput (frame : Nat) (s : Reorder) : Reorder :=
  { s with memory := s.memory.access frame, delivered := frame :: s.delivered }

def pbufFree (frame : Nat) (s : Reorder) : Reorder :=
  { s with memory := s.memory.free frame }

def rwmReorderUpdate (s : Reorder) : Reorder :=
  { s with
    element := Function.update s.element s.rxStatusPos none
    winStart := (s.winStart + 1) &&& macSeqctrlNumMax
    rxStatusPos := Fin.ofNat rxReordWinSize (s.rxStatusPos + 1)
    start := s.start + 1 }

/-- The `while` loop. Every round empties a slot, so there are no more rounds
than slots. -/
def fwdRounds : Nat → Reorder → Reorder
  | 0, s => s
  | rounds + 1, s =>
    match s.element s.rxStatusPos with
    | none => s
    | some frame =>
      let s := (s.ethernetifInput frame).rwmReorderUpdate
      fwdRounds rounds { s with oooPktCnt := s.oooPktCnt - 1 }

def rwmReorderFwd (s : Reorder) : Reorder := fwdRounds rxReordWinSize s

def halMachwTimeCmp (time1 time2 : UInt32) : Bool := decide (2 ^ 31 ≤ (time1 - time2).toNat)

def rearm (s : Reorder) : Reorder :=
  { s with rwmReorderTimer := s.rwmReorderTimer.map (· + rxCntrlReordMaxWait) }

/-- The next waited packet counts as received. -/
def giveUp (s : Reorder) : Reorder :=
  match s.element s.rxStatusPos with
  | none => s.rwmReorderUpdate
  | some _ => s

/-- `now` is what `hal_machw_time` returns in the call. -/
def rwmReordTimeoutCb (now : UInt32) (s : Reorder) : Reorder :=
  if s.oooPktCnt = 0 then s.rearm
  else if halMachwTimeCmp (s.snRxTime + rxCntrlReordMaxWait) now = false then s.rearm
  else s.rearm.giveUp.rwmReorderFwd

def flushSlot (index : Nat) (s : Reorder) : Reorder :=
  match s.element index with
  | none => s
  | some frame =>
    let s := s.ethernetifInput frame
    { s with element := Function.update s.element index none, oooPktCnt := s.oooPktCnt - 1 }

/-- The rounds of the `for` loop from `i` on, `left` of them. -/
def flushRounds (i : Nat) : Nat → Reorder → Reorder
  | 0, s => s
  | left + 1, s =>
    if s.oooPktCnt = 0 then s
    else flushRounds (i + 1) left (s.flushSlot ((s.rxStatusPos + i) % rxReordWinSize))

def rwmReorderFlush (snSkipped : UInt16) (s : Reorder) : Reorder :=
  let s := s.flushRounds 0 snSkipped.toNat
  { s with
    winStart := (s.winStart + snSkipped) &&& macSeqctrlNumMax
    rxStatusPos := Fin.ofNat rxReordWinSize (s.rxStatusPos + snSkipped.toNat)
    start := s.start + snSkipped.toNat }

/-- The first frame says where the window starts. -/
def openWindow (rxInfo : RxInfo) (s : Reorder) : Reorder :=
  if s.isFirstPacket then
    { s with
      winStart := rxInfo.sn
      rxStatusPos := Fin.ofNat rxReordWinSize rxInfo.sn.toNat
      isFirstPacket := false
      rwmReorderTimer := some (s.snRxTime + rxCntrlReordMaxWait)
      start := rxInfo.seq }
  else s

def snPos (rxInfo : RxInfo) (s : Reorder) : UInt16 := (rxInfo.sn - s.winStart) &&& macSeqctrlNumMax

def slotOf (pos : UInt16) (s : Reorder) : Nat := (pos.toNat + s.rxStatusPos) % rxReordWinSize

/-- The frame goes into the slot for its number, if that is free. -/
def store (frame : Nat) (pos : UInt16) (s : Reorder) : RwStatus × Reorder :=
  match s.element (s.slotOf pos) with
  | some _ => (.rwFailure, s.pbufFree frame)
  | none => (.rwSuccess, { s with
      element := Function.update s.element (s.slotOf pos) (some frame)
      oooPktCnt := s.oooPktCnt + 1 })

/-- The number is too old for the window, in it, or beyond it. -/
def outOfOrder (frame : Nat) (rxInfo : RxInfo) (s : Reorder) : RwStatus × Reorder :=
  if rxReordWinSize ≤ (s.snPos rxInfo).toNat then
    if s.snPos rxInfo < macSeqctrlNumMax >>> 1 then
      let s := s.rwmReorderFlush (s.snPos rxInfo - UInt16.ofNat rxReordWinSize + 1)
      s.store frame (s.snPos rxInfo)
    else (.rwFailure, s.pbufFree frame)
  else s.store frame (s.snPos rxInfo)

def stamp (now : UInt32) (s : Reorder) : Reorder := { s with snRxTime := now }

/-- The frame is the one that the window waits for. -/
def inOrder (frame : Nat) (now : UInt32) (s : Reorder) : RwStatus × Reorder :=
  (.rwSuccess, ((s.ethernetifInput frame).stamp now).rwmReorderUpdate.rwmReorderFwd)

/-- An A-MSDU goes up in copies, one for each subframe, and is freed. -/
def rwmUploadData (frame : Nat) (rxInfo : RxInfo) (now : UInt32) (s : Reorder) : RwStatus × Reorder :=
  if rxInfo.isAmsdu then (.rwSuccess, s.pbufFree frame)
  else if rxInfo.etherType = 0x80 then
    let s := s.openWindow rxInfo
    if rxInfo.sn = s.winStart then s.inOrder frame now
    else s.outOfOrder frame rxInfo
  else (.rwSuccess, s.ethernetifInput frame)

end Reorder

/-! ## Events -/

/-- A frame is received, or the timer expires; `now` is the clock. The window is
flushed by frames only. -/
inductive Event where
  | frame (rxInfo : RxInfo) (now : UInt32)
  | timeout (now : UInt32)

namespace Reorder

/-- The driver has put the frame into a block of its own. -/
def receive (rxInfo : RxInfo) (s : Reorder) : Reorder :=
  { s with memory := s.memory.alloc rxInfo }

def step : Event → Reorder → Option Reorder
  | .frame rxInfo now, s => some ((s.receive rxInfo).rwmUploadData s.memory.count rxInfo now).2
  | .timeout now, s => if s.rwmReorderTimer.isSome then some (s.rwmReordTimeoutCb now) else none

end Reorder

end BekenSdk.RxReorder
