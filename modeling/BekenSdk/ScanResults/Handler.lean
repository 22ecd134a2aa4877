import BekenSdk.Base.Arena
import BekenSdk.Base.Machine

/-! Scan results (rw_msg_rx.c). The messages of the Wi-Fi core fill one result set
after the other; readers get a pointer to the current one, count it and give it
back. The handler of a message runs in its own task: between its steps, readers
in other tasks get and release sets.
-/

set_option autoImplicit false

namespace BekenSdk.ScanResults
open Base

structure StaScanRes where
  bssid : List UInt8
  onChannel : Bool
  level : Int32
  deriving DecidableEq

/-- A result set; `scanu_num` is the length of `res`. -/
structure ScanRstUpload where
  ref : UInt16
  res : List StaScanRes

/-- What SCANU_RESULT_IND brings: the item, whether its channel is one of the country,
and whether there is memory for it. -/
structure ScanInd where
  item : StaScanRes
  permitted : Bool
  memory : Bool

inductive Message where
  | scanuStartCfm (ok : Bool)
  | scanuResultInd (ind : ScanInd)
  | smConnectInd

/-- For which message a set is flushed. -/
inductive Flush where
  | failed
  | result (ind : ScanInd)
  | connect

/-- Where `rwnx_handle_recv_msg` is. -/
inductive Handler where
  | idle
  | confirming (ok : Bool)
  | confirmed (ok : Bool)
  | sorting
  /-- The pointer is read for the call of `sr_flush_scan_results`. -/
  | loading (reason : Flush)
  | flushing (ptr : Option Nat) (reason : Flush)
  | clearing (reason : Flush)
  | testing (ind : ScanInd)
  | allocating (ind : ScanInd)
  | allocated (ind : ScanInd)
  | adding (ind : ScanInd)

inductive Event where
  /-- `sr_get_scan_results` of a reader. -/
  | get
  /-- `sr_release_scan_results` of a reader with a pointer that it has. -/
  | release (ptr : Option Nat)
  | message (msg : Message)
  /-- A step of the handler. -/
  | handle (memory : Bool)

/-- `held` has the pointers that readers have obtained and not yet released, and
`lost` the live sets to which the global pointer pointed when it was cleared. -/
structure Scan where
  sets : Arena ScanRstUpload
  scanRstSetPtr : Option Nat
  resultfulScanCfm : Bool
  held : List (Option Nat)
  handler : Handler
  lost : List Nat

def maxBssList : Nat := 32

/-! ## The items of a set -/

/-- The item goes along the list, and takes the place of the next one that is stronger. -/
def exchange (item : StaScanRes) : List StaScanRes → StaScanRes × List StaScanRes
  | [] => (item, [])
  | next :: rest =>
    if next.level > item.level then
      ((exchange next rest).1, item :: (exchange next rest).2)
    else
      ((exchange item rest).1, next :: (exchange item rest).2)

def sortRounds : Nat → List StaScanRes → List StaScanRes
  | rounds + 1, item :: rest => (exchange item rest).1 :: sortRounds rounds (exchange item rest).2
  | _, res => res

def sortScanResult (set : ScanRstUpload) : ScanRstUpload :=
  { set with res := sortRounds set.res.length set.res }

/-- The last item of the same access point is replaced. -/
def replaceIndex (item : StaScanRes) (res : List StaScanRes) : Option Nat :=
  ((List.range res.length).filter fun i => (res[i]?).any fun old => old.bssid = item.bssid).getLast?

def mhdrScanuResultInd (ind : ScanInd) (set : ScanRstUpload) : ScanRstUpload :=
  if maxBssList ≤ set.res.length then set
  else if ind.permitted = false then set
  else if set.res.any fun old => old.bssid = ind.item.bssid ∧
    (old.onChannel = true ∨ ind.item.onChannel = false) then set
  else if ind.memory = false then set
  else
    match replaceIndex ind.item set.res with
    | some i => { set with res := set.res.set i ind.item }
    | none => { set with res := set.res ++ [ind.item] }

namespace Scan

/-! ## Reference counting -/

/-- A set is read or written, wherever the pointer leads. -/
def touch (p : Nat) (change : ScanRstUpload → ScanRstUpload) (s : Scan) : Scan :=
  { s with sets := { s.sets.access p with content := Function.update s.sets.content p (change (s.sets.content p)) } }

/-- `scan_rst_set_ptr = 0; resultful_scan_cfm = 0`. -/
def clear (s : Scan) : Scan :=
  { s with
    scanRstSetPtr := none
    resultfulScanCfm := false
    lost := s.scanRstSetPtr.toList.filter (fun p => s.sets.Live p) ++ s.lost }

def srFreeAll (p : Nat) (s : Scan) : Scan :=
  { s with sets := (s.touch p fun _ => ⟨0, []⟩).sets.free p }

/-- Without a set, the count is written at address 0. -/
def srGetScanResults (s : Scan) : Scan :=
  match s.scanRstSetPtr with
  | none => { s with held := none :: s.held }
  | some p => { s.touch p (fun set => { set with ref := set.ref + 1 }) with held := some p :: s.held }

def srReleaseScanResults (ptr : Option Nat) (s : Scan) : Scan :=
  match ptr with
  | none => s
  | some p =>
    if (s.sets.content p).ref = 0 then s.touch p id
    else if (s.sets.content p).ref - 1 ≠ 0 then s.touch p fun set => { set with ref := set.ref - 1 }
    -- whichever set it is, the global pointer is cleared
    else ((s.touch p fun set => { set with ref := set.ref - 1 }).srFreeAll p).clear

def srFlushScanResults (ptr : Option Nat) (s : Scan) : Scan :=
  match ptr with
  | none => s
  | some p => (s.touch p fun set => { set with ref := 1 }).srReleaseScanResults (some p)

/-! ## rwnx_handle_recv_msg -/

def receive (msg : Message) (s : Scan) : Scan :=
  match msg with
  | .scanuStartCfm ok => { s with handler := if s.scanRstSetPtr.isSome then .confirming ok else .confirmed ok }
  | .scanuResultInd ind =>
    { s with handler := if s.resultfulScanCfm && s.scanRstSetPtr.isSome then .loading (.result ind) else .testing ind }
  | .smConnectInd =>
    { s with handler := if s.resultfulScanCfm && s.scanRstSetPtr.isSome then .loading .connect else .idle }

def handle (memory : Bool) (s : Scan) : Option Scan :=
  match s.handler with
  | .idle => none
  | .confirming ok => some { s with resultfulScanCfm := true, handler := .confirmed ok }
  | .confirmed ok =>
    match s.scanRstSetPtr with
    | none => some { s with handler := .idle }
    | some _ => some { s with handler := if ok then .sorting else .loading .failed }
  | .sorting =>
    match s.scanRstSetPtr with
    | none => some { s with handler := .idle }
    | some p => some { s.touch p sortScanResult with handler := .idle }
  | .loading reason => some { s with handler := .flushing s.scanRstSetPtr reason }
  | .flushing ptr .failed => some { s.srFlushScanResults ptr with handler := .idle }
  | .flushing ptr reason => some { s.srFlushScanResults ptr with handler := .clearing reason }
  | .clearing (.result ind) => some { s.clear with handler := .testing ind }
  | .clearing _ => some { s.clear with handler := .idle }
  | .testing ind =>
    match s.scanRstSetPtr with
    | none => some { s with handler := .allocating ind }
    | some _ => some { s with handler := .adding ind }
  | .allocating ind =>
    if memory then
      some { s with sets := s.sets.alloc ⟨0, []⟩, scanRstSetPtr := some s.sets.count, handler := .allocated ind }
    else
      some { s with scanRstSetPtr := none, handler := .allocated ind }
  | .allocated ind =>
    match s.scanRstSetPtr with
    | none => some { s with handler := .idle }
    | some p => some { s.touch p (fun set => { set with res := [] }) with handler := .adding ind }
  | .adding ind =>
    match s.scanRstSetPtr with
    | none => some { s with handler := .idle }
    | some p => some { s.touch p (mhdrScanuResultInd ind) with handler := .idle }

def step (event : Event) (s : Scan) : Option Scan :=
  match event with
  | .get => some s.srGetScanResults
  | .release ptr =>
    if ptr ∈ s.held then some { s.srReleaseScanResults ptr with held := s.held.erase ptr } else none
  | .message msg =>
    match s.handler with
    | .idle => some (s.receive msg)
    | _ => none
  | .handle memory => s.handle memory

/-- Nothing is scanned; memory holds anything. -/
def start (content : Nat → ScanRstUpload) : Scan := ⟨.empty content, none, false, [], .idle, []⟩

end Scan

end BekenSdk.ScanResults
