import BekenSdk.Base.Bytes
import BekenSdk.Base.CData
import BekenSdk.Base.ExchangeSort
import Mathlib.Data.UInt

/-! The messages of a scan, byte by byte (rw_msg_rx.c). A beacon or probe response says in its DS element on which channel it was
sent; it may be received on a channel next to that one. The elements are behind a fixed part of 36 bytes, and their length is that
of the frame without it. What looks for an element in them is a parameter.
-/

set_option autoImplicit false

namespace BekenSdk.ScanResults.Frames
open Base

/-! ## Messages and items -/

/-- A message SCANU_RESULT_IND; `payload` is the memory from the frame on. -/
structure ScanInd where
  length : UInt16
  centerFreq : UInt16
  rssi : Int8
  payload : Cells

structure WifiCountry where
  manual : Bool
  schan : UInt8
  nchan : UInt8

/-- A message, and what its handler meets: the country, whether the supplicant only scans, and for what there is memory. -/
structure Arrival extends ScanInd where
  country : WifiCountry
  scanOnly : Bool
  shellMemory : Bool
  iesMemory : Bool
  itemMemory : Bool

/-- The elements follow the structure in memory. -/
structure StaScanRes where
  bssid : List UInt8
  ssid : List UInt8
  onChannel : Bool
  channel : UInt8
  beaconInt : UInt16
  caps : UInt16
  level : Int32
  security : Int32
  tsf : List UInt8
  ieLen : UInt32
  ies : List UInt8
  deriving DecidableEq

/-- The functions of the Wi-Fi core and of the supplicant: the memory, the address of the elements, and their length. -/
structure Parsers where
  macIeFind : Cells → Nat → UInt16 → UInt8 → Option Nat
  getIe : Cells → Nat → UInt32 → UInt8 → Option Nat
  getVendorIe : Cells → Nat → UInt32 → UInt32 → Option Nat
  getSecurityTypeFromIe : Cells → Nat → UInt32 → UInt16 → Int32

def maxBssList : Nat := 32

def macBeaconVariablePartOft : Nat := 36

def macEltidSsid : UInt8 := 0

def macEltidDs : UInt8 := 3

def wlanEidRsn : UInt8 := 48

def wlanEidVendorSpecific : UInt8 := 221

def wpaIeVendorType : UInt32 := 0x0050f201

def macSsidLen : Nat := 32

/-! ## Channels -/

def rw2ghzChannels : List Nat :=
  [2412, 2417, 2422, 2427, 2432, 2437, 2442, 2447, 2452, 2457, 2462, 2467, 2472, 2484]

def rwIeee80211GetChanId (freq : UInt16) : UInt8 :=
  match rw2ghzChannels.findIdx? fun centerFreq => centerFreq = freq.toNat with
  | none => 0
  | some i => UInt8.ofNat (i + 1)

def rwIeee80211IsScanRstInCountrycode (country : WifiCountry) (freq : UInt8) : Bool :=
  if country.manual = false then true
  else
    let startChan := country.schan.toUInt32
    let endChan := startChan + country.nchan.toUInt32 - 1
    !(decide (freq.toUInt32 < startChan) || decide (endChan < freq.toUInt32))

/-! ## What is read of a frame -/

/-- Bytes, and from where they are read. -/
structure Part where
  bytes : List UInt8
  reads : List (Nat × Nat)

def readWord16 (cells : Cells) (addr : Nat) : UInt16 := UInt16.ofNat (fromLe (readBytes cells addr 2))

section
variable (parsers : Parsers) (arrival : Arrival)

def bssid : List UInt8 := readBytes arrival.payload 16 6

def capabInfo : UInt16 := readWord16 arrival.payload 34

/-- The length of the elements. -/
def viesLen : UInt32 := arrival.length.toUInt32 - UInt32.ofNat macBeaconVariablePartOft

def findElement (id : UInt8) : Option Nat :=
  parsers.macIeFind arrival.payload macBeaconVariablePartOft (viesLen arrival).toUInt16 id

/-- The name of the access point, and its length at most that of the field. -/
def ssidPart : Part :=
  match findElement parsers arrival macEltidSsid with
  | none => ⟨List.replicate macSsidLen 0, []⟩
  | some addr =>
    let ssidLen := min (arrival.payload (addr + 1)).toNat macSsidLen
    ⟨readBytes arrival.payload (addr + 2) ssidLen ++ List.replicate (macSsidLen - ssidLen) 0, [(addr + 1, 1), (addr + 2, ssidLen)]⟩

/-- The channel of a frame. -/
structure Channel where
  chann : UInt8
  onChannel : Bool
  permitted : Bool
  reads : List (Nat × Nat)

def adjustChannel : Channel :=
  let searched := (macBeaconVariablePartOft, (viesLen arrival).toUInt16.toNat)
  let received := rwIeee80211GetChanId arrival.centerFreq
  match findElement parsers arrival macEltidDs with
  | none => ⟨received, false, true, [searched]⟩
  | some addr =>
    let chann := arrival.payload (addr + 2)
    ⟨chann, decide (chann = received), rwIeee80211IsScanRstInCountrycode arrival.country chann, [searched, (addr + 2, 1)]⟩

/-- An element goes into the buffer of 128 bytes if there is room for it. -/
def wpabufPutIe (buf : Part) (ie : Option Nat) : Part :=
  match ie with
  | none => buf
  | some addr =>
    let len := (arrival.payload (addr + 1)).toNat + 2
    if len ≤ 128 - buf.bytes.length then ⟨buf.bytes ++ readBytes arrival.payload addr len, (addr, len) :: buf.reads⟩ else buf

def wlanGetBssBeaconIes : Part :=
  let find := parsers.getIe arrival.payload macBeaconVariablePartOft (viesLen arrival)
  let vsie := parsers.getVendorIe arrival.payload macBeaconVariablePartOft (viesLen arrival) wpaIeVendorType
  [find macEltidSsid, find wlanEidRsn, vsie].foldl (wpabufPutIe arrival) ⟨[], []⟩

/-- All elements, or the ones that the supplicant needs. -/
def iesPart : Part :=
  if arrival.scanOnly then wlanGetBssBeaconIes parsers arrival
  else
    let viesLen := (viesLen arrival).toNat
    ⟨readBytes arrival.payload macBeaconVariablePartOft viesLen, [(macBeaconVariablePartOft, viesLen)]⟩

/-- The item that a frame gives. -/
def item : StaScanRes where
  bssid := bssid arrival
  ssid := (ssidPart parsers arrival).bytes
  onChannel := (adjustChannel parsers arrival).onChannel
  channel := (adjustChannel parsers arrival).chann
  beaconInt := readWord16 arrival.payload 32
  caps := capabInfo arrival
  level := arrival.rssi.toInt32
  security :=
    parsers.getSecurityTypeFromIe arrival.payload macBeaconVariablePartOft (viesLen arrival) (capabInfo arrival)
  tsf := readBytes arrival.payload 24 8
  ieLen := if arrival.scanOnly then UInt32.ofNat (iesPart parsers arrival).bytes.length else viesLen arrival
  ies := (iesPart parsers arrival).bytes

/-! ## The table -/

/-- The search for items of the same access point: `none` is that the frame is dropped, else it is the last one that is to be
replaced. -/
def checkDuplicate (bssid : List UInt8) (onChannel : Bool) : List StaScanRes → Nat → Option Nat → Option (Option Nat)
  | [], _, replaceIndex => some replaceIndex
  | old :: rest, i, replaceIndex =>
    if bssid = old.bssid then
      if old.onChannel = true ∨ onChannel = false then none else checkDuplicate bssid onChannel rest (i + 1) (some i)
    else checkDuplicate bssid onChannel rest (i + 1) replaceIndex

def place (res : List StaScanRes) (new : StaScanRes) : Option Nat → List StaScanRes
  | some replaceIndex => res.set replaceIndex new
  | none => res ++ [new]

/-- What the handler makes of the table, and what it has read of the elements. -/
structure Outcome where
  res : List StaScanRes
  stored : Bool
  reads : List (Nat × Nat)

def mhdrScanuResultInd (res : List StaScanRes) : Outcome :=
  if maxBssList ≤ res.length then ⟨res, false, []⟩
  else
    let channel := adjustChannel parsers arrival
    if channel.permitted = false then ⟨res, false, channel.reads ++ (ssidPart parsers arrival).reads⟩
    else
      match checkDuplicate (bssid arrival) channel.onChannel res 0 none with
      | none => ⟨res, false, channel.reads⟩
      | some replaceIndex =>
        if arrival.scanOnly && !arrival.iesMemory then ⟨res, false, channel.reads⟩
        else if arrival.itemMemory = false then
          ⟨res, false, channel.reads ++ if arrival.scanOnly then (iesPart parsers arrival).reads else []⟩
        else
          ⟨place res (item parsers arrival) replaceIndex, true,
            channel.reads ++ (iesPart parsers arrival).reads ++ (ssidPart parsers arrival).reads ++
              [(macBeaconVariablePartOft, (viesLen arrival).toNat)]⟩

end

def sortScanResult (res : List StaScanRes) : List StaScanRes := exchangeSort (fun item => item.level.toInt) res

/-- At the end of the scan; the table is freed if it has failed. -/
def mhdrScanuStartCfm (ok : Bool) (apList : Option (List StaScanRes)) : Option (List StaScanRes) :=
  apList.bind fun res => if ok then some (sortScanResult res) else none

/-! ## A scan -/

/-- The table, the frames whose data it has taken, and what each frame has had read of it. -/
structure Scan where
  scanRstSetPtr : Option (List StaScanRes)
  accepted : List Arrival
  reads : List (Arrival × Nat × Nat)

def Scan.res (s : Scan) : List StaScanRes := s.scanRstSetPtr.getD []

/-- The shell of the table comes with the first frame. -/
def receive (parsers : Parsers) (s : Scan) (arrival : Arrival) : Scan :=
  if s.scanRstSetPtr.isNone && !arrival.shellMemory then s
  else
    let outcome := mhdrScanuResultInd parsers arrival s.res
    { scanRstSetPtr := some outcome.res
      accepted := if outcome.stored then arrival :: s.accepted else s.accepted
      reads := outcome.reads.map (fun read => (arrival, read)) ++ s.reads }

def collect (parsers : Parsers) (arrivals : List Arrival) : Scan :=
  arrivals.foldl (receive parsers) ⟨none, [], []⟩

end BekenSdk.ScanResults.Frames
