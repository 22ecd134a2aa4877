import BekenSdk.Base.Bytes
import BekenSdk.Base.Loop

/-! The scan command of the host and the request that is made of it (sdio_intf.c, without CFG_REAL_SDIO). The memory
behind the command's header is whatever there is; what the loop looks at, reads and writes is recorded.
-/

set_option autoImplicit false

namespace BekenSdk.SdioScan
open Base

def tlvTypeSsid : UInt16 := 0x0000
def tlvTypeChanlist : UInt16 := 0x0101

/-- The length of an `MRVL_IE_HDR_S`, and where `tlvbuffer` lies behind the STM32_CMD_HDR. -/
def mrvlIeHdrLen : Nat := 4
def tlvbuffer : Nat := 15

def wifi24GChannelNum : Nat := 14
def wifi24GBand : UInt8 := 0

def freq24G : List UInt16 :=
  [2412, 2417, 2422, 2427, 2432, 2437, 2442, 2447, 2452, 2457, 2462, 2467, 2472, 2484]

def scanSsidMax : Nat := 2
def scanChannelMax : Nat := 42
def macSsidLen : Nat := 32

/-- The size of a `mac_ssid`, its length byte included. -/
def macSsidSize : Nat := macSsidLen + 1

/-- `STM32_CMD_802_11_SCAN` as the code sees it: the size in its header, and the bytes from the header on. -/
structure ScanCmd where
  size : UInt16
  mem : Cells

def ScanCmd.half (cmd : ScanCmd) (addr : Nat) :
    UInt16 := (cmd.mem addr).toUInt16 ||| (cmd.mem (addr + 1)).toUInt16 <<< 8

/-- The header of a TLV. -/
def ScanCmd.type (cmd : ScanCmd) (mrvlIe : Nat) : UInt16 := cmd.half mrvlIe
def ScanCmd.len (cmd : ScanCmd) (mrvlIe : Nat) : UInt16 := cmd.half (mrvlIe + 2)

structure ScanChanTag where
  freq : UInt16
  band : UInt8
  flags : UInt8

/-- `scan_start_req`; the SSIDs are the bytes of their array. -/
structure ScanStartReq where
  chan : List ScanChanTag
  ssid : Cells
  bssid : List UInt8
  addIes : UInt32
  addIeLen : UInt16
  chanCnt : UInt8
  ssidCnt : UInt8

def ScanStartReq.zero : ScanStartReq where
  chan := List.replicate scanChannelMax ⟨0, 0, 0⟩
  ssid := fun _ => 0
  bssid := List.replicate 6 0
  addIes := 0
  addIeLen := 0
  chanCnt := 0
  ssidCnt := 0

structure Scan where
  mrvlIe : Nat
  ieTotalLen : UInt32
  ssidId : UInt32
  channelId : UInt32
  req : ScanStartReq
  /-- The headers looked at, first to last. -/
  looked : List Nat
  /-- Places and lengths: of the frame, counted from its header, and of `ssid[]`; and the places in `chan[]`. -/
  reads : List (Nat × Nat)
  ssidWrites : List (Nat × Nat)
  chanWrites : List Nat

namespace Scan

def tlvSsid (cmd : ScanCmd) (s : Scan) : Scan :=
  let len := cmd.len s.mrvlIe
  let place := macSsidSize * s.ssidId.toNat
  let array := readBytes cmd.mem (s.mrvlIe + mrvlIeHdrLen) len.toNat
  let ssid := storeBytes (storeBytes s.req.ssid place [len.toUInt8]) (place + 1) array
  { s with
    ssidId := s.ssidId + 1
    req := { s.req with ssid, ssidCnt := (s.ssidId + 1).toUInt8 }
    reads := s.reads ++ [(s.mrvlIe + mrvlIeHdrLen, len.toNat)]
    ssidWrites := s.ssidWrites ++ [(place, len.toNat + 1)] }

/-- One channel after the other. -/
def tlvChanlist (s : Scan) : Scan :=
  let s := (List.range wifi24GChannelNum).foldl (fun s i =>
    { s with
      channelId := s.channelId + 1
      req := { s.req with chan := s.req.chan.set i ⟨freq24G.getD i 0, wifi24GBand, 0⟩ }
      chanWrites := s.chanWrites ++ [i] }) s
  { s with req := { s.req with chanCnt := s.channelId.toUInt8 } }

/-- The round of the loop; the next TLV is looked for behind the start of the buffer. -/
def round (cmd : ScanCmd) (s : Scan) : Scan :=
  let len := cmd.len s.mrvlIe
  let s := { s with
    ieTotalLen := s.ieTotalLen - (len.toUInt32 + 4)
    looked := s.looked ++ [s.mrvlIe]
    reads := s.reads ++ [(s.mrvlIe, mrvlIeHdrLen)] }
  let s :=
    if cmd.type s.mrvlIe = tlvTypeSsid then s.tlvSsid cmd
    else if cmd.type s.mrvlIe = tlvTypeChanlist then s.tlvChanlist
    else s
  { s with mrvlIe := tlvbuffer + len.toNat + mrvlIeHdrLen }

def start (cmd : ScanCmd) : Scan where
  mrvlIe := tlvbuffer
  ieTotalLen := cmd.size.toUInt32 - tlvbuffer.toUInt32
  ssidId := 0
  channelId := 0
  req := .zero
  looked := []
  reads := []
  ssidWrites := []
  chanWrites := []

/-- What the request is given after the loop. -/
def finish (s : Scan) : Scan :=
  { s with
    req := { s.req with
      bssid := List.replicate 6 0xFF
      ssidCnt := 1
      ssid := storeBytes s.req.ssid 0 [0]
      addIes := 0
      addIeLen := 0 }
    ssidWrites := s.ssidWrites ++ [(0, 1)] }

end Scan

/-- cmd_conversion_802_11_scan, with the rounds that its loop is given. -/
def cmdConversion80211Scan (cmd : ScanCmd) (rounds : Nat) : Option Scan :=
  (loop (fun s : Scan => s.ieTotalLen ≠ 0) (Scan.round cmd) rounds (.start cmd)).map .finish

/-! ## Type-length-value fields

Which commands are converted TLV by TLV and in bounds: the cursor of the loop is right for two TLVs, and the loop
ends only where the lengths add up.
-/

/-! ## What is claimed -/

namespace ScanCmd
variable (cmd : ScanCmd)

/-- Where the TLV at the place ends. -/
def next (place : Nat) : Nat := place + mrvlIeHdrLen + (cmd.len place).toNat

def Fits (place : Nat) : Prop := cmd.next place ≤ cmd.size.toNat

/-- One TLV after the other, up to the first that does not fit; its header may have been looked at. -/
inductive InOrder : Nat → List Nat → Prop
  | stopped {place : Nat} (unfit : ¬ cmd.Fits place) : InOrder place []
  | unfit {place : Nat} (unfit : ¬ cmd.Fits place) : InOrder place [place]
  | fits {place : Nat} {rest : List Nat} (fits : cmd.Fits place) (inOrder : InOrder (cmd.next place) rest) :
      InOrder place (place :: rest)

/-- The SSID of the TLV, if it is one, is not longer. -/
def SsidWithin (place room : Nat) : Prop := cmd.type place = tlvTypeSsid → (cmd.len place).toNat ≤ room

/-- What `ssid[]` has for the name of the second TLV. -/
def secondRoom : Nat := if cmd.type tlvbuffer = tlvTypeSsid then 32 else 65

/-- No TLV, or one or two that fill the buffer, and SSIDs that `ssid[]` can take. -/
def Exact : Prop :=
  cmd.size.toNat = tlvbuffer ∨
    (cmd.size.toNat = cmd.next tlvbuffer ∧ cmd.SsidWithin tlvbuffer 65) ∨
    (cmd.size.toNat = cmd.next (cmd.next tlvbuffer) ∧ cmd.SsidWithin tlvbuffer 65 ∧
      cmd.SsidWithin (cmd.next tlvbuffer) cmd.secondRoom)

end ScanCmd

namespace Scan
variable {cmd : ScanCmd} {s : Scan}

structure Right (cmd : ScanCmd) (s : Scan) : Prop where
  inOrder : cmd.InOrder tlvbuffer s.looked
  reads : ∀ place ∈ s.reads, place.1 + place.2 ≤ cmd.size.toNat
  ssid : ∀ place ∈ s.ssidWrites, place.1 + place.2 ≤ macSsidSize * scanSsidMax
  chan : ∀ i ∈ s.chanWrites, i < scanChannelMax

/-! ## One round -/

theorem tlvChanlist_fields :
    s.tlvChanlist.looked = s.looked ∧ s.tlvChanlist.reads = s.reads ∧ s.tlvChanlist.ssidWrites = s.ssidWrites ∧
      s.tlvChanlist.ieTotalLen = s.ieTotalLen ∧ s.tlvChanlist.ssidId = s.ssidId ∧
      s.tlvChanlist.chanWrites = s.chanWrites ++ List.range wifi24GChannelNum := by
  unfold tlvChanlist
  generalize List.range wifi24GChannelNum = channels
  simp only
  induction channels generalizing s with
  | nil => exact ⟨rfl, rfl, rfl, rfl, rfl, (List.append_nil _).symm⟩
  | cons i channels ih =>
    rw [List.foldl_cons]
    obtain ⟨looked, reads, ssid, rest, id, chan⟩ := @ih
      { s with
        channelId := s.channelId + 1
        req := { s.req with chan := s.req.chan.set i ⟨freq24G.getD i 0, wifi24GBand, 0⟩ }
        chanWrites := s.chanWrites ++ [i] }
    refine ⟨looked, reads, ssid, rest, id, ?_⟩
    rw [chan, List.append_assoc, List.singleton_append]

@[simp] theorem round_mrvlIe (s : Scan) :
    (s.round cmd).mrvlIe = tlvbuffer + (cmd.len s.mrvlIe).toNat + mrvlIeHdrLen := rfl

@[simp] theorem round_ieTotalLen (s : Scan) :
    (s.round cmd).ieTotalLen = s.ieTotalLen - ((cmd.len s.mrvlIe).toUInt32 + 4) := by
  unfold round
  simp only
  split
  · rfl
  · split
    · exact tlvChanlist_fields.2.2.2.1
    · rfl

@[simp] theorem round_looked (s : Scan) : (s.round cmd).looked = s.looked ++ [s.mrvlIe] := by
  unfold round
  simp only
  split
  · rfl
  · split
    · exact tlvChanlist_fields.1
    · rfl

/-- A TLV that fits is read within the frame. -/
theorem round_reads (fits : cmd.Fits s.mrvlIe) (before : ∀ place ∈ s.reads, place.1 + place.2 ≤ cmd.size.toNat) :
    ∀ place ∈ (s.round cmd).reads, place.1 + place.2 ≤ cmd.size.toNat := by
  have header : ∀ place ∈ s.reads ++ [(s.mrvlIe, mrvlIeHdrLen)], place.1 + place.2 ≤ cmd.size.toNat := by
    intro place member
    cases List.mem_append.1 member with
    | inl earlier => exact before place earlier
    | inr now =>
      rw [List.mem_singleton.1 now]
      exact (Nat.le_add_right _ _).trans fits
  unfold round
  simp only
  split
  · intro place member
    cases List.mem_append.1 member with
    | inl earlier => exact header place earlier
    | inr now =>
      rw [List.mem_singleton.1 now]
      exact fits
  · split
    · rw [tlvChanlist_fields.2.1]
      exact header
    · exact header

/-- What a round writes to `ssid[]`. -/
theorem round_ssidWrites (s : Scan) :
    (s.round cmd).ssidWrites = s.ssidWrites ++
      if cmd.type s.mrvlIe = tlvTypeSsid then [(macSsidSize * s.ssidId.toNat,
        (cmd.len s.mrvlIe).toNat + 1)] else [] := by
  unfold round
  simp only
  split
  · rfl
  · rw [List.append_nil]
    split
    · exact tlvChanlist_fields.2.2.1
    · rfl

theorem round_ssidId (s : Scan) :
    (s.round cmd).ssidId = if cmd.type s.mrvlIe = tlvTypeSsid then s.ssidId + 1 else s.ssidId := by
  unfold round
  simp only
  split
  · rfl
  · split
    · exact tlvChanlist_fields.2.2.2.2.1
    · rfl

/-- The channels always have their place. -/
theorem round_chanWrites (before : ∀ i ∈ s.chanWrites, i < scanChannelMax) :
    ∀ i ∈ (s.round cmd).chanWrites, i < scanChannelMax := by
  unfold round
  simp only
  split
  · exact before
  · split
    · rw [tlvChanlist_fields.2.2.2.2.2]
      intro i member
      cases List.mem_append.1 member with
      | inl earlier => exact before i earlier
      | inr now =>
        have small := List.mem_range.1 now
        unfold wifi24GChannelNum at small
        unfold scanChannelMax
        omega
    · exact before

theorem round_ssid_iff (s : Scan) :
    (∀ place ∈ (s.round cmd).ssidWrites, place.1 + place.2 ≤ macSsidSize * scanSsidMax) ↔
      (∀ place ∈ s.ssidWrites, place.1 + place.2 ≤ macSsidSize * scanSsidMax) ∧
        (cmd.type s.mrvlIe = tlvTypeSsid →
          macSsidSize * s.ssidId.toNat + ((cmd.len s.mrvlIe).toNat + 1) ≤ macSsidSize * scanSsidMax) := by
  rw [round_ssidWrites, List.forall_mem_append]
  split
  next ssid =>
    rw [List.forall_mem_singleton]
    exact and_congr_right fun _ => ⟨fun here _ => here, fun here => here ssid⟩
  next other =>
    refine and_congr_right fun _ => ⟨fun _ ssid => absurd ssid other, fun _ place member => ?_⟩
    cases member

/-! ## Two rounds -/

/-- The loop goes past nothing that was looked at. -/
theorem looked_front (k : Nat) (s : Scan) : s.looked <+: ((round cmd)^[k] s).looked := by
  induction k generalizing s with
  | zero => exact List.prefix_refl _
  | succ k ih =>
    rw [Function.iterate_succ_apply]
    apply List.IsPrefix.trans _ (ih (s.round cmd))
    rw [round_looked]
    exact List.prefix_append _ _

/-- The third look goes to a place in the first TLVs. -/
theorem third_wrong (k : Nat) : ¬ cmd.InOrder tlvbuffer ((round cmd)^[k + 3] (start cmd)).looked := by
  obtain ⟨rest, same⟩ := @looked_front cmd k (round cmd (round cmd (round cmd (start cmd))))
  have three : (round cmd)^[k + 3] (start cmd) = (round cmd)^[k] (round cmd (round cmd (round cmd (start cmd)))) :=
    Function.iterate_add_apply _ k 3 _
  rw [three, ← same]
  simp only [round_looked, round_mrvlIe, start, List.nil_append, List.cons_append]
  generalize second : tlvbuffer + (cmd.len tlvbuffer).toNat + mrvlIeHdrLen = later
  generalize third : tlvbuffer + (cmd.len later).toNat + mrvlIeHdrLen = there
  have here : cmd.next tlvbuffer = later := by
    rw [← second]
    exact Nat.add_right_comm _ _ _
  have apart : cmd.next later ≠ there := by
    rw [← third]
    unfold ScanCmd.next
    rw [← second]
    unfold tlvbuffer mrvlIeHdrLen
    omega
  intro inOrder
  cases inOrder with
  | fits _ inOrder =>
    rw [here] at inOrder
    cases inOrder with
    | fits _ inOrder =>
      generalize cmd.next later = wanted at apart inOrder
      cases inOrder with
      | unfit => exact apart rfl
      | fits => exact apart rfl

/-- The remaining length is used up by what the lengths add up to. -/
theorem ended_one (size first : UInt16) :
    size.toUInt32 - tlvbuffer.toUInt32 - (first.toUInt32 + 4) = 0 ↔
      size.toNat = tlvbuffer + mrvlIeHdrLen + first.toNat := by
  have small := size.toNat_lt
  have short := first.toNat_lt
  rw [← UInt32.toNat_inj]
  simp only [UInt32.toNat_sub, UInt32.toNat_add, UInt16.toNat_toUInt32, tlvbuffer, mrvlIeHdrLen,
    show UInt32.toNat 4 = 4 from rfl, show (Nat.toUInt32 15).toNat = 15 from rfl, show UInt32.toNat 0 = 0 from rfl]
  omega

theorem ended_two (size first second : UInt16) :
    size.toUInt32 - tlvbuffer.toUInt32 - (first.toUInt32 + 4) - (second.toUInt32 + 4) = 0 ↔
      size.toNat = tlvbuffer + mrvlIeHdrLen + first.toNat + mrvlIeHdrLen + second.toNat := by
  have small := size.toNat_lt
  have short := first.toNat_lt
  have brief := second.toNat_lt
  rw [← UInt32.toNat_inj]
  simp only [UInt32.toNat_sub, UInt32.toNat_add, UInt16.toNat_toUInt32, tlvbuffer, mrvlIeHdrLen,
    show UInt32.toNat 4 = 4 from rfl, show (Nat.toUInt32 15).toNat = 15 from rfl, show UInt32.toNat 0 = 0 from rfl]
  omega

theorem ended_none (size : UInt16) : size.toUInt32 - tlvbuffer.toUInt32 = 0 ↔ size.toNat = tlvbuffer := by
  have small := size.toNat_lt
  rw [← UInt32.toNat_inj]
  simp only [UInt32.toNat_sub, UInt16.toNat_toUInt32, tlvbuffer, show (Nat.toUInt32 15).toNat = 15 from rfl,
    show UInt32.toNat 0 = 0 from rfl]
  omega

theorem start_ended : (start cmd).ieTotalLen = 0 ↔ cmd.size.toNat = tlvbuffer := ended_none cmd.size

theorem first_ended : ((start cmd).round cmd).ieTotalLen = 0 ↔ cmd.size.toNat = cmd.next tlvbuffer := by
  rw [round_ieTotalLen]
  exact ended_one cmd.size (cmd.len tlvbuffer)

theorem first_mrvlIe : ((start cmd).round cmd).mrvlIe = cmd.next tlvbuffer := Nat.add_right_comm _ _ _

theorem second_ended :
    (((start cmd).round cmd).round cmd).ieTotalLen = 0 ↔ cmd.size.toNat = cmd.next (cmd.next tlvbuffer) := by
  rw [round_ieTotalLen, round_ieTotalLen, first_mrvlIe]
  exact ended_two cmd.size (cmd.len tlvbuffer) (cmd.len (cmd.next tlvbuffer))

/-- The first SSID finds 65 bytes behind its length. -/
theorem first_ssid :
    (∀ place ∈ ((start cmd).round cmd).ssidWrites, place.1 + place.2 ≤ macSsidSize * scanSsidMax) ↔
      cmd.SsidWithin tlvbuffer 65 := by
  rw [round_ssid_iff]
  constructor
  · intro inside ssid
    have room := inside.2 ssid
    exact Nat.le_of_succ_le_succ ((Nat.zero_add _).symm.trans_le room)
  · intro within
    refine ⟨fun place member => (List.not_mem_nil member).elim, fun ssid => ?_⟩
    exact (Nat.zero_add _).trans_le (Nat.succ_le_succ (within ssid))

theorem second_ssid :
    (∀ place ∈ (((start cmd).round cmd).round cmd).ssidWrites, place.1 + place.2 ≤ macSsidSize * scanSsidMax) ↔
      cmd.SsidWithin tlvbuffer 65 ∧ cmd.SsidWithin (cmd.next tlvbuffer) cmd.secondRoom := by
  rw [round_ssid_iff, first_ssid, first_mrvlIe, round_ssidId]
  refine and_congr_right fun _ => forall_congr' fun _ => ?_
  unfold ScanCmd.secondRoom
  show macSsidSize * UInt32.toNat (if cmd.type tlvbuffer = tlvTypeSsid then 0 + 1 else 0) + _ ≤ _ ↔ _
  split
  · show 33 * 1 + _ ≤ 33 * 2 ↔ _
    omega
  · show 33 * 0 + _ ≤ 33 * 2 ↔ _
    omega

/-- What comes after the loop is in bounds. -/
theorem finish_right : Right cmd s.finish ↔ Right cmd s := by
  constructor
  · intro right
    exact ⟨right.inOrder, right.reads, fun place member => right.ssid place (List.mem_append_left _ member), right.chan⟩
  · intro right
    refine ⟨right.inOrder, right.reads, ?_, right.chan⟩
    intro place member
    cases List.mem_append.1 member with
    | inl earlier => exact right.ssid place earlier
    | inr now =>
      rw [List.mem_singleton.1 now]
      decide

theorem unfit_of_filled {place : Nat} (filled : cmd.size.toNat ≤ place) : ¬ cmd.Fits place := by
  unfold ScanCmd.Fits ScanCmd.next mrvlIeHdrLen
  omega

theorem start_right (empty : cmd.size.toNat = tlvbuffer) : Right cmd (start cmd) :=
  ⟨.stopped (unfit_of_filled empty.le), fun _ member => (List.not_mem_nil member).elim,
    fun _ member => (List.not_mem_nil member).elim, fun _ member => (List.not_mem_nil member).elim⟩

theorem start_bounds :
    (∀ place ∈ (start cmd).reads, place.1 + place.2 ≤ cmd.size.toNat) ∧
    ∀ i ∈ (start cmd).chanWrites, i < scanChannelMax :=
  ⟨fun _ member => (List.not_mem_nil member).elim, fun _ member => (List.not_mem_nil member).elim⟩

theorem first_right (filled : cmd.size.toNat = cmd.next tlvbuffer) (within : cmd.SsidWithin tlvbuffer 65) :
    Right cmd ((start cmd).round cmd) := by
  have fits : cmd.Fits tlvbuffer := filled.ge
  have right := @start_bounds cmd
  refine ⟨?_, round_reads fits right.1, first_ssid.2 within, round_chanWrites right.2⟩
  rw [round_looked]
  exact .fits fits (.stopped (unfit_of_filled filled.le))

theorem second_right (filled : cmd.size.toNat = cmd.next (cmd.next tlvbuffer)) (within : cmd.SsidWithin tlvbuffer 65)
    (second : cmd.SsidWithin (cmd.next tlvbuffer) cmd.secondRoom) : Right cmd (((start cmd).round cmd).round cmd) := by
  have later : cmd.next tlvbuffer ≤ cmd.next (cmd.next tlvbuffer) :=
    (Nat.le_add_right _ _).trans (Nat.le_add_right _ _)
  have fits : cmd.Fits tlvbuffer := later.trans filled.ge
  have fitsToo : cmd.Fits ((start cmd).round cmd).mrvlIe := by
    rw [first_mrvlIe]
    exact filled.ge
  have right := @start_bounds cmd
  refine ⟨?_, round_reads fitsToo (round_reads fits right.1), second_ssid.2 ⟨within, second⟩,
    round_chanWrites (round_chanWrites right.2)⟩
  rw [round_looked, round_looked, first_mrvlIe]
  exact .fits fits (.fits filled.ge (.stopped (unfit_of_filled filled.le)))

theorem next_gt (place : Nat) : place < cmd.next place := by
  unfold ScanCmd.next mrvlIeHdrLen
  omega

/-- With a TLV in the buffer the loop is entered. -/
theorem start_on (filled : cmd.next tlvbuffer ≤ cmd.size.toNat) : (start cmd).ieTotalLen ≠ 0 := by
  intro ended
  exact absurd ((next_gt tlvbuffer).trans_le filled) (start_ended.1 ended).not_gt

theorem returned_right (rounds : Nat)
    (through : Rounds (fun s : Scan => s.ieTotalLen ≠ 0) (round cmd) (start cmd) rounds)
    (ended : ((round cmd)^[rounds] (start cmd)).ieTotalLen = 0) (right : Right cmd ((round cmd)^[rounds] (start cmd))) :
    ∃ rounds final, cmdConversion80211Scan cmd rounds = some final ∧ Right cmd final := by
  refine ⟨rounds, _, ?_, finish_right.2 right⟩
  rw [cmdConversion80211Scan, loop_of_rounds through (not_not.2 ended), Option.map_some]

/-! ## Results -/

/-- The conversion ends, looks at every TLV in turn and stays in bounds if and only if at most two TLVs fill the buffer. -/
theorem conversion_exact (cmd : ScanCmd) :
    (∃ rounds final, cmdConversion80211Scan cmd rounds = some final ∧ Right cmd final) ↔ cmd.Exact := by
  constructor
  · rintro ⟨fuel, final, returned, right⟩
    obtain ⟨last, looped, rfl⟩ := Option.map_eq_some_iff.1 returned
    rw [finish_right] at right
    obtain ⟨rounds, -, ended, rfl⟩ := loop_rounds looped
    rw [not_not] at ended
    match rounds with
    | 0 => exact .inl (start_ended.1 ended)
    | 1 => exact .inr (.inl ⟨first_ended.1 ended, first_ssid.1 right.ssid⟩)
    | 2 => exact .inr (.inr ⟨second_ended.1 ended, second_ssid.1 right.ssid⟩)
    | k + 3 => exact absurd right.inOrder (third_wrong k)
  · intro exact
    rcases exact with empty | ⟨filled, within⟩ | ⟨filled, within, second⟩
    · exact returned_right 0 (fun j early => absurd early (Nat.not_lt_zero j)) (start_ended.2 empty) (start_right empty)
    · refine returned_right 1 ?_ (first_ended.2 filled) (first_right filled within)
      intro j early
      obtain rfl := Nat.lt_one_iff.1 early
      exact start_on (filled.ge)
    · refine returned_right 2 ?_ (second_ended.2 filled) (second_right filled within second)
      have later : cmd.next tlvbuffer < cmd.next (cmd.next tlvbuffer) := next_gt _
      intro j early
      match j with
      | 0 => exact start_on (later.le.trans filled.ge)
      | 1 => exact fun ended => later.ne ((first_ended.1 ended).symm.trans filled)

/-- Three TLVs without data. -/
def threeEmpty : ScanCmd where
  size := 27
  mem := fun addr => if addr = 15 ∨ addr = 19 ∨ addr = 23 then 1 else 0

/-- The second TLV is looked at twice, and the third not at all. -/
theorem third_not_looked_at :
    ¬ ∃ rounds final, cmdConversion80211Scan threeEmpty rounds = some final ∧ Right threeEmpty final := by
  rintro ⟨rounds, final, returned, right⟩
  obtain ⟨last, looped, rfl⟩ := Option.map_eq_some_iff.1 returned
  have three : loop (fun s : Scan => s.ieTotalLen ≠ 0) (round threeEmpty) 3 (start threeEmpty) =
      some ((round threeEmpty)^[3] (start threeEmpty)) := by
    apply loop_of_rounds
    · intro j early
      revert j
      decide
    · decide
  rw [returned_unique looped three] at right
  exact third_wrong 0 right.inOrder

end Scan

end BekenSdk.SdioScan
