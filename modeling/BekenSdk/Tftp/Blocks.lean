import BekenSdk.Base.FlashStream
import BekenSdk.Tftp.Client

/-! What store_block does with a block that has its header and lies in the flash range.
-/

set_option autoImplicit false

namespace BekenSdk.Tftp
open Base

variable {coCrc32 : List UInt8 → UInt32 → UInt32} {flashSize : UInt32} {c : Client} {hd : SendPtkHd} {payload : List UInt8}

/-! ## Sizes -/

theorem size_toNat {n : Nat} (bound : n ≤ tftpLen) : (UInt32.ofNat n).toNat = n :=
  UInt32.toNat_ofNat_of_lt' (Nat.lt_of_le_of_lt bound (by decide))

theorem size_sub {n m : Nat} (bound : n ≤ tftpLen) (fits : m ≤ n) :
    UInt32.ofNat n - UInt32.ofNat m = UInt32.ofNat (n - m) := by
  have size := size_toNat bound
  have small := size_toNat (Nat.le_trans fits bound)
  have less := size_toNat (Nat.le_trans (Nat.sub_le n m) bound)
  apply UInt32.toNat_inj.mp
  rw [UInt32.toNat_sub_of_le _ _ (by rw [UInt32.le_iff_toNat_le, size, small]; exact fits), size, small, less]

/-! ## Headers -/

theorem fromLe_le16 {n : Nat} (bound : n < 2 ^ 16) : fromLe (le16 n) = n := by
  simp only [le16, fromLe, UInt8.toNat_ofNat']
  omega

@[simp] theorem SendPtkHd.bytes_length (hd : SendPtkHd) : hd.bytes.length = 24 := rfl

theorem read_word {mem : Cells} {addr : Nat} {word : UInt32} (held : Holds mem addr (le32 word.toNat)) :
    UInt32.ofNat (fromLe (readBytes mem addr 4)) = word := by
  rw [held.read_of_length (le32_length _), fromLe_le32 word.toNat_lt, UInt32.ofNat_toNat]

@[simp] theorem le16_length (n : Nat) : (le16 n).length = 2 := rfl

theorem read_half {mem : Cells} {addr : Nat} {half : UInt16} (held : Holds mem addr (le16 half.toNat)) :
    UInt16.ofNat (fromLe (readBytes mem addr 2)) = half := by
  rw [held.read_of_length (le16_length _), fromLe_le16 half.toNat_lt, UInt16.ofNat_toNat]

theorem parse_bytes {mem : Cells} {src : Nat} (held : Holds mem src hd.bytes) : SendPtkHd.parse mem src = hd := by
  unfold SendPtkHd.bytes at held
  simp only [holds_append, List.length_append, le32_length, le16_length] at held
  obtain ⟨⟨⟨⟨⟨⟨totalLen, seq⟩, totalSeq⟩, os0Ex⟩, osHd⟩, os0⟩, os1⟩ := held
  unfold SendPtkHd.parse
  rw [read_word totalLen, read_half seq, read_half totalSeq, read_word os0Ex, read_word osHd, read_word os0,
    read_word os1]

/-- Where a block goes. -/
def storeAddr (c : Client) (block : UInt32) (src : Nat) : UInt32 :=
  if block ≠ 0 then c.osDataAddr else (SendPtkHd.parse c.mem src).os1FlashAddr

theorem readHead_eq (c : Client) (block : UInt32) (src avail : Nat) :
    c.readHead block src avail =
      { c.read src 24 avail with
        sendHd := SendPtkHd.parse c.mem src
        sendHdBk := SendPtkHd.parse c.mem src
        osDataAddr := storeAddr c block src
        tftpCrc := if block ≠ 0 then c.tftpCrc else 0 } := by
  unfold Client.readHead storeAddr
  dsimp only
  split <;> rfl

/-! ## Block numbers -/

/-- The block number of the packet in the buffer. -/
def blockNumber (c : Client) : UInt64 := UInt64.ofNat ((c.mem 2).toNat * 256 + (c.mem 3).toNat)

/-- The client with another block number, another buffer and more accesses. -/
def atBlock (c : Client) (mem : Cells) (state : State) (port : UInt16) (block last wrap offset : UInt64)
    (ops : List Op) :
    Client :=
  { c with
    mem := mem
    tftpState := state
    tftpServerPort := port
    tftpBlock := block
    tftpLastBlock := last
    tftpBlockWrap := wrap
    tftpBlockWrapOffset := offset
    ops := ops }

theorem readBlockNumber_eq (c : Client) (avail : Nat) :
    ∃ wrap offset, c.readBlockNumber avail =
      atBlock c c.mem c.tftpState c.tftpServerPort (blockNumber c) c.tftpLastBlock wrap offset (.read 2 2 avail :: c.ops) := by
  unfold Client.readBlockNumber
  dsimp only
  split <;> exact ⟨_, _, rfl⟩

theorem firstBlock_later (started : ¬(c.tftpState = .rrq ∨ c.tftpState = .oack)) (port : UInt16) :
    c.firstBlock port = (c, true) := if_neg started

theorem firstBlock_first (starts : c.tftpState = .rrq ∨ c.tftpState = .oack) (first : c.tftpBlock = 1) (port : UInt16) :
    c.firstBlock port = (atBlock c c.mem .data port 1 0 0 0 c.ops, true) := by
  unfold Client.firstBlock
  rw [if_pos starts]
  dsimp only
  rw [decide_eq_true first, first]
  rfl

theorem takeBlock_again (again : c.tftpBlock = c.tftpLastBlock) (len : UInt32) (avail : Nat) (malloced : Bool) :
    c.takeBlock coCrc32 flashSize len avail malloced = c.tftpSend := if_pos again

theorem takeBlock_other (other : c.tftpBlock ≠ c.tftpLastBlock) (len : UInt32) (avail : Nat) (malloced : Bool) :
    c.takeBlock coCrc32 flashSize len avail malloced =
      let e := ({ c with tftpLastBlock := c.tftpBlock }.storeBlock coCrc32 flashSize (c.tftpBlock - 1).toUInt32 4 avail len
        malloced).tftpSend
      if len < e.tftpBlkSize.toUInt32 then e.tftpUninit else e := if_neg other

/-! ## Flash -/

/-- The mask of the driver leaves the start of the sector. -/
theorem and_sector {a : Nat} (small : a < 2 ^ 24) : a &&& 0xFFF000 = a / 0x1000 * 0x1000 := by
  have high : (a &&& 0xFFF000) / 2 ^ 12 = a / 2 ^ 12 := by
    rw [Nat.and_div_two_pow]
    have mask : 0xFFF000 / 2 ^ 12 = 2 ^ 12 - 1 := rfl
    rw [mask, Nat.and_two_pow_sub_one_eq_mod]
    omega
  have low : (a &&& 0xFFF000) % 2 ^ 12 = 0 := by
    rw [Nat.and_mod_two_pow]
    exact Nat.and_zero _
  omega

theorem eraseSector_eq (cells : Cells) {address : UInt32} (big : 0x200000 ≤ flashSize.toNat)
    (inside : address.toNat < 0x200000) :
    flashEraseSector flashSize cells address = eraseSector 0x1000 cells address.toNat := by
  have start : (address &&& 0xFFF000).toNat = address.toNat / 0x1000 * 0x1000 := by
    rw [UInt32.toNat_and]
    exact and_sector (by omega)
  have fits : ¬(address &&& 0xFFF000) ≥ flashSize := by
    rw [ge_iff_le, UInt32.le_iff_toNat_le, start]
    omega
  unfold flashEraseSector
  rw [if_neg fits, start]
  funext a
  have same : address.toNat / 0x1000 * 0x1000 / 0x1000 = address.toNat / 0x1000 := by omega
  rw [eraseSector, eraseSector, same]

theorem writeData_eq (cells : Cells) (bytes : List UInt8) {address len : UInt32} (big : 0x200000 ≤ flashSize.toNat)
    (inside : address.toNat + len.toNat ≤ 0x200000) (start : address.toNat < 0x200000) :
    flashWriteData flashSize cells bytes address len = programBytes cells address.toNat bytes := by
  have lower : (address &&& ~~~0x1F).toNat ≤ address.toNat := by
    rw [UInt32.toNat_and]
    exact Nat.and_le_left
  have sum : ((address &&& ~~~0x1F) + len).toNat = (address &&& ~~~0x1F).toNat + len.toNat := by
    rw [UInt32.toNat_add]
    omega
  unfold flashWriteData
  apply if_neg
  simp only [ge_iff_le, gt_iff_lt, UInt32.le_iff_toNat_le, UInt32.lt_iff_toNat_lt, sum]
  omega

/-! ## What a block leaves alone -/

/-- The state of the protocol is the same. -/
structure SameProtocol (c d : Client) : Prop where
  mem : d.mem = c.mem
  port : d.tftpServerPort = c.tftpServerPort
  block : d.tftpBlock = c.tftpBlock
  last : d.tftpLastBlock = c.tftpLastBlock
  state : d.tftpState = c.tftpState
  blkSize : d.tftpBlkSize = c.tftpBlkSize
  running : d.running = c.running
  sent : d.sent = c.sent

namespace SameProtocol

theorem refl (c : Client) : SameProtocol c c := ⟨rfl, rfl, rfl, rfl, rfl, rfl, rfl, rfl⟩

theorem trans {d e : Client} (first : SameProtocol c d) (second : SameProtocol d e) : SameProtocol c e :=
  ⟨second.mem.trans first.mem, second.port.trans first.port, second.block.trans first.block,
    second.last.trans first.last,
    second.state.trans first.state, second.blkSize.trans first.blkSize, second.running.trans first.running,
    second.sent.trans first.sent⟩

end SameProtocol

theorem readHead_same (c : Client) (block : UInt32) (src avail : Nat) :
    SameProtocol c (c.readHead block src avail) := by
  unfold Client.readHead
  dsimp only
  split <;> exact ⟨rfl, rfl, rfl, rfl, rfl, rfl, rfl, rfl⟩

theorem eraseSectorStart_same (c : Client) : SameProtocol c (c.eraseSectorStart flashSize) := by
  unfold Client.eraseSectorStart
  split <;> exact ⟨rfl, rfl, rfl, rfl, rfl, rfl, rfl, rfl⟩

theorem writePayload_same (c : Client) (src avail : Nat) (len : UInt32) (malloced : Bool) :
    SameProtocol c (c.writePayload flashSize src avail len malloced) := by
  cases malloced <;> exact ⟨rfl, rfl, rfl, rfl, rfl, rfl, rfl, rfl⟩

theorem writeImgHead_same (c : Client) (crc : UInt32) : SameProtocol c (c.writeImgHead flashSize crc) :=
  ⟨rfl, rfl, rfl, rfl, rfl, rfl, rfl, rfl⟩

theorem sumBlock_same (c : Client) (src avail : Nat) (count : UInt32) :
    SameProtocol c (c.sumBlock coCrc32 src avail count) :=
  ⟨rfl, rfl, rfl, rfl, rfl, rfl, rfl, rfl⟩

theorem confirmCrc_same (c : Client) (crc : UInt32) : SameProtocol c (c.confirmCrc flashSize crc) := by
  unfold Client.confirmCrc
  split
  · exact writeImgHead_same c crc
  · exact .refl c

theorem checkCrc_same (c : Client) (src avail : Nat) (len : UInt32) :
    SameProtocol c (c.checkCrc coCrc32 flashSize src avail len) := by
  unfold Client.checkCrc
  split
  · exact sumBlock_same c src avail len
  · have read : SameProtocol c (c.read (src + len.toNat - 4) 4 avail) := ⟨rfl, rfl, rfl, rfl, rfl, rfl, rfl, rfl⟩
    exact (read.trans (sumBlock_same _ _ _ _)).trans (confirmCrc_same _ _)

theorem storePayload_same (c : Client) (src avail : Nat) (len : UInt32) (malloced : Bool) :
    SameProtocol c (c.storePayload coCrc32 flashSize src avail len malloced) := by
  unfold Client.storePayload
  split
  · exact .refl c
  · split
    · have both := (@writePayload_same flashSize c src avail len malloced).trans
        (@checkCrc_same coCrc32 flashSize _ src avail len)
      dsimp only
      generalize Client.checkCrc _ _ _ _ _ _ = d at both ⊢
      exact ⟨both.mem, both.port, both.block, both.last, both.state, both.blkSize, both.running, both.sent⟩
    · exact .refl c

theorem storeBlock_same (c : Client) (block : UInt32) (src avail : Nat) (len : UInt32) (malloced : Bool) :
    SameProtocol c (c.storeBlock coCrc32 flashSize block src avail len malloced) := by
  have recorded : SameProtocol c { c with stores := (block, readBytes c.mem src len.toNat) :: c.stores } :=
    ⟨rfl, rfl, rfl, rfl, rfl, rfl, rfl, rfl⟩
  have headed := recorded.trans (readHead_same _ block src avail)
  have erased := headed.trans (@eraseSectorStart_same flashSize _)
  exact erased.trans (@storePayload_same coCrc32 flashSize _ src avail len malloced)

/-! ## What it stores -/

/-- The image header for the header of the last block. -/
def imgHead (hd : SendPtkHd) (crc bk : UInt32) : ImgHead where
  bkupAddr := hd.os1FlashAddr
  bkupLen := hd.totalLen
  exAddr := hd.os0ExAddr
  osAddr := hd.os0FlashAddr
  hdAddr := hd.osHdAddr
  crc := crc
  status := 1
  bk := bk

/-- A block in the buffer, and the address that it goes to. -/
structure Block (c : Client) (block : UInt32) (hd : SendPtkHd) (payload : List UInt8) (addr len : UInt32) : Prop where
  held : Holds c.mem 4 (hd.bytes ++ payload)
  size : len.toNat = 24 + payload.length
  place : (if block ≠ 0 then c.osDataAddr else hd.os1FlashAddr) = addr
  low : 0x27000 ≤ addr.toNat
  start : addr.toNat < 0x200000
  fits : addr.toNat + payload.length ≤ 0x200000

/-- The client when the payload has been written but not yet checked. -/
structure Written (c : Client) (block : UInt32) (hd : SendPtkHd) (payload : List UInt8) (addr : UInt32) (d : Client) :
    Prop where
  mem : d.mem = c.mem
  sendHd : d.sendHd = hd
  sendHdBk : d.sendHdBk = hd
  place : d.osDataAddr = addr
  crc : d.tftpCrc = if block ≠ 0 then c.tftpCrc else 0
  imgHd : d.imgHd = c.imgHd
  heads : d.heads = c.heads
  cells : d.cells = putPiece 0x1000 c.cells addr.toNat payload
  stores : d.stores = (block, hd.bytes ++ payload) :: c.stores

theorem eraseSectorStart_cells (big : 0x200000 ≤ flashSize.toNat) (inside : c.osDataAddr.toNat < 0x200000) :
    ∃ ops, c.eraseSectorStart flashSize =
      { c with
        cells := erasedAt 0x1000 c.cells c.osDataAddr.toNat
        ops := ops } := by
  have aligned : c.osDataAddr % 0x1000 = 0 ↔ c.osDataAddr.toNat % 0x1000 = 0 := by
    rw [← UInt32.toNat_inj, UInt32.toNat_mod]
    rfl
  unfold Client.eraseSectorStart erasedAt
  by_cases start : c.osDataAddr.toNat % 0x1000 = 0
  · rw [if_pos (aligned.mpr start), if_pos start, Client.erase, eraseSector_eq _ big inside]
    exact ⟨_, rfl⟩
  · rw [if_neg (fun same => start (aligned.mp same)), if_neg start]
    exact ⟨_, rfl⟩

theorem writePayload_cells {len : UInt32} {malloced : Bool} {avail : Nat} (big : 0x200000 ≤ flashSize.toNat)
    (held : Holds c.mem 28 payload) (size : len.toNat = 24 + payload.length) (start : c.osDataAddr.toNat < 0x200000)
    (fits : c.osDataAddr.toNat + payload.length ≤ 0x200000) :
    ∃ ops, c.writePayload flashSize 4 avail len malloced =
      { c with cells := programBytes c.cells c.osDataAddr.toNat payload, ops := ops } := by
  have count : (len - 24).toNat = payload.length := by
    rw [UInt32.toNat_sub_of_le _ _ (UInt32.le_iff_toNat_le.mpr (size ▸ Nat.le_add_right 24 _))]
    have head : (24 : UInt32).toNat = 24 := rfl
    omega
  have bytes : readBytes c.mem 28 (len - 24).toNat = payload := held.read_of_length count.symm
  have written : flashWriteData flashSize c.cells (readBytes c.mem 28 (len - 24).toNat) c.osDataAddr (len - 24) =
      programBytes c.cells c.osDataAddr.toNat payload := by
    rw [bytes]
    exact writeData_eq _ _ big (count.symm ▸ fits) start
  rw [← written]
  cases malloced <;> exact ⟨_, rfl⟩

/-- The client when the checksum has been taken, with its cursor behind the payload. -/
def checked (coCrc32 : List UInt8 → UInt32 → UInt32) (flashSize : UInt32) (d : Client) (avail : Nat) (len : UInt32) :
    Client :=
  { d.checkCrc coCrc32 flashSize 4 avail len with
    osDataAddr := (d.checkCrc coCrc32 flashSize 4 avail len).osDataAddr + (len - 24) }

theorem storePayload_eq {len : UInt32} {malloced : Bool} {avail : Nat} (big : 0x200000 ≤ flashSize.toNat)
    (held : Holds c.mem 28 payload) (size : len.toNat = 24 + payload.length) (low : 0x27000 ≤ c.osDataAddr.toNat)
    (start : c.osDataAddr.toNat < 0x200000) (fits : c.osDataAddr.toNat + payload.length ≤ 0x200000) :
    ∃ ops, c.storePayload coCrc32 flashSize 4 avail len malloced =
      checked coCrc32 flashSize
        { c with cells := programBytes c.cells c.osDataAddr.toNat payload, ops := ops } avail len := by
  have inRange : ¬(c.osDataAddr ≥ 0x200000 ∨ c.osDataAddr < 0x27000) := by
    rw [ge_iff_le, UInt32.le_iff_toNat_le, UInt32.lt_iff_toNat_lt]
    have bounds : (0x200000 : UInt32).toNat = 0x200000 ∧ (0x27000 : UInt32).toNat = 0x27000 := ⟨rfl, rfl⟩
    omega
  have reached : c.osDataAddr < 0x400000 :=
    UInt32.lt_trans (UInt32.not_le.mp (not_or.mp inRange).1) (by decide)
  obtain ⟨ops, written⟩ := @writePayload_cells flashSize c payload len malloced avail big held size start fits
  unfold Client.storePayload
  rw [if_neg inRange, if_pos reached, written]
  exact ⟨ops, rfl⟩

theorem storeBlock_written {block addr len : UInt32} {malloced : Bool} {avail : Nat} (big : 0x200000 ≤ flashSize.toNat)
    (here : Block c block hd payload addr len) :
    ∃ d : Client, Written c block hd payload addr d ∧
      c.storeBlock coCrc32 flashSize block 4 avail len malloced = checked coCrc32 flashSize d avail len := by
  obtain ⟨headHeld, payloadHeld⟩ := (holds_append _ _ _ _).mp here.held
  have whole : readBytes c.mem 4 len.toNat = hd.bytes ++ payload :=
    here.held.read_of_length (by rw [here.size, List.length_append, SendPtkHd.bytes_length])
  have parsed : SendPtkHd.parse c.mem 4 = hd := parse_bytes headHeld
  have headed := readHead_eq { c with stores := (block, hd.bytes ++ payload) :: c.stores } block 4 avail
  have place : storeAddr { c with stores := (block, hd.bytes ++ payload) :: c.stores } block 4 = addr := by
    rw [storeAddr, parsed]
    exact here.place
  rw [place, parsed] at headed
  unfold Client.storeBlock
  dsimp only
  rw [whole, headed]
  generalize start : ({ Client.read { c with stores := (block, hd.bytes ++ payload) :: c.stores } 4 24 avail with
    sendHd := hd, sendHdBk := hd, osDataAddr := addr, tftpCrc := if block ≠ 0 then c.tftpCrc else 0 } : Client) = a
  have addrA : a.osDataAddr = addr := by rw [← start]
  have memA : a.mem = c.mem := by
    rw [← start]
    rfl
  obtain ⟨erases, erased⟩ := @eraseSectorStart_cells flashSize a big (addrA.symm ▸ here.start)
  rw [erased]
  obtain ⟨ops, stored⟩ := @storePayload_eq coCrc32 flashSize { a with
    cells := erasedAt 0x1000 a.cells a.osDataAddr.toNat
    ops := erases } payload len malloced avail big (memA.symm ▸ payloadHeld) here.size
      (addrA.symm ▸ here.low) (addrA.symm ▸ here.start) (addrA.symm ▸ here.fits)
  refine ⟨_, ?_, stored⟩
  subst start
  exact ⟨rfl, rfl, rfl, rfl, rfl, rfl, rfl, rfl, rfl⟩

/-- The checksum that a block says it ends with. -/
def trailingCrc (bytes : List UInt8) : UInt32 := UInt32.ofNat (fromLe (bytes.drop (bytes.length - 4)))

/-- What the checksum is taken over in the last block. -/
def summed (bytes : List UInt8) : List UInt8 := bytes.take (bytes.length - 4)

theorem read_summed {mem : Cells} {bytes : List UInt8} (held : Holds mem 4 bytes) (long : 4 ≤ bytes.length) :
    readBytes mem 4 (bytes.length - 4) = summed bytes ∧
      UInt32.ofNat (fromLe (readBytes mem (4 + bytes.length - 4) 4)) = trailingCrc bytes := by
  have parts := held
  rw [← List.take_append_drop (bytes.length - 4) bytes, holds_append] at parts
  obtain ⟨front, back⟩ := parts
  have lengthFront : (bytes.take (bytes.length - 4)).length = bytes.length - 4 :=
    List.length_take_of_le (Nat.sub_le _ _)
  have lengthBack : (bytes.drop (bytes.length - 4)).length = 4 := by
    rw [List.length_drop]
    omega
  have place : 4 + (bytes.length - 4) = 4 + bytes.length - 4 := by omega
  rw [lengthFront, place] at back
  rw [front.read_of_length lengthFront, back.read_of_length lengthBack]
  exact ⟨rfl, rfl⟩

variable {block addr len : UInt32} {malloced : Bool} {avail : Nat}

theorem confirmCrc_kept (d : Client) (crc : UInt32) :
    (d.confirmCrc flashSize crc).osDataAddr = d.osDataAddr ∧ (d.confirmCrc flashSize crc).stores = d.stores := by
  unfold Client.confirmCrc
  split <;> exact ⟨rfl, rfl⟩

theorem writeImgHead_spec (d : Client) (crc : UInt32) (big : 0x200000 ≤ flashSize.toNat)
    (backup : d.sendHdBk = d.sendHd)
    (head : d.sendHd.osHdAddr.toNat + 32 ≤ 0x200000) :
    let written := imgHead d.sendHd crc d.imgHd.bk
    (d.writeImgHead flashSize crc).cells =
        programBytes (eraseSector 0x1000 d.cells d.sendHd.osHdAddr.toNat) d.sendHd.osHdAddr.toNat written.bytes ∧
      (d.writeImgHead flashSize crc).heads = written :: d.heads := by
  have below : d.sendHd.osHdAddr.toNat < 0x200000 := by omega
  have same : { d.imgHd with
      bkupAddr := d.sendHd.os1FlashAddr
      bkupLen := d.sendHdBk.totalLen
      crc := crc
      exAddr := d.sendHd.os0ExAddr
      osAddr := d.sendHd.os0FlashAddr
      hdAddr := d.sendHd.osHdAddr
      status := 1 } = imgHead d.sendHd crc d.imgHd.bk := by
    rw [backup]
    rfl
  unfold Client.writeImgHead
  rw [same]
  constructor
  · calc flashWriteData flashSize (flashEraseSector flashSize d.cells d.sendHd.osHdAddr)
          (imgHead d.sendHd crc d.imgHd.bk).bytes d.sendHd.osHdAddr 32
      _ = programBytes (flashEraseSector flashSize d.cells d.sendHd.osHdAddr) d.sendHd.osHdAddr.toNat
          (imgHead d.sendHd crc d.imgHd.bk).bytes := writeData_eq _ _ big head below
      _ = _ := by rw [eraseSector_eq _ big below]
  · rfl

theorem checkCrc_kept (d : Client) :
    (d.checkCrc coCrc32 flashSize 4 avail len).osDataAddr = d.osDataAddr ∧
      (d.checkCrc coCrc32 flashSize 4 avail len).stores = d.stores := by
  unfold Client.checkCrc
  split
  · exact ⟨rfl, rfl⟩
  · exact confirmCrc_kept _ _

/-- What every block leaves behind. -/
theorem storeBlock_stores (big : 0x200000 ≤ flashSize.toNat) (here : Block c block hd payload addr len) :
    (c.storeBlock coCrc32 flashSize block 4 avail len malloced).stores = (block, hd.bytes ++ payload) :: c.stores ∧
      (c.storeBlock coCrc32 flashSize block 4 avail len malloced).osDataAddr = addr + (len - 24) := by
  obtain ⟨d, written, stored⟩ := @storeBlock_written coCrc32 flashSize c hd payload block addr len malloced avail big here
  obtain ⟨kept, stores⟩ := @checkCrc_kept coCrc32 flashSize len avail d
  rw [stored]
  constructor
  · exact stores.trans written.stores
  · rw [checked, kept, written.place]

/-- A block that is not the last. -/
theorem storeBlock_more (big : 0x200000 ≤ flashSize.toNat) (here : Block c block hd payload addr len)
    (more : hd.seq ≠ hd.totalSeq) :
    let e := c.storeBlock coCrc32 flashSize block 4 avail len malloced
    e.cells = putPiece 0x1000 c.cells addr.toNat payload ∧ e.heads = c.heads ∧ e.imgHd = c.imgHd ∧
      e.tftpCrc = coCrc32 (hd.bytes ++ payload) (if block ≠ 0 then c.tftpCrc else 0) := by
  obtain ⟨d, written, stored⟩ := @storeBlock_written coCrc32 flashSize c hd payload block addr len malloced avail big here
  have whole : readBytes d.mem 4 len.toNat = hd.bytes ++ payload := by
    rw [written.mem]
    exact here.held.read_of_length (by rw [here.size, List.length_append, SendPtkHd.bytes_length])
  have other : d.sendHd.seq ≠ d.sendHd.totalSeq := written.sendHd.symm ▸ more
  dsimp only
  rw [stored, checked, Client.checkCrc, if_pos other, Client.sumBlock, whole, written.crc]
  exact ⟨written.cells, written.heads, written.imgHd, rfl⟩

/-- The last block, with the checksum right: the image header is written. -/
theorem storeBlock_last (big : 0x200000 ≤ flashSize.toNat) (here : Block c block hd payload addr len)
    (last : hd.seq = hd.totalSeq) (long : 4 ≤ payload.length) (head : hd.osHdAddr.toNat + 32 ≤ 0x200000)
    (right : coCrc32 (summed (hd.bytes ++ payload)) (if block ≠ 0 then c.tftpCrc else 0) = trailingCrc (hd.bytes ++ payload)) :
    let e := c.storeBlock coCrc32 flashSize block 4 avail len malloced
    let written := imgHead hd (trailingCrc (hd.bytes ++ payload)) c.imgHd.bk
    e.cells = programBytes (eraseSector 0x1000 (putPiece 0x1000 c.cells addr.toNat payload) hd.osHdAddr.toNat)
        hd.osHdAddr.toNat written.bytes ∧
      e.heads = written :: c.heads := by
  obtain ⟨d, written, stored⟩ := @storeBlock_written coCrc32 flashSize c hd payload block addr len malloced avail big here
  have length : (hd.bytes ++ payload).length = len.toNat := by
    rw [here.size, List.length_append, SendPtkHd.bytes_length]
  have size := here.size
  have shorter : (len - 4).toNat = len.toNat - 4 :=
    UInt32.toNat_sub_of_le _ _ (UInt32.le_iff_toNat_le.mpr (by have four : (4 : UInt32).toNat = 4 := rfl; omega))
  obtain ⟨front, back⟩ := read_summed here.held (by omega)
  rw [length] at front back
  have ended : ¬d.sendHd.seq ≠ d.sendHd.totalSeq := not_not.mpr (written.sendHd.symm ▸ last)
  dsimp only
  rw [stored, checked, Client.checkCrc, if_neg ended]
  dsimp only
  rw [written.mem, back]
  generalize summedUp : Client.sumBlock coCrc32 _ 4 avail (len - 4) = e
  have crc : e.tftpCrc = trailingCrc (hd.bytes ++ payload) := by
    rw [← summedUp, ← right, ← front, ← shorter, ← written.crc, ← written.mem]
    rfl
  have sendHd : e.sendHd = hd := by
    rw [← summedUp, ← written.sendHd]
    rfl
  have sendHdBk : e.sendHdBk = hd := by
    rw [← summedUp, ← written.sendHdBk]
    rfl
  have bk : e.imgHd.bk = c.imgHd.bk := by
    rw [← summedUp, ← written.imgHd]
    rfl
  have cells : e.cells = putPiece 0x1000 c.cells addr.toNat payload := by
    rw [← summedUp, ← written.cells]
    rfl
  have heads : e.heads = c.heads := by
    rw [← summedUp, ← written.heads]
    rfl
  rw [Client.confirmCrc, if_pos crc]
  obtain ⟨headCells, headHeads⟩ :=
    writeImgHead_spec e (trailingCrc (hd.bytes ++ payload)) big (sendHdBk.trans sendHd.symm) (sendHd.symm ▸ head)
  rw [sendHd, bk, cells] at headCells
  rw [sendHd, bk, heads] at headHeads
  exact ⟨headCells, headHeads⟩

end BekenSdk.Tftp
