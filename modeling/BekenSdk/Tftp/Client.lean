import BekenSdk.Base.CData
import BekenSdk.Base.NorFlash

/-! The TFTP client of the over-the-air update (app/tftp/tftpclient.c, with
CFG_SUPPORT_OTA_TFTP), on the flash driver as it is on BK7231N. `co_crc32` comes with the
binary library and is a parameter. Addresses into `tftp_buf` count from its start; what lies
behind it is memory like any other. Messages that are printed are not modelled, nor is the
socket.
-/

set_option autoImplicit false

namespace BekenSdk.Tftp
open Base

/-! ## Data -/

/-- STATE_RRQ and the others. -/
inductive State where
  | rrq
  | data
  | tooLarge
  | badMagic
  | oack
  deriving DecidableEq

/-- SEND_PTK_HD, at the start of each block. -/
structure SendPtkHd where
  totalLen : UInt32
  seq : UInt16
  totalSeq : UInt16
  os0ExAddr : UInt32
  osHdAddr : UInt32
  os0FlashAddr : UInt32
  os1FlashAddr : UInt32
  deriving DecidableEq

/-- TFTP_PKT_HD_LEN. -/
def tftpPktHdLen : UInt32 := 24

def le16 (n : Nat) : List UInt8 := [UInt8.ofNat n, UInt8.ofNat (n / 2 ^ 8)]

namespace SendPtkHd

def bytes (hd : SendPtkHd) : List UInt8 :=
  le32 hd.totalLen.toNat ++ le16 hd.seq.toNat ++ le16 hd.totalSeq.toNat ++ le32 hd.os0ExAddr.toNat ++
    le32 hd.osHdAddr.toNat ++ le32 hd.os0FlashAddr.toNat ++ le32 hd.os1FlashAddr.toNat

/-- The header at `src`. -/
def parse (mem : Cells) (src : Nat) : SendPtkHd where
  totalLen := UInt32.ofNat (fromLe (readBytes mem src 4))
  seq := UInt16.ofNat (fromLe (readBytes mem (src + 4) 2))
  totalSeq := UInt16.ofNat (fromLe (readBytes mem (src + 6) 2))
  os0ExAddr := UInt32.ofNat (fromLe (readBytes mem (src + 8) 4))
  osHdAddr := UInt32.ofNat (fromLe (readBytes mem (src + 12) 4))
  os0FlashAddr := UInt32.ofNat (fromLe (readBytes mem (src + 16) 4))
  os1FlashAddr := UInt32.ofNat (fromLe (readBytes mem (src + 20) 4))

end SendPtkHd

/-- IMG_HEAD. -/
structure ImgHead where
  bkupAddr : UInt32
  bkupLen : UInt32
  exAddr : UInt32
  osAddr : UInt32
  hdAddr : UInt32
  crc : UInt32
  status : UInt32
  bk : UInt32
  deriving DecidableEq

def ImgHead.bytes (hd : ImgHead) : List UInt8 :=
  le32 hd.bkupAddr.toNat ++ le32 hd.bkupLen.toNat ++ le32 hd.exAddr.toNat ++ le32 hd.osAddr.toNat ++
    le32 hd.hdAddr.toNat ++ le32 hd.crc.toNat ++ le32 hd.status.toNat ++ le32 hd.bk.toNat

@[simp] theorem ImgHead.bytes_length (hd : ImgHead) : hd.bytes.length = 32 := rfl

/-- A packet sent to the server. -/
inductive Packet where
  | rrq
  | ack (block : UInt16)
  | error (code : UInt16)
  deriving DecidableEq

/-- An access outside the client's own variables. -/
inductive Op where
  /-- `count` bytes of `tftp_buf`, when the datagram in it has `avail`. -/
  | read (offset count avail : Nat)
  /-- Into the buffer of the read-back check. -/
  | readBack (count : Nat)
  | erase (addr : UInt32)
  | program (addr count : UInt32)
  deriving DecidableEq

structure Client where
  /-- From `tftp_buf` on. -/
  mem : Cells
  tftpServerPort : UInt16
  tftpBlock : UInt64
  tftpLastBlock : UInt64
  tftpBlockWrap : UInt64
  tftpBlockWrapOffset : UInt64
  tftpState : State
  tftpBlkSize : UInt16
  sendHd : SendPtkHd
  sendHdBk : SendPtkHd
  osDataAddr : UInt32
  tftpCrc : UInt32
  imgHd : ImgHead
  cells : Cells
  /-- The thread runs, and `tftp_buf` is there. -/
  running : Bool
  /-- The latest first, like the records below. -/
  sent : List Packet
  ops : List Op
  /-- The calls of store_block: its block number and its bytes. -/
  stores : List (UInt32 × List UInt8)
  /-- The image headers written. -/
  heads : List ImgHead

/-! ## The flash driver -/

def flashEraseSector (flashSize : UInt32) (cells : Cells) (address : UInt32) : Cells :=
  let eraseAddr := address &&& 0xFFF000
  if eraseAddr ≥ flashSize then cells else eraseSector 0x1000 cells eraseAddr.toNat

def flashWriteData (flashSize : UInt32) (cells : Cells) (bytes : List UInt8) (address len : UInt32) : Cells :=
  let addr := address &&& ~~~0x1F
  if addr ≥ flashSize ∨ len > flashSize ∨ addr + len > flashSize then cells else programBytes cells address.toNat bytes

/-- TFTP_SEQUENCE_SIZE. -/
def tftpSequenceSize : UInt64 := (1 : UInt64) <<< 16

/-- TFTP_LEN. -/
def tftpLen : Nat := 1600

/-! ## Options -/

/-- The characters that `isspace` accepts. -/
def isSpace (char : UInt8) : Bool := char = 32 ∨ 9 ≤ char ∧ char ≤ 13

def isDigit (char : UInt8) : Bool := 48 ≤ char ∧ char ≤ 57

/-- The first address from `start` on, in so many bytes, whose character is of another kind. -/
def skip (kind : UInt8 → Bool) (mem : Cells) : Nat → Nat → Nat
  | 0, start => start
  | left + 1, start => if kind (mem start) then skip kind mem left (start + 1) else start

/-- As far as `strtoul` can look. -/
def addressSpace : Nat := 2 ^ 32

/-- The address of the sign, of the first digit and of the character that ends the number. -/
def numberAt (mem : Cells) (start : Nat) : Nat × Nat × Nat :=
  let sign := skip isSpace mem addressSpace start
  let first := if mem sign = 45 ∨ mem sign = 43 then sign + 1 else sign
  (sign, first, skip isDigit mem addressSpace first)

/-- `os_strtoul(.., NULL, 10)`. -/
def osStrtoul (mem : Cells) (start : Nat) : UInt32 :=
  let (sign, first, stop) := numberAt mem start
  let value := (readBytes mem first (stop - first)).foldl (fun acc char => acc * 10 + (char.toNat - 48)) 0
  if value ≥ 2 ^ 32 then 0xFFFFFFFF
  else if mem sign = 45 then -UInt32.ofNat value
  else UInt32.ofNat value

/-- "blksize" with its NUL. -/
def blksizeOption : List UInt8 := [98, 108, 107, 115, 105, 122, 101, 0]

/-- The loop over the options, as many positions as are left. -/
def findBlksize (mem : Cells) (pkt : Nat) : Nat → Nat → Option Nat
  | 0, _ => none
  | left + 1, i => if readBytes mem (pkt + i) 8 = blksizeOption then some i else findBlksize mem pkt left (i + 1)

namespace Client

/-! ## store_block -/

section
variable (coCrc32 : List UInt8 → UInt32 → UInt32) (flashSize : UInt32)

def read (c : Client) (offset count avail : Nat) : Client := { c with ops := .read offset count avail :: c.ops }

/-- CMD_FLASH_ERASE_SECTOR. -/
def erase (c : Client) (address : UInt32) : Client :=
  { c with cells := flashEraseSector flashSize c.cells address, ops := .erase address :: c.ops }

def flashWrite (c : Client) (bytes : List UInt8) (count address : UInt32) : Client :=
  { c with cells := flashWriteData flashSize c.cells bytes address count, ops := .program address count :: c.ops }

/-- The header of the block; the first block says where the image goes. -/
def readHead (c : Client) (block : UInt32) (src avail : Nat) : Client :=
  let hd := SendPtkHd.parse c.mem src
  let c := c.read src tftpPktHdLen.toNat avail
  let c := { c with sendHd := hd }
  let c := if block ≠ 0 then c else { c with osDataAddr := hd.os1FlashAddr, tftpCrc := 0 }
  { c with sendHdBk := hd }

def eraseSectorStart (c : Client) : Client :=
  if c.osDataAddr % 0x1000 = 0 then c.erase flashSize c.osDataAddr else c

/-- The payload is programmed, and read back if there is memory for it. -/
def writePayload (c : Client) (src avail : Nat) (len : UInt32) (malloced : Bool) : Client :=
  let count := len - tftpPktHdLen
  let payload := src + tftpPktHdLen.toNat
  let c := c.read payload count.toNat avail
  let c := c.flashWrite flashSize (readBytes c.mem payload count.toNat) count c.osDataAddr
  if malloced then
    let c := { c with ops := .readBack count.toNat :: c.ops }
    c.read payload count.toNat avail
  else c

def writeImgHead (c : Client) (crc : UInt32) : Client :=
  let imgHd := { c.imgHd with
    bkupAddr := c.sendHd.os1FlashAddr
    bkupLen := c.sendHdBk.totalLen
    crc := crc
    exAddr := c.sendHd.os0ExAddr
    osAddr := c.sendHd.os0FlashAddr
    hdAddr := c.sendHd.osHdAddr
    status := 1 }
  let c := { c with imgHd := imgHd }
  let c := c.erase flashSize c.sendHd.osHdAddr
  let c := c.flashWrite flashSize imgHd.bytes 32 c.sendHd.osHdAddr
  { c with heads := imgHd :: c.heads }

/-- The checksum over the blocks so far. -/
def sumBlock (c : Client) (src avail : Nat) (count : UInt32) : Client :=
  { c.read src count.toNat avail with tftpCrc := coCrc32 (readBytes c.mem src count.toNat) c.tftpCrc }

def confirmCrc (c : Client) (orCrc : UInt32) : Client :=
  if c.tftpCrc = orCrc then c.writeImgHead flashSize orCrc else c

/-- The last block has the checksum in its last four bytes. -/
def checkCrc (c : Client) (src avail : Nat) (len : UInt32) : Client :=
  if c.sendHd.seq ≠ c.sendHd.totalSeq then c.sumBlock coCrc32 src avail len
  else
    let orCrc := UInt32.ofNat (fromLe (readBytes c.mem (src + len.toNat - 4) 4))
    let c := c.read (src + len.toNat - 4) 4 avail
    (c.sumBlock coCrc32 src avail (len - 4)).confirmCrc flashSize orCrc

/-- store_block from the test of the address on. -/
def storePayload (c : Client) (src avail : Nat) (len : UInt32) (malloced : Bool) : Client :=
  if c.osDataAddr ≥ 0x200000 ∨ c.osDataAddr < 0x27000 then c
  else if c.osDataAddr < 0x400000 then
    let c := c.writePayload flashSize src avail len malloced
    let c := c.checkCrc coCrc32 flashSize src avail len
    { c with osDataAddr := c.osDataAddr + (len - tftpPktHdLen) }
  else c

def storeBlock (c : Client) (block : UInt32) (src avail : Nat) (len : UInt32) (malloced : Bool) : Client :=
  let c := { c with stores := (block, readBytes c.mem src len.toNat) :: c.stores }
  let c := c.readHead block src avail
  let c := c.eraseSectorStart flashSize
  c.storePayload coCrc32 flashSize src avail len malloced

end

/-! ## Packets -/

def tftpSend (c : Client) : Client :=
  let packet := match c.tftpState with
    | .rrq => .rrq
    | .oack | .data => .ack c.tftpBlock.toUInt16
    | .tooLarge => .error 3
    | .badMagic => .error 2
  { c with sent := packet :: c.sent }

def tftpUninit (c : Client) : Client := { c with running := false }

/-- The comparisons read at most what is recorded here. -/
def handleOack (c : Client) (len : UInt32) (port : UInt16) (avail : Nat) : Client :=
  let c := { c with tftpState := .oack, tftpServerPort := port }
  let c := if len > 8 then c.read 2 (len.toNat - 1) avail else c
  let c := match findBlksize c.mem 2 (len.toNat - 8) 0 with
    | some i =>
      let number := 2 + i + 8
      let c := c.read number ((numberAt c.mem number).2.2 + 1 - number) avail
      { c with tftpBlkSize := (osStrtoul c.mem number).toUInt16 }
    | none => c
  c.tftpSend

def readBlockNumber (c : Client) (avail : Nat) : Client :=
  let c := c.read 2 2 avail
  let block : UInt64 := UInt64.ofNat ((c.mem 2).toNat * 256 + (c.mem 3).toNat)
  let c := { c with tftpBlock := block }
  if block = 0 then
    { c with
      tftpBlockWrap := c.tftpBlockWrap + 1
      tftpBlockWrapOffset := c.tftpBlockWrapOffset + c.tftpBlkSize.toUInt64 * tftpSequenceSize }
  else c

/-- The first block received; whether there is anything left to do with it. -/
def firstBlock (c : Client) (port : UInt16) : Client × Bool :=
  if c.tftpState = .rrq ∨ c.tftpState = .oack then
    let c := { c with
      tftpState := .data
      tftpServerPort := port
      tftpLastBlock := 0
      tftpBlockWrap := 0
      tftpBlockWrapOffset := 0 }
    (c, c.tftpBlock = 1)
  else (c, true)

/-- A block that is not the last one again is stored; a short one is the end. -/
def takeBlock (coCrc32 : List UInt8 → UInt32 → UInt32) (flashSize : UInt32) (c : Client) (len : UInt32) (avail : Nat)
    (malloced : Bool) : Client :=
  if c.tftpBlock = c.tftpLastBlock then c.tftpSend
  else
    let c := { c with tftpLastBlock := c.tftpBlock }
    let c := c.storeBlock coCrc32 flashSize (c.tftpBlock - 1).toUInt32 4 avail len malloced
    let c := c.tftpSend
    if len < c.tftpBlkSize.toUInt32 then c.tftpUninit else c

/-- A data packet with `len` bytes behind its block number. -/
def handleData (coCrc32 : List UInt8 → UInt32 → UInt32) (flashSize : UInt32) (c : Client) (len : UInt32) (port : UInt16)
    (avail : Nat) (malloced : Bool) : Client :=
  match (c.readBlockNumber avail).firstBlock port with
  | (c, false) => c
  | (c, true) => c.takeBlock coCrc32 flashSize len avail malloced

/-- `len` bytes are said to be in the buffer. -/
def tftpHandler (coCrc32 : List UInt8 → UInt32 → UInt32) (flashSize : UInt32) (c : Client) (len : UInt32)
    (port : UInt16)
    (avail : Nat) (malloced : Bool) : Client :=
  if c.tftpState ≠ .rrq ∧ port ≠ c.tftpServerPort then c
  else if len < 2 then c
  else
    let len := len - 2
    let c := c.read 0 2 avail
    match (c.mem 0).toNat * 256 + (c.mem 1).toNat with
    | 6 => c.handleOack len port avail
    | 3 => if len < 2 then c else c.handleData coCrc32 flashSize (len - 2) port avail malloced
    -- requests and errors are only printed
    | _ => c

/-! ## The thread -/

/-- Before the first transfer. -/
def boot (mem cells : Cells) : Client where
  mem := mem
  tftpServerPort := 0
  tftpBlock := 0
  tftpLastBlock := 0
  tftpBlockWrap := 0
  tftpBlockWrapOffset := 0
  tftpState := .rrq
  tftpBlkSize := 512
  sendHd := ⟨0, 0, 0, 0, 0, 0, 0⟩
  sendHdBk := ⟨0, 0, 0, 0, 0, 0, 0⟩
  osDataAddr := 0x8C000
  tftpCrc := 0
  imgHd := ⟨0, 0, 0, 0, 0, 0, 0, 0⟩
  cells := cells
  running := false
  sent := []
  ops := []
  stores := []
  heads := []

def tftpStart (c : Client) : Client :=
  { c with
    running := true
    tftpCrc := 0
    tftpServerPort := 69
    tftpState := .rrq
    tftpBlock := 0
    tftpBlkSize := 512 }

def tftpTimeout (c : Client) : Client := c.tftpSend

/-- recvfrom puts what fits of a datagram in the buffer. -/
def receive (coCrc32 : List UInt8 → UInt32 → UInt32) (flashSize : UInt32) (c : Client) (datagram : List UInt8)
    (port : UInt16) (malloced : Bool) : Client :=
  let bytes := datagram.take tftpLen
  let c := { c with mem := storeBytes c.mem 0 bytes }
  c.tftpHandler coCrc32 flashSize (UInt32.ofNat bytes.length) port bytes.length malloced

/-- recvfrom answers -1, which is taken for a length. -/
def receiveFails (coCrc32 : List UInt8 → UInt32 → UInt32) (flashSize : UInt32) (c : Client) (port : UInt16)
    (malloced : Bool) : Client :=
  c.tftpHandler coCrc32 flashSize (-1) port 0 malloced

end Client

end BekenSdk.Tftp
