import BekenSdk.Base.NorFlash
import Mathlib.Data.UInt

/-! A NOR flash behind the SPI master (spi_flash.c). The device takes commands with three bytes of address; while it is busy it only
answers for its status. Programming goes round within the page of 256 bytes that is addressed, and an erase clears the unit of its
size around the address.
-/

set_option autoImplicit false

namespace BekenSdk.SpiFlash
open Base

/-! ## The device -/

/-- `busy` is how many reads of the status still find it busy. `programmed` has the bytes that were programmed, and `erased` the
units that were erased with their sizes, in order. -/
structure Device where
  cells : Cells
  writeEnabled : Bool
  busy : Nat
  programmed : List (Nat × UInt8)
  erased : List (Nat × Nat)

def cmdReadStatusS70 : UInt8 := 0x05

def cmdWriteEnable : UInt8 := 0x06

def cmdReadData : UInt8 := 0x03

def cmdPageProg : UInt8 := 0x02

def cmdEraseSector : UInt8 := 0x20

def cmdEraseBlk32K : UInt8 := 0x52

def cmdEraseBlk64K : UInt8 := 0xD8

def cmdEraseAll : UInt8 := 0xC7

def flashStatusWipBit : UInt8 := 0x01

def flashPhyPageSize : Nat := 256

/-- The bytes that three bytes of address tell apart. -/
def deviceSize : Nat := 2 ^ 24

def commandAddr (high middle low : UInt8) : Nat := 65536 * high.toNat + 256 * middle.toNat + low.toNat

/-- The bytes of one programming, each with its address. -/
def pageEntries (addr : Nat) (data : List UInt8) : List (Nat × UInt8) :=
  (List.range data.length).map fun k =>
    (addr - addr % flashPhyPageSize + (addr % flashPhyPageSize + k) % flashPhyPageSize, data.getD k 0)

def programEntry (cells : Cells) (entry : Nat × UInt8) : Cells :=
  Function.update cells entry.1 (cells entry.1 &&& entry.2)

namespace Device

def program (addr : Nat) (data : List UInt8) (device : Device) : Device :=
  { device with
    cells := (pageEntries addr data).foldl programEntry device.cells
    programmed := device.programmed ++ pageEntries addr data }

def erase (size addr : Nat) (device : Device) : Device :=
  { device with
    cells := eraseSector size device.cells addr
    erased := device.erased ++ [(addr - addr % size, size)] }

/-- A reading goes on at address 0 behind the last one. -/
def read (addr len : Nat) (device : Device) : List UInt8 :=
  (List.range len).map fun k => device.cells ((addr + k) % deviceSize)

/-- A change of the contents takes time, and must be enabled each time. -/
def change (duration : Nat) (changed : Device → Device) (device : Device) : Device :=
  if device.writeEnabled then { changed device with writeEnabled := false, busy := duration } else device

/-- What is sent and how much is received; `duration` is how long a command takes. -/
def xfer (duration : List UInt8 → Nat) (sent : List UInt8) (recvLen : Nat) (device : Device) : List UInt8 × Device :=
  match sent with
  | [] => (List.replicate recvLen 0xFF, device)
  | cmd :: rest =>
    if cmd = cmdReadStatusS70 then
      (List.replicate recvLen (if device.busy = 0 then 0 else flashStatusWipBit), { device with busy := device.busy - 1 })
    else if device.busy ≠ 0 then (List.replicate recvLen 0xFF, device)
    else if cmd = cmdWriteEnable then (List.replicate recvLen 0xFF, { device with writeEnabled := true })
    else if cmd = cmdEraseAll then
      (List.replicate recvLen 0xFF, device.change (duration sent) (erase deviceSize 0))
    else
      match rest with
      | high :: middle :: low :: data =>
        let addr := commandAddr high middle low
        if cmd = cmdReadData then (device.read addr recvLen, device)
        else
          (List.replicate recvLen 0xFF,
            if cmd = cmdPageProg then device.change (duration sent) (program addr data)
            else if cmd = cmdEraseSector then device.change (duration sent) (erase 4096 addr)
            else if cmd = cmdEraseBlk32K then device.change (duration sent) (erase 32768 addr)
            else if cmd = cmdEraseBlk64K then device.change (duration sent) (erase 65536 addr)
            else device)
      | _ => (List.replicate recvLen 0xFF, device)

end Device

/-! ## The driver -/

inductive EraseMode where
  | all
  | block64K
  | block32K
  | sector

section
variable (duration : List UInt8 → Nat)

def addrBytes (addr : UInt32) : List UInt8 := [(addr >>> 16).toUInt8, (addr >>> 8).toUInt8, addr.toUInt8]

def spiFlashIsBusy (device : Device) : Bool × Device :=
  let received := device.xfer duration [cmdReadStatusS70] 1
  (received.1.headD 0 &&& flashStatusWipBit ≠ 0, received.2)

/-- `while(spi_flash_is_busy())`, at most that often. -/
def waitRounds : Nat → Device → Device
  | 0, device => device
  | rounds + 1, device =>
    let asked := spiFlashIsBusy duration device
    if asked.1 then waitRounds rounds asked.2 else asked.2

def waitReady (device : Device) : Device := waitRounds duration (device.busy + 1) device

def spiFlashSendCommand (cmd : UInt8) (device : Device) : Device := (device.xfer duration [cmd] 0).2

/-- A command that changes the contents: the device is waited for, enabled and waited for again. -/
def sendEnabled (ucmd : List UInt8) (device : Device) : Device :=
  ((waitReady duration (spiFlashSendCommand duration cmdWriteEnable (waitReady duration device))).xfer duration ucmd 0).2

def spiFlashEarse (addr : UInt32) (mode : EraseMode) (device : Device) : Device :=
  match mode with
  | .all => sendEnabled duration [cmdEraseAll] device
  | .block64K => sendEnabled duration (cmdEraseBlk64K :: addrBytes addr) device
  | .block32K => sendEnabled duration (cmdEraseBlk32K :: addrBytes addr) device
  | .sector => sendEnabled duration (cmdEraseSector :: addrBytes addr) device

/-- The result, what was read, and the device. -/
def spiFlashReadPage (addr : UInt32) (size : Nat) (device : Device) : UInt32 × List UInt8 × Device :=
  if flashPhyPageSize < size then (1, [], device)
  else if size = 0 then (0, [], device)
  else
    let received := (waitReady duration device).xfer duration (cmdReadData :: addrBytes addr) size
    (0, received)

/-- `memory` tells whether there is any for the command. -/
def spiFlashProgramPage (memory : Bool) (addr : UInt32) (src : List UInt8) (device : Device) : UInt32 × Device :=
  if flashPhyPageSize < src.length then (1, device)
  else if src.length = 0 then (0, device)
  else if memory = false then (1, device)
  else (0, sendEnabled duration (cmdPageProg :: addrBytes addr ++ src) device)

/-- What is done at once. -/
def pieceSize (left : Nat) : Nat := if flashPhyPageSize ≤ left then flashPhyPageSize else left

theorem pieceSize_pos {left : Nat} (more : 0 < left) : 0 < pieceSize left := by
  unfold pieceSize
  split
  · decide
  · exact more

theorem pieceSize_le (left : Nat) : pieceSize left ≤ left := by
  unfold pieceSize
  split
  case isTrue whole => exact whole
  case isFalse => exact Nat.le_refl _

/-- The loop of `spi_flash_read`; `left` is `size - i`. -/
def readLoop (left : Nat) (addr : UInt32) (device : Device) : UInt32 × List UInt8 × Device :=
  if more : 0 < left then
    let dsize := pieceSize left
    let page := spiFlashReadPage duration addr dsize device
    if page.1 ≠ 0 then (1, page.2)
    else
      let rest := readLoop (left - dsize) (addr + UInt32.ofNat dsize) page.2.2
      (rest.1, page.2.1 ++ rest.2.1, rest.2.2)
  else (0, [], device)
termination_by left
decreasing_by exact Nat.sub_lt more (pieceSize_pos more)

/-- `dst` tells whether there is a buffer. -/
def spiFlashRead (addr size : UInt32) (dst : Bool) (device : Device) : UInt32 × List UInt8 × Device :=
  if dst = false then (1, [], device) else readLoop duration size.toNat addr device

/-- The loop of `spi_flash_write`; `memory` is asked with what is left. -/
def writeLoop (memory : Nat → Bool) (src : Cells) (left : Nat) (addr : UInt32) (pos : Nat) (device : Device) : UInt32 × Device :=
  if more : 0 < left then
    let dsize := pieceSize left
    let page := spiFlashProgramPage duration (memory left) addr (readBytes src pos dsize) device
    if page.1 ≠ 0 then (1, page.2)
    else writeLoop memory src (left - dsize) (addr + UInt32.ofNat dsize) (pos + dsize) page.2
  else (0, device)
termination_by left
decreasing_by exact Nat.sub_lt more (pieceSize_pos more)

def spiFlashWrite (memory : Nat → Bool) (addr size : UInt32) (src : Option Cells) (device : Device) : UInt32 × Device :=
  match src with
  | none => (1, device)
  | some src => writeLoop duration memory src size.toNat addr 0 device

/-! ## What the device is after a command -/

variable {duration} (device : Device)

theorem waitRounds_eq {rounds : Nat} (enough : device.busy < rounds) : waitRounds duration rounds device = { device with busy := 0 } := by
  induction rounds generalizing device with
  | zero => exact absurd enough (Nat.not_lt_zero _)
  | succ rounds ih =>
    unfold waitRounds spiFlashIsBusy Device.xfer
    by_cases ready : device.busy = 0
    · simp [ready]
    · have asked := ih { device with busy := device.busy - 1 } (by simp only; omega)
      simp [ready, flashStatusWipBit, asked]

theorem waitReady_eq : waitReady duration device = { device with busy := 0 } :=
  waitRounds_eq device (Nat.lt_succ_self _)

theorem sendEnabled_eq (ucmd : List UInt8) :
    sendEnabled duration ucmd device = (({ device with busy := 0, writeEnabled := true }).xfer duration ucmd 0).2 := by
  unfold sendEnabled
  rw [waitReady_eq, waitReady_eq]
  rfl

theorem commandAddr_addrBytes (addr : UInt32) :
    commandAddr (addr >>> 16).toUInt8 (addr >>> 8).toUInt8 addr.toUInt8 = addr.toNat % deviceSize := by
  have small := addr.toNat_lt
  have high : (addr >>> 16).toUInt8.toNat = addr.toNat / 65536 % 256 := by
    rw [UInt32.toNat_toUInt8, UInt32.toNat_shiftRight, Nat.shiftRight_eq_div_pow]
    rfl
  have middle : (addr >>> 8).toUInt8.toNat = addr.toNat / 256 % 256 := by
    rw [UInt32.toNat_toUInt8, UInt32.toNat_shiftRight, Nat.shiftRight_eq_div_pow]
    rfl
  have low : addr.toUInt8.toNat = addr.toNat % 256 := UInt32.toNat_toUInt8 addr
  unfold commandAddr deviceSize
  rw [high, middle, low]
  omega

end

end BekenSdk.SpiFlash
