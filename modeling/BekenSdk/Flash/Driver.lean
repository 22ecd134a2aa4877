import BekenSdk.Base.NorFlash
import Mathlib.Tactic.Ring

/-! The flash driver (flash.c). The controller reads and programs pages of 32 bytes, and on some chips it
programs pages of 256; the flash takes an address modulo its size. Switches of the line mode change
no contents.
-/

set_option autoImplicit false

namespace BekenSdk.Flash
open Base

/-- The sizes in flash_config. -/
def flashSizes : List UInt32 := [0x100000, 0x200000, 0x400000, 0x800000]

/-- A page program. -/
structure Program where
  address : UInt32
  length : Nat
deriving DecidableEq

structure Chip where
  cells : Cells
  /-- The latest first. -/
  programs : List Program

def Chip.readPage (flashSize addr : UInt32) (chip : Chip) :
    List UInt8 := readBytes chip.cells (addr.toNat % flashSize.toNat) 32

def Chip.program (flashSize addr : UInt32) (page : List UInt8) (chip : Chip) : Chip :=
  ⟨programBytes chip.cells (addr.toNat % flashSize.toNat) page, ⟨addr, page.length⟩ :: chip.programs⟩

/-- The first address of a page. -/
def pageOf (address : UInt32) : UInt32 := address &&& ~~~0x1F

/-! ## Pages of 32 bytes -/

theorem offset_lt (address : UInt32) : (address % 32).toNat < 32 := by
  rw [UInt32.toNat_mod]
  exact Nat.mod_lt _ (by decide)

/-- The loop of flash_read_data. -/
def Chip.readRounds (flashSize addr address : UInt32) (len : Nat) (chip : Chip) : List UInt8 :=
  if len = 0 then []
  else
    let i := (address % 32).toNat
    let n := min len (32 - i)
    ((chip.readPage flashSize addr).drop i).take n ++ chip.readRounds flashSize (addr + 32) (address + UInt32.ofNat n) (len - n)
termination_by len
decreasing_by
  have inside := offset_lt address
  omega

def Chip.flashReadData (flashSize address len : UInt32) (chip : Chip) : List UInt8 :=
  chip.readRounds flashSize (pageOf address) address len.toNat

/-- The loop of flash_write_data, with what is left of the data. -/
def Chip.writeRounds (flashSize addr address : UInt32) (data pb : List UInt8) (chip : Chip) : Chip :=
  if data = [] then chip
  else
    let pb := if data.length < 32 then chip.flashReadData flashSize addr 32 else pb
    let i := (address % 32).toNat
    let n := min data.length (32 - i)
    let pb := pb.take i ++ data.take n ++ pb.drop (i + n)
    (chip.program flashSize addr pb).writeRounds flashSize (addr + 32) (address + UInt32.ofNat n) (data.drop n) (blank 32)
termination_by data.length
decreasing_by
  have inside := offset_lt address
  have some_left := List.length_pos_of_ne_nil ‹_›
  rw [List.length_drop]
  omega

/-- What the writers do not take. -/
def OutOfRange (flashSize addr len : UInt32) : Prop := addr ≥ flashSize ∨ len > flashSize ∨ addr + len > flashSize

instance (flashSize addr len : UInt32) : Decidable (OutOfRange flashSize addr len) :=
  inferInstanceAs (Decidable (addr ≥ flashSize ∨ len > flashSize ∨ addr + len > flashSize))

/-- The data is what the memory has from `buffer` on. -/
def Chip.flashWriteData (flashSize : UInt32) (memory : Cells) (buffer : Nat) (address len : UInt32) (chip : Chip) :
    Chip :=
  let addr := pageOf address
  if OutOfRange flashSize addr len then chip
  else
    let pb := if address % 32 ≠ 0 then chip.flashReadData flashSize addr 32 else blank 32
    chip.writeRounds flashSize addr address (readBytes memory buffer len.toNat) pb

/-! ## Pages of 256 bytes -/

def Chip.pageRounds (flashSize : UInt32) (memory : Cells) : Nat → Nat → UInt32 → Chip → Chip
  | 0, _, _, chip => chip
  | cnt + 1, buffer, address, chip =>
    (chip.program flashSize address (readBytes memory buffer 256)).pageRounds flashSize memory cnt (buffer + 256) (address + 256)

def Chip.flashPageWriteData (flashSize : UInt32) (memory : Cells) (buffer : Nat) (address len : UInt32) (chip : Chip) :
    Chip :=
  if OutOfRange flashSize address len then chip
  else
    let cnt := if address % 256 ≠ 0 then 256 - address % 256 else 0
    let chip := if address % 256 ≠ 0 then chip.flashWriteData flashSize memory buffer address cnt else chip
    let len := len - cnt
    let address := address + cnt
    let buffer := buffer + cnt.toNat
    let cnt := len / 256
    let mod := len % 256
    let chip := chip.pageRounds flashSize memory cnt.toNat buffer address
    if mod ≠ 0 then chip.flashWriteData flashSize memory (buffer + 256 * cnt.toNat) (address + 256 * cnt) mod else chip

/-! ## Device -/

def Chip.flashRead (flashSize count address : UInt32) (chip : Chip) :
    List UInt8 := chip.flashReadData flashSize address count

/-- `pageWrites` is what BK7238 and BK7252N have. -/
def Chip.flashWrite (pageWrites : Bool) (flashSize : UInt32) (memory : Cells) (userBuf : Nat) (count address : UInt32)
    (chip : Chip) : Chip :=
  if pageWrites = true ∧ count > 256 then chip.flashPageWriteData flashSize memory userBuf address count
  else chip.flashWriteData flashSize memory userBuf address count

/-! ## The OTP area

Reads of the security registers (flash.c). A linear address is divided into the number of a register
and an offset in its 1024 bytes, and the number is kept in 8 bits.
-/

/-- The security registers by their numbers. -/
abbrev Registers := Nat → Cells

structure OtpParam where
  /-- 0 is NULL. -/
  buf : Nat
  addr : UInt32
  len : UInt32

def isPuya (flashId : UInt32) : Bool := flashId = 0x854215 ∨ flashId = 0x852015 ∨ flashId = 0x856015

def isGd (flashId : UInt32) : Bool := flashId = 0xC86515

/-! ## A register -/

/-- The loop of flash_read_opt_data, on what is left to read. -/
def optRounds (register : Cells) (addr address : UInt32) (buffer len : Nat) (memory : Cells) : Cells :=
  if len = 0 then memory
  else
    let i := (address % 32).toNat
    let n := min len (32 - i)
    let pb := readBytes register (addr &&& 0x3FF).toNat 32
    optRounds register (addr + 32) (address + UInt32.ofNat n) (buffer + n) (len - n) (storeBytes memory buffer ((pb.drop i).take n))
termination_by len
decreasing_by
  have inside := offset_lt address
  omega

def flashReadOptData (flashId : UInt32) (registers : Registers) (group : UInt8) (buffer : Nat) (address len : UInt32)
    (memory : Cells) :
    Int × Cells :=
  if len = 0 then (0, memory)
  else if address ≥ 1024 then (-1, memory)
  else if buffer = 0 then (-2, memory)
  else if isPuya flashId = true ∧ (group < 1 ∨ group > 3) then (-3, memory)
  else if isPuya flashId = false ∧ isGd flashId = true ∧ group > 1 then (-3, memory)
  else if isPuya flashId = false ∧ isGd flashId = false then (-4, memory)
  else
    let len := if address + len > 1024 then 1024 - address else len
    (len.toNat, optRounds (registers group.toNat) (pageOf address) address buffer len.toNat memory)

/-! ## Registers -/

/-- The loop of flash_read_otp, for as many registers as there are up to slot_max. -/
def readSlots (flashId : UInt32) (registers : Registers) : Nat → UInt8 → OtpParam → UInt32 → Cells → UInt32 × Cells
  | 0, _, _, readLen, memory => (readLen, memory)
  | left + 1, slot, param, readLen, memory =>
    if param.len = 0 then (readLen, memory)
    else
      let readAddr := param.addr % 1024
      let slotLen := 1024 - readAddr
      let readSize := if param.len > slotLen then slotLen else param.len
      match flashReadOptData flashId registers slot param.buf readAddr readSize memory with
      | (ret, memory) =>
        if ret > 0 then
          readSlots flashId registers left (slot + 1) ⟨param.buf + readSize.toNat, param.addr + readSize,
            param.len - readSize⟩
            (readLen + readSize) memory
        else (readLen, memory)

/-- The number of bytes that were read, and the memory. -/
def flashReadOtp (flashId : UInt32) (registers : Registers) (param : Option OtpParam) (memory : Cells) :
    UInt32 × Cells :=
  match param with
  | none => (0, memory)
  | some param =>
    if param.buf = 0 then (0, memory)
    else
      let slot := (param.addr / 1024).toUInt8
      if isPuya flashId then
        if slot > 2 then (0, memory) else readSlots flashId registers (4 - (slot + 1).toNat) (slot + 1) param 0 memory
      else if isGd flashId then
        if slot > 1 then (0, memory) else readSlots flashId registers (2 - slot.toNat) slot param 0 memory
      else (0, memory)

end BekenSdk.Flash
