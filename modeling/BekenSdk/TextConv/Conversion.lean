import BekenSdk.Base.Bytes

/-! The text conversions of `conv_utf8.c`. A run leaves beside its result the accesses it makes: to the bytes of the
input, to the bytes of the block it allocates and to the rows of the two tables.
-/

set_option autoImplicit false

namespace BekenSdk.TextConv
open Base

/-- The bytes of a string, without the zero that ends it. -/
structure CString where
  bytes : List UInt8
  noNul : ∀ b ∈ bytes, b ≠ 0

/-- The memory from a string's first byte on. What follows the terminator is not the string's. -/
def CString.memory (input : CString) (beyond : Cells) : Cells := fun k =>
  if k < input.bytes.length then input.bytes.getD k 0
  else if k = input.bytes.length then 0
  else beyond k

/-! ## The tables of `conv_utf8_gb2312_table.h` -/

/-- What the memory holds at each row of `t_gb2312_utf8` and of `unicode_to_gb2312`. -/
structure Tables where
  gb2312Utf8 : Nat → List UInt8
  unicodeToGb2312 : Int → UInt16 × UInt16

def gb2312Utf8Rows : Nat := 6763
def unicodeToGb2312Rows : Nat := 6763

inductive Access
  | inputRead (offset : Nat)
  | inputWrite (offset : Nat)
  | blockWrite (offset : Nat)
  | gb2312Utf8 (row : Nat)
  | unicodeToGb2312 (row : Int)
  deriving DecidableEq

/-- An access to the input with its terminator, to a block of `block` bytes, or to a row that is there. -/
def Access.Inside (len block : Nat) : Access → Prop
  | .inputRead offset => offset ≤ len
  | .inputWrite offset => offset ≤ len
  | .blockWrite offset => offset < block
  | .gb2312Utf8 row => row < gb2312Utf8Rows
  | .unicodeToGb2312 row => 0 ≤ row ∧ row < unicodeToGb2312Rows

def AllInside (len block : Nat) (log : List Access) : Prop := ∀ access ∈ log, access.Inside len block

/-! ## From GB2312 -/

/-- The row of `t_gb2312_utf8` that is copied, when the two bytes are a character. -/
def convUtf8ForGb2312 (hiBits lowBit : UInt8) : Option UInt16 :=
  if hiBits < 0xB0 ∨ hiBits > 0xF7 then none
  else if lowBit < 0xA1 ∨ lowBit > 0xFE then none
  else
    let gbCode := (hiBits.toUInt16 <<< 8) + lowBit.toUInt16
    let distCnt := hiBits.toUInt16 - 0xB0
    let distCnt := distCnt * (0xA1 + 0x01)
    some (gbCode - 0xB0A1 - distCnt)

/-- `out_bak`, and how far `out` has come in it. -/
structure Out where
  cells : Cells
  next : Nat
  log : List Access

def Out.copyRow (out : Out) (t : Tables) (row : Nat) : Out where
  cells := storeBytes out.cells out.next ((t.gb2312Utf8 row).take 3)
  next := out.next + 3
  log := out.log ++ [.gb2312Utf8 row, .blockWrite out.next, .blockWrite (out.next + 1), .blockWrite (out.next + 2)]

def Out.copyByte (out : Out) (b : UInt8) : Out where
  cells := storeBytes out.cells out.next [b]
  next := out.next + 1
  log := out.log ++ [.blockWrite out.next]

/-- The loop of `conv_utf8`, at the string from `ptr` on: behind its last byte stands the terminator. -/
def convUtf8Loop (t : Tables) : List UInt8 → Out → Out
  | [], out => out
  | hi :: rest, out =>
    match convUtf8ForGb2312 hi (rest.headD 0) with
    | some row => convUtf8Loop t rest.tail (out.copyRow t row.toNat)
    | none => convUtf8Loop t rest (out.copyByte hi)
  termination_by text => text.length
  decreasing_by all_goals simp [List.length_tail]; try omega

def convUtf8Size (input : CString) : Nat := (input.bytes.length / 2) * 3 + 1

/-- `conv_utf8`; `fresh` is the block `os_malloc` gives, if it gives one. -/
def convUtf8 (t : Tables) (fresh : Option Cells) (input : CString) : Option Cells × List Access :=
  match fresh with
  | none => (none, [])
  | some block =>
    let out := convUtf8Loop t input.bytes ⟨block, 0, []⟩
    let out := out.copyByte 0
    (some out.cells, out.log)

/-! ## To GB2312 -/

/-- The search of `SearchCodeTable`, and the rows it looks at. -/
def searchCodeTableLoop (t : Tables) (unicodeKey : UInt16) (first last : Int) : UInt16 × List Access :=
  if first ≤ last then
    -- neither is negative here
    let mid := (first + last) / 2
    if (t.unicodeToGb2312 mid).1 = unicodeKey then ((t.unicodeToGb2312 mid).2, [.unicodeToGb2312 mid])
    else if (t.unicodeToGb2312 mid).1 > unicodeKey then
      let found := searchCodeTableLoop t unicodeKey first (mid - 1)
      (found.1, .unicodeToGb2312 mid :: found.2)
    else
      let found := searchCodeTableLoop t unicodeKey (mid + 1) last
      (found.1, .unicodeToGb2312 mid :: found.2)
  else (0, [])
  termination_by (last + 1 - first).toNat
  decreasing_by all_goals omega

def searchCodeTable (t : Tables) (unicodeKey : UInt16) : UInt16 × List Access :=
  searchCodeTableLoop t unicodeKey 0 (unicodeToGb2312Rows - 1)

/-- The leading ones of a byte; `temp` is the bit that is looked at. -/
def leadingOnes (firstCh temp : UInt8) : Nat :=
  if _ : temp &&& firstCh ≠ 0 then leadingOnes firstCh (temp >>> 1) + 1 else 0
  termination_by temp.toNat
  decreasing_by
    rename_i set
    have some_bit : temp.toNat ≠ 0 := fun none =>
      set (by rw [show temp = 0 from UInt8.toNat_inj.mp none]; exact UInt8.zero_and)
    rw [UInt8.toNat_shiftRight, Nat.shiftRight_eq_div_pow]
    show temp.toNat / 2 < temp.toNat
    omega

def getUtf8ByteNumForWord (firstCh : UInt8) : Nat := leadingOnes firstCh 0x80

/-- The locals of `Utf8ToGb2312`. -/
structure Work where
  i : Nat
  j : Nat
  temp : Cells
  log : List Access

/-- A pass through the loop of `Utf8ToGb2312`. -/
def Work.convert (t : Tables) (utf8 : Cells) (w : Work) : Work :=
  match getUtf8ByteNumForWord (utf8 w.i) with
  | 0 =>
    { i := w.i + 1, j := w.j + 1
      temp := storeBytes w.temp w.j [utf8 w.i]
      log := w.log ++ [.inputRead w.i, .blockWrite w.j] }
  | 2 =>
    { i := w.i + 2, j := w.j + 2
      temp := storeBytes w.temp w.j [utf8 w.i, utf8 (w.i + 1)]
      log := w.log ++ [.inputRead w.i, .blockWrite w.j, .inputRead (w.i + 1), .blockWrite (w.j + 1)] }
  | 3 =>
    let high := ((utf8 w.i &&& 0x0F) <<< 4) ||| ((utf8 (w.i + 1) >>> 2) &&& 0x0F)
    let low := ((utf8 (w.i + 1) &&& 0x03) <<< 6) + (utf8 (w.i + 2) &&& 0x3F)
    let unicodeKey := (high.toUInt16 <<< 8) ||| low.toUInt16
    let gbKey := searchCodeTable t unicodeKey
    { i := w.i + 3, j := w.j + 2
      temp := storeBytes w.temp w.j [((gbKey.1 &&& 0xFF00) >>> 8).toUInt8, (gbKey.1 &&& 0x00FF).toUInt8]
      log := w.log ++ ([.inputRead w.i, .inputRead (w.i + 1), .blockWrite (w.j + 1), .inputRead (w.i + 1),
        .inputRead (w.i + 2), .blockWrite w.j] ++ gbKey.2 ++ [.blockWrite w.j, .blockWrite (w.j + 1)]) }
  | 4 => { w with i := w.i + 4, log := w.log ++ [.inputRead w.i] }
  | 5 => { w with i := w.i + 5, log := w.log ++ [.inputRead w.i] }
  | 6 => { w with i := w.i + 6, log := w.log ++ [.inputRead w.i] }
  | _ => { w with i := w.i + 1, log := w.log ++ [.inputRead w.i] }

theorem Work.convert_advances (t : Tables) (utf8 : Cells) (w : Work) : w.i < (w.convert t utf8).i := by
  unfold Work.convert
  split <;> simp

def utf8ToGb2312Loop (t : Tables) (utf8 : Cells) (len : Nat) (w : Work) : Work :=
  if w.i < len then utf8ToGb2312Loop t utf8 len (w.convert t utf8) else w
  termination_by len - w.i
  decreasing_by
    have further := w.convert_advances t utf8
    omega

/-- `Utf8ToGb2312`: the memory at `utf8` afterwards, unless it returns NULL. -/
def utf8ToGb2312 (t : Tables) (fresh : Option Cells) (input : CString) (beyond : Cells) : Option Cells × List Access :=
  let utf8 := input.memory beyond
  let len := input.bytes.length
  if len = 0 then (none, [])
  else
    match fresh with
    | none => (none, [])
    | some block =>
      let w := utf8ToGb2312Loop t utf8 len ⟨0, 0, block, []⟩
      let temp := storeBytes w.temp w.j [0]
      let j := w.j + 1
      (some (storeBytes utf8 0 (readBytes temp 0 j)),
        w.log ++ [.blockWrite w.j] ++ (List.range j).map .inputWrite)

end BekenSdk.TextConv
