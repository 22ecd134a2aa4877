import BekenSdk.Base.CData
import BekenSdk.Base.NorFlash

/-! Records, constants and sector layout of the key/value store
(`flash_namespace_value.h`), and the flash it drives. Sizes are in bytes; the
two record types are 64 bytes each, so one sector holds 64 of them.
-/

set_option autoImplicit false

namespace BekenSdk.KeyValue
open BekenSdk.Base

/-! ## Statuses, strings and buffers -/

inductive OSStatus where
  | kNoErr
  | kGeneralErr
  deriving DecidableEq, Repr

/-- A caller's buffer; its length is what the caller passes as the data size. -/
structure Buffer where
  bytes : List UInt8
  bound : bytes.length < 2 ^ 32
  deriving DecidableEq

/-- A buffer of one repeated byte. -/
def Buffer.filled (len : Nat) (byte : UInt8) (bound : len < 2 ^ 32) : Buffer :=
  ⟨List.replicate len byte, by rwa [List.length_replicate]⟩

def charBytes (text : List Char) : List UInt8 := text.map fun c => UInt8.ofNat c.toNat

def chipFactory : CString :=
  ⟨charBytes ['c', 'h', 'i', 'p', '-', 'f', 'a', 'c', 't', 'o', 'r', 'y'], by decide⟩
def chipConfig : CString :=
  ⟨charBytes ['c', 'h', 'i', 'p', '-', 'c', 'o', 'n', 'f', 'i', 'g'], by decide⟩
def chipCounters : CString :=
  ⟨charBytes ['c', 'h', 'i', 'p', '-', 'c', 'o', 'u', 'n', 't', 'e', 'r', 's'], by decide⟩
def beken0 : CString := ⟨charBytes ['B', 'E', 'K', 'E', 'N', '0'], by decide⟩
def beken1 : CString := ⟨charBytes ['B', 'E', 'K', 'E', 'N', '1'], by decide⟩
def dot : CString := ⟨charBytes ['.'], by decide⟩

/-! ## Constants -/

def flashSpaceUsing : Nat := 0xFFFFFF55
def flashSpaceMask : Nat := 0xFFFF5555
def flashSectorSize : Nat := 0x1000
def flashNameMaxArray : Nat := 64
def perNameSpaceFlashSize : Nat := 64
def perNameFlashSize : Nat := 64
def nameSpaceFlashTotalSize : Nat := 0x1000
def nameFlashTotalSize : Nat := perNameFlashSize * flashNameMaxArray
/-- Width of `data_buf`, the stack buffer an update reads the old value into. -/
def dataBufSize : Nat := 2048
/-- Width of the stack buffer a translated name is built in. -/
def keyBufSize : Nat := 64

/-! ## Records -/

structure NamespaceFlash where
  dwUsingFlag : Nat
  dwOffsetByByte : Nat
  ucNamespace : List UInt8
  deriving DecidableEq

structure NameFlash where
  dwUsingFlag : Nat
  dwOffsetByByte : Nat
  dwlength : Nat
  ucName : List UInt8
  deriving DecidableEq

def nsWidth : Nat := 56
def nameWidth : Nat := 52

def NamespaceFlash.toBytes (entry : NamespaceFlash) : List UInt8 :=
  le32 entry.dwUsingFlag ++ le32 entry.dwOffsetByByte ++ entry.ucNamespace

def NamespaceFlash.ofBytes (bytes : List UInt8) : NamespaceFlash where
  dwUsingFlag := fromLe (bytes.take 4)
  dwOffsetByByte := fromLe ((bytes.drop 4).take 4)
  ucNamespace := bytes.drop 8

def NameFlash.toBytes (record : NameFlash) : List UInt8 :=
  le32 record.dwUsingFlag ++ le32 record.dwOffsetByByte ++ le32 record.dwlength ++ record.ucName

def NameFlash.ofBytes (bytes : List UInt8) : NameFlash where
  dwUsingFlag := fromLe (bytes.take 4)
  dwOffsetByByte := fromLe ((bytes.drop 4).take 4)
  dwlength := fromLe ((bytes.drop 8).take 4)
  ucName := bytes.drop 12

theorem NamespaceFlash.ofBytes_toBytes {entry : NamespaceFlash} (flag : entry.dwUsingFlag < 2 ^ 32)
    (offset : entry.dwOffsetByByte < 2 ^ 32) : ofBytes entry.toBytes = entry := by
  have first := fromLe_le32 flag
  have second := fromLe_le32 offset
  cases entry
  simp_all [ofBytes, toBytes, le32]

theorem NameFlash.ofBytes_toBytes {record : NameFlash} (flag : record.dwUsingFlag < 2 ^ 32)
    (offset : record.dwOffsetByByte < 2 ^ 32) (len : record.dwlength < 2 ^ 32) :
    ofBytes record.toBytes = record := by
  have first := fromLe_le32 flag
  have second := fromLe_le32 offset
  have third := fromLe_le32 len
  cases record
  simp_all [ofBytes, toBytes, le32]

/-! ## Partitions -/

/-- A partition starts on a sector boundary, the unit in which flash is erased, and
its end is a 32-bit address, so that address sums inside it do not wrap. -/
structure BkLogicPartition where
  partitionStartAddr : Nat
  partitionLength : Nat
  aligned : partitionStartAddr % flashSectorSize = 0
  bounded : partitionStartAddr + partitionLength < 2 ^ 32

/-- The two partitions of the table that the store uses. -/
structure BkPartitions where
  matterFlash : BkLogicPartition
  matterFactoryFlash : BkLogicPartition
  apart : matterFlash.partitionStartAddr + matterFlash.partitionLength ≤
      matterFactoryFlash.partitionStartAddr ∨
    matterFactoryFlash.partitionStartAddr + matterFactoryFlash.partitionLength ≤
      matterFlash.partitionStartAddr

/-- The two entries of the partition table for a 2 MB flash. -/
def bkFlashPartitions : BkPartitions where
  matterFlash := ⟨0x1e2000, 0x9000, by decide, by decide⟩
  matterFactoryFlash := ⟨0x1eb000, 0x3000, by decide, by decide⟩
  apart := by decide

/-- `bk_flash_get_info` of the partition a namespace lives in. -/
def BkPartitions.ofNamespace (table : BkPartitions) (ucnamespace : CString) : BkLogicPartition :=
  if ucnamespace = chipFactory then table.matterFactoryFlash else table.matterFlash

def getMatterFlashBaseAddr (table : BkPartitions) (ucnamespace : CString) : Nat :=
  (table.ofNamespace ucnamespace).partitionStartAddr

/-- Slots of a partition: half its sectors, kept in eight bits. -/
def BkLogicPartition.slots (part : BkLogicPartition) : Nat :=
  part.partitionLength / flashSectorSize / 2 % 256

def getFalshNameSpaceMaxArray (table : BkPartitions) (ucnamespace : CString) : Nat :=
  (table.ofNamespace ucnamespace).slots

/-! ## Sector addresses -/

def nameFlashTotalHeader (slots : Nat) : Nat := nameSpaceFlashTotalSize + nameFlashTotalSize * slots

def nameFlashDataBaseAddr (slots : Nat) : Nat :=
  if nameFlashTotalHeader slots % 0x1000 ≠ 0 then
    nameFlashTotalHeader slots / 0x1000 * 0x1000 + 0x1000
  else nameFlashTotalHeader slots / 0x1000 * 0x1000

theorem nameFlashDataBaseAddr_eq (slots : Nat) : nameFlashDataBaseAddr slots = 4096 * (1 + slots) := by
  have header : nameFlashTotalHeader slots = 4096 * (1 + slots) := by
    simp only [nameFlashTotalHeader, nameSpaceFlashTotalSize, nameFlashTotalSize, perNameFlashSize,
      flashNameMaxArray]
    omega
  unfold nameFlashDataBaseAddr
  rw [header, if_neg (by omega)]
  omega

/-! ## The flash device -/

inductive FlashOp where
  | erase (addr : Nat)
  | program (addr len : Nat)
  deriving DecidableEq, Repr

/-- The bytes an operation targets: a whole sector, or the programmed range. -/
def FlashOp.addr : FlashOp → Nat
  | .erase addr => addr / flashSectorSize * flashSectorSize
  | .program addr _ => addr

def FlashOp.len : FlashOp → Nat
  | .erase _ => flashSectorSize
  | .program _ len => len

/-- Flash contents, and every erase and program issued so far, the latest first. -/
structure Flash where
  cells : Cells
  ops : List FlashOp

namespace Flash

def ddevRead (flash : Flash) (len addr : Nat) : List UInt8 := readBytes flash.cells addr len

def ddevWrite (flash : Flash) (bytes : List UInt8) (addr : Nat) : Flash :=
  ⟨programBytes flash.cells addr bytes, .program addr bytes.length :: flash.ops⟩

def eraseSector (flash : Flash) (addr : Nat) : Flash :=
  ⟨Base.eraseSector flashSectorSize flash.cells addr, .erase addr :: flash.ops⟩

@[simp] theorem ddevWrite_cells (flash : Flash) (bytes : List UInt8) (addr : Nat) :
    (flash.ddevWrite bytes addr).cells = programBytes flash.cells addr bytes := rfl
@[simp] theorem ddevWrite_ops (flash : Flash) (bytes : List UInt8) (addr : Nat) :
    (flash.ddevWrite bytes addr).ops = .program addr bytes.length :: flash.ops := rfl
@[simp] theorem eraseSector_cells (flash : Flash) (addr : Nat) :
    (flash.eraseSector addr).cells = Base.eraseSector flashSectorSize flash.cells addr := rfl
@[simp] theorem eraseSector_ops (flash : Flash) (addr : Nat) :
    (flash.eraseSector addr).ops = .erase addr :: flash.ops := rfl

/-- An array of namespace records read from flash. -/
def readNamespaces (flash : Flash) : Nat → Nat → List NamespaceFlash
  | _, 0 => []
  | addr, count + 1 =>
    .ofBytes (flash.ddevRead perNameSpaceFlashSize addr) ::
      flash.readNamespaces (addr + perNameSpaceFlashSize) count

/-- An array of name records read from flash. -/
def readNames (flash : Flash) : Nat → Nat → List NameFlash
  | _, 0 => []
  | addr, count + 1 =>
    .ofBytes (flash.ddevRead perNameFlashSize addr) ::
      flash.readNames (addr + perNameFlashSize) count

end Flash

/-! ## The store

The key/value store (`flash_namespace_value.c`).

Out-parameters become results: `none` is the error status of a lookup. A call
takes the answers of `os_malloc` at each of its allocation sites, so that the
exits for a refused allocation are part of the model. `undefined` marks C
undefined behaviour; it keeps the flash as it was when the fault was reached.
-/

/-- The allocations of one call; none is reached twice in a call. -/
inductive MallocSite where
  | getNamespaceAddr
  | getNameAddr
  | nameTemp
  | dataBuff
  | setNamespace
  | clearNamespace
  deriving DecidableEq

abbrev OsMalloc := MallocSite → Bool

inductive Outcome (α : Type) where
  | done (value : α) (flash : Flash)
  | undefined (flash : Flash)

def Outcome.flash {α : Type} : Outcome α → Flash
  | .done _ flash => flash
  | .undefined flash => flash

def Outcome.value? {α : Type} : Outcome α → Option α
  | .done value _ => some value
  | .undefined _ => none

/-! ## Keys -/

def bkStrnlen (ucdata : CString) (dwLenMax : Nat) : Nat := min ucdata.strlen dwLenMax

/-- The prefixing done for the two translated namespaces. `name` is `none` for a
NULL pointer to the name and `some none` for a NULL name; both are read by `strlen`. -/
def prefixName (ucnamespace bekenNamespace : CString) (name : Option (Option CString)) :
    Option (CString × Option CString) :=
  match name with
  | some (some text) =>
    if ucnamespace.strlen + text.strlen > keyBufSize then some (ucnamespace, some text)
    -- the separator and the terminator are not in the check above
    else if ucnamespace.strlen + 1 + text.strlen + 1 > keyBufSize then none
    else some (bekenNamespace, some ((ucnamespace.append dot).append text))
  | _ => none

/-- `change_namespace_to_beken`: `none` is undefined behaviour. The error status is
not returned, as every caller ignores it; the key is then left as it was. -/
def changeNamespaceToBeken (ucnamespace : CString) (name : Option (Option CString)) :
    Option (CString × Option CString) :=
  if ucnamespace = chipConfig then prefixName ucnamespace beken0 name
  else if ucnamespace = chipCounters then prefixName ucnamespace beken1 name
  else some (ucnamespace, name.join)

/-! ## Lookups -/

def findNamespace (ucnamespace : CString) : List NamespaceFlash → Nat → Option (Nat × Nat)
  | [], _ => none
  | entry :: rest, dwLoop =>
    if entry.dwUsingFlag ≠ flashSpaceUsing then findNamespace ucnamespace rest (dwLoop + 1)
    else if memcmpEq entry.ucNamespace ucnamespace (bkStrnlen ucnamespace (nsWidth - 1)) then
      if strlenAt (entry.ucNamespace ++ rest.flatMap NamespaceFlash.toBytes) ≠ ucnamespace.strlen then
        findNamespace ucnamespace rest (dwLoop + 1)
      else some (entry.dwOffsetByByte, dwLoop)
    else findNamespace ucnamespace rest (dwLoop + 1)

/-- The offset of the namespace's name sector and its slot. -/
def getNamespaceAddr (table : BkPartitions) (malloc : OsMalloc) (ucnamespace : CString)
    (npBaseAddr : Nat) (flash : Flash) : Option (Nat × Nat) :=
  if malloc .getNamespaceAddr then
    findNamespace ucnamespace
      (flash.readNamespaces npBaseAddr (getFalshNameSpaceMaxArray table ucnamespace)) 0
  else none

def findName (ucname : CString) : List NameFlash → Nat → Option (Nat × Nat)
  | [], _ => none
  | record :: rest, dwLoop =>
    if record.dwUsingFlag ≠ flashSpaceUsing then findName ucname rest (dwLoop + 1)
    else if memcmpEq record.ucName ucname (bkStrnlen ucname (nameWidth - 1)) then
      if strlenAt (record.ucName ++ rest.flatMap NameFlash.toBytes) ≠ ucname.strlen then
        findName ucname rest (dwLoop + 1)
      else some (dwLoop * perNameFlashSize, record.dwOffsetByByte)
    else findName ucname rest (dwLoop + 1)

/-- The offsets of the record in its name sector and of its value in the data sector. -/
def getNameAddr (malloc : OsMalloc) (ucname : Option CString) (baseAddr : Nat) (flash : Flash) :
    Option (Nat × Nat) :=
  match ucname with
  | none => none
  | some name =>
    if malloc .getNameAddr then findName name (flash.readNames baseAddr flashNameMaxArray) 0
    else none

/-! ## Storing a value -/

def bkEraseNameData (nBaseAddr dataSectorAddr : Nat) (flash : Flash) : Flash :=
  (flash.eraseSector nBaseAddr).eraseSector dataSectorAddr

/-- The copying loop of `bk_reorganize_name_data`; it returns the three cursors. -/
def rewriteUsed (databuf : List UInt8) : List NameFlash → Nat → Nat → Nat → Flash → Outcome (Nat × Nat × Nat)
  | [], dwDataAddr, dwNameAddr, dwOffset, flash => .done (dwDataAddr, dwNameAddr, dwOffset) flash
  | record :: rest, dwDataAddr, dwNameAddr, dwOffset, flash =>
    if record.dwUsingFlag = flashSpaceUsing then
      if record.dwOffsetByByte + record.dwlength > flashSectorSize then .undefined flash
      else
        let flash := flash.ddevWrite ((databuf.drop record.dwOffsetByByte).take record.dwlength) dwDataAddr
        let moved := { record with dwOffsetByByte := dwOffset }
        let flash := flash.ddevWrite moved.toBytes dwNameAddr
        rewriteUsed databuf rest (dwDataAddr + record.dwlength) (dwNameAddr + perNameFlashSize)
          (dwOffset + record.dwlength) flash
    else rewriteUsed databuf rest dwDataAddr dwNameAddr dwOffset flash

def bkReorganizeNameData (nBaseAddr : Nat) (nameTemp : List NameFlash) (databuf : List UInt8)
    (dataSectorAddr : Nat) (indata : Buffer) (ucName : List UInt8) (flash : Flash) : Outcome OSStatus :=
  let flash := (flash.eraseSector nBaseAddr).eraseSector dataSectorAddr
  match rewriteUsed databuf nameTemp dataSectorAddr nBaseAddr 0 flash with
  | .undefined flash => .undefined flash
  | .done (dwDataAddr, dwNameAddr, dwOffset) flash =>
    if (dwOffset + indata.bytes.length) % 2 ^ 32 ≥ flashSectorSize then .done .kGeneralErr flash
    else
      let flash := flash.ddevWrite indata.bytes dwDataAddr
      let nameData : NameFlash := ⟨flashSpaceUsing, dwOffset, indata.bytes.length, ucName⟩
      .done .kNoErr (flash.ddevWrite nameData.toBytes dwNameAddr)

/-- Where the scan for a free record stopped: at a free record, with the offset the
next value would get, or past the last one, with the number of masked records. -/
inductive FreeScan where
  | free (dwLoop dataOffsetAddr : Nat)
  | full (dwMaskCount : Nat)

def scanFree : List NameFlash → Nat → Nat → Nat → FreeScan
  | [], _, _, dwMaskCount => .full dwMaskCount
  | record :: rest, dwLoop, dataOffsetAddr, dwMaskCount =>
    if record.dwUsingFlag ≠ flashSpaceUsing ∧ record.dwUsingFlag ≠ flashSpaceMask then
      .free dwLoop dataOffsetAddr
    else
      scanFree rest (dwLoop + 1) ((record.dwOffsetByByte + record.dwlength) % 2 ^ 32)
        (if record.dwUsingFlag = flashSpaceMask then dwMaskCount + 1 else dwMaskCount)

/-- `ucName` is the name field of the record to write; the caller's other fields are
overwritten on every path that programs it. -/
def bkSetNameDataNewAddr (malloc : OsMalloc) (dataSectorAddr baseAddr : Nat) (indata : Buffer)
    (ucName : List UInt8) (flash : Flash) : Outcome OSStatus :=
  if malloc .nameTemp && malloc .dataBuff then
    let nameTemp := flash.readNames baseAddr flashNameMaxArray
    let dataBuff := flash.ddevRead flashSectorSize dataSectorAddr
    match scanFree nameTemp 0 0 0 with
    | .free dwLoop dataOffsetAddr =>
      if (dataOffsetAddr + indata.bytes.length) % 2 ^ 32 ≥ flashSectorSize then
        bkReorganizeNameData baseAddr nameTemp dataBuff dataSectorAddr indata ucName flash
      else
        let flash := flash.ddevWrite indata.bytes (dataSectorAddr + dataOffsetAddr)
        let nameData : NameFlash := ⟨flashSpaceUsing, dataOffsetAddr, indata.bytes.length, ucName⟩
        .done .kNoErr (flash.ddevWrite nameData.toBytes (baseAddr + dwLoop * perNameFlashSize))
    | .full dwMaskCount =>
      if dwMaskCount > 0 then
        bkReorganizeNameData baseAddr nameTemp dataBuff dataSectorAddr indata ucName flash
      else .done .kGeneralErr flash
  else .done .kGeneralErr flash

def firstFreeNamespace : List NamespaceFlash → Nat → Option Nat
  | [], _ => none
  | entry :: rest, dwLoop =>
    if entry.dwUsingFlag ≠ flashSpaceUsing then some dwLoop else firstFreeNamespace rest (dwLoop + 1)

/-- The entry a new namespace gets in the given slot. -/
def newNamespaceEntry (ucnamespace : CString) (dwLoop : Nat) : NamespaceFlash where
  dwUsingFlag := flashSpaceUsing
  dwOffsetByByte := dwLoop * nameFlashTotalSize + nameSpaceFlashTotalSize
  ucNamespace := field nsWidth (ucnamespace.truncate (nsWidth - 1))

def bkSetNamespace (table : BkPartitions) (malloc : OsMalloc) (ucnamespace : CString)
    (npBaseAddr : Nat) (flash : Flash) : Option (Nat × Nat) × Flash :=
  if malloc .setNamespace then
    match firstFreeNamespace
        (flash.readNamespaces npBaseAddr (getFalshNameSpaceMaxArray table ucnamespace)) 0 with
    | some dwLoop =>
      let entry := newNamespaceEntry ucnamespace dwLoop
      (some (entry.dwOffsetByByte, dwLoop),
        flash.ddevWrite entry.toBytes (npBaseAddr + dwLoop * perNameSpaceFlashSize))
    | none => (none, flash)
  else (none, flash)

def bkSetNameData (table : BkPartitions) (malloc : OsMalloc) (ucnamespace : CString)
    (ucname : CString) (npBaseAddr : Nat) (indata : Buffer) (dwNOffsetAddr dwOffsetBlock : Nat)
    (flash : Flash) : Outcome OSStatus :=
  let dwSecAddr := npBaseAddr + dwNOffsetAddr
  let dataSectorAddr := npBaseAddr + dwOffsetBlock * flashSectorSize +
    nameFlashDataBaseAddr (getFalshNameSpaceMaxArray table ucnamespace)
  match getNameAddr malloc (some ucname) dwSecAddr flash with
  | some (dwOffsetAddr, dwDataOffsetAddr) =>
    let nameTemp := NameFlash.ofBytes (flash.ddevRead perNameFlashSize (dwSecAddr + dwOffsetAddr))
    -- the old value is read into the stack buffer without a length check
    if nameTemp.dwlength > dataBufSize then .undefined flash
    else
      let dataBuf := flash.ddevRead nameTemp.dwlength (dataSectorAddr + dwDataOffsetAddr)
      if nameTemp.dwlength ≠ indata.bytes.length ∨ dataBuf ≠ indata.bytes then
        let masked := { nameTemp with dwUsingFlag := flashSpaceMask }
        let flash := flash.ddevWrite masked.toBytes (dwSecAddr + dwOffsetAddr)
        let nameTemp := NameFlash.ofBytes (flash.ddevRead perNameFlashSize (dwSecAddr + dwOffsetAddr))
        bkSetNameDataNewAddr malloc dataSectorAddr dwSecAddr indata nameTemp.ucName flash
      else .done .kNoErr flash
  | none =>
    let ucName := field nameWidth (ucname.truncate (nameWidth - 1))
    bkSetNameDataNewAddr malloc dataSectorAddr dwSecAddr indata ucName flash

/-! ## Public functions -/

def bkWriteData (table : BkPartitions) (malloc : OsMalloc) (ucnamespace ucname : Option CString)
    (indata : Option Buffer) (flash : Flash) : Outcome OSStatus :=
  match ucnamespace, ucname, indata with
  | some ns, some name, some data =>
    if ns = chipFactory then .done .kGeneralErr flash
    else
      match changeNamespaceToBeken ns (some (some name)) with
      | some (ns, some name) =>
        let npBaseAddr := getMatterFlashBaseAddr table ns
        match getNamespaceAddr table malloc ns npBaseAddr flash with
        | some (dwOffsetAddr, dwOffBlock) =>
          bkSetNameData table malloc ns name npBaseAddr data dwOffsetAddr dwOffBlock flash
        | none =>
          match bkSetNamespace table malloc ns npBaseAddr flash with
          | (some (dwOffsetAddr, dwOffBlock), flash) =>
            bkSetNameData table malloc ns name npBaseAddr data dwOffsetAddr dwOffBlock flash
          | (none, flash) => .done .kGeneralErr flash
      | _ => .undefined flash
  | _, _, _ => .done .kGeneralErr flash

/-- The bytes copied to the caller's buffer, as many as `out_length` reports. -/
def bkReadData (table : BkPartitions) (malloc : OsMalloc) (ucnamespace ucname : Option CString)
    (dwReadLen : Nat) (flash : Flash) : Outcome (Option (List UInt8)) :=
  match ucnamespace, ucname with
  | some ns, some name =>
    match changeNamespaceToBeken ns (some (some name)) with
    | some (ns, name) =>
      let npBaseAddr := getMatterFlashBaseAddr table ns
      match getNamespaceAddr table malloc ns npBaseAddr flash with
      | some (dwOffsetAddr, dwOffBlock) =>
        let dwSecBaseAddr := npBaseAddr + dwOffsetAddr
        match getNameAddr malloc name dwSecBaseAddr flash with
        | some (dwOffsetAddr, dwDataOffsetAddr) =>
          let nameTemp := NameFlash.ofBytes (flash.ddevRead perNameFlashSize (dwSecBaseAddr + dwOffsetAddr))
          let dwActualLen := if dwReadLen > nameTemp.dwlength then nameTemp.dwlength else dwReadLen
          let dwDataAddr := npBaseAddr + dwOffBlock * flashSectorSize +
            nameFlashDataBaseAddr (getFalshNameSpaceMaxArray table ns) + dwDataOffsetAddr
          .done (some (flash.ddevRead dwActualLen dwDataAddr)) flash
        | none => .done none flash
      | none => .done none flash
    | none => .undefined flash
  | _, _ => .done none flash

def bkCleanData (table : BkPartitions) (malloc : OsMalloc) (ucnamespace ucname : Option CString)
    (flash : Flash) : Outcome OSStatus :=
  match ucnamespace with
  | none => .done .kGeneralErr flash
  | some ns =>
    if ns = chipFactory then .done .kGeneralErr flash
    else
      match ucname with
      | none => .done .kGeneralErr flash
      | some name =>
        match changeNamespaceToBeken ns (some (some name)) with
        | none => .undefined flash
        | some (ns, name) =>
          let npBaseAddr := getMatterFlashBaseAddr table ns
          match getNamespaceAddr table malloc ns npBaseAddr flash with
          | none => .done .kGeneralErr flash
          | some (dwOffsetAddr, _) =>
            let dwActualAddr := npBaseAddr + dwOffsetAddr
            match getNameAddr malloc name dwActualAddr flash with
            | none => .done .kGeneralErr flash
            | some (dwNameOffset, _) =>
              .done .kNoErr (flash.ddevWrite (le32 flashSpaceMask) (dwActualAddr + dwNameOffset))

/-- Write back the directory entries that are in use, each to its own slot. -/
def restoreNamespaces (npBaseAddr : Nat) : List NamespaceFlash → Nat → Flash → Flash
  | [], _, flash => flash
  | entry :: rest, dwLoop, flash =>
    restoreNamespaces npBaseAddr rest (dwLoop + 1)
      (if entry.dwUsingFlag = flashSpaceUsing then
        flash.ddevWrite entry.toBytes (npBaseAddr + dwLoop * perNameSpaceFlashSize)
      else flash)

def bKClearNamespace (table : BkPartitions) (malloc : OsMalloc) (ucnamespace : Option CString)
    (flash : Flash) : Outcome OSStatus :=
  match ucnamespace with
  | none => .done .kGeneralErr flash
  | some ns =>
    if ns = chipFactory then .done .kGeneralErr flash
    else if ns = chipConfig ∨ ns = chipCounters then .done .kGeneralErr flash
    else
      let npBaseAddr := getMatterFlashBaseAddr table ns
      if malloc .clearNamespace then
        match getNamespaceAddr table malloc ns npBaseAddr flash with
        | none => .done .kGeneralErr flash
        | some (_, dwOffBlock) =>
          let slots := getFalshNameSpaceMaxArray table ns
          let namespaceTemp := flash.readNamespaces npBaseAddr slots
          let dwStartAddr := npBaseAddr + nameSpaceFlashTotalSize + dwOffBlock * nameFlashTotalSize
          let dataSectorAddr := npBaseAddr + dwOffBlock * flashSectorSize + nameFlashDataBaseAddr slots
          let flash := (bkEraseNameData dwStartAddr dataSectorAddr flash).eraseSector npBaseAddr
          let kept := namespaceTemp.modify dwOffBlock ({ · with dwUsingFlag := flashSpaceMask })
          .done .kNoErr (restoreNamespaces npBaseAddr kept 0 flash)
      else .done .kGeneralErr flash

def bkEnsureNamespace (table : BkPartitions) (malloc : OsMalloc) (ucnamespace : Option CString)
    (flash : Flash) : Outcome OSStatus :=
  match ucnamespace with
  | none => .done .kGeneralErr flash
  | some ns =>
    match changeNamespaceToBeken ns none with
    | none => .undefined flash
    | some (ns, _) =>
      let npBaseAddr := getMatterFlashBaseAddr table ns
      match getNamespaceAddr table malloc ns npBaseAddr flash with
      | some _ => .done .kNoErr flash
      | none =>
        match bkSetNamespace table malloc ns npBaseAddr flash with
        | (some _, flash) => .done .kNoErr flash
        | (none, flash) => .done .kGeneralErr flash

def bkEnsureNameData (table : BkPartitions) (malloc : OsMalloc) (ucnamespace ucname : Option CString)
    (flash : Flash) : Outcome OSStatus :=
  match ucnamespace with
  | none => .done .kGeneralErr flash
  | some ns =>
    match changeNamespaceToBeken ns (some ucname) with
    | none => .undefined flash
    | some (ns, name) =>
      let npBaseAddr := getMatterFlashBaseAddr table ns
      match getNamespaceAddr table malloc ns npBaseAddr flash with
      | none => .done .kGeneralErr flash
      | some (dwOffsetAddr, _) =>
        match getNameAddr malloc name (npBaseAddr + dwOffsetAddr) flash with
        | some _ => .done .kNoErr flash
        | none => .done .kGeneralErr flash

def eraseSectors : Nat → Nat → Flash → Flash
  | 0, _, flash => flash
  | count + 1, operationAddr, flash =>
    eraseSectors count (operationAddr + nameSpaceFlashTotalSize) (flash.eraseSector operationAddr)

def bkEraseAll (part : BkLogicPartition) (flash : Flash) : Outcome OSStatus :=
  .done .kNoErr (eraseSectors (part.partitionLength / nameSpaceFlashTotalSize) part.partitionStartAddr flash)

end BekenSdk.KeyValue
