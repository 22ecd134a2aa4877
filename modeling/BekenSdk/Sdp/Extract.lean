import Mathlib.Data.UInt
import Mathlib.Data.List.Basic

/-! `sdp_extract_svc_info` of sdp_common.c (BLE 5.2): the entries that the discovery of a service brings are counted, and
written to arrays of that many characteristics and descriptors.
-/

set_option autoImplicit false

namespace BekenSdk.Sdp

/-- `enum gatt_att_type`. -/
inductive GattAttType where
  | none
  | primarySvc
  | secondarySvc
  | inclSvc
  | char
  | val
  | desc
  deriving DecidableEq

/-- The union `info` is its two half words. -/
structure GattSvcAtt where
  attType : GattAttType
  uuidType : UInt8
  uuid : Vector UInt8 16
  info0 : UInt16
  info1 : UInt16

namespace GattSvcAtt

def svcStartHdl (att : GattSvcAtt) : UInt16 := att.info0
def svcEndHdl (att : GattSvcAtt) : UInt16 := att.info1
def characValHdl (att : GattSvcAtt) : UInt16 := att.info0
def characProp (att : GattSvcAtt) : UInt8 := att.info1.toUInt8

def isPrimarySvc (att : GattSvcAtt) : Bool := att.attType == .primarySvc
def isChar (att : GattSvcAtt) : Bool := att.attType == .char
def isDesc (att : GattSvcAtt) : Bool := att.attType == .desc

end GattSvcAtt

structure BkPrfSvc where
  uuidType : UInt8
  uuid : Vector UInt8 16
  startHdl : UInt16
  endHdl : UInt16

/-- Of `uuid`, the sixteen bytes that are copied. -/
structure BkPrfCharDef where
  uuidType : UInt8
  uuid : Vector UInt8 16
  valHdl : UInt16
  prop : UInt8

structure BkPrfDescDef where
  uuidType : UInt8
  uuid : Vector UInt8 16
  descHdl : UInt16
  prop : UInt8

/-- An array, `none` where nothing is written yet, with the index of the next write and whether one went outside. -/
structure Column (α : Type) where
  cells : List (Option α)
  next : UInt8
  outside : Bool

namespace Column
variable {α : Type}

def alloc (α : Type) (size : Nat) : Column α := ⟨List.replicate size none, 0, false⟩

def push (column : Column α) (value : α) : Column α :=
  if column.next.toNat < column.cells.length then
    { column with cells := column.cells.set column.next.toNat (some value), next := column.next + 1 }
  else { column with next := column.next + 1, outside := true }

end Column

/-- `struct sdp_db`. -/
structure SdpDb where
  svc : BkPrfSvc
  charsNb : UInt8
  chars : List (Option BkPrfCharDef)
  descsNb : UInt8
  descs : List (Option BkPrfDescDef)

/-- What `memset` leaves in `svr.svc`. -/
def BkPrfSvc.zero : BkPrfSvc := ⟨0, Vector.replicate 16 0, 0, 0⟩

inductive Block where
  | db
  | chars
  | descs
  deriving DecidableEq

/-- The memory of the BLE stack: whether so much is free, and whether a block of so much is given after those. -/
structure Kernel where
  kernelCheckMalloc : Nat → Bool
  kernelMalloc : List Nat → Nat → Bool

/-- The blocks given and not yet freed, with their sizes. -/
abbrev Memory : Type := List (Block × Nat)

/-- `kernel_malloc`; without memory the answer is NULL. -/
def Kernel.malloc (kernel : Kernel) (block : Block) (size : Nat) (memory : Memory) : Bool × Memory :=
  if kernel.kernelMalloc (memory.map Prod.snd) size then (true, (block, size) :: memory) else (false, memory)

def kernelFree (block : Block) (memory : Memory) : Memory := memory.filter fun entry => entry.1 != block

def sizeofCharDef : Nat := 38
def sizeofDescDef : Nat := 38
def sizeofSdpDb : Nat := 40

/-- `chars_nb` and `descs_nb`. -/
def countAtts (pAtts : List GattSvcAtt) : UInt8 × UInt8 :=
  pAtts.foldl (fun (charsNb, descsNb) att =>
    if att.isChar then (charsNb + 1, descsNb)
    else if att.isDesc then (charsNb, descsNb + 1)
    else (charsNb, descsNb)) (0, 0)

/-- What is filled in: `p_svr->svc` and the arrays with `g_chars` and `g_descs`. -/
structure Filling where
  svc : BkPrfSvc
  chars : Column BkPrfCharDef
  descs : Column BkPrfDescDef

def charDef (att : GattSvcAtt) : BkPrfCharDef := ⟨att.uuidType, att.uuid, att.characValHdl, att.characProp⟩

def descDef (startHdl : UInt16) (gd : Nat) (att : GattSvcAtt) : BkPrfDescDef :=
  ⟨att.uuidType, att.uuid, startHdl + UInt16.ofNat gd, att.characProp⟩

/-- The `do … while` loop from `p_atts[gd]` on. Only the entries after the first are looked at for a characteristic. -/
def findDescs (gd : Nat) : List GattSvcAtt → Filling → Filling
  | [], filling => filling
  | att :: rest, filling =>
    let filling :=
      if att.isDesc then { filling with descs := filling.descs.push (descDef filling.svc.startHdl gd att) }
      else filling
    match rest with
    | [] => filling
    | next :: _ => if next.isChar then filling else findDescs (gd + 1) rest filling

/-- The second loop, from `p_atts[att]` on. -/
def fill (att : Nat) : List GattSvcAtt → Filling → Filling
  | [], filling => filling
  | entry :: rest, filling =>
    fill (att + 1) rest <|
      if entry.isPrimarySvc then
        { filling with svc := ⟨entry.uuidType, entry.uuid, entry.svcStartHdl, entry.svcEndHdl⟩ }
      else if entry.isChar then
        findDescs (att + 1) rest { filling with chars := filling.chars.push (charDef entry) }
      else filling

/-- What the function returns and leaves: NULL or the database, the blocks, and whether a write went outside them. -/
structure Outcome where
  db : Option SdpDb
  memory : Memory
  outside : Bool

def mallocSize (pAtts : List GattSvcAtt) : Nat :=
  sizeofCharDef * (countAtts pAtts).1.toNat + sizeofDescDef * (countAtts pAtts).2.toNat + sizeofSdpDb

/-- An array that is allocated only if it has entries. -/
def Kernel.array (kernel : Kernel) (α : Type) (block : Block) (nb : UInt8) (size : Nat) (memory : Memory) :
    Column α × Memory :=
  if nb = 0 then (.alloc α 0, memory)
  else
    let (given, memory) := kernel.malloc block (size * nb.toNat) memory
    (.alloc α (if given then nb.toNat else 0), memory)

def sdpExtractSvcInfo (kernel : Kernel) (pAtts : List GattSvcAtt) : Outcome :=
  let (charsNb, descsNb) := countAtts pAtts
  if kernel.kernelCheckMalloc (mallocSize pAtts) then
    let (given, memory) := kernel.malloc .db sizeofSdpDb []
    let (chars, memory) := kernel.array BkPrfCharDef .chars charsNb sizeofCharDef memory
    let (descs, memory) := kernel.array BkPrfDescDef .descs descsNb sizeofDescDef memory
    let filled := fill 0 pAtts ⟨.zero, chars, descs⟩
    let outside := !given || filled.chars.outside || filled.descs.outside
    if charsNb != filled.chars.next || descsNb != filled.descs.next then
      let memory := if charsNb = 0 then memory else kernelFree .chars memory
      let memory := if descsNb = 0 then memory else kernelFree .descs memory
      ⟨none, kernelFree .db memory, outside⟩
    else ⟨some ⟨filled.svc, charsNb, filled.chars.cells, descsNb, filled.descs.cells⟩, memory, outside⟩
  else ⟨none, [], false⟩

end BekenSdk.Sdp
