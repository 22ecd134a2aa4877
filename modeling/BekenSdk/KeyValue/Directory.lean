import BekenSdk.Base.TombstoneLog
import BekenSdk.KeyValue.Store

/-! The store without its bytes: each directory slot is free or holds a
namespace and the log of its records, and a log fits its two sectors by
construction. The operations are those of the store after key translation;
`none` is again undefined behaviour. What a reader sees is `Directory.lookup`.
-/

set_option autoImplicit false

namespace BekenSdk.KeyValue
open BekenSdk.Base

/-! ## The log of one namespace -/

abbrev Record := Entry CString (List UInt8)

def nameLimit : Nat := nameWidth - 1
def nsLimit : Nat := nsWidth - 1

def valueBytes (records : List Record) : Nat := Log.size List.length records

@[ext] structure NameLog where
  records : List Record
  few : records.length ≤ flashNameMaxArray
  short : valueBytes records < flashSectorSize
  named : ∀ record ∈ records, record.key.strlen ≤ nameLimit

namespace NameLog

def empty : NameLog := ⟨[], by decide, by decide, by simp⟩

theorem bury_named {key : CString} {records : List Record}
    (named : ∀ record ∈ records, record.key.strlen ≤ nameLimit) :
    ∀ record ∈ Log.bury key records, record.key.strlen ≤ nameLimit := by
  induction records with
  | nil => simp [Log.bury]
  | cons first rest ih =>
    have head := named first (by simp)
    have tail := ih fun record member => named record (by simp [member])
    intro record member
    simp only [Log.bury] at member
    split at member
    · rcases List.mem_cons.mp member with rfl | later
      · exact head
      · exact named record (by simp [later])
    · rcases List.mem_cons.mp member with rfl | later
      · exact head
      · exact tail record later

def bury (log : NameLog) (key : CString) : NameLog where
  records := Log.bury key log.records
  few := by rw [Log.bury_length]; exact log.few
  short := by rw [valueBytes, Log.size_bury]; exact log.short
  named := bury_named log.named

def compact (log : NameLog) : NameLog where
  records := Log.compact log.records
  few := Nat.le_trans (Log.length_compact_le _) log.few
  short := Nat.lt_of_le_of_lt (Log.size_compact_le _ _) log.short
  named := fun record member => log.named record (List.mem_of_mem_filter member)

@[simp] theorem compact_records (log : NameLog) : log.compact.records = Log.compact log.records := rfl

@[simp] theorem bury_records (log : NameLog) (key : CString) :
    (log.bury key).records = Log.bury key log.records := rfl

/-- Append a record if a slot and enough bytes are left. -/
def push? (log : NameLog) (key : CString) (value : List UInt8) : Option NameLog :=
  if fits : log.records.length < flashNameMaxArray ∧
      valueBytes log.records + value.length < flashSectorSize ∧ key.strlen ≤ nameLimit then
    some {
      records := log.records ++ [⟨true, key, value⟩]
      few := by simp only [List.length_append, List.length_singleton]; omega
      short := by simpa [valueBytes] using fits.2.1
      named := fun record member => by
        rcases List.mem_append.mp member with old | new
        · exact log.named record old
        · rw [List.mem_singleton.mp new]; exact fits.2.2 }
  else none

theorem push?_of_fits (log : NameLog) {key : CString} {value : List UInt8}
    (room : log.records.length < flashNameMaxArray)
    (short : valueBytes log.records + value.length < flashSectorSize) (named : key.strlen ≤ nameLimit) :
    ∃ pushed, log.push? key value = some pushed ∧ pushed.records = log.records ++ [⟨true, key, value⟩] := by
  unfold push?
  rw [dif_pos ⟨room, short, named⟩]
  exact ⟨_, rfl, rfl⟩

theorem push?_of_long {log : NameLog} {key : CString} {value : List UInt8}
    (long : flashSectorSize ≤ valueBytes log.records + value.length) : log.push? key value = none := by
  unfold push?
  rw [dif_neg fun fits => absurd fits.2.1 (Nat.not_lt.mpr long)]

theorem push?_eq_some {log pushed : NameLog} {key : CString} {value : List UInt8}
    (result : log.push? key value = some pushed) :
    pushed.records = log.records ++ [⟨true, key, value⟩] := by
  unfold push? at result
  split at result
  · exact (congrArg NameLog.records (Option.some.inj result)).symm
  · cases result

/-- Rewrite the live records, then append; a value that does not fit leaves them rewritten. -/
def compactPush (log : NameLog) (key : CString) (value : List UInt8) : OSStatus × NameLog :=
  match log.compact.push? key value with
  | some pushed => (.kNoErr, pushed)
  | none => (.kGeneralErr, log.compact)

def hasDead (log : NameLog) : Bool := log.records.any fun record => !record.live

def append (malloc : OsMalloc) (log : NameLog) (key : CString) (value : List UInt8) :
    OSStatus × NameLog :=
  if malloc .nameTemp && malloc .dataBuff then
    if log.records.length < flashNameMaxArray then
      match log.push? key value with
      | some pushed => (.kNoErr, pushed)
      | none => log.compactPush key value
    else if log.hasDead then log.compactPush key value
    else (.kGeneralErr, log)
  else (.kGeneralErr, log)

def lookup (log : NameLog) (key : CString) : Option (List UInt8) := Log.lookup key log.records

/-- A refused allocation of the lookup is answered like a missing key. -/
def lookupWith (malloc : OsMalloc) (log : NameLog) (key : CString) : Option (List UInt8) :=
  if malloc .getNameAddr then log.lookup key else none

def write (malloc : OsMalloc) (log : NameLog) (key : CString) (value : List UInt8) :
    Option (OSStatus × NameLog) :=
  match log.lookupWith malloc key with
  | some old =>
    if old.length > dataBufSize then none
    else if old = value then some (.kNoErr, log)
    else some ((log.bury key).append malloc key value)
  | none => some (log.append malloc (key.truncate nameLimit) value)

def clean (malloc : OsMalloc) (log : NameLog) (key : CString) : OSStatus × NameLog :=
  match log.lookupWith malloc key with
  | some _ => (.kNoErr, log.bury key)
  | none => (.kGeneralErr, log)

end NameLog

/-! ## Slots and the directory -/

structure NsName where
  text : CString
  fits : text.strlen ≤ nsLimit
  deriving DecidableEq

def NsName.of (text : CString) : NsName := ⟨text.truncate nsLimit, CString.truncate_strlen_le _ _⟩

inductive Slot where
  | free
  | used (name : NsName) (log : NameLog)

namespace Slot

def named (ns : CString) : Slot → Bool
  | .free => false
  | .used name _ => decide (name.text = ns)

def isFree : Slot → Bool
  | .free => true
  | .used _ _ => false

def log : Slot → NameLog
  | .free => .empty
  | .used _ log => log

def mapLog (change : NameLog → NameLog) : Slot → Slot
  | .free => .free
  | .used name log => .used name (change log)

end Slot

abbrev Directory := List Slot

namespace Directory

def find (dir : Directory) (ns : CString) : Option Nat := dir.findIdx? (Slot.named ns)

def firstFree (dir : Directory) : Option Nat := dir.findIdx? Slot.isFree

theorem find_cons (ns : CString) (content : Slot) (rest : Directory) :
    find (content :: rest) ns =
      if content.named ns = true then some 0 else (find rest ns).map fun slot => slot + 1 :=
  List.findIdx?_cons

theorem firstFree_cons (content : Slot) (rest : Directory) :
    firstFree (content :: rest) =
      if content.isFree = true then some 0 else (firstFree rest).map fun slot => slot + 1 :=
  List.findIdx?_cons

/-- A namespace is found in a slot that carries its name. -/
theorem find_some {dir : Directory} {ns : CString} {slot : Nat} (found : dir.find ns = some slot) :
    ∃ name log, dir[slot]? = some (.used name log) ∧ name.text = ns := by
  obtain ⟨inside, hit, -⟩ := List.findIdx?_eq_some_iff_getElem.mp found
  rw [List.getElem?_eq_getElem inside]
  cases content : dir[slot] with
  | free => rw [content] at hit; cases hit
  | used name log =>
    rw [content] at hit
    exact ⟨name, log, rfl, of_decide_eq_true hit⟩

theorem firstFree_some {dir : Directory} {slot : Nat} (found : dir.firstFree = some slot) :
    dir[slot]? = some .free := by
  obtain ⟨inside, hit, -⟩ := List.findIdx?_eq_some_iff_getElem.mp found
  rw [List.getElem?_eq_getElem inside]
  cases content : dir[slot] with
  | free => rfl
  | used name log => rw [content] at hit; cases hit

def logAt (dir : Directory) (slot : Nat) : NameLog := (dir.getD slot .free).log

/-- What is stored under a key. -/
def lookup (dir : Directory) (ns name : CString) : Option (List UInt8) :=
  (dir.find ns).bind fun slot => (dir.logAt slot).lookup name

def setLog (dir : Directory) (slot : Nat) (log : NameLog) : Directory :=
  dir.modify slot (Slot.mapLog fun _ => log)

theorem logAt_used {dir : Directory} {slot : Nat} {name : NsName} {log : NameLog}
    (here : dir[slot]? = some (.used name log)) :
    dir.logAt slot = log := by
  rw [logAt, List.getD_eq_getElem?_getD, here]
  rfl

theorem logAt_setLog {dir : Directory} {slot : Nat} {other : Nat} {log : NameLog} {name : NsName} {old : NameLog}
    (here : dir[slot]? = some (.used name old)) :
    (dir.setLog slot log).logAt other = if other = slot then log else dir.logAt other := by
  unfold logAt setLog
  simp only [List.getD_eq_getElem?_getD, List.getElem?_modify]
  by_cases same : slot = other
  · subst same
    rw [here]
    simp [Slot.mapLog, Slot.log]
  · simp [same, Ne.symm same]

theorem logAt_set {dir : Directory} {slot : Nat} {other : Nat} {content : Slot} (inside : slot < dir.length) :
    logAt (dir.set slot content) other = if other = slot then content.log else dir.logAt other := by
  unfold logAt
  simp only [List.getD_eq_getElem?_getD, List.getElem?_set]
  by_cases same : slot = other
  · subst same
    simp [inside]
  · simp [same, Ne.symm same]

def writeAt (malloc : OsMalloc) (dir : Directory) (slot : Nat) (name : CString)
    (value : List UInt8) : Option (OSStatus × Directory) :=
  ((dir.logAt slot).write malloc name value).map fun result => (result.1, dir.setLog slot result.2)

/-- Claim the first free slot for a namespace. -/
def allocate (malloc : OsMalloc) (dir : Directory) (ns : CString) : Option (Nat × Directory) :=
  if malloc .setNamespace then
    dir.firstFree.map fun slot => (slot, dir.set slot (.used (.of ns) .empty))
  else none

def findWith (malloc : OsMalloc) (dir : Directory) (ns : CString) : Option Nat :=
  if malloc .getNamespaceAddr then dir.find ns else none

def write (malloc : OsMalloc) (dir : Directory) (ns name : CString) (value : List UInt8) :
    Option (OSStatus × Directory) :=
  match dir.findWith malloc ns with
  | some slot => dir.writeAt malloc slot name value
  | none =>
    match dir.allocate malloc ns with
    | some (slot, dir) => dir.writeAt malloc slot name value
    | none => some (.kGeneralErr, dir)

def clean (malloc : OsMalloc) (dir : Directory) (ns name : CString) : OSStatus × Directory :=
  match dir.findWith malloc ns with
  | some slot =>
    let result := (dir.logAt slot).clean malloc name
    (result.1, dir.setLog slot result.2)
  | none => (.kGeneralErr, dir)

def clear (malloc : OsMalloc) (dir : Directory) (ns : CString) : OSStatus × Directory :=
  if malloc .clearNamespace then
    match dir.findWith malloc ns with
    | some slot => (.kNoErr, dir.set slot .free)
    | none => (.kGeneralErr, dir)
  else (.kGeneralErr, dir)

def ensure (malloc : OsMalloc) (dir : Directory) (ns : CString) : OSStatus × Directory :=
  match dir.findWith malloc ns with
  | some _ => (.kNoErr, dir)
  | none =>
    match dir.allocate malloc ns with
    | some (_, dir) => (.kNoErr, dir)
    | none => (.kGeneralErr, dir)

/-- What a read returns, before it is clipped to the caller's buffer. -/
def lookupWith (malloc : OsMalloc) (dir : Directory) (ns name : CString) : Option (List UInt8) :=
  (dir.findWith malloc ns).bind fun slot => (dir.logAt slot).lookupWith malloc name

end Directory

end BekenSdk.KeyValue
