import BekenSdk.Base.Bytes
import BekenSdk.Base.CData

/-! Records of a type, a length and that many bytes, one after the other. Whoever
looks for a type goes from record to record by their lengths; a record can be
written over in place by one of the same length.
-/

set_option autoImplicit false

namespace BekenSdk.Base

/-- The bytes of a region are exchanged for as many others. -/
theorem Holds.replace {cells : Cells} {addr : Nat} {before old new after : List UInt8}
    (held : Holds cells addr (before ++ old ++ after)) (same : new.length = old.length) :
    Holds (storeBytes cells (addr + before.length) new) addr (before ++ new ++ after) := by
  obtain ⟨front, back⟩ := (holds_append _ _ _ _).mp held
  obtain ⟨front, -⟩ := (holds_append _ _ _ _).mp front
  refine (holds_append _ _ _ _).mpr ⟨(holds_append _ _ _ _).mpr ⟨?_, holds_storeBytes _ _ _⟩, ?_⟩
  · exact front.congr fun a _ high => storeBytes_outside (.inl high)
  · rw [List.length_append, same, ← List.length_append]
    refine back.congr fun a low _ => storeBytes_outside (.inr ?_)
    rw [same]
    rw [List.length_append] at low
    omega

/-- A little-endian word. -/
def readWord (cells : Cells) (addr : Nat) : Nat := fromLe (readBytes cells addr 4)

theorem Holds.word {cells : Cells} {addr n : Nat} {rest : List UInt8} (held : Holds cells addr (le32 n ++ rest))
    (small : n < 2 ^ 32) : readWord cells addr = n := by
  have word := ((holds_append _ _ _ _).mp held).1
  rw [readWord, word.read_of_length (le32_length n), fromLe_le32 small]

structure Tlv where
  type : Nat
  field : List UInt8
  typeSmall : type < 2 ^ 32
  fieldSmall : field.length < 2 ^ 32

namespace Tlv

def header (type len : Nat) : List UInt8 := le32 type ++ le32 len

@[simp] theorem header_length (type len : Nat) : (header type len).length = 8 := rfl

def toBytes (record : Tlv) : List UInt8 := header record.type record.field.length ++ record.field

theorem toBytes_length (record : Tlv) : record.toBytes.length = 8 + record.field.length := by
  rw [toBytes, List.length_append, header_length]

/-- The address of the first record of the type, or the end or what lies behind it. -/
def walk (cells : Cells) (type last addr : Nat) : Nat :=
  if addr < last then
    if type ≠ readWord cells addr then walk cells type last (addr + 8 + readWord cells (addr + 4)) else addr
  else
    addr
termination_by last - addr

section
variable {cells : Cells} {type len last addr : Nat} {record : Tlv} {rest : List UInt8}

theorem header_type (held : Holds cells addr (header type len ++ rest)) (small : type < 2 ^ 32) :
    readWord cells addr = type := by
  rw [header, List.append_assoc] at held
  exact held.word small

theorem header_len (held : Holds cells addr (header type len ++ rest)) (small : len < 2 ^ 32) :
    readWord cells (addr + 4) = len := by
  rw [header, List.append_assoc] at held
  exact ((holds_append _ _ _ _).mp held).2.word small

theorem read_type (held : Holds cells addr (record.toBytes ++ rest)) : readWord cells addr = record.type := by
  rw [toBytes, List.append_assoc] at held
  exact header_type held record.typeSmall

theorem read_len (held : Holds cells addr (record.toBytes ++ rest)) :
    readWord cells (addr + 4) = record.field.length := by
  rw [toBytes, List.append_assoc] at held
  exact header_len held record.fieldSmall

theorem read_field (held : Holds cells addr (record.toBytes ++ rest)) : Holds cells (addr + 8) record.field := by
  have whole := ((holds_append _ _ _ _).mp held).1
  rw [toBytes] at whole
  exact ((holds_append _ _ _ _).mp whole).2

/-! ## Walking -/

theorem walk_end (ended : last ≤ addr) : walk cells type last addr = addr := by
  rw [walk, if_neg (Nat.not_lt.mpr ended)]

theorem walk_here (before : addr < last) (same : readWord cells addr = type) : walk cells type last addr = addr := by
  rw [walk, if_pos before, if_neg (not_not.mpr same.symm)]

/-- Records of other types are passed. -/
theorem walk_past {records : List Tlv} (held : Holds cells addr (records.flatMap toBytes ++ rest))
    (others : ∀ record ∈ records, record.type ≠ type) (fits : addr + (records.flatMap toBytes).length ≤ last) :
    walk cells type last addr = walk cells type last (addr + (records.flatMap toBytes).length) := by
  induction records generalizing addr with
  | nil => rfl
  | cons record records ih =>
    rw [List.flatMap_cons, List.append_assoc] at held
    rw [List.flatMap_cons, List.length_append] at fits ⊢
    have long := record.toBytes_length
    have other : type ≠ readWord cells addr := by
      rw [read_type held]
      exact (others record List.mem_cons_self).symm
    have before : addr < last := by omega
    have next : addr + 8 + readWord cells (addr + 4) = addr + record.toBytes.length := by
      rw [read_len held, long, Nat.add_assoc]
    rw [walk, if_pos before, if_pos other, next, ← Nat.add_assoc]
    have behind := ((holds_append _ _ _ _).mp held).2
    exact ih behind (fun r member => others r (List.mem_cons_of_mem _ member)) (by omega)

end

end Tlv

end BekenSdk.Base
