import Mathlib.Data.List.Basic
import Mathlib.Data.UInt
import Mathlib.Tactic.Common

/-! C data as bytes: little-endian 32-bit words and NUL-terminated strings.
A `CString` is the text before the terminator, so it never contains one. A
fixed-width character field holds a string padded with NUL bytes, and `memcmp`
with `strlen` on such a field decide whether it holds a given string.
-/

set_option autoImplicit false

namespace BekenSdk.Base

/-! ## Words -/

def le32 (n : Nat) : List UInt8 :=
  [UInt8.ofNat n, UInt8.ofNat (n / 2 ^ 8), UInt8.ofNat (n / 2 ^ 16), UInt8.ofNat (n / 2 ^ 24)]

def fromLe : List UInt8 → Nat
  | [] => 0
  | byte :: rest => byte.toNat + 256 * fromLe rest

@[simp] theorem le32_length (n : Nat) : (le32 n).length = 4 := rfl

theorem fromLe_le32 {n : Nat} (bound : n < 2 ^ 32) : fromLe (le32 n) = n := by
  simp only [le32, fromLe, UInt8.toNat_ofNat']
  omega

/-- Sixteen bits in network order. -/
def be16 (n : Nat) : List UInt8 := [UInt8.ofNat (n / 2 ^ 8), UInt8.ofNat n]

@[simp] theorem be16_length (n : Nat) : (be16 n).length = 2 := rfl

theorem fromBe_be16 {n : Nat} (bound : n < 2 ^ 16) :
    (UInt8.ofNat (n / 2 ^ 8)).toNat * 256 + (UInt8.ofNat n).toNat = n := by
  simp only [UInt8.toNat_ofNat']
  omega

/-! ## Strings -/

structure CString where
  chars : List UInt8
  noNul : (0 : UInt8) ∉ chars
  deriving DecidableEq

namespace CString

@[ext] theorem ext {first second : CString} (same : first.chars = second.chars) : first = second := by
  cases first; cases second; cases same; rfl

def strlen (text : CString) : Nat := text.chars.length

/-- The first characters of a string, as `memcpy` of a bounded length keeps them. -/
def truncate (limit : Nat) (text : CString) : CString :=
  ⟨text.chars.take limit, fun member => text.noNul (List.mem_of_mem_take member)⟩

def append (first rest : CString) : CString :=
  ⟨first.chars ++ rest.chars, by simp [first.noNul, rest.noNul]⟩

theorem truncate_strlen_le (limit : Nat) (text : CString) : (text.truncate limit).strlen ≤ limit := by
  simp only [strlen, truncate, List.length_take]; omega

theorem truncate_of_le {limit : Nat} {text : CString} (fits : text.strlen ≤ limit) :
    text.truncate limit = text :=
  CString.ext (List.take_of_length_le fits)

end CString

/-- A character array of the given width holding a string, padded with NUL. -/
def field (width : Nat) (text : CString) : List UInt8 :=
  text.chars ++ List.replicate (width - text.strlen) 0

theorem field_length {width : Nat} {text : CString} (fits : text.strlen ≤ width) :
    (field width text).length = width := by
  simp only [field, List.length_append, List.length_replicate, CString.strlen] at *; omega

/-- `strlen` of the bytes from a pointer on: the number before the first NUL. -/
def strlenAt (bytes : List UInt8) : Nat := (bytes.takeWhile (· ≠ 0)).length

/-- `0 == memcmp(bytes, text, len)`; the text's terminator takes part in the comparison. -/
def memcmpEq (bytes : List UInt8) (text : CString) (len : Nat) : Bool :=
  bytes.take len = (text.chars ++ [0]).take len

/-- `0 == strncmp(first, second, len)`; the comparison stops at a terminator. -/
def strncmpEq (first second : CString) (len : Nat) : Bool :=
  (first.chars ++ [0]).take len = (second.chars ++ [0]).take len

/-- Bounded by the length of one string, the comparison is for a prefix. -/
theorem strncmpEq_iff {text query : CString} :
    strncmpEq text query query.strlen = true ↔ query.chars <+: text.chars := by
  rw [strncmpEq, decide_eq_true_iff, CString.strlen, List.take_left]
  constructor
  · intro same
    have start : query.chars <+: text.chars ++ [0] := same ▸ List.take_prefix _ _
    rcases List.prefix_concat_iff.mp start with whole | start
    · exact absurd (whole ▸ List.mem_append_right _ List.mem_cons_self) query.noNul
    · exact start
  · rintro ⟨rest, whole⟩
    rw [← whole, List.append_assoc, List.take_left]

/-- The text a field holds, read up to its padding. -/
theorem takeWhile_field {width : Nat} {text : CString} (fits : text.strlen < width) (rest : List UInt8) :
    (field width text ++ rest).takeWhile (· ≠ 0) = text.chars := by
  have pad : width - text.strlen = (width - text.strlen - 1) + 1 := by omega
  have plain : ∀ c ∈ text.chars, (c ≠ 0) = true := by
    intro c member
    have other : c ≠ 0 := fun same => text.noNul (same ▸ member)
    simp [other]
  rw [field, pad, List.replicate_succ, List.append_assoc, List.takeWhile_append_of_pos (by simpa using plain)]
  simp

theorem strlenAt_field {width : Nat} {text : CString} (fits : text.strlen < width) (rest : List UInt8) :
    strlenAt (field width text ++ rest) = text.strlen := by
  rw [strlenAt, takeWhile_field fits, CString.strlen]

/-- A bounded prefix comparison and the length comparison together decide equality. -/
theorem field_matches {width limit : Nat} {stored : CString} (text : CString) (rest : List UInt8)
    (bound : limit < width) (fits : stored.strlen ≤ limit) :
    (memcmpEq (field width stored) text (min text.strlen limit) = true ∧
      strlenAt (field width stored ++ rest) = text.strlen) ↔ stored = text := by
  rw [strlenAt_field (by omega)]
  constructor
  · rintro ⟨prefixSame, lengthSame⟩
    have whole : min text.strlen limit = text.strlen := by omega
    rw [memcmpEq, whole] at prefixSame
    have sides := of_decide_eq_true prefixSame
    rw [field, ← lengthSame, CString.strlen, List.take_left] at sides
    have right : (text.chars ++ [0]).take stored.chars.length = text.chars := by
      have same : stored.chars.length = text.chars.length := lengthSame
      rw [same, List.take_left]
    exact CString.ext (sides.trans right)
  · rintro rfl
    have whole : min stored.strlen limit = stored.strlen := by omega
    rw [memcmpEq, whole]
    refine ⟨decide_eq_true ?_, rfl⟩
    rw [field, CString.strlen, List.take_left, List.take_left]

end BekenSdk.Base
