import BekenSdk.TextConv.Conversion

/-! Where the two conversions stay inside their buffers. The block of `conv_utf8` has three bytes for every two of the
input, so one byte that is not part of a character is one too many; the table ends five rows before the last
character that is looked up. The block of `Utf8ToGb2312` has no room for the terminator unless a character got
shorter.
-/

set_option autoImplicit false

namespace BekenSdk.TextConv
open Base

variable {t : Tables} {len block : Nat} {first rest log : List Access}

@[simp] theorem allInside_nil : AllInside len block [] := fun _ none => absurd none (List.not_mem_nil)

theorem allInside_append : AllInside len block (first ++ rest) ↔ AllInside len block first ∧ AllInside len block rest :=
  List.forall_mem_append

@[simp] theorem allInside_cons {access : Access} :
    AllInside len block (access :: rest) ↔ access.Inside len block ∧ AllInside len block rest :=
  List.forall_mem_cons

/-! ## What a text is made of -/

/-- What `conv_utf8` takes a text for: characters of two bytes, and single bytes. -/
inductive Glyph
  | pair (hi low : UInt8)
  | single (b : UInt8)
  deriving DecidableEq

def Glyph.isSingle : Glyph → Bool
  | .pair _ _ => false
  | .single _ => true

def glyphs : List UInt8 → List Glyph
  | [] => []
  | hi :: rest =>
    if 0xB0 ≤ hi ∧ hi ≤ 0xF7 ∧ 0xA1 ≤ rest.headD 0 ∧ rest.headD 0 ≤ 0xFE then
      .pair hi (rest.headD 0) :: glyphs rest.tail
    else .single hi :: glyphs rest
  termination_by text => text.length
  decreasing_by all_goals simp [List.length_tail]; try omega

/-- Every character has a row, and there is not exactly one single byte. -/
structure Convertible (text : List UInt8) : Prop where
  rows : ∀ hi low, Glyph.pair hi low ∈ glyphs text → hi = 0xF7 → low < 0xFA
  singles : (glyphs text).countP Glyph.isSingle ≠ 1

/-- The bytes that a character takes in the text by its first byte. -/
def taken (nbyte : Nat) : Nat := if 2 ≤ nbyte ∧ nbyte ≤ 6 then nbyte else 1

/-- The bytes by which it gets shorter. -/
def dropped (nbyte : Nat) : Nat :=
  if nbyte = 0 ∨ nbyte = 2 then 0 else if nbyte = 3 then 1 else taken nbyte

/-- A character of a text: the leading ones of its first byte, and the bytes from there to the end of the text. -/
structure Lead where
  nbyte : Nat
  left : Nat

def leads : List UInt8 → List Lead
  | [] => []
  | b :: rest => ⟨getUtf8ByteNumForWord b, rest.length + 1⟩ :: leads (rest.drop (taken (getUtf8ByteNumForWord b) - 1))
  termination_by text => text.length
  decreasing_by rw [List.length_drop, List.length_cons]; omega

/-- The bytes that the last character of a text lacks. -/
def missing (text : List UInt8) : Nat := ((leads text).map fun c => taken c.nbyte - c.left).sum

def shrink (text : List UInt8) : Nat := ((leads text).map fun c => dropped c.nbyte).sum

/-- The text does not end in the first byte of a character of three, and more bytes are dropped than are missing. -/
structure Shortened (text : List UInt8) : Prop where
  second : ∀ c ∈ leads text, c.nbyte = 3 → 2 ≤ c.left
  room : missing text < shrink text

/-! ## `conv_utf8` -/

/-- The row of a character: 94 to a district. -/
theorem convUtf8ForGb2312_row {hi low : UInt8}
    (char : 0xB0 ≤ hi ∧ hi ≤ 0xF7 ∧ 0xA1 ≤ low ∧ low ≤ 0xFE) :
    ∃ row, convUtf8ForGb2312 hi low = some row ∧ row.toNat = (hi.toNat - 0xB0) * 94 + (low.toNat - 0xA1) := by
  obtain ⟨above, below, lowAbove, lowBelow⟩ := char
  unfold convUtf8ForGb2312
  rw [if_neg (by simp only [UInt8.lt_iff_toNat_lt, UInt8.le_iff_toNat_le, gt_iff_lt] at *; omega),
    if_neg (by simp only [UInt8.lt_iff_toNat_lt, UInt8.le_iff_toNat_le, gt_iff_lt] at *; omega)]
  refine ⟨_, rfl, ?_⟩
  have hiRange : 0xB0 ≤ hi.toNat ∧ hi.toNat ≤ 0xF7 := ⟨above, below⟩
  have lowRange : 0xA1 ≤ low.toNat ∧ low.toNat ≤ 0xFE := ⟨lowAbove, lowBelow⟩
  simp only [UInt16.toNat_sub, UInt16.toNat_add, UInt16.toNat_mul, UInt16.toNat_shiftLeft, UInt8.toNat_toUInt16,
    UInt16.reduceToNat, UInt16.reduceAdd, Nat.shiftLeft_eq, Nat.reduceMod, Nat.reducePow, Nat.reduceSub]
  omega

theorem convUtf8ForGb2312_none {hi low : UInt8}
    (other : ¬(0xB0 ≤ hi ∧ hi ≤ 0xF7 ∧ 0xA1 ≤ low ∧ low ≤ 0xFE)) : convUtf8ForGb2312 hi low = none := by
  unfold convUtf8ForGb2312
  by_cases hiOut : hi < 0xB0 ∨ hi > 0xF7
  · rw [if_pos hiOut]
  · rw [if_neg hiOut, if_pos]
    simp only [UInt8.lt_iff_toNat_lt, UInt8.le_iff_toNat_le, gt_iff_lt] at *
    omega

/-- The bytes that a glyph takes in the output. -/
def Glyph.width : Glyph → Nat
  | .pair _ _ => 3
  | .single _ => 1

/-- The output of the loop, and when it is inside. -/
theorem convUtf8Loop_spec (text : List UInt8) (out : Out) :
    let after := convUtf8Loop t text out
    after.next = out.next + ((glyphs text).map Glyph.width).sum ∧
    (AllInside len block after.log ↔ AllInside len block out.log ∧
      (∀ hi low, Glyph.pair hi low ∈ glyphs text → hi = 0xF7 → low < 0xFA) ∧ (after.next = out.next ∨ after.next ≤ block)) := by
  fun_induction glyphs text generalizing out with
  | case1 => simp [convUtf8Loop]
  | case2 hi rest char ih =>
    obtain ⟨row, found, number⟩ := convUtf8ForGb2312_row char
    rw [convUtf8Loop, found]
    dsimp only
    obtain ⟨next, inside⟩ := ih (out.copyRow t row.toNat)
    have forward : (out.copyRow t row.toNat).next = out.next + 3 := rfl
    rw [forward] at next inside
    refine ⟨by rw [next, List.map_cons, List.sum_cons, Glyph.width]; omega, ?_⟩
    rw [inside, show (out.copyRow t row.toNat).log = out.log ++ _ from rfl, allInside_append]
    have tableEnd : row.toNat < gb2312Utf8Rows ↔ (hi = 0xF7 → rest.headD 0 < 0xFA) := by
      obtain ⟨above, below, lowAbove, lowBelow⟩ := char
      rw [number, ← UInt8.toNat_inj]
      simp only [gb2312Utf8Rows, UInt8.lt_iff_toNat_lt, UInt8.le_iff_toNat_le, UInt8.reduceToNat] at *
      omega
    simp only [allInside_cons, allInside_nil, Access.Inside, tableEnd, List.mem_cons, Glyph.pair.injEq, and_true]
    constructor
    · rintro ⟨⟨before, row, _, _, last⟩, rows, fits⟩
      refine ⟨before, ?_, by omega⟩
      rintro hi' low' (⟨rfl, rfl⟩ | later)
      · exact row
      · exact rows hi' low' later
    · rintro ⟨before, rows, fits⟩
      refine ⟨⟨before, rows hi _ (Or.inl ⟨rfl, rfl⟩), by omega, by omega, by omega⟩, ?_, by omega⟩
      exact fun hi' low' later => rows hi' low' (Or.inr later)
  | case3 hi rest other ih =>
    rw [convUtf8Loop, convUtf8ForGb2312_none other]
    dsimp only
    obtain ⟨next, inside⟩ := ih (out.copyByte hi)
    have forward : (out.copyByte hi).next = out.next + 1 := rfl
    rw [forward] at next inside
    refine ⟨by rw [next, List.map_cons, List.sum_cons, Glyph.width]; omega, ?_⟩
    rw [inside, show (out.copyByte hi).log = out.log ++ _ from rfl, allInside_append]
    simp only [allInside_cons, allInside_nil, Access.Inside, List.mem_cons, reduceCtorEq, false_or, and_true]
    constructor
    · rintro ⟨⟨before, here⟩, rows, fits⟩
      exact ⟨before, rows, by omega⟩
    · rintro ⟨before, rows, fits⟩
      exact ⟨⟨before, by omega⟩, rows, by omega⟩

/-- A text and its output, by its single bytes. -/
theorem glyphs_sizes (text : List UInt8) :
    ∃ pairs, text.length = 2 * pairs + (glyphs text).countP Glyph.isSingle ∧
      ((glyphs text).map Glyph.width).sum = 3 * pairs + (glyphs text).countP Glyph.isSingle := by
  fun_induction glyphs text with
  | case1 => exact ⟨0, rfl, rfl⟩
  | case2 hi rest char ih =>
    obtain ⟨pairs, size, output⟩ := ih
    have second : rest ≠ [] := by
      rintro rfl
      exact absurd char.2.2.1 (by decide)
    have shorter : rest.length = rest.tail.length + 1 := by
      have := List.length_pos_of_ne_nil second
      rw [List.length_tail]
      omega
    refine ⟨pairs + 1, ?_, ?_⟩
    · rw [List.length_cons, shorter, size, List.countP_cons_of_neg Bool.false_ne_true]
      omega
    · rw [List.map_cons, List.sum_cons, output, List.countP_cons_of_neg Bool.false_ne_true, Glyph.width]
      omega
  | case3 hi rest _ ih =>
    obtain ⟨pairs, size, output⟩ := ih
    refine ⟨pairs, ?_, ?_⟩
    · rw [List.length_cons, size, List.countP_cons_of_pos rfl]
      omega
    · rw [List.map_cons, List.sum_cons, output, List.countP_cons_of_pos rfl, Glyph.width]
      omega

theorem convUtf8_inside_iff (fresh : Cells) (input : CString) :
    AllInside input.bytes.length (convUtf8Size input) (convUtf8 t (some fresh) input).2 ↔ Convertible input.bytes := by
  obtain ⟨next, inside⟩ := @convUtf8Loop_spec t input.bytes.length (convUtf8Size input)
    input.bytes ⟨fresh, 0, []⟩
  obtain ⟨pairs, size, output⟩ := glyphs_sizes input.bytes
  dsimp only [convUtf8]
  rw [show ∀ out : Out, (out.copyByte 0).log = out.log ++ [.blockWrite out.next] from fun _ => rfl, allInside_append,
    inside]
  rw [output] at next
  simp only [allInside_nil, allInside_cons, Access.Inside, true_and, and_true, convUtf8Size] at *
  constructor
  · rintro ⟨⟨rows, _⟩, last⟩
    exact ⟨rows, by omega⟩
  · rintro ⟨rows, singles⟩
    exact ⟨⟨rows, by omega⟩, by omega⟩

/-! ## `Utf8ToGb2312` -/

theorem searchCodeTable_inside (key : UInt16) : AllInside len block (searchCodeTable t key).2 := by
  have loop : ∀ first last : Int, 0 ≤ first → last < unicodeToGb2312Rows →
      AllInside len block (searchCodeTableLoop t key first last).2 := by
    intro first last low high
    fun_induction searchCodeTableLoop t key first last with
    | case1 first last some_row mid =>
      exact allInside_cons.mpr ⟨⟨by omega, by omega⟩, allInside_nil⟩
    | case2 first last some_row mid _ _ found ih =>
      exact allInside_cons.mpr ⟨⟨by omega, by omega⟩, ih low (by omega)⟩
    | case3 first last some_row mid _ _ found ih =>
      exact allInside_cons.mpr ⟨⟨by omega, by omega⟩, ih (by omega) high⟩
    | case4 => exact allInside_nil
  exact loop 0 _ (by decide) (by simp [unicodeToGb2312Rows])

/-- What one pass does to the two positions, and when it is inside. -/
theorem Work.convert_spec (utf8 : Cells) (w : Work) (more : w.i < len) :
    let nbyte := getUtf8ByteNumForWord (utf8 w.i)
    let after := w.convert t utf8
    after.i = w.i + taken nbyte ∧ after.j + dropped nbyte = w.j + taken nbyte ∧
    (w.j ≤ len → (AllInside len len after.log ↔
      AllInside len len w.log ∧ (nbyte = 3 → w.i + 2 ≤ len) ∧ after.j ≤ len)) := by
  unfold Work.convert dropped taken
  generalize getUtf8ByteNumForWord (utf8 w.i) = nbyte
  dsimp only
  split
  case h_3 =>
    refine ⟨rfl, rfl, fun fits => ?_⟩
    have rows := @searchCodeTable_inside t len len
    simp only [allInside_append, allInside_cons, allInside_nil, Access.Inside, rows, and_true, true_implies]
    constructor
    · rintro ⟨before, reads, _⟩
      exact ⟨before, by omega, by omega⟩
    · rintro ⟨before, reads, writes⟩
      exact ⟨before, by omega, by omega⟩
  case h_7 zero two three four five six =>
    have other : nbyte ≠ 0 ∧ nbyte ≠ 2 ∧ nbyte ≠ 3 ∧ nbyte ≠ 4 ∧ nbyte ≠ 5 ∧ nbyte ≠ 6 :=
      ⟨zero, two, three, four, five, six⟩
    rw [if_neg (by omega), if_neg (by omega), if_neg other.2.2.1]
    refine ⟨rfl, rfl, fun fits => ?_⟩
    simp only [allInside_append, allInside_cons, allInside_nil, Access.Inside, and_true]
    constructor
    · exact fun ⟨before, _⟩ => ⟨before, fun is => absurd is three, fits⟩
    · exact fun ⟨before, _⟩ => ⟨before, by omega⟩
  all_goals
    refine ⟨rfl, rfl, fun fits => ?_⟩
    simp only [allInside_append, allInside_cons, allInside_nil, Access.Inside, and_true]
    constructor
    · rintro ⟨before, accesses⟩
      exact ⟨before, nofun, by omega⟩
    · rintro ⟨before, _, writes⟩
      exact ⟨before, by omega⟩

theorem dropped_le_taken (nbyte : Nat) : dropped nbyte ≤ taken nbyte := by
  unfold dropped taken
  split_ifs <;> omega

theorem Work.convert_extends (utf8 : Cells) (w : Work) : ∃ more, (w.convert t utf8).log = w.log ++ more := by
  unfold Work.convert
  split <;> exact ⟨_, rfl⟩

/-- What is written stays written. -/
theorem utf8ToGb2312Loop_extends (utf8 : Cells) (w : Work) :
    let after := utf8ToGb2312Loop t utf8 len w
    w.j ≤ after.j ∧ ∃ more, after.log = w.log ++ more := by
  dsimp only
  fun_induction utf8ToGb2312Loop t utf8 len w with
  | case1 w more ih =>
    obtain ⟨_, j, _⟩ := w.convert_spec (t := t) utf8 more
    obtain ⟨first, logged⟩ := w.convert_extends (t := t) utf8
    obtain ⟨further, rest, extended⟩ := ih
    have less := dropped_le_taken (getUtf8ByteNumForWord (utf8 w.i))
    exact ⟨by omega, first ++ rest, by rw [extended, logged, List.append_assoc]⟩
  | case2 => exact ⟨Nat.le_refl _, [], (List.append_nil _).symm⟩

/-- The loop at a place in the text: what it writes is what it takes, less what is dropped. -/
theorem utf8ToGb2312Loop_spec (input : CString) (beyond : Cells) (w : Work) :
    let text := input.bytes.drop w.i
    let len := input.bytes.length
    let after := utf8ToGb2312Loop t (input.memory beyond) len w
    after.j + shrink text = w.j + text.length + missing text ∧
    (w.j ≤ len → (AllInside len len after.log ↔
      AllInside len len w.log ∧ (∀ c ∈ leads text, c.nbyte = 3 → 2 ≤ c.left) ∧ after.j ≤ len)) := by
  dsimp only
  fun_induction utf8ToGb2312Loop t (input.memory beyond) input.bytes.length w with
  | case1 w more ih =>
    obtain ⟨i, j, inside⟩ := w.convert_spec (t := t) (input.memory beyond) more
    obtain ⟨output, later⟩ := ih
    obtain ⟨further, others, extended⟩ :=
      @utf8ToGb2312Loop_extends t input.bytes.length (input.memory beyond) (w.convert t (input.memory beyond))
    have here : input.memory beyond w.i = input.bytes.get ⟨w.i, more⟩ := by
      unfold CString.memory
      rw [if_pos more, List.getD_eq_getElem?_getD, List.getElem?_eq_getElem more]
      rfl
    rw [here] at i j inside
    have split : input.bytes.drop w.i = input.bytes.get ⟨w.i, more⟩ :: input.bytes.drop (w.i + 1) :=
      List.drop_eq_getElem_cons more
    generalize input.bytes.get ⟨w.i, more⟩ = b at *
    generalize w.convert t (input.memory beyond) = next at *
    generalize utf8ToGb2312Loop t (input.memory beyond) input.bytes.length next = after at *
    have atLeast : 1 ≤ taken (getUtf8ByteNumForWord b) := by
      unfold taken
      split <;> omega
    have less := dropped_le_taken (getUtf8ByteNumForWord b)
    have rest : (input.bytes.drop (w.i + 1)).drop (taken (getUtf8ByteNumForWord b) - 1) = input.bytes.drop next.i := by
      rw [List.drop_drop, i]
      congr 1
      omega
    unfold shrink missing at *
    rw [split, leads, rest]
    generalize leads (input.bytes.drop next.i) = others at *
    simp only [List.map_cons, List.sum_cons, List.length_cons, List.length_drop] at *
    refine ⟨by omega, fun fits => ?_⟩
    rw [List.forall_mem_cons]
    by_cases room : next.j ≤ input.bytes.length
    · rw [later room, inside fits]
      constructor
      · rintro ⟨⟨before, second, _⟩, seconds, last⟩
        exact ⟨before, ⟨fun three => by have := second three; dsimp only; omega, seconds⟩, last⟩
      · rintro ⟨before, ⟨second, seconds⟩, last⟩
        exact ⟨⟨before, fun three => by have := second three; dsimp only at this; omega, room⟩, seconds, last⟩
    · constructor
      · intro all
        rw [extended, allInside_append, inside fits] at all
        exact absurd all.1.2.2 room
      · exact fun ⟨_, _, last⟩ => absurd (Nat.le_trans further last) room
  | case2 w done =>
    rw [List.drop_eq_nil_of_le (Nat.not_lt.mp done)]
    simp [leads, shrink, missing]
    exact fun fits _ => fits

/-- The accesses of `Utf8ToGb2312` to a text that is not empty. -/
theorem utf8ToGb2312_inside_iff (fresh : Cells) (input : CString) (beyond : Cells) :
    AllInside input.bytes.length input.bytes.length (utf8ToGb2312 t (some fresh) input beyond).2 ↔
      input.bytes = [] ∨ Shortened input.bytes := by
  unfold utf8ToGb2312
  dsimp only
  split
  case isTrue empty =>
    exact iff_of_true allInside_nil (Or.inl (List.length_eq_zero_iff.mp empty))
  case isFalse some_text =>
    obtain ⟨output, inside⟩ := utf8ToGb2312Loop_spec (t := t) input beyond ⟨0, 0, fresh, []⟩
    specialize inside (Nat.zero_le _)
    generalize utf8ToGb2312Loop t (input.memory beyond) input.bytes.length ⟨0, 0, fresh, []⟩ = w at *
    have back : AllInside input.bytes.length input.bytes.length ((List.range (w.j + 1)).map .inputWrite) ↔
        w.j ≤ input.bytes.length := by
      simp only [AllInside, List.forall_mem_map, List.mem_range, Access.Inside]
      exact ⟨fun all => all w.j (Nat.lt_succ_self _), fun last j inside => by omega⟩
    rw [List.drop_zero] at output inside
    rw [allInside_append, allInside_append, inside, back, allInside_cons]
    simp only [allInside_nil, Access.Inside, true_and, and_true, Nat.zero_add] at *
    constructor
    · rintro ⟨⟨⟨seconds, _⟩, last⟩, _⟩
      exact Or.inr ⟨seconds, by omega⟩
    · rintro (empty | ⟨seconds, room⟩)
      · exact absurd (List.length_eq_zero_iff.mpr empty) some_text
      · exact ⟨⟨⟨seconds, by omega⟩, by omega⟩, by omega⟩

/-! ## The whole of it -/

/-- `conv_utf8` writes inside its block and looks at rows that are there, whether or not it gets the block. -/
def ConvInside (t : Tables) (fresh : Option Cells) (input : CString) : Prop :=
  AllInside input.bytes.length (convUtf8Size input) (convUtf8 t fresh input).2

/-- `Utf8ToGb2312` reads the input, writes inside a block of the input's length, and writes back what fits. -/
def BackInside (t : Tables) (fresh : Option Cells) (input : CString) (beyond : Cells) : Prop :=
  AllInside input.bytes.length input.bytes.length (utf8ToGb2312 t fresh input beyond).2

theorem conversions_inside_iff (t : Tables) (fresh : Option Cells) (input : CString) (beyond : Cells) :
    (ConvInside t fresh input ↔ fresh = none ∨ Convertible input.bytes) ∧
      (BackInside t fresh input beyond ↔ fresh = none ∨ input.bytes = [] ∨ Shortened input.bytes) := by
  cases fresh with
  | none =>
    refine ⟨iff_of_true allInside_nil (Or.inl rfl), iff_of_true ?_ (Or.inl rfl)⟩
    unfold BackInside utf8ToGb2312
    dsimp only
    split <;> exact allInside_nil
  | some fresh =>
    refine ⟨(convUtf8_inside_iff fresh input).trans ?_, (utf8ToGb2312_inside_iff fresh input beyond).trans ?_⟩
    all_goals exact (or_iff_right nofun).symm

def letter : CString where
  bytes := [0x41]
  noNul b here := by
    rw [List.mem_singleton.mp here]
    decide

/-- One letter: both functions write a letter and a terminator into a block of one byte. -/
theorem letter_overflows :
    ¬ConvInside ⟨fun _ => [], fun _ => (0, 0)⟩ (some fun _ => 0) letter ∧
      ¬BackInside ⟨fun _ => [], fun _ => (0, 0)⟩ (some fun _ => 0) letter fun _ => 0 := by
  have ascii : getUtf8ByteNumForWord 0x41 = 0 := by
    unfold getUtf8ByteNumForWord leadingOnes
    rfl
  constructor
  · intro inside
    have written := inside (.blockWrite 1) (by simp [letter, convUtf8, convUtf8Loop, convUtf8ForGb2312, Out.copyByte])
    exact absurd written (Nat.lt_irrefl 1)
  · intro inside
    have written := inside (.blockWrite 1) (by
      simp [letter, utf8ToGb2312, utf8ToGb2312Loop, Work.convert, CString.memory, ascii])
    exact absurd written (Nat.lt_irrefl 1)

end BekenSdk.TextConv
