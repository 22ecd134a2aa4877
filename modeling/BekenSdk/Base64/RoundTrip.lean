import Mathlib.Data.List.Basic
import Mathlib.Tactic.IntervalCases

/-! The base64 coder (base_64.c). Counters are unsigned and 32 bits wide, characters are bytes. A result holds
the bytes stored from `out` on, in order.
-/

set_option autoImplicit false

namespace BekenSdk.Base64

def charCode (symbol : Char) : UInt8 := UInt8.ofNat symbol.toNat

def base64Table : List UInt8 :=
  ['A', 'B', 'C', 'D', 'E', 'F', 'G', 'H', 'I', 'J', 'K', 'L', 'M', 'N', 'O', 'P', 'Q', 'R', 'S', 'T', 'U', 'V',
    'W', 'X', 'Y', 'Z', 'a', 'b', 'c', 'd', 'e', 'f', 'g', 'h', 'i', 'j', 'k', 'l', 'm', 'n', 'o', 'p', 'q', 'r',
    's', 't', 'u', 'v', 'w', 'x', 'y', 'z', '0', '1', '2', '3', '4', '5', '6', '7', '8', '9', '+', '/'].map charCode

/-- base_64_table[index]. -/
def tableAt (index : UInt8) : UInt8 := base64Table.getD index.toNat 0

/-! ## Encoding -/

def base64CalcEncodeLength (srcLen : UInt32) : UInt32 :=
  let encLen := srcLen * 4 / 3 + 4
  let encLen := encLen + encLen / 72
  encLen + 1

structure EncodeResult where
  ret : UInt8
  /-- What `out_len` points to; it may be NULL. -/
  outLen : Option Int
  stored : List UInt8

/-- What the four characters of three bytes are looked up with. -/
def sextets (first second third : UInt8) : List UInt8 :=
  [first >>> 2, ((first &&& 0x03) <<< 4) ||| (second >>> 4), ((second &&& 0x0f) <<< 2) ||| (third >>> 6),
    third &&& 0x3f]

/-- The code after the loop, up to the terminator. -/
def encodeTail (lineLen : Nat) : List UInt8 → List UInt8
  | [first] => [tableAt (first >>> 2), tableAt ((first &&& 0x03) <<< 4), charCode '=', charCode '=', charCode '\n']
  | first :: second :: _ =>
    [tableAt (first >>> 2), tableAt (((first &&& 0x03) <<< 4) ||| (second >>> 4)), tableAt ((second &&& 0x0f) <<< 2),
      charCode '=', charCode '\n']
  | [] => if lineLen = 0 then [] else [charCode '\n']

def encodeRounds (lineLen : Nat) : List UInt8 → List UInt8
  | first :: second :: third :: rest =>
    (sextets first second third).map tableAt ++
      if lineLen + 4 ≥ 72 then charCode '\n' :: encodeRounds 0 rest else encodeRounds (lineLen + 4) rest
  | rest => encodeTail lineLen rest

def base64Encode (outGiven : Bool) (outLen : Option Int) (src : List UInt8) : EncodeResult :=
  if outGiven = false then ⟨0, outLen, []⟩
  else
    let symbols := encodeRounds 0 src
    ⟨1, outLen.map fun _ => symbols.length, symbols ++ [0]⟩

/-! ## Decoding -/

/-- The entry of a character after `dtable` was filled: the last store to it counts. -/
def dtable (symbol : UInt8) : UInt8 :=
  if symbol = charCode '=' then 0
  else (List.range 64).foldl (fun entry i => if symbol = tableAt (UInt8.ofNat i) then UInt8.ofNat i else entry) 0x80

def isSymbol (symbol : UInt8) : Bool := dtable symbol ≠ 0x80

/-- The counting loop of both functions. -/
def countSymbols (src : List UInt8) : UInt32 := UInt32.ofNat (src.countP isSymbol)

/-- `granted` is whether os_zalloc had room for the table. -/
def base64CalcDecodeLength (granted : Bool) (src : List UInt8) : UInt32 :=
  if granted = false then 0
  else
    let decLen := countSymbols src
    if decLen % 4 ≠ 0 then 0 else decLen

abbrev Quad := Vector UInt8 4

structure Decoder where
  stored : List UInt8
  inChars : Quad
  block : Quad
  count : Nat

/-- One round of the second loop. -/
def Decoder.take (decoder : Decoder) (symbol : UInt8) : Decoder :=
  let tmp := dtable symbol
  if tmp = 0x80 then decoder
  else
    let inChars := decoder.inChars.setIfInBounds decoder.count symbol
    let block := decoder.block.setIfInBounds decoder.count tmp
    let count := decoder.count + 1
    if count = 4 then
      { stored := decoder.stored ++ [(block[0] <<< 2) ||| (block[1] >>> 4), (block[1] <<< 4) ||| (block[2] >>> 2),
          (block[2] <<< 6) ||| block[3]]
        inChars, block, count := 0 }
    else { decoder with inChars, block, count }

structure DecodeResult where
  ret : UInt8
  outLen : Int
  stored : List UInt8

/-- How far `pos` goes back for the padding. -/
def Decoder.padding (decoder : Decoder) : Nat :=
  if decoder.stored = [] then 0
  else if decoder.inChars[2] = charCode '=' then 2
  else if decoder.inChars[3] = charCode '=' then 1
  else 0

/-- `stack` is what in[] and block[] hold at the start, `outLen` what `out_len` points to. -/
def base64Decode (granted outGiven : Bool) (stack : Quad × Quad) (outLen : Int) (src : List UInt8) : DecodeResult :=
  if granted = false then ⟨0, 0, []⟩
  else
    let count := countSymbols src
    if count % 4 ≠ 0 then ⟨0, outLen, []⟩
    else if outGiven = false then ⟨0, (count * 3 / 4).toNat, []⟩
    else
      let decoder := src.foldl Decoder.take ⟨[], stack.1, stack.2, 0⟩
      ⟨1, decoder.stored.length - decoder.padding, decoder.stored⟩

/-! ## The round trip

What the decoder makes of a text: characters outside the alphabet change nothing, four characters
inside it become three bytes, and the texts of the encoder become what they were made of.
-/

/-! ## Three bytes and four sextets -/

/-- The three bytes of four sextets. -/
def quantum (a b c d : UInt8) : List UInt8 := [(a <<< 2) ||| (b >>> 4), (b <<< 4) ||| (c >>> 2), (c <<< 6) ||| d]

section Bits
variable (first second third : UInt8)

theorem bits_first : ((first >>> 2) <<< 2) ||| ((((first &&& 0x03) <<< 4) ||| (second >>> 4)) >>> 4) = first := by
  apply UInt8.eq_of_toBitVec_eq
  ext i inside
  simp
  interval_cases i <;> simp

theorem bits_second :
    ((((first &&& 0x03) <<< 4) ||| (second >>> 4)) <<< 4) ||| ((((second &&& 0x0f) <<< 2) ||| (third >>> 6)) >>> 2) =
    second := by
  apply UInt8.eq_of_toBitVec_eq
  ext i inside
  simp
  interval_cases i <;> simp

theorem bits_third : ((((second &&& 0x0f) <<< 2) ||| (third >>> 6)) <<< 6) ||| (third &&& 0x3f) = third := by
  apply UInt8.eq_of_toBitVec_eq
  ext i inside
  simp
  interval_cases i <;> simp

/-- Six bits out of two neighbours index the table. -/
theorem sextet_lt (high low : Nat) (highBound : high < 64) (lowBound : low < 64) : high ||| low < 64 :=
  Nat.or_lt_two_pow (n := 6) highBound lowBound

theorem sextets_lt : ∀ index ∈ sextets first second third, index.toNat < 64 := by
  have firstBound := first.toNat_lt
  have secondBound := second.toNat_lt
  have thirdBound := third.toNat_lt
  have firstLow : first.toNat &&& 3 = first.toNat % 4 := Nat.and_two_pow_sub_one_eq_mod _ 2
  have secondLow : second.toNat &&& 15 = second.toNat % 16 := Nat.and_two_pow_sub_one_eq_mod _ 4
  have thirdLow : third.toNat &&& 63 = third.toNat % 64 := Nat.and_two_pow_sub_one_eq_mod _ 6
  simp only [sextets, List.forall_mem_cons, UInt8.toNat_or, UInt8.toNat_shiftRight, UInt8.toNat_shiftLeft,
    UInt8.toNat_and]
  refine ⟨?_, ?_, ?_, ?_, by simp⟩
  · simp [Nat.shiftRight_eq_div_pow]
    omega
  · apply sextet_lt
    · simp [firstLow, Nat.shiftLeft_eq]
      omega
    · simp [Nat.shiftRight_eq_div_pow]
      omega
  · apply sextet_lt
    · simp [secondLow, Nat.shiftLeft_eq]
      omega
    · simp [Nat.shiftRight_eq_div_pow]
      omega
  · simp [thirdLow]
    omega

end Bits

theorem dtable_tableAt (index : UInt8) (inside : index.toNat < 64) : dtable (tableAt index) = index := by
  have entries : ∀ i : Fin 64, dtable (tableAt (UInt8.ofNat i)) = UInt8.ofNat i := by decide +kernel
  simpa using entries ⟨index.toNat, inside⟩

theorem isSymbol_tableAt (index : UInt8) (inside : index.toNat < 64) : isSymbol (tableAt index) = true := by
  simp only [isSymbol, ne_eq, decide_eq_true_eq, dtable_tableAt index inside]
  rintro rfl
  simp at inside

theorem tableAt_ne_pad (index : UInt8) (inside : index.toNat < 64) : tableAt index ≠ charCode '=' := by
  have entries : ∀ i : Fin 64, tableAt (UInt8.ofNat i) ≠ charCode '=' := by decide
  simpa using entries ⟨index.toNat, inside⟩

/-! ## The decoder's rounds -/

theorem quad_set (quad : Quad) (a b c d : UInt8) :
    (((quad.setIfInBounds 0 a).setIfInBounds 1 b).setIfInBounds 2 c).setIfInBounds 3 d = #v[a, b, c, d] := by
  ext i inside
  interval_cases i <;> simp

theorem Decoder.take_foreign (decoder : Decoder) (symbol : UInt8) (foreign : isSymbol symbol = false) :
    decoder.take symbol = decoder := by
  simp only [isSymbol, ne_eq, decide_eq_false_iff_not, not_not] at foreign
  simp [Decoder.take, foreign]

theorem Decoder.take_four (decoder : Decoder) (empty : decoder.count = 0) (a b c d : UInt8) (isA : isSymbol a = true)
    (isB : isSymbol b = true) (isC : isSymbol c = true) (isD : isSymbol d = true) :
    [a, b, c, d].foldl Decoder.take decoder =
      ⟨decoder.stored ++ quantum (dtable a) (dtable b) (dtable c) (dtable d), #v[a, b, c, d],
        #v[dtable a, dtable b, dtable c, dtable d], 0⟩ := by
  obtain ⟨stored, inChars, block, count⟩ := decoder
  subst empty
  simp only [isSymbol, ne_eq, decide_eq_true_eq] at isA isB isC isD
  simp only [List.foldl_cons, List.foldl_nil, Decoder.take, isA, isB, isC, isD, if_false, Nat.reduceAdd,
    Nat.reduceEqDiff,
    if_true, quad_set, quantum]
  rfl

/-- The measure of the second loop: a symbol adds three to it. -/
theorem Decoder.foldl_measure (decoder : Decoder) (room : decoder.count < 4) (src : List UInt8) :
    let final := src.foldl Decoder.take decoder
    final.count < 4 ∧
      4 * final.stored.length + 3 * final.count =
        4 * decoder.stored.length + 3 * decoder.count + 3 * src.countP isSymbol := by
  induction src generalizing decoder with
  | nil => exact ⟨room, rfl⟩
  | cons symbol rest ih =>
    have step : (decoder.take symbol).count < 4 ∧
        4 * (decoder.take symbol).stored.length + 3 * (decoder.take symbol).count =
          4 * decoder.stored.length + 3 * decoder.count + 3 * if isSymbol symbol = true then 1 else 0 := by
      cases known : isSymbol symbol with
      | false => simp [Decoder.take_foreign decoder symbol known, room]
      | true =>
        simp only [isSymbol, ne_eq, decide_eq_true_eq] at known
        by_cases full : decoder.count + 1 = 4
        · simp [Decoder.take, known, full]
          omega
        · simp [Decoder.take, known, full]
          omega
    obtain ⟨finalRoom, finalMeasure⟩ := ih (decoder.take symbol) step.1
    refine ⟨finalRoom, ?_⟩
    rw [List.foldl_cons, finalMeasure, step.2, List.countP_cons]
    omega

/-! ## What the encoder stores -/

/-- The length of the text: four characters for each started group, and a line feed for each started line of 72. -/
theorem encodeRounds_length (lineLen : Nat) (short : lineLen < 72) (whole : lineLen % 4 = 0) (src : List UInt8) :
    (encodeRounds lineLen src).length =
      4 * ((src.length + 2) / 3) + (lineLen + 4 * ((src.length + 2) / 3) + 71) / 72 := by
  fun_induction encodeRounds lineLen src with
  | case1 lineLen first second third rest ihFull ihOpen =>
    by_cases full : lineLen + 4 ≥ 72
    · have tail := ihFull (by omega) rfl
      simp only [full, if_true, sextets, List.length_append, List.length_map, List.length_cons, List.length_nil, tail]
      omega
    · have tail := ihOpen (by omega) (by omega)
      simp only [full, if_false, sextets, List.length_append, List.length_map, List.length_cons, List.length_nil, tail]
      omega
  | case2 lineLen rest few =>
    match rest with
    | [] =>
      by_cases none : lineLen = 0
      · simp [encodeTail, none]
      · simp [encodeTail, none]
        omega
    | [_] | [_, _] =>
      simp [encodeTail]
      omega
    | first :: second :: third :: rest => exact (few first second third rest rfl).elim

/-- How many bytes the last group lacks. -/
def missing (src : List UInt8) : Nat := (3 - src.length % 3) % 3

theorem missing_group (first second third : UInt8) (rest : List UInt8) :
    missing (first :: second :: third :: rest) = missing rest := by
  simp only [missing, List.length_cons]
  omega

theorem isSymbol_pad : isSymbol (charCode '=') = true ∧ dtable (charCode '=') = 0 := by decide

theorem isSymbol_feed : isSymbol (charCode '\n') = false := by decide

/-- Decoding has come to the end of a group without padding. -/
structure Decoder.Clean (decoder : Decoder) : Prop where
  empty : decoder.count = 0
  unpadded : decoder.padding = 0

/-- The decoder's state after it went over the text of `src`. -/
structure Decoder.Received (decoder final : Decoder) (src : List UInt8) : Prop where
  empty : final.count = 0
  padding : final.padding = missing src
  stored : ∃ tail, final.stored = decoder.stored ++ src ++ tail ∧ tail.length = missing src

theorem Decoder.take_group (decoder : Decoder) (clean : decoder.Clean) (first second third : UInt8) :
    let final := ((sextets first second third).map tableAt).foldl Decoder.take decoder
    final.Clean ∧ final.stored = decoder.stored ++ [first, second, third] := by
  have inside := sextets_lt first second third
  simp only [sextets, List.forall_mem_cons] at inside
  obtain ⟨lt₁, lt₂, lt₃, lt₄, -⟩ := inside
  simp only [sextets, List.map_cons, List.map_nil]
  rw [Decoder.take_four decoder clean.empty _ _ _ _ (isSymbol_tableAt _ lt₁) (isSymbol_tableAt _ lt₂)
    (isSymbol_tableAt _ lt₃) (isSymbol_tableAt _ lt₄)]
  rw [dtable_tableAt _ lt₁, dtable_tableAt _ lt₂, dtable_tableAt _ lt₃, dtable_tableAt _ lt₄]
  refine ⟨⟨rfl, ?_⟩, ?_⟩
  · simp [Decoder.padding, tableAt_ne_pad _ lt₃, tableAt_ne_pad _ lt₄]
  · simp only [quantum, bits_first, bits_second, bits_third]

theorem Decoder.take_feed (decoder : Decoder) : decoder.take (charCode '\n') = decoder :=
  decoder.take_foreign _ isSymbol_feed

theorem Decoder.take_tail (decoder : Decoder) (clean : decoder.Clean) (lineLen : Nat) (src : List UInt8)
    (few : src.length < 3) : decoder.Received ((encodeTail lineLen src).foldl Decoder.take decoder) src := by
  match src with
  | [] =>
    have same : (encodeTail lineLen []).foldl Decoder.take decoder = decoder := by
      by_cases none : lineLen = 0
      · simp [encodeTail, none]
      · simp [encodeTail, none, Decoder.take_feed]
    rw [same]
    exact ⟨clean.empty, clean.unpadded, [], by simp, rfl⟩
  | [first] =>
    obtain ⟨isPad, padEntry⟩ := isSymbol_pad
    have inside := sextets_lt first 0 0
    have front := bits_first first 0
    simp only [sextets, List.forall_mem_cons, UInt8.zero_shiftRight, UInt8.or_zero] at inside front
    obtain ⟨lt₁, lt₂, -⟩ := inside
    have four := decoder.take_four clean.empty _ _ _ _ (isSymbol_tableAt _ lt₁) (isSymbol_tableAt _ lt₂) isPad isPad
    rw [dtable_tableAt _ lt₁, dtable_tableAt _ lt₂, padEntry, quantum, front] at four
    have same : (encodeTail lineLen [first]).foldl Decoder.take decoder =
        [tableAt (first >>> 2), tableAt ((first &&& 3) <<< 4), charCode '=',
          charCode '='].foldl Decoder.take decoder := by
      simp [encodeTail, Decoder.take_feed]
    rw [same, four]
    exact ⟨rfl, by simp [Decoder.padding, missing], [(first &&& 3) <<< 4 <<< 4, 0], by simp, rfl⟩
  | [first, second] =>
    obtain ⟨isPad, padEntry⟩ := isSymbol_pad
    have inside := sextets_lt first second 0
    have front := bits_second first second 0
    simp only [sextets, List.forall_mem_cons, UInt8.zero_shiftRight, UInt8.or_zero] at inside front
    obtain ⟨lt₁, lt₂, lt₃, -⟩ := inside
    have four := decoder.take_four clean.empty _ _ _ _ (isSymbol_tableAt _ lt₁) (isSymbol_tableAt _ lt₂)
      (isSymbol_tableAt _ lt₃) isPad
    rw [dtable_tableAt _ lt₁, dtable_tableAt _ lt₂, dtable_tableAt _ lt₃, padEntry, quantum, front, bits_first] at four
    have same : (encodeTail lineLen [first, second]).foldl Decoder.take decoder =
        [tableAt (first >>> 2), tableAt (((first &&& 3) <<< 4) ||| (second >>> 4)), tableAt ((second &&& 15) <<< 2),
          charCode '='].foldl Decoder.take decoder := by
      simp [encodeTail, Decoder.take_feed]
    rw [same, four]
    exact ⟨rfl, by simp [Decoder.padding, missing, tableAt_ne_pad _ lt₃], [(second &&& 15) <<< 2 <<< 6], by simp, rfl⟩

theorem Decoder.take_rounds (decoder : Decoder) (clean : decoder.Clean) (lineLen : Nat) (src : List UInt8) :
    decoder.Received ((encodeRounds lineLen src).foldl Decoder.take decoder) src := by
  fun_induction encodeRounds lineLen src generalizing decoder with
  | case1 lineLen first second third rest ihFull ihOpen =>
    obtain ⟨groupClean, groupStored⟩ := decoder.take_group clean first second third
    have received : ∀ final, Decoder.Received (((sextets first second third).map tableAt).foldl Decoder.take decoder) final rest →
        decoder.Received final (first :: second :: third :: rest) := by
      rintro final ⟨empty, padding, tail, stored, size⟩
      rw [groupStored] at stored
      exact ⟨empty, by rw [padding, missing_group], tail, by simpa using stored, by rw [size, missing_group]⟩
    apply received
    by_cases full : lineLen + 4 ≥ 72
    · simp only [full, if_true, List.foldl_append, List.foldl_cons, Decoder.take_feed]
      exact ihFull _ groupClean
    · simp only [full, if_false, List.foldl_append]
      exact ihOpen _ groupClean
  | case2 lineLen rest few =>
    apply decoder.take_tail clean
    match rest with
    | [] | [_] | [_, _] => simp
    | first :: second :: third :: rest => exact (few first second third rest rfl).elim

end BekenSdk.Base64
