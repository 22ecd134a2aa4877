import BekenSdk.Base64.RoundTrip

/-! The coder's buffers: the text fits the estimated length and decodes to what it was made of, and whatever is
decoded fits three quarters of its own estimate.
-/

set_option autoImplicit false

namespace BekenSdk.Base64

/-- The text, with its terminator, fits the estimate. -/
def EncodesWithin (outLen : Option Int) (src : List UInt8) : Prop :=
  (base64Encode true outLen src).stored.length ≤ (base64CalcEncodeLength (UInt32.ofNat src.length)).toNat

/-- The text of the reported length decodes to the bytes it was made of. -/
def RoundTrips (granted : Bool) (stack : Quad × Quad) (outLen : Int) (src : List UInt8) : Prop :=
  let encoded := base64Encode true (some 0) src
  let text := encoded.stored.take (encoded.outLen.getD 0).toNat
  let decoded := base64Decode granted true stack outLen text
  encoded.ret = 1 ∧ decoded.ret = 1 ∧ decoded.outLen = src.length ∧ decoded.stored.take src.length = src

/-- Decoding keeps to three quarters of the estimate, reports a length up to it, and refuses an incomplete group. -/
def DecodesWithin (granted measured outGiven : Bool) (stack : Quad × Quad) (outLen : Int) (src : List UInt8) : Prop :=
  let bound := 3 * (base64CalcDecodeLength measured src).toNat / 4
  let decoded := base64Decode granted outGiven stack outLen src
  decoded.stored.length ≤ bound ∧ 0 ≤ decoded.outLen ∧ decoded.outLen ≤ bound ∧
    (src.countP isSymbol % 4 ≠ 0 → decoded.ret = 0)

/-! ## Lengths -/

theorem calcEncodeLength_toNat (size : Nat) (small : size ≤ 2 ^ 29) :
    (base64CalcEncodeLength (UInt32.ofNat size)).toNat = size * 4 / 3 + 4 + (size * 4 / 3 + 4) / 72 + 1 := by
  have quadruple : size % 2 ^ 32 * 4 % 2 ^ 32 = size * 4 := by omega
  have chars : (size * 4 / 3 + 4) % 2 ^ 32 = size * 4 / 3 + 4 := by omega
  simp only [base64CalcEncodeLength, UInt32.toNat_add, UInt32.toNat_div, UInt32.toNat_mul, UInt32.toNat_ofNat',
    UInt32.toNat_ofNat, Nat.reducePow, Nat.reduceMod] at quadruple chars ⊢
  rw [quadruple, chars]
  omega

theorem encode_within (outLen : Option Int) (src : List UInt8) (small : src.length ≤ 2 ^ 29) :
    EncodesWithin outLen src := by
  have size := encodeRounds_length 0 (by omega) rfl src
  have chars : 4 * ((src.length + 2) / 3) + 1 ≤ src.length * 4 / 3 + 4 := by omega
  -- the last line is started but need not be full
  have lines : (0 + 4 * ((src.length + 2) / 3) + 71) / 72 ≤ (src.length * 4 / 3 + 4) / 72 + 1 := by omega
  simp only [EncodesWithin, base64Encode, Bool.true_eq_false, if_false, List.length_append, List.length_singleton, size,
    calcEncodeLength_toNat _ small]
  omega

theorem countSymbols_toNat (src : List UInt8) (fits : src.length < 2 ^ 31) :
    (countSymbols src).toNat = src.countP isSymbol := by
  have bound := List.countP_le_length (p := isSymbol) (l := src)
  simp [countSymbols]
  omega

theorem countSymbols_whole (src : List UInt8) : countSymbols src % 4 = 0 ↔ src.countP isSymbol % 4 = 0 := by
  rw [← UInt32.toNat_inj]
  simp [countSymbols]

/-! ## Decoding a text -/

theorem round_trip_iff (granted : Bool) (stack : Quad × Quad) (outLen : Int) (src : List UInt8) :
    RoundTrips granted stack outLen src ↔ granted = true := by
  have start : Decoder.Clean ⟨[], stack.1, stack.2, 0⟩ := ⟨rfl, rfl⟩
  have received := Decoder.take_rounds _ start 0 src
  obtain ⟨-, measure⟩ := Decoder.foldl_measure ⟨[], stack.1, stack.2, 0⟩ (by simp) (encodeRounds 0 src)
  obtain ⟨empty, padding, tail, stored, size⟩ := received
  have whole : countSymbols (encodeRounds 0 src) % 4 = 0 := by
    rw [countSymbols_whole]
    rw [empty, stored] at measure
    simp [size, missing] at measure
    omega
  cases granted with
  | false => simp [RoundTrips, base64Decode]
  | true =>
    simp only [RoundTrips, base64Encode, base64Decode, Bool.true_eq_false, if_false, Option.map_some, Option.getD_some,
      Int.toNat_natCast, List.take_left, whole, ne_eq, not_true_eq_false, padding, stored]
    simp [size]

theorem Decoder.padding_le (decoder : Decoder) (groups : decoder.stored.length % 3 = 0) :
    decoder.padding ≤ decoder.stored.length := by
  cases known : decoder.stored with
  | nil => simp [Decoder.padding, known]
  | cons byte rest =>
    rw [known, List.length_cons] at groups
    have two : decoder.padding ≤ 2 := by
      unfold Decoder.padding
      repeat' split
      all_goals omega
    rw [List.length_cons]
    omega

theorem calcDecodeLength_whole (measured : Bool) (src : List UInt8) (fits : src.length < 2 ^ 31)
    (whole : src.countP isSymbol % 4 = 0) :
    (base64CalcDecodeLength measured src).toNat = if measured = true then src.countP isSymbol else 0 := by
  cases measured <;> simp [base64CalcDecodeLength, countSymbols_whole, whole, countSymbols_toNat src fits]

/-- Without a buffer the length of the whole groups is reported, with one it is stored and the padding is left out. -/
theorem decode_whole (outGiven : Bool) (stack : Quad × Quad) (outLen : Int) (src : List UInt8)
    (fits : src.length < 2 ^ 31)
    (whole : src.countP isSymbol % 4 = 0) :
    let decoded := base64Decode true outGiven stack outLen src
    let size := 3 * (src.countP isSymbol / 4)
    0 ≤ decoded.outLen ∧ decoded.outLen ≤ size ∧
      (outGiven = false → decoded.stored = [] ∧ decoded.outLen = (src.countP isSymbol * 3 % 4294967296 / 4 : Nat)) ∧
      (outGiven = true → decoded.stored.length = size) := by
  have count := countSymbols_toNat src fits
  have bound := List.countP_le_length (p := isSymbol) (l := src)
  have groups : countSymbols src % 4 = 0 := (countSymbols_whole src).2 whole
  obtain ⟨room, measure⟩ := Decoder.foldl_measure ⟨[], stack.1, stack.2, 0⟩ (by simp) src
  cases outGiven with
  | false =>
    simp [base64Decode, groups, count]
    omega
  | true =>
    simp only [base64Decode, Bool.true_eq_false, if_false, groups, ne_eq, not_true_eq_false]
    generalize src.foldl Decoder.take ⟨[], stack.1, stack.2, 0⟩ = final at room measure ⊢
    simp only [List.length_nil] at measure
    have size : final.stored.length = 3 * (src.countP isSymbol / 4) := by omega
    have back := final.padding_le (by omega)
    refine ⟨?_, ?_, ?_, ?_⟩
    · omega
    · omega
    · intro impossible
      cases impossible
    · intro _
      exact size

/-- Three times the symbols does not wrap to nothing. -/
theorem reported_pos (count : Nat) (fits : count < 2147483648) (whole : count % 4 = 0) :
    count * 3 % 4294967296 / 4 = 0 ↔ count = 0 := by
  obtain ⟨groups, rfl⟩ : ∃ groups, count = 4 * groups := ⟨count / 4, by omega⟩
  by_cases straight : 4 * groups * 3 < 4294967296
  · rw [Nat.mod_eq_of_lt straight]
    omega
  · have past : 4294967296 ≤ 4 * groups * 3 := by omega
    rw [Nat.mod_eq_sub_mod past, Nat.mod_eq_of_lt (by omega)]
    omega

theorem decode_within_iff (granted measured outGiven : Bool) (stack : Quad × Quad) (outLen : Int) (src : List UInt8)
    (fits : src.length < 2 ^ 31) :
    DecodesWithin granted measured outGiven stack outLen src ↔
      granted = false ∨ src.countP isSymbol % 4 ≠ 0 ∧ outLen = 0 ∨
        src.countP isSymbol % 4 = 0 ∧ (measured = true ∨ src.countP isSymbol = 0) := by
  have bound := List.countP_le_length (p := isSymbol) (l := src)
  cases granted with
  | false =>
    simp [DecodesWithin, base64Decode]
    omega
  | true =>
    by_cases whole : src.countP isSymbol % 4 = 0
    · obtain ⟨least, most, measureOnly, filled⟩ := decode_whole outGiven stack outLen src fits whole
      simp only [DecodesWithin, calcDecodeLength_whole measured src fits whole]
      cases measured with
      | true =>
        have stays : (base64Decode true outGiven stack outLen src).stored.length ≤ 3 * src.countP isSymbol / 4 := by
          cases outGiven with
          | false => simp [(measureOnly rfl).1]
          | true =>
            rw [filled rfl]
            omega
        simp [whole, stays, least]
        omega
      | false =>
        cases outGiven with
        | false =>
          obtain ⟨nothing, length⟩ := measureOnly rfl
          have positive := reported_pos _ (by omega) whole
          simp only [nothing, length, whole]
          simp only [List.length_nil, Nat.zero_le, Bool.false_eq_true, if_false, Nat.mul_zero, Nat.zero_div,
            Nat.cast_zero, ne_eq,
            not_true_eq_false, false_implies, and_true, true_and, false_and, false_or, Bool.true_eq_false, Nat.cast_nonneg,
            ← positive]
          exact Int.natCast_nonpos_iff
        | true =>
          have size := filled rfl
          simp only [size, whole, Bool.false_eq_true, if_false, Nat.mul_zero, Nat.zero_div, Nat.cast_zero, ne_eq,
            not_true_eq_false, false_implies, and_true, true_and, false_and, false_or, Bool.true_eq_false]
          omega
    · have broken : ¬ countSymbols src % 4 = 0 := by rwa [countSymbols_whole]
      have none : base64CalcDecodeLength measured src = 0 := by simp [base64CalcDecodeLength, broken]
      simp [DecodesWithin, base64Decode, broken, whole, none]
      omega

/-- Texts fit and come back whenever the decoder gets its table; a decoder that got its table keeps to the estimate
exactly for whole groups whose estimate was made, and for an incomplete one only if the length it leaves alone is 0. -/
theorem coding_exact (data src : List UInt8) (small : data.length ≤ 2 ^ 29) (fits : src.length < 2 ^ 31)
    (encodedLen : Option Int) (granted measured outGiven : Bool) (stack : Quad × Quad) (outLen decodedLen : Int) :
    EncodesWithin encodedLen data ∧ (RoundTrips granted stack decodedLen data ↔ granted = true) ∧
      (DecodesWithin granted measured outGiven stack outLen src ↔
        granted = false ∨ src.countP isSymbol % 4 ≠ 0 ∧ outLen = 0 ∨
          src.countP isSymbol % 4 = 0 ∧ (measured = true ∨ src.countP isSymbol = 0)) :=
  ⟨encode_within encodedLen data small, round_trip_iff granted stack decodedLen data,
    decode_within_iff granted measured outGiven stack outLen src fits⟩

theorem coding_exact_sample :
    EncodesWithin none [1, 2, 3, 4] ∧
      (RoundTrips true (Vector.replicate 4 0, Vector.replicate 4 0) 0 [1, 2, 3, 4] ↔ true = true) ∧
      (DecodesWithin true true true (Vector.replicate 4 0, Vector.replicate 4 0) 7 [65] ↔
        true = false ∨ List.countP isSymbol [65] % 4 ≠ 0 ∧ (7 : Int) = 0 ∨
          List.countP isSymbol [65] % 4 = 0 ∧ (true = true ∨ List.countP isSymbol [65] = 0)) :=
  coding_exact [1, 2, 3, 4] [65] (by decide) (by decide) none true true true _ 7 0

/-- One character alone is refused, and the length is left at 7. -/
theorem incomplete_group_reported :
    ¬ DecodesWithin true true true (Vector.replicate 4 0, Vector.replicate 4 0) 7 [65] := by
  rw [decode_within_iff true true true _ 7 [65] (by decide)]
  decide

end BekenSdk.Base64
