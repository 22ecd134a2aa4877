import BekenSdk.HttpOta.Head
import Mathlib.Data.List.TakeWhile

/-! A body sent in chunks, and what the code makes of the line in front of the first one: the length is read as it
was sent, and the first byte of the chunk is at the start of the buffer.
-/

set_option autoImplicit false

namespace BekenSdk.HttpOta
open Base

/-- A chunk with the numeral in front of it. -/
structure Chunk where
  digits : List UInt8
  bytes : List UInt8
  hex : ∀ b ∈ digits, (hexValue b).isSome = true
  size : hexNumber digits = bytes.length
  some_bytes : bytes ≠ []

def Chunk.encode (chunk : Chunk) : List UInt8 := chunk.digits ++ crlf ++ chunk.bytes ++ crlf

/-- The numeral 0 and no trailers. -/
def lastChunk : List UInt8 := [48] ++ crlf ++ crlf

def chunkedBody (chunks : List Chunk) : List UInt8 := chunks.flatMap Chunk.encode ++ lastChunk

def imageOf (chunks : List Chunk) : List UInt8 := chunks.flatMap Chunk.bytes

section
variable {pt : Partition} {line rest digits : List UInt8} {data : Cells} {len : Nat} {c : Client}

/-! ## The numeral -/

theorem hex_plain (hex : ∀ b ∈ digits, (hexValue b).isSome = true) : ∀ b ∈ digits, b ≠ 0 ∧ b ≠ 10 ∧ b ≠ 13 := by
  intro b member
  have some_value := hex b member
  refine ⟨?_, ?_, ?_⟩ <;> rintro rfl <;> exact absurd some_value (by decide)

theorem scanHex_digits (hex : ∀ b ∈ digits, (hexValue b).isSome = true) (some_digits : digits ≠ []) :
    scanHex digits = some (UInt32.ofNat (hexNumber digits)) := by
  obtain ⟨b, others, rfl⟩ := List.exists_cons_of_ne_nil some_digits
  have first := hex b List.mem_cons_self
  have noSpace : isSpace b = false := by
    revert first
    exact (by decide +kernel : ∀ n : Fin 256, (hexValue (UInt8.ofFin n)).isSome = true → isSpace (UInt8.ofFin n) = false) b.toFin
  have noMinus : b ≠ 45 := by
    rintro rfl
    exact absurd first (by decide)
  have noPlus : b ≠ 43 := by
    rintro rfl
    exact absurd first (by decide)
  have kept : skipHexPrefix (b :: others) = b :: others := by
    unfold skipHexPrefix
    split
    next x digit later same =>
      have second := hex x (by rw [same]; exact List.mem_cons_of_mem _ List.mem_cons_self)
      rw [if_neg, same]
      rintro ⟨rfl | rfl, -⟩ <;> exact absurd second (by decide)
    · rfl
  have all : (b :: others).takeWhile (fun b => (hexValue b).isSome) = b :: others := List.takeWhile_eq_self_iff.2 hex
  unfold scanHex
  rw [List.dropWhile_cons_of_neg (by rw [noSpace]; exact Bool.false_ne_true)]
  simp only [List.head?_cons, Option.some.injEq, noMinus, noPlus, or_self, if_false, kept, all, decide_false, Bool.false_eq_true]
  exact if_neg (List.cons_ne_nil _ _)

/-! ## The line -/

/-- The bytes of the buffer are the first ones of what was sent. -/
theorem buffer_getElem? (split : readBytes data 0 len ++ c.net.incoming = rest) {k : Nat} (inside : k < len) :
    rest[k]? = some (data k) := by
  rw [← split, List.getElem?_append_left (by rw [readBytes_length]; exact inside), readBytes_getElem? data 0 inside,
    Nat.zero_add]

theorem line_ended (split : readBytes data 0 len ++ c.net.incoming = line ++ crlf ++ rest)
    (there : line.length + 2 < len) : data line.length = 13 ∧ data (line.length + 1) = 10 := by
  have cr := buffer_getElem? split (k := line.length) (by omega)
  have lf := buffer_getElem? split (k := line.length + 1) (by omega)
  rw [List.append_assoc, List.getElem?_append_right (by omega)] at cr lf
  rw [Nat.sub_self] at cr
  rw [Nat.add_sub_cancel_left] at lf
  exact ⟨(Option.some.inj cr).symm, (Option.some.inj lf).symm⟩

/-- The first end of a line in the buffer is that of the line in front. -/
theorem findCrlf_line {p : Nat} (plain : ∀ b ∈ line, b ≠ 13)
    (split : readBytes data 0 len ++ c.net.incoming = line ++ crlf ++ rest) (found : findCrlf data len = some p) :
    p = line.length ∧ p + 2 < len := by
  obtain ⟨here, inside, before⟩ := List.find?_range_eq_some.1 found
  rw [decide_eq_true_eq] at here
  have few : p < len - 2 := List.mem_range.1 inside
  refine ⟨?_, by omega⟩
  rcases Nat.lt_trichotomy p line.length with early | same | late
  · have cr := buffer_getElem? split (k := p) (by omega)
    rw [List.append_assoc, List.getElem?_append_left early, here.1] at cr
    exact absurd rfl (plain 13 (List.mem_of_getElem? cr))
  · exact same
  · have passed := before line.length late
    rw [Bool.not_eq_true', decide_eq_false_iff_not] at passed
    exact absurd (line_ended split (by omega)) passed

/-- It is found when there is a byte behind it. -/
theorem findCrlf_ne_none (split : readBytes data 0 len ++ c.net.incoming = line ++ crlf ++ rest)
    (there : line.length + 2 < len) : findCrlf data len ≠ none := by
  intro missing
  have passed := List.find?_eq_none.1 missing line.length (List.mem_range.2 (by omega))
  rw [decide_eq_true_eq] at passed
  exact passed (line_ended split there)

/-- Where there is no room nothing is read. -/
theorem httpclientRecv_nothing (pt : Partition) (c : Client) : (httpclientRecv pt 0 c).1 = none := by
  have none_read (b : List UInt8) (net : Net) : c.net.recv 0 ≠ (.bytes b, net) := by
    unfold Net.recv
    split
    · split <;> exact fun same => nomatch (Prod.mk.inj same).1
    · exact fun same => nomatch (Prod.mk.inj same).1
  unfold httpclientRecv
  rw [halTcpRead]
  split
  next read =>
    split at read
    · cases read
    · cases read
    next b net received => exact absurd received (none_read b net)
  · rfl

/-- The line with the length is in the buffer, with what was sent behind it. -/
structure LineRead (line rest : List UInt8) (http : HttpData) (data : Cells) (len : Nat) (after : Client) : Prop where
  behind : line.length + 2 < len
  few : len < httpclientChunkSize
  split : readBytes data 0 len ++ after.net.incoming = line ++ crlf ++ rest
  http : after.http = http

theorem readChunkHeader_line (idle : c.http.doData = false) (few : len < httpclientChunkSize)
    (plain : ∀ b ∈ line, b ≠ 13) (split : readBytes data 0 len ++ c.net.incoming = line ++ crlf ++ rest) :
    (∃ data' len' after, readChunkHeader pt data len c = (.ok (line.length, data', len'), after) ∧
        LineRead line rest c.http data' len' after) ∨
      ∃ e after, readChunkHeader pt data len c = (.error e, after) ∧ e ≠ 0 ∧
        (line.length + 3 < httpclientChunkSize → rest = []) := by
  rw [chunk_size] at few ⊢
  fun_induction readChunkHeader pt data len c with
  | case1 data len c cut p found =>
    have same : readBytes cut 0 len = readBytes data 0 len :=
      readBytes_congr fun a _ high => Function.update_of_ne (by omega) _ _
    rw [← same] at split
    obtain ⟨rfl, behind⟩ := findCrlf_line plain split found
    exact Or.inl ⟨cut, len, c, rfl, behind, few, split, rfl⟩
  | case2 data len c cut missing short after received =>
    have same : readBytes cut 0 len = readBytes data 0 len :=
      readBytes_congr fun a _ high => Function.update_of_ne (by omega) _ _
    rw [← same] at split
    refine Or.inr ⟨errorHttpConn, after, rfl, by decide, fun room => ?_⟩
    by_contra some_rest
    refine findCrlf_ne_none split ?_ missing
    have positive := List.length_pos_of_ne_nil some_rest
    have total := congrArg List.length split
    rw [List.length_append, readBytes_length, List.length_append, List.length_append, crlf_length] at total
    by_cases asked : 0 < httpclientChunkSize - len - 1
    · rcases @httpclientRecv_head pt _ c asked idle with ⟨empty, _⟩ | ⟨_, more, _⟩
      · rw [empty, List.length_nil] at total
        omega
      · rw [received] at more
        cases more
    · rw [chunk_size] at asked
      omega
  | case3 data len c cut missing short b after received ih =>
    have same : readBytes cut 0 len = readBytes data 0 len :=
      readBytes_congr fun a _ high => Function.update_of_ne (by omega) _ _
    have asked : 0 < httpclientChunkSize - len - 1 := by
      by_contra nothing
      rw [Nat.eq_zero_of_not_pos nothing] at received
      exact Option.some_ne_none b ((congrArg Prod.fst received).symm.trans (httpclientRecv_nothing pt c))
    rcases @httpclientRecv_head pt _ c asked idle with ⟨-, other, none_read⟩ | ⟨other, some_read, -, later, -, http⟩
    · cases (Prod.mk.inj (none_read.symm.trans received)).1
    obtain ⟨bytes, rfl⟩ := Prod.mk.inj (some_read.symm.trans received)
    have bytes := Option.some.inj bytes
    rw [bytes] at later
    have size : b.length ≤ httpclientChunkSize - len - 1 := by
      rw [← bytes, List.length_take]
      exact (Nat.min_le_left _ _).trans (Nat.min_le_left _ _)
    have joined : readBytes (storeBytes cut len b) 0 (len + b.length) = readBytes data 0 len ++ b := by
      rw [← same, ← readBytes_store]
      exact (readBytes_congr fun a _ high => Function.update_of_ne (by omega) _ _).symm
    have arrived : readBytes (storeBytes cut len b) 0 (len + b.length) ++ other.net.incoming = line ++ crlf ++ rest := by
      rw [joined, List.append_assoc, ← later, split]
    rw [chunk_size] at size
    rcases ih (http ▸ idle) (by omega) arrived with ⟨data', len', last, read, done⟩ | failed
    · exact Or.inl ⟨data', len', last, read, done.behind, done.few, done.split, done.http.trans http⟩
    · exact Or.inr failed
  | case4 data len c cut missing long => exact absurd few long

/-- A line that is in the buffer already, with a byte behind it, is read at once. -/
theorem readChunkHeader_now (few : len < httpclientChunkSize) (plain : ∀ b ∈ line, b ≠ 13)
    (split : readBytes data 0 len ++ c.net.incoming = line ++ crlf ++ rest) (there : line.length + 2 < len) :
    ∃ buffer, readChunkHeader pt data len c = (.ok (line.length, buffer, len), c) ∧ LineRead line rest c.http buffer len c := by
  have same : readBytes (Function.update data len 0) 0 len = readBytes data 0 len :=
    readBytes_congr fun a _ high => Function.update_of_ne (by omega) _ _
  rw [← same] at split
  obtain ⟨p, found⟩ := Option.ne_none_iff_exists'.1 (findCrlf_ne_none split there)
  obtain ⟨rfl, -⟩ := findCrlf_line plain split found
  rw [readChunkHeader]
  rw [found]
  exact ⟨_, rfl, there, few, split, rfl⟩

/-! ## The first chunk -/

/-- How the body of the first chunk begins: its first byte is at the start of the buffer. If that is all there is of it
the byte behind is still one of the line's. -/
structure Begins (chunk : Chunk) (more : List UInt8) (http : HttpData) (data : Cells) (len : Nat) (after : Client) :
    Prop where
  some_bytes : 0 < len
  first : chunk.bytes.head? = some (data 0)
  stale : len = 1 → data 1 ≠ 10
  split : readBytes data 0 len ++ after.net.incoming = chunk.bytes ++ crlf ++ more
  http : after.http = http

theorem encode_arranged (chunk : Chunk) (more : List UInt8) :
    chunk.encode ++ more = chunk.digits ++ crlf ++ (chunk.bytes ++ crlf ++ more) := by
  simp only [Chunk.encode, List.append_assoc]

theorem digits_ne_nil (chunk : Chunk) : chunk.digits ≠ [] := by
  intro none
  have size := chunk.size
  rw [none] at size
  exact chunk.some_bytes (List.eq_nil_of_length_eq_zero size.symm)

theorem line_string {p len : Nat} {data : Cells} (split : readBytes data 0 len ++ c.net.incoming = line ++ crlf ++ rest)
    (behind : line.length + 2 < len) (same : p = line.length) (plain : ∀ b ∈ line, b ≠ 0) :
    cString (Function.update data p 0) p = line := by
  subst same
  have kept : readBytes (Function.update data line.length 0) 0 line.length = readBytes data 0 line.length :=
    readBytes_congr fun a _ high => Function.update_of_ne (by omega) _ _
  have front : readBytes data 0 line.length = line := by
    have whole := congrArg (List.take line.length) split
    rw [List.append_assoc, List.take_left, List.take_append_of_le_length (by rw [readBytes_length]; omega)] at whole
    have window := @readBytes_window data 0 0 line.length len (by omega)
    rw [List.drop_zero, Nat.zero_add] at window
    rw [← window, whole]
  rw [cString, kept, front]
  exact List.takeWhile_eq_self_iff.2 fun b member => decide_eq_true (plain b member)

theorem begins_of_line {chunk : Chunk} {more : List UInt8} {http : HttpData} {after : Client}
    (read : LineRead chunk.digits (chunk.bytes ++ crlf ++ more) http data len after) :
    Begins chunk more http
      (memmove (Function.update data chunk.digits.length 0) (chunk.digits.length + 2) (len - (chunk.digits.length + 2)))
      (len - (chunk.digits.length + 2)) after := by
  have behind := read.behind
  generalize same : chunk.digits.length = h at *
  have kept {a : Nat} (later : h < a) : Function.update data h 0 a = data a := Function.update_of_ne (by omega) _ _
  have split : readBytes (memmove (Function.update data h 0) (h + 2) (len - (h + 2))) 0 (len - (h + 2)) ++
      after.net.incoming = chunk.bytes ++ crlf ++ more := by
    have total : len = (h + 2) + (len - (h + 2)) := by omega
    have whole := congrArg (List.drop (h + 2)) read.split
    have line : (chunk.digits ++ crlf).length = h + 2 := by rw [List.length_append, same, crlf_length]
    rw [List.drop_append_of_le_length (by rw [readBytes_length]; omega), ← line, List.drop_left, line] at whole
    rw [readBytes_memmove _ _ _ (Nat.le_refl _), readBytes_congr fun a low _ => kept (by omega), ← whole]
    congr 1
    conv_rhs => rw [total, readBytes_add, List.drop_left' (readBytes_length _ _ _), Nat.zero_add]
  refine ⟨by omega, ?_, fun one => ?_, split, read.http⟩
  · have first := @buffer_getElem? _ _ _ after split 0 (by omega)
    rw [← List.head?_eq_getElem?, List.append_assoc] at first
    obtain ⟨b, others, bytes⟩ := List.exists_cons_of_ne_nil chunk.some_bytes
    rw [bytes] at first ⊢
    exact first
  · have place : memmove (Function.update data h 0) (h + 2) (len - (h + 2)) 1 = Function.update data h 0 1 :=
      if_neg (by omega)
    have positive := List.length_pos_of_ne_nil (digits_ne_nil chunk)
    rw [place]
    by_cases single : h = 1
    · rw [single, Function.update_self]
      decide
    · rw [Function.update_of_ne (by omega)]
      have digit := @buffer_getElem? _ _ _ after read.split 1 (by omega)
      rw [List.append_assoc, List.getElem?_append_left (by omega)] at digit
      exact (hex_plain chunk.hex _ (List.mem_of_getElem? digit)).2.1

/-- The length of the chunk is taken from its line. -/
theorem nextBody_of_line {chunk : Chunk} {more : List UInt8} {d : ClientData} {http : HttpData} {data' : Cells} {len' : Nat}
    {after : Client} (small : chunk.bytes.length < 2 ^ 32) (chunked : d.isChunked = true) (none_left : d.retrieveLen ≤ 0)
    (read : readChunkHeader pt data len c = (.ok (chunk.digits.length, data', len'), after))
    (line : LineRead chunk.digits (chunk.bytes ++ crlf ++ more) http data' len' after) :
    ∃ buffer d', nextBody pt data len d c =
        (.ok (chunk.bytes.length, buffer, len' - (chunk.digits.length + 2), d'), after) ∧
      d'.isChunked = true ∧ Begins chunk more http buffer (len' - (chunk.digits.length + 2)) after := by
  unfold nextBody
  rw [if_pos ⟨chunked, none_left⟩, read]
  have text := @line_string _ _ after _ _ _ line.split line.behind rfl fun b member => (hex_plain chunk.hex b member).1
  have number : (UInt32.ofNat (hexNumber chunk.digits)).toNat = chunk.bytes.length := by
    rw [chunk.size]
    exact UInt32.toNat_ofNat_of_lt' small
  have nonzero : UInt32.ofNat (hexNumber chunk.digits) ≠ 0 := by
    intro zero
    rw [zero] at number
    exact chunk.some_bytes (List.eq_nil_of_length_eq_zero number.symm)
  simp only [text, scanHex_digits chunk.hex (digits_ne_nil chunk), if_neg nonzero, number]
  exact ⟨_, _, rfl, chunked, begins_of_line line⟩

theorem nextBody_first {chunk : Chunk} {more : List UInt8} {d : ClientData} (idle : c.http.doData = false)
    (few : len < httpclientChunkSize) (small : chunk.bytes.length < 2 ^ 32)
    (split : readBytes data 0 len ++ c.net.incoming = chunk.encode ++ more) (chunked : d.isChunked = true)
    (none_left : d.retrieveLen ≤ 0) :
    (∃ data' len' d' after, nextBody pt data len d c = (.ok (chunk.bytes.length, data', len', d'), after) ∧
        d'.isChunked = true ∧ Begins chunk more c.http data' len' after) ∨
      ∃ e after, nextBody pt data len d c = (.error e, after) ∧ e ≠ 0 := by
  have plain : ∀ b ∈ chunk.digits, b ≠ 13 := fun b member => (hex_plain chunk.hex b member).2.2
  rw [encode_arranged] at split
  rcases @readChunkHeader_line pt _ _ _ _ _ idle few plain split with ⟨_, _, after, read, line⟩ | ⟨e, after, failed, bad, -⟩
  · obtain ⟨buffer, d', body, still, begins⟩ := nextBody_of_line small chunked none_left read line
    exact Or.inl ⟨buffer, _, d', after, body, still, begins⟩
  · unfold nextBody
    rw [if_pos ⟨chunked, none_left⟩, failed]
    exact Or.inr ⟨e, after, rfl, bad⟩

end

end BekenSdk.HttpOta
