import BekenSdk.HttpOta.Writer

/-! The body of a response with a length: what reaches the flash, and how the loop over it ends
when the connection delivers some first part of it.
-/

set_option autoImplicit false

namespace BekenSdk.HttpOta
open Base

section
variable {pt : Partition} {stream : List UInt8} {len total : Nat}

theorem Net.recv_dry {net after : Net} {received : Received} (asked : 0 < len) (none_read : ∀ b, received ≠ .bytes b)
    (eq : net.recv len = (received, after)) :
    net.incoming = [] ∧ received = if net.closes then .closed else .timeout := by
  unfold Net.recv at eq
  split at eq
  next empty => exact ⟨empty, (Prod.mk.inj eq).1.symm⟩
  · rw [if_neg (Nat.ne_of_gt asked)] at eq
    exact absurd (Prod.mk.inj eq).1.symm (none_read _)

theorem Net.recv_same {net after : Net} {received : Received} (eq : net.recv len = (received, after)) :
    after.closes = net.closes := by
  unfold Net.recv at eq
  split at eq
  · rw [← (Prod.mk.inj eq).2]
  · split at eq <;> rw [← (Prod.mk.inj eq).2]

/-- What a read comes to when it goes on to the end of the delivery. -/
structure ReadOut (pt : Partition) (stream : List UInt8) (c after : Client) : Prop where
  none_left : after.net.incoming = []
  closes : after.net.closes = c.net.closes
  data : after.http.doData = c.http.doData
  total : after.http.httpTotal = c.http.httpTotal
  written : Written pt (stream ++ c.net.incoming) after.http

/-- As long as a body is read, HAL_TCP_Read goes on until it has the rest of it. -/
theorem halTcpRead_rest (got : List UInt8) (dataOver : Bool) (c : Client) (asked : 0 < len) (most : len ≤ total)
    (data : c.http.doData = true) (sum : c.http.httpTotal.toNat = total) (state : Written pt stream c.http)
    (fits : stream.length + c.net.incoming.length ≤ pt.length) (delivered : got.length + c.net.incoming.length ≤ total)
    (going : got.length < total) :
    ∃ after, ReadOut pt stream c after ∧
      halTcpRead pt len got dataOver c =
        (if got.length + c.net.incoming.length = total ∨ c.net.closes = true ∧
          got ++ c.net.incoming ≠ [] then .bytes (got ++ c.net.incoming)
          else if c.net.closes = true then .closed else .timeout, after) := by
  have next_written {b : List UInt8} {c : Client} {stream : List UInt8} (data : c.http.doData = true) (state : Written pt stream c.http)
      (fits : stream.length + b.length ≤ pt.length) :
      ∃ http, (if c.http.doData = true then c.http.httpWrToFlash pt b else c.http) = http ∧
        Written pt (stream ++ b) http ∧
        http.doData = c.http.doData ∧ http.httpTotal = c.http.httpTotal := by
    rw [if_pos data]
    exact ⟨_, rfl, state.httpWrToFlash fits, wrRounds_same pt b.length b c.http⟩
  fun_induction halTcpRead pt len got dataOver c generalizing stream with
  | case1 got dataOver c net received =>
    obtain rfl := Net.recv_other (fun _ same => by cases same) received
    obtain ⟨empty, silent⟩ := Net.recv_dry asked (fun _ same => by cases same) received
    have stays : c.net.closes = false := by
      cases closes : c.net.closes
      · rfl
      · rw [closes] at silent
        cases silent
    refine ⟨c, ⟨empty, rfl, rfl, rfl, ?_⟩, ?_⟩
    · rw [empty, List.append_nil]
      exact state
    · rw [empty, stays, List.length_nil, if_neg, if_neg Bool.false_ne_true]
      rintro (all | ⟨closed, -⟩)
      · omega
      · cases closed
  | case2 got dataOver c net received =>
    obtain rfl := Net.recv_other (fun _ same => by cases same) received
    obtain ⟨empty, closed⟩ := Net.recv_dry asked (fun _ same => by cases same) received
    have closes : c.net.closes = true := by
      cases closes : c.net.closes
      · rw [closes] at closed
        cases closed
      · rfl
    refine ⟨c, ⟨empty, rfl, rfl, rfl, ?_⟩, ?_⟩
    · rw [empty, List.append_nil]
      exact state
    · rw [empty, closes, List.append_nil, if_pos rfl]
      congr 1
      by_cases none_got : got = []
      · rw [if_pos none_got, if_neg]
        rintro (all | ⟨-, some_got⟩)
        · rw [List.length_nil] at all
          omega
        · exact some_got none_got
      · rw [if_neg none_got, if_pos (.inr ⟨rfl, none_got⟩)]
  | case3 got dataOver c b net received ended http gotMore more =>
    rename_i ih
    obtain ⟨some_bytes, split⟩ := Net.recv_less received
    have same := Net.recv_same received
    rw [split, List.length_append] at fits delivered
    obtain ⟨after_http, eq, written, data_same, total_same⟩ := next_written (b := b) data state (by omega)
    have eq : http = after_http := eq
    have more_length : gotMore.length = got.length + b.length := List.length_append
    have going_on : gotMore.length < total := by
      rcases more with ⟨-, low⟩ | ⟨low, -⟩
      · rw [← sum]
        exact low
      · omega
    obtain ⟨after, out, result⟩ := ih (eq ▸ data_same.trans data) (by rw [eq, total_same, sum]) (eq ▸ written)
      (by rw [List.length_append]; dsimp only; omega) (by dsimp only; omega) going_on
    refine ⟨after, ⟨out.none_left, out.closes.trans same, ?_, ?_, ?_⟩, ?_⟩
    · exact out.data.trans (eq ▸ data_same)
    · exact out.total.trans (eq ▸ total_same)
    · have written := out.written
      rw [List.append_assoc] at written
      rw [split]
      exact written
    · rw [result, split, ← same, more_length, List.length_append, ← List.append_assoc, ← Nat.add_assoc]
  | case4 got dataOver c b net received ended http gotMore =>
    rename_i enough
    obtain ⟨some_bytes, split⟩ := Net.recv_less received
    have same := Net.recv_same received
    rw [split, List.length_append] at fits delivered
    obtain ⟨after_http, eq, written, data_same, total_same⟩ := next_written (b := b) data state (by omega)
    have eq : http = after_http := eq
    have more_length : gotMore.length = got.length + b.length := List.length_append
    have all : total ≤ gotMore.length := by
      by_contra short
      apply enough
      left
      refine ⟨data, ?_⟩
      rw [sum]
      exact Nat.lt_of_not_le short
    have empty : net.incoming = [] := List.eq_nil_of_length_eq_zero (by omega)
    refine ⟨⟨net, http⟩, ⟨empty, same, eq ▸ data_same, eq ▸ total_same, ?_⟩, ?_⟩
    · rw [split, empty, List.append_nil]
      exact eq ▸ written
    · rw [split, empty, List.append_nil, if_pos (.inl (by omega))]

theorem httpclientRecv_dry (len : Nat) {c : Client} (empty : c.net.incoming = []) :
    ∃ after, httpclientRecv pt len c = (none, after) := by
  rcases eq : httpclientRecv pt len c with ⟨_ | b, after⟩
  · exact ⟨after, rfl⟩
  · obtain ⟨some_bytes, split⟩ := httpclientRecv_less eq
    rw [empty] at split
    exact absurd (List.append_eq_nil_iff.mp split.symm).1 some_bytes

theorem httpclientRecv_rest (len : Nat) (c : Client) (asked : 0 < len) (most : len ≤ total)
    (data : c.http.doData = true)
    (sum : c.http.httpTotal.toNat = total) (state : Written pt stream c.http)
    (fits : stream.length + c.net.incoming.length ≤ pt.length)
    (delivered : c.net.incoming.length ≤ total) :
    ∃ after, ReadOut pt stream c after ∧
      httpclientRecv pt len c =
        (if c.net.incoming.length = total ∨ c.net.closes = true ∧
          c.net.incoming ≠ [] then some c.net.incoming else none, after) := by
  obtain ⟨after, out, result⟩ := halTcpRead_rest [] false c asked most data sum state fits
    (by rw [List.length_nil, Nat.zero_add]; exact delivered) (asked.trans_le most)
  refine ⟨after, out, ?_⟩
  rw [List.length_nil, Nat.zero_add, List.nil_append] at result
  unfold httpclientRecv
  rw [result]
  by_cases read : c.net.incoming.length = total ∨ c.net.closes = true ∧ c.net.incoming ≠ []
  · rw [if_pos read, if_pos read]
  · rw [if_neg read, if_neg read]
    split
    next closed => split at closed <;> cases closed
    next eq => rw [← (Prod.mk.inj eq).2]

/-! ## The loop -/

section
variable {count readLen : Nat} {retrieveLen : Int} {c after : Client}

theorem readBody_more (full : responseBufLen - 1 ≤ count + min len readLen) :
    readBody pt count readLen len retrieveLen c = (.more, c) := by
  rw [readBody]
  exact if_neg (Nat.not_lt.mpr full)

theorem readBody_end (low : count + len < responseBufLen - 1) :
    readBody pt count len len retrieveLen c = (.done (count + len) (retrieveLen - len) len, c) := by
  rw [readBody]
  dsimp only
  rw [Nat.min_self, if_pos low, if_neg (Nat.lt_irrefl _), if_neg (Nat.lt_irrefl _), if_neg (Nat.lt_irrefl _),
    Nat.sub_self]
  exact if_pos rfl

/-- The buffer has less than the body. -/
theorem readBody_failed (low : count + len < responseBufLen - 1) (less : len < readLen)
    (received : httpclientRecv pt (min (min tcpLenMax (responseBufLen - 1 - (count + len))) (readLen - len)) c = (none,
      after)) :
    readBody pt count readLen len retrieveLen c = (.failed, after) := by
  have partly : ¬ len > readLen := Nat.lt_asymm less
  rw [readBody]
  dsimp only
  rw [Nat.min_eq_left (Nat.le_of_lt less), if_pos low, if_neg partly, if_neg partly, if_neg partly,
    if_neg (Nat.sub_ne_zero_of_lt less)]
  split
  next eq => rw [(Prod.mk.inj (eq.symm.trans received)).2]
  next eq => cases (Prod.mk.inj (eq.symm.trans received)).1

theorem readBody_next {b : List UInt8} (low : count + len < responseBufLen - 1) (less : len < readLen)
    (received : httpclientRecv pt (min (min tcpLenMax (responseBufLen - 1 - (count + len))) (readLen - len)) c = (some b, after)) :
    readBody pt count readLen len retrieveLen c =
      if readLen - len = b.length then (.done (count + len) (retrieveLen - len) b.length, after)
      else readBody pt (count + len) (readLen - len) b.length (retrieveLen - len) after := by
  have partly : ¬ len > readLen := Nat.lt_asymm less
  conv_lhs => rw [readBody]
  dsimp only
  rw [Nat.min_eq_left (Nat.le_of_lt less), if_pos low, if_neg partly, if_neg partly, if_neg partly,
    if_neg (Nat.sub_ne_zero_of_lt less)]
  split
  next eq => cases (Prod.mk.inj (eq.symm.trans received)).1
  next eq =>
    obtain ⟨bytes, rfl⟩ := Prod.mk.inj (eq.symm.trans received)
    obtain rfl := Option.some.inj bytes
    rfl

/-- What the head left in the buffer and what comes after it are a body of this length, or the first part of one. -/
structure Arrives (pt : Partition) (readLen : Nat) (buffered : List UInt8) (c : Client) : Prop where
  data : c.http.doData = true
  sum : c.http.httpTotal.toNat = readLen - buffered.length
  written : Written pt buffered c.http
  few : buffered.length < httpclientChunkSize
  delivered : buffered.length + c.net.incoming.length ≤ readLen
  fits : readLen ≤ pt.length

theorem readBody_whole {buffered : List UInt8} (arrives : Arrives pt readLen buffered c)
    (whole : buffered.length + c.net.incoming.length = readLen) :
    ∃ count left len after, readBody pt 0 readLen buffered.length retrieveLen c = (.done count left len, after) ∧
      Written pt (buffered ++ c.net.incoming) after.http := by
  have few := arrives.few
  have fits := arrives.fits
  have low : 0 + buffered.length < responseBufLen - 1 := by
    rw [show responseBufLen = 1024 from rfl]
    rw [show httpclientChunkSize = 256 from rfl] at few
    omega
  by_cases all : buffered.length = readLen
  · have none_left : c.net.incoming = [] := List.eq_nil_of_length_eq_zero (by omega)
    rw [← all, none_left, List.append_nil]
    exact ⟨_, _, _, _, readBody_end low, arrives.written⟩
  · have less : buffered.length < readLen := by omega
    obtain ⟨after, out, received⟩ :=
      httpclientRecv_rest (min (min tcpLenMax (responseBufLen - 1 - (0 + buffered.length)))
      (readLen - buffered.length)) c (by rw [show tcpLenMax = 1460 from rfl]; omega) (Nat.min_le_right _ _) arrives.data arrives.sum
      arrives.written (by omega) (by omega)
    rw [if_pos (.inl (by omega))] at received
    have next := @readBody_next pt buffered.length 0 readLen retrieveLen c after _ low less received
    rw [if_pos (by omega)] at next
    exact ⟨_, _, _, after, next, out.written⟩

/-- A body that is cut off counts as taken when it has filled the response buffer. -/
theorem readBody_cut {buffered : List UInt8} (arrives : Arrives pt readLen buffered c)
    (cut : buffered.length + c.net.incoming.length < readLen) :
    ∃ after, readBody pt 0 readLen buffered.length retrieveLen c =
      (if c.net.closes = true ∧ responseBufLen - 1 ≤ buffered.length + c.net.incoming.length then .more else .failed,
        after) := by
  have few := arrives.few
  have fits := arrives.fits
  have size : responseBufLen = 1024 := rfl
  have low : 0 + buffered.length < responseBufLen - 1 := by
    rw [size]
    rw [show httpclientChunkSize = 256 from rfl] at few
    omega
  obtain ⟨after, out, received⟩ := httpclientRecv_rest (min (min tcpLenMax (responseBufLen - 1 - (0 + buffered.length)))
    (readLen - buffered.length)) c (by rw [show tcpLenMax = 1460 from rfl]; omega) (Nat.min_le_right _ _) arrives.data arrives.sum
    arrives.written (by omega) (by omega)
  by_cases read : c.net.closes = true ∧ c.net.incoming ≠ []
  · rw [if_pos (.inr read)] at received
    have next := @readBody_next pt buffered.length 0 readLen retrieveLen c after _ low (by omega) received
    rw [if_neg (by omega)] at next
    rw [next]
    by_cases full : responseBufLen - 1 ≤ buffered.length + c.net.incoming.length
    · refine ⟨after, ?_⟩
      rw [if_pos ⟨read.1, full⟩]
      exact readBody_more (by omega)
    · obtain ⟨dry, none_read⟩ := httpclientRecv_dry (min (min tcpLenMax (responseBufLen - 1 -
        (0 + buffered.length + c.net.incoming.length))) (readLen - buffered.length - c.net.incoming.length)) out.none_left
      refine ⟨dry, ?_⟩
      rw [if_neg fun both => full both.2]
      exact readBody_failed (by omega) (by omega) none_read
  · have never : ¬ (c.net.incoming.length = readLen - buffered.length ∨ c.net.closes = true ∧ c.net.incoming ≠ []) := by
      rintro (all | some_read)
      · omega
      · exact read some_read
    rw [if_neg never] at received
    refine ⟨after, ?_⟩
    rw [if_neg]
    · exact readBody_failed low (by omega) received
    · rintro ⟨closes, full⟩
      apply read
      refine ⟨closes, List.ne_nil_of_length_pos ?_⟩
      rw [size] at full
      rw [show httpclientChunkSize = 256 from rfl] at few
      omega

/-! ## The content -/

theorem arrives_beginBody {buffered : List UInt8} (c : Client) (few : buffered.length < httpclientChunkSize)
    (delivered : buffered.length + c.net.incoming.length ≤ readLen) (fits : readLen ≤ pt.length) :
    Arrives pt readLen buffered { c with http := c.http.beginBody pt readLen buffered } where
  data := rfl
  sum := by
    have chip := pt.inside
    have all : (UInt32.ofNat readLen).toNat = readLen :=
      UInt32.toNat_ofNat_of_lt' (by rw [show UInt32.size = 2 ^ 32 from rfl]; omega)
    have part : (UInt32.ofNat buffered.length).toNat = buffered.length :=
      UInt32.toNat_ofNat_of_lt' (by rw [show UInt32.size = 2 ^ 32 from rfl]; omega)
    have below : UInt32.ofNat buffered.length ≤ UInt32.ofNat readLen := by
      rw [UInt32.le_iff_toNat_le, all, part]
      omega
    change (UInt32.ofNat readLen - UInt32.ofNat buffered.length).toNat = _
    rw [UInt32.toNat_sub_of_le _ _ below, all, part]
  written := by
    have written : Written pt ([] ++ buffered) ((c.http.httpFlashInit pt).httpWrToFlash pt buffered) := by
      apply written_init.httpWrToFlash
      rw [List.length_nil]
      omega
    exact written.of_same rfl rfl rfl
  few := few
  delivered := delivered
  fits := fits

/-- What is returned when this much of a body of this length is delivered. -/
def bodyResult (readLen delivered : Nat) (closes : Bool) : Int :=
  if delivered = readLen then 0
  else if closes = true ∧ responseBufLen - 1 ≤ delivered then httpRetrieveMoreData
  else errorHttpConn

theorem retrieve_length {data : Cells} {d : ClientData} (c : Client) (few : len < httpclientChunkSize)
    (delivered : len + c.net.incoming.length ≤ readLen) (fits : readLen ≤ pt.length) (plain : d.isChunked = false)
    (length : d.retrieveLen = readLen) (content : d.responseContentLen = readLen) :
    ∃ after, httpclientRetrieveContent pt data len d c =
      some (bodyResult readLen (len + c.net.incoming.length) c.net.closes, after) ∧
      (len + c.net.incoming.length = readLen →
        (Holds after.http.flash pt.startAddr (readBytes data 0 len ++ c.net.incoming) ↔
          (readLen = pt.length → (readBytes data 0 len ++ c.net.incoming).drop (pt.length - httpFlashWrBufMax) = blank httpFlashWrBufMax))) := by
  have chip := pt.inside
  have size : (readBytes data 0 len).length = len := readBytes_length data 0 len
  have known : ¬ (d.responseContentLen = -1 ∧ d.isChunked = false) := by
    rintro ⟨unknown, -⟩
    omega
  have body : nextBody pt data len d c = (.ok (readLen, data, len, d), c) := by
    unfold nextBody
    rw [if_neg fun chunked => Bool.false_ne_true (plain.symm.trans chunked.1), length]
    have small : ((readLen : Int) % 2 ^ 32).toNat = readLen := by omega
    rw [small]
  have arrives : Arrives pt readLen (readBytes data 0 len)
      { c with http := c.http.beginBody pt readLen (readBytes data 0 len) } :=
    arrives_beginBody c (size.symm ▸ few) (size.symm ▸ delivered) fits
  unfold httpclientRetrieveContent
  rw [if_neg known, retrieveBodies, body]
  dsimp only
  by_cases whole : len + c.net.incoming.length = readLen
  · obtain ⟨count, left, last, after, read, written⟩ :=
      @readBody_whole pt readLen d.retrieveLen _ _ arrives (size.symm ▸ whole)
    rw [size] at read
    rw [read]
    dsimp only
    rw [plain, if_neg Bool.false_ne_true, bodyResult, if_pos whole]
    refine ⟨_, rfl, fun _ => ?_⟩
    have same : Written pt (readBytes data 0 len ++ c.net.incoming) { after.http with doData := false } :=
      written.of_same rfl rfl rfl
    have total : (readBytes data 0 len ++ c.net.incoming).length = readLen := by
      rw [List.length_append, size, whole]
    have flush := same.flush_iff
    rw [total] at flush
    exact flush
  · obtain ⟨after, read⟩ := @readBody_cut pt readLen d.retrieveLen _ _ arrives (by rw [size]; dsimp only; omega)
    rw [size] at read
    rw [read]
    refine ⟨after, ?_, fun all => absurd all whole⟩
    rw [bodyResult, if_neg whole]
    by_cases taken : c.net.closes = true ∧ responseBufLen - 1 ≤ len + c.net.incoming.length
    · rw [if_pos taken, if_pos taken]
    · rw [if_neg taken, if_neg taken]

end

end

end BekenSdk.HttpOta
