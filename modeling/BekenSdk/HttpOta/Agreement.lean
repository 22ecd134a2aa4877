import BekenSdk.HttpOta.Chunks
import BekenSdk.HttpOta.Integrity

/-! An image that is sent in chunks, and the same image with its length. The second is taken whole; of the first the
code looks for the end of a chunk at the start of the buffer, where the chunk's own first bytes are.
-/

set_option autoImplicit false

namespace BekenSdk.HttpOta
open Base

/-! ## What is claimed -/

/-- How a body comes: what is in the buffer already, and the pieces in which the connection delivers the rest. -/
structure Delivery (stream : List UInt8) where
  data : Cells
  len : Nat
  net : Net
  few : len < httpclientChunkSize
  split : readBytes data 0 len ++ net.incoming = stream

section
variable (pt : Partition) (http : HttpData) {stream : List UInt8}

/-- The body of a response with its length, or of one with `Transfer-Encoding: chunked`. -/
def Delivery.retrieveLength (body : Delivery stream) : Option (Int × Client) :=
  httpclientRetrieveContent pt body.data body.len ⟨false, stream.length, stream.length⟩ ⟨body.net, http⟩

def Delivery.retrieveChunked (body : Delivery stream) : Option (Int × Client) :=
  httpclientRetrieveContent pt body.data body.len ⟨true, 0, 0⟩ ⟨body.net, http⟩

/-- The same result and the same bytes in the partition. -/
def Agree {chunks : List Chunk} (whole : Delivery (imageOf chunks)) (parts : Delivery (chunkedBody chunks)) : Prop :=
  ∃ ret first second, whole.retrieveLength pt http = some (ret, first) ∧
    parts.retrieveChunked pt http = some (ret, second) ∧
    ∀ a, pt.startAddr ≤ a → a < pt.startAddr + pt.length → first.http.flash a = second.http.flash a

/-- The first sector of the partition is erased. -/
def FirstBlank : Prop := ∀ a, pt.startAddr ≤ a → a < pt.startAddr + flashSectorSize → http.flash a = 0xFF

end

section
variable {pt : Partition} {http : HttpData} {stream image more : List UInt8} {c : Client} {len : Nat} {chunk : Chunk}
  {chunks : List Chunk} {data : Cells} {d : ClientData}

/-! ## The end of a chunk -/

theorem readBody_some {count readLen len left last : Nat} {retrieveLen rest : Int} {after : Client}
    (some_bytes : 0 < len) (read : readBody pt count readLen len retrieveLen c = (.done left rest last, after)) :
    0 < last := by
  fun_induction readBody pt count readLen len retrieveLen c with
  | case1 _ readLen len =>
    obtain ⟨rfl, rfl, rfl⟩ := Body.done.inj (Prod.mk.inj read).1
    show 0 < if _ : len > readLen then len - readLen else len
    split <;> omega
  | case2 => cases (Prod.mk.inj read).1
  | case3 _ _ _ _ _ _ _ _ _ _ _ _ _ received =>
    obtain ⟨rfl, rfl, rfl⟩ := Body.done.inj (Prod.mk.inj read).1
    exact List.length_pos_of_ne_nil (httpclientRecv_less received).1
  | case4 _ _ _ _ _ _ _ _ _ _ _ _ _ received _ ih =>
    exact ih (List.length_pos_of_ne_nil (httpclientRecv_less received).1) read
  | case5 => cases (Prod.mk.inj read).1

/-- What is looked at behind a chunk: the start of the buffer, after more has been read when the last piece was short. -/
def chunkEnd (pt : Partition) (data : Cells) (len : Nat) (c : Client) : Option (Cells × Nat) × Client :=
  if len < 2 then
    match httpclientRecv pt (httpclientChunkSize - len - 1) c with
    | (none, c) => (none, c)
    | (some b, c) => (some (storeBytes data len b, len + b.length), c)
  else (some (data, len), c)

/-- A chunk of which the end is not found ends the download with an error. -/
theorem retrieveBodies_ends {rounds readLen : Nat} {data' : Cells} {len' : Nat} {d' : ClientData} {next : Client}
    (body : nextBody pt data len d c = (.ok (readLen, data', len', d'), next)) (chunked : d'.isChunked = true)
    (missed : ∀ count left last after,
      readBody pt 0 readLen len' d'.retrieveLen { next with http := next.http.beginBody pt readLen (readBytes data' 0 len') } =
          (.done count left last, after) →
        ∀ found ended, chunkEnd pt data' last { after with http := { after.http with doData := false } } =
          (some found, ended) → found.1 0 ≠ 13 ∨ found.1 1 ≠ 10) :
    ∃ ret after, retrieveBodies pt (rounds + 1) 0 data len d c = some (ret, after) ∧ ret ≠ 0 := by
  rw [retrieveBodies, body]
  dsimp only
  generalize outcome : readBody pt 0 readLen len' d'.retrieveLen
    { next with http := next.http.beginBody pt readLen (readBytes data' 0 len') } = read at missed
  obtain ⟨result, after⟩ := read
  cases result with
  | more => exact ⟨_, _, rfl, by decide⟩
  | failed => exact ⟨_, _, rfl, by decide⟩
  | done count left last =>
    dsimp only
    rw [if_pos chunked]
    have looked := missed count left last after rfl
    unfold chunkEnd at looked
    generalize (if last < 2 then _ else _ : Option (Cells × Nat) × Client) = ended at looked ⊢
    obtain ⟨found, final⟩ := ended
    cases found with
    | none => exact ⟨_, _, rfl, by decide⟩
    | some found =>
      have wrong := looked found final rfl
      dsimp only
      rw [if_pos wrong]
      exact ⟨_, _, rfl, by decide⟩

/-- The start of the buffer is as it was, but for what is read behind the last byte. -/
theorem chunkEnd_first {found : Cells × Nat} {ended : Client} (some_bytes : 0 < len)
    (read : chunkEnd pt data len c = (some found, ended)) : found.1 0 = data 0 := by
  unfold chunkEnd at read
  split at read
  · split at read
    · cases read
    · obtain rfl := Option.some.inj (Prod.mk.inj read).1
      exact storeBytes_outside (Or.inl (by omega))
  · obtain rfl := Option.some.inj (Prod.mk.inj read).1
    rfl

/-- The second byte is what was there, or is the next that comes. -/
theorem chunkEnd_second {found : Cells × Nat} {ended : Client} (some_bytes : 0 < len) (stale : 1 < len → data 1 ≠ 10)
    (next : c.net.incoming.head? ≠ some 10) (read : chunkEnd pt data len c = (some found, ended)) : found.1 1 ≠ 10 := by
  unfold chunkEnd at read
  split at read
  next short =>
    obtain rfl : len = 1 := by omega
    split at read
    · cases read
    next b after received =>
      obtain rfl := Option.some.inj (Prod.mk.inj read).1
      obtain ⟨some_read, split⟩ := httpclientRecv_less received
      obtain ⟨first, others, rfl⟩ := List.exists_cons_of_ne_nil some_read
      rw [split, List.cons_append, List.head?_cons] at next
      have stored := (holds_storeBytes data 1 (first :: others)).1
      intro lf
      exact next (congrArg some (stored.symm.trans lf))
  next long =>
    obtain rfl := Option.some.inj (Prod.mk.inj read).1
    exact stale (by omega)

theorem first_chunk_ends {rounds : Nat} (idle : c.http.doData = false) (few : len < httpclientChunkSize)
    (small : chunk.bytes.length < 2 ^ 32) (split : readBytes data 0 len ++ c.net.incoming = chunk.encode ++ more)
    (chunked : d.isChunked = true) (none_left : d.retrieveLen ≤ 0) (other : chunk.bytes.head? ≠ some 13) :
    ∃ ret after, retrieveBodies pt (rounds + 1) 0 data len d c = some (ret, after) ∧ ret ≠ 0 := by
  rcases @nextBody_first pt _ _ c _ more _ idle few small split chunked none_left with
    ⟨data', len', d', next, body, still, begins⟩ | ⟨e, after, failed, bad⟩
  · refine retrieveBodies_ends body still fun count left last after read found ended looked => Or.inl ?_
    rw [chunkEnd_first (readBody_some begins.some_bytes read) looked]
    intro cr
    exact other (begins.first.trans (congrArg some cr))
  · rw [retrieveBodies, failed]
    exact ⟨e, after, rfl, bad⟩

/-! ## One byte at a time -/

theorem Net.recv_one {net : Net} {b : UInt8} {rest : List UInt8} {later : List Nat} (asked : 0 < len)
    (incoming : net.incoming = b :: rest) (grants : net.grants = 1 :: later) :
    net.recv len = (.bytes [b], { net with incoming := rest, grants := later }) := by
  have share : net.share len = 1 := by
    unfold Net.share
    rw [grants, List.headD_cons]
    omega
  unfold Net.recv
  rw [if_neg (by rw [incoming]; exact List.cons_ne_nil _ _), if_neg (Nat.ne_of_gt asked), share, incoming, grants]
  rfl

theorem halTcpRead_bytes {b got : List UInt8} {net : Net} {dataOver : Bool} (read : c.net.recv len = (.bytes b, net)) :
    halTcpRead pt len got dataOver c =
      if (c.http.doData = true ∧ (got ++ b).length < c.http.httpTotal.toNat) ∨
          ((got ++ b).length < len ∧ (dataOver || decide (b.length < len)) = false) then
        halTcpRead pt len (got ++ b) (dataOver || decide (b.length < len))
          ⟨net, if c.http.doData then c.http.httpWrToFlash pt b else c.http⟩
      else (.bytes (got ++ b), ⟨net, if c.http.doData then c.http.httpWrToFlash pt b else c.http⟩) := by
  conv_lhs => rw [halTcpRead]
  split
  next eq => cases (Prod.mk.inj (eq.symm.trans read)).1
  next eq => cases (Prod.mk.inj (eq.symm.trans read)).1
  next eq =>
    obtain ⟨bytes, rfl⟩ := Prod.mk.inj (eq.symm.trans read)
    obtain rfl := Received.bytes.inj bytes
    rfl

/-- A body is read to its end and no further. -/
theorem halTcpRead_ones {b : UInt8} {next rest got : List UInt8} {dataOver : Bool} {spare : Nat} (asked : 0 < len)
    (incoming : c.net.incoming = b :: next ++ rest) (grants : c.net.grants = List.replicate ((b :: next).length + spare) 1)
    (data : c.http.doData = true) (sum : c.http.httpTotal.toNat = got.length + (b :: next).length) :
    ∃ after, halTcpRead pt len got dataOver c = (.bytes (got ++ b :: next), after) ∧ after.net.incoming = rest := by
  induction next generalizing b got dataOver c with
  | nil =>
    rw [List.length_singleton, Nat.add_comm, List.replicate_succ] at grants
    rw [halTcpRead_bytes (Net.recv_one asked incoming grants), if_neg]
    · exact ⟨_, rfl, rfl⟩
    · rw [sum, List.length_append]
      rintro (⟨-, short⟩ | ⟨short, full⟩)
      · exact Nat.lt_irrefl _ short
      · rw [Bool.or_eq_false_iff, decide_eq_false_iff_not] at full
        rw [List.length_singleton] at short full
        omega
  | cons b' next ih =>
    have count : (b :: b' :: next).length + spare = ((b' :: next).length + spare) + 1 := by
      simp only [List.length_cons]
      omega
    rw [count, List.replicate_succ] at grants
    have length : (got ++ [b]).length + (b' :: next).length = got.length + (b :: b' :: next).length := by
      simp only [List.length_append, List.length_cons, List.length_nil]
      omega
    have same := wrRounds_same pt [b].length [b] c.http
    rw [halTcpRead_bytes (Net.recv_one asked incoming grants), if_pos]
    · obtain ⟨after, read, left⟩ := @ih
        ⟨⟨b' :: next ++ rest, List.replicate ((b' :: next).length + spare) 1, c.net.closes⟩,
          if c.http.doData then c.http.httpWrToFlash pt [b] else c.http⟩ b' (got ++ [b]) (dataOver || decide ([b].length < len)) rfl rfl (by rw [if_pos data]; exact same.1.trans data)
        (by rw [if_pos data, length, ← sum]; exact congrArg UInt32.toNat same.2)
      refine ⟨after, read.trans ?_, left⟩
      rw [List.append_assoc, List.singleton_append]
    · rw [sum, ← length, List.length_cons]
      exact Or.inl ⟨data, by omega⟩

theorem httpclientRecv_ones {b : UInt8} {next rest : List UInt8} {spare : Nat} (asked : 0 < len)
    (incoming : c.net.incoming = b :: next ++ rest) (grants : c.net.grants = List.replicate ((b :: next).length + spare) 1)
    (data : c.http.doData = true) (sum : c.http.httpTotal.toNat = (b :: next).length) :
    ∃ after, httpclientRecv pt len c = (some (b :: next), after) ∧ after.net.incoming = rest := by
  obtain ⟨after, read, left⟩ := @halTcpRead_ones pt c len b next rest [] false spare asked incoming grants data
    (sum.trans (Nat.zero_add _).symm)
  refine ⟨after, ?_, left⟩
  unfold httpclientRecv
  rw [read]
  rfl

/-- The body of the first chunk, of which the buffer has a byte. -/
theorem readBody_ones {retrieveLen : Int} {spare : Nat} {after : Client} {count last : Nat} {left : Int}
    (small : chunk.bytes.length < 2 ^ 32) (split : readBytes data 0 1 ++ c.net.incoming = chunk.bytes ++ crlf ++ more)
    (grants : c.net.grants = List.replicate (chunk.bytes.length + spare) 1) (doData : c.http.doData = true)
    (sum : c.http.httpTotal.toNat = chunk.bytes.length - 1)
    (read : readBody pt 0 chunk.bytes.length 1 retrieveLen c = (.done count left last, after)) :
    after.net.incoming = crlf ++ more := by
  have low : 0 + 1 < responseBufLen - 1 := by decide
  obtain ⟨b, next, bytes⟩ := List.exists_cons_of_ne_nil chunk.some_bytes
  rw [bytes] at split grants sum read small
  have incoming : c.net.incoming = next ++ (crlf ++ more) := by
    rw [readBytes, readBytes, List.singleton_append, List.cons_append, List.cons_append, List.append_assoc] at split
    exact (List.cons.inj split).2
  cases next with
  | nil =>
    rw [List.length_singleton, readBody_end low] at read
    obtain ⟨-, rfl⟩ := Prod.mk.inj read
    exact incoming
  | cons b' next =>
    have asked : 0 < min (min tcpLenMax (responseBufLen - 1 - (0 + 1))) ((b :: b' :: next).length - 1) := by
      rw [List.length_cons, List.length_cons, show tcpLenMax = 1460 from rfl, show responseBufLen = 1024 from rfl]
      omega
    have count : (b :: b' :: next).length + spare = (b' :: next).length + (spare + 1) := by
      rw [List.length_cons]
      omega
    rw [count] at grants
    obtain ⟨final, received, rest⟩ := @httpclientRecv_ones pt c _ b' next (crlf ++ more) (spare + 1) asked incoming grants
      doData (sum.trans (by rw [List.length_cons, Nat.add_sub_cancel]))
    have whole : (b :: b' :: next).length - 1 = (b' :: next).length := by rw [List.length_cons, Nat.add_sub_cancel]
    have done := @readBody_next pt 1 0 (b :: b' :: next).length retrieveLen c final _ low
      (by rw [List.length_cons, List.length_cons]; omega) received
    rw [if_pos whole, read] at done
    obtain ⟨-, rfl⟩ := Prod.mk.inj done
    exact rest

/-- With the line and one byte of the chunk in the buffer, and the rest byte by byte, no chunk has an end. -/
theorem first_chunk_missed {rounds spare : Nat}
    (few : len < httpclientChunkSize) (small : chunk.bytes.length < 2 ^ 32)
    (split : readBytes data 0 len ++ c.net.incoming = chunk.encode ++ more) (chunked : d.isChunked = true)
    (none_left : d.retrieveLen ≤ 0) (one : len = chunk.digits.length + 3)
    (grants : c.net.grants = List.replicate (chunk.bytes.length + spare) 1) :
    ∃ ret after, retrieveBodies pt (rounds + 1) 0 data len d c = some (ret, after) ∧ ret ≠ 0 := by
  have plain : ∀ b ∈ chunk.digits, b ≠ 13 := fun b member => (hex_plain chunk.hex b member).2.2
  rw [encode_arranged] at split
  obtain ⟨buffer, read, line⟩ := @readChunkHeader_now pt _ _ _ _ c few plain split (by omega)
  obtain ⟨data', d', body, still, begins⟩ := nextBody_of_line small chunked none_left read line
  have single : len - (chunk.digits.length + 2) = 1 := by omega
  rw [single] at body begins
  refine retrieveBodies_ends body still fun count left last after done found ended looked => Or.inr ?_
  have some_last := readBody_some Nat.one_pos done
  have sum : (UInt32.ofNat chunk.bytes.length - UInt32.ofNat 1).toNat = chunk.bytes.length - 1 := by
    have positive := List.length_pos_of_ne_nil chunk.some_bytes
    have whole : (UInt32.ofNat chunk.bytes.length).toNat = chunk.bytes.length := UInt32.toNat_ofNat_of_lt' small
    rw [UInt32.toNat_sub_of_le _ _ (by rw [UInt32.le_iff_toNat_le, whole]; exact positive), whole]
    rfl
  have rest := @readBody_ones pt more { c with http := c.http.beginBody pt chunk.bytes.length (readBytes data' 0 1) } chunk
    data' _ spare after count last left small begins.split grants rfl sum done
  have cr : (crlf ++ more).head? = some 13 := rfl
  exact chunkEnd_second some_last (fun _ => begins.stale rfl) (by rw [rest, cr]; decide) looked

/-! ## The image with its length -/

theorem Delivery.length_eq (body : Delivery stream) : body.len + body.net.incoming.length = stream.length := by
  have total := congrArg List.length body.split
  rw [List.length_append, readBytes_length] at total
  exact total

theorem retrieveLength_whole (body : Delivery stream) (fits : stream.length ≤ pt.length) :
    ∃ after, body.retrieveLength pt http = some (0, after) := by
  have whole := body.length_eq
  obtain ⟨after, result, -⟩ := @retrieve_length pt body.len stream.length body.data
    ⟨false, stream.length, stream.length⟩ ⟨body.net, http⟩ body.few (Nat.le_of_eq whole) fits rfl rfl rfl
  rw [bodyResult, if_pos whole] at result
  exact ⟨after, result⟩

/-- A write of nothing at the start of the partition. -/
theorem httpFlashWr_nothing {h : HttpData} {src : List UInt8} (empty : src = []) (start : h.flashAddress = pt.startAddr) :
    (h.httpFlashWr pt src).flash = erasedAt flashSectorSize h.flash pt.startAddr := by
  have room := pt.room
  unfold HttpData.httpFlashWr
  dsimp only
  rw [if_pos ⟨Nat.le_of_eq start.symm, by rw [empty, List.length_nil, start]; omega⟩, empty, start]
  exact programBytes_nil _ _

/-- A body with its length that is read to its end. -/
theorem retrieveBodies_plain {rounds readLen len' count last : Nat} {left : Int} {data' : Cells} {d' : ClientData}
    {next after : Client} (body : nextBody pt data len d c = (.ok (readLen, data', len', d'), next))
    (plain : d'.isChunked = false)
    (read : readBody pt 0 readLen len' d'.retrieveLen { next with http := next.http.beginBody pt readLen (readBytes data' 0 len') } =
      (.done count left last, after)) :
    ∃ final, retrieveBodies pt (rounds + 1) 0 data len d c = some (0, final) ∧
      final.http.flash = (HttpData.httpFlashWr pt after.http.wrBuf { after.http with doData := false }).flash := by
  rw [retrieveBodies, body]
  dsimp only
  rw [read]
  dsimp only
  rw [plain, if_neg Bool.false_ne_true]
  exact ⟨_, rfl, rfl⟩

theorem beginBody_nothing (data : Cells) :
    (http.beginBody pt 0 (readBytes data 0 0)).wrBuf = [] ∧
      (http.beginBody pt 0 (readBytes data 0 0)).flashAddress = pt.startAddr ∧
      (http.beginBody pt 0 (readBytes data 0 0)).flash = http.flash := by
  have none_written : (http.httpFlashInit pt).httpWrToFlash pt (readBytes data 0 0) = http.httpFlashInit pt := by
    rw [readBytes, HttpData.httpWrToFlash, List.length_nil, HttpData.wrRounds]
  unfold HttpData.beginBody
  rw [none_written]
  exact ⟨rfl, rfl, rfl⟩

theorem flush_nothing {net : Net} {begun : HttpData} (empty : begun.wrBuf = []) (start : begun.flashAddress = pt.startAddr)
    (same : begun.flash = http.flash) :
    (HttpData.httpFlashWr pt (Client.mk net begun).http.wrBuf { (Client.mk net begun).http with doData := false }).flash =
      erasedAt flashSectorSize http.flash pt.startAddr := by
  rw [← same]
  exact httpFlashWr_nothing empty start

/-- Of an image without bytes the first sector is erased nevertheless. -/
theorem retrieveLength_empty (body : Delivery []) :
    ∃ after, body.retrieveLength pt http = some (0, after) ∧
      after.http.flash = erasedAt flashSectorSize http.flash pt.startAddr := by
  have total := body.length_eq
  rw [List.length_nil] at total
  have none_buffered : body.len = 0 := by omega
  have low : 0 + 0 < responseBufLen - 1 := by
    rw [show responseBufLen = 1024 from rfl]
    omega
  have next : nextBody pt body.data 0 ⟨false, 0, 0⟩ ⟨body.net, http⟩ =
      (.ok (0, body.data, 0, ⟨false, 0, 0⟩), ⟨body.net, http⟩) := by
    unfold nextBody
    have none_asked : ((0 : Int) % 2 ^ 32).toNat = 0 := by omega
    rw [if_neg fun chunked => Bool.false_ne_true chunked.1, none_asked]
  have read := @readBody_end pt 0 0 0 ⟨body.net, http.beginBody pt 0 (readBytes body.data 0 0)⟩ low
  obtain ⟨final, result, flash⟩ :=
    @retrieveBodies_plain pt _ 0 _ _ (body.net.incoming.length + 0) _ _ _ _ _ _ _ _ _ next rfl read
  unfold Delivery.retrieveLength httpclientRetrieveContent
  rw [none_buffered, if_neg (by decide)]
  obtain ⟨empty, start, same⟩ := @beginBody_nothing pt http body.data
  exact ⟨final, result, flash.trans (flush_nothing empty start same)⟩

/-! ## The image in chunks -/

theorem retrieveChunked_empty (body : Delivery (chunkedBody [])) (idle : http.doData = false) :
    ∃ after, body.retrieveChunked pt http = some (0, after) ∧ after.http = http := by
  have plain : ∀ b ∈ [(48 : UInt8)], b ≠ 13 := by
    intro b member
    rw [List.mem_singleton.1 member]
    decide
  have split : readBytes body.data 0 body.len ++ body.net.incoming = [48] ++ crlf ++ crlf := body.split
  unfold Delivery.retrieveChunked httpclientRetrieveContent
  rw [if_neg (by decide), retrieveBodies]
  unfold nextBody
  rw [if_pos ⟨rfl, Int.le_refl 0⟩]
  rcases @readChunkHeader_line pt _ _ _ _ ⟨body.net, http⟩ idle body.few plain split with
    ⟨data, len, after, read, line⟩ | ⟨_, _, _, _, none_behind⟩
  · have text := @line_string _ _ after _ _ _ line.split line.behind rfl (by simp)
    have zero : scanHex [48] = some 0 := scanHex_digits (by simp; decide) (List.cons_ne_nil _ _)
    rw [read]
    simp only [text, zero, if_true]
    exact ⟨after, rfl, line.http⟩
  · exact absurd (none_behind (by rw [chunk_size, List.length_singleton]; omega)) (List.cons_ne_nil _ _)

theorem chunk_small (fits : (imageOf (chunk :: chunks)).length ≤ pt.length) : chunk.bytes.length < 2 ^ 32 := by
  have chip := pt.inside
  have part : chunk.bytes.length ≤ (imageOf (chunk :: chunks)).length := by
    rw [imageOf, List.flatMap_cons, List.length_append]
    exact Nat.le_add_right _ _
  omega

theorem chunkedBody_cons (chunk : Chunk) (chunks : List Chunk) :
    chunkedBody (chunk :: chunks) = chunk.encode ++ chunkedBody chunks := by
  rw [chunkedBody, List.flatMap_cons, List.append_assoc, chunkedBody]

/-- An image that does not begin with a carriage return fails in whatever pieces it comes. -/
theorem retrieveChunked_other (body : Delivery (chunkedBody (chunk :: chunks))) (idle : http.doData = false)
    (fits : (imageOf (chunk :: chunks)).length ≤ pt.length) (other : chunk.bytes.head? ≠ some 13) :
    ∃ ret after, body.retrieveChunked pt http = some (ret, after) ∧ ret ≠ 0 := by
  have split := body.split.trans (chunkedBody_cons chunk chunks)
  unfold Delivery.retrieveChunked httpclientRetrieveContent
  rw [if_neg (by decide)]
  exact @first_chunk_ends pt (chunkedBody chunks) ⟨body.net, http⟩ _ _ _ _ _ idle body.few (chunk_small fits) split rfl
    (Int.le_refl 0) other

/-- The line of the first chunk and a byte are in the buffer, and the rest comes byte by byte. -/
theorem byteByByte (idle : http.doData = false) (fits : (imageOf (chunk :: chunks)).length ≤ pt.length) :
    ∃ body : Delivery (chunkedBody (chunk :: chunks)),
      ∃ ret after, body.retrieveChunked pt http = some (ret, after) ∧ ret ≠ 0 := by
  generalize same : chunkedBody (chunk :: chunks) = stream
  have parts : stream = chunk.encode ++ chunkedBody chunks := by rw [← same, chunkedBody_cons]
  have positive := List.length_pos_of_ne_nil chunk.some_bytes
  have long : chunk.digits.length + 3 ≤ stream.length := by
    rw [parts, encode_arranged]
    simp only [List.length_append, crlf_length]
    omega
  by_cases room : chunk.digits.length + 3 < httpclientChunkSize
  · have size : (stream.take (chunk.digits.length + 3)).length = chunk.digits.length + 3 := List.length_take_of_le long
    have first := (holds_storeBytes (fun _ => 0) 0 (stream.take (chunk.digits.length + 3))).read_of_length size
    let body : Delivery stream :=
      { data := storeBytes (fun _ => 0) 0 (stream.take (chunk.digits.length + 3))
        len := chunk.digits.length + 3
        net := ⟨stream.drop (chunk.digits.length + 3), List.replicate (chunk.bytes.length + 0) 1, false⟩
        few := room
        split := by rw [first, List.take_append_drop] }
    refine ⟨body, ?_⟩
    unfold Delivery.retrieveChunked httpclientRetrieveContent
    rw [if_neg (by decide)]
    exact @first_chunk_missed pt (chunkedBody chunks) ⟨body.net, http⟩ _ _ _ _ _ 0 body.few (chunk_small fits)
      (body.split.trans parts) rfl (Int.le_refl 0) rfl rfl
  · have plain : ∀ b ∈ chunk.digits, b ≠ 13 := fun b member => (hex_plain chunk.hex b member).2.2
    let body : Delivery stream :=
      { data := fun _ => 0, len := 0, net := ⟨stream, [], false⟩, few := by decide, split := rfl }
    have split := body.split.trans (parts.trans (encode_arranged chunk (chunkedBody chunks)))
    refine ⟨body, ?_⟩
    unfold Delivery.retrieveChunked httpclientRetrieveContent
    rw [if_neg (by decide), retrieveBodies]
    unfold nextBody
    rw [if_pos ⟨rfl, Int.le_refl 0⟩]
    rcases @readChunkHeader_line pt _ _ _ _ ⟨body.net, http⟩ idle body.few plain split with
      ⟨_, _, _, _, line⟩ | ⟨e, after, failed, bad, _⟩
    · have behind := line.behind
      have few := line.few
      omega
    · rw [failed]
      exact ⟨e, after, rfl, bad⟩

/-! ## Results -/

theorem imageOf_head (chunk : Chunk) (chunks : List Chunk) : (imageOf (chunk :: chunks)).head? = chunk.bytes.head? := by
  obtain ⟨b, others, bytes⟩ := List.exists_cons_of_ne_nil chunk.some_bytes
  rw [imageOf, List.flatMap_cons, bytes]
  rfl

theorem imageOf_ne_nil (chunk : Chunk) (chunks : List Chunk) : imageOf (chunk :: chunks) ≠ [] := by
  intro none
  have head := imageOf_head chunk chunks
  rw [none, List.head?_nil, eq_comm, List.head?_eq_none_iff] at head
  exact chunk.some_bytes head

/-- Erasing its first sector leaves the partition as it was. -/
theorem erasedAt_same_iff : (∀ a, pt.startAddr ≤ a → a < pt.startAddr + pt.length →
    erasedAt flashSectorSize http.flash pt.startAddr a = http.flash a) ↔ FirstBlank pt http := by
  have aligned := pt.aligned
  have whole := pt.whole
  have room := pt.room
  rw [sector_size] at aligned whole
  have erased : erasedAt flashSectorSize http.flash pt.startAddr = eraseSector flashSectorSize http.flash pt.startAddr :=
    if_pos pt.aligned
  have inside (a : Nat) : pt.startAddr / flashSectorSize = a / flashSectorSize ↔
      pt.startAddr ≤ a ∧ a < pt.startAddr + flashSectorSize := by
    rw [sector_size]
    omega
  rw [erased]
  constructor
  · intro same a low high
    have first := same a low (by rw [sector_size] at high; omega)
    rw [eraseSector, if_pos ((inside a).2 ⟨low, high⟩)] at first
    exact first.symm
  · intro blank a _ _
    unfold eraseSector
    split
    next here => exact (blank a ((inside a).1 here).1 ((inside a).1 here).2).symm
    · rfl

theorem agree_empty_iff (idle : http.doData = false) (whole : Delivery (imageOf [])) (parts : Delivery (chunkedBody [])) :
    Agree pt http whole parts ↔ FirstBlank pt http := by
  obtain ⟨first, length, flash⟩ := @retrieveLength_empty pt http whole
  obtain ⟨second, chunked, kept⟩ := @retrieveChunked_empty pt http parts idle
  rw [← erasedAt_same_iff, ← flash]
  constructor
  · rintro ⟨ret, first', second', result, result', same⟩
    obtain ⟨rfl, rfl⟩ := Prod.mk.inj (Option.some.inj (length.symm.trans result))
    obtain ⟨-, rfl⟩ := Prod.mk.inj (Option.some.inj (chunked.symm.trans result'))
    rw [kept] at same
    exact same
  · intro same
    refine ⟨0, first, second, length, chunked, ?_⟩
    rw [kept]
    exact same

/-- A result that is not that of the image with its length. -/
theorem not_agree {whole : Delivery (imageOf chunks)} {parts : Delivery (chunkedBody chunks)}
    (fits : (imageOf chunks).length ≤ pt.length)
    (failed : ∃ ret after, parts.retrieveChunked pt http = some (ret, after) ∧ ret ≠ 0) : ¬Agree pt http whole parts := by
  rintro ⟨ret, first, second, result, result', -⟩
  obtain ⟨after, length⟩ := @retrieveLength_whole pt http _ whole fits
  obtain ⟨bad, last, chunked, nonzero⟩ := failed
  obtain ⟨rfl, -⟩ := Prod.mk.inj (Option.some.inj (length.symm.trans result))
  obtain ⟨rfl, -⟩ := Prod.mk.inj (Option.some.inj (chunked.symm.trans result'))
  exact nonzero rfl

/-- The two downloads agree, in whatever pieces they come, if and only if the image is empty and the first sector is
blank; and in some pieces only for such an image or for one that begins with a carriage return. -/
theorem downloads_agree_iff (pt : Partition) (http : HttpData) (chunks : List Chunk) (idle : http.doData = false)
    (fits : (imageOf chunks).length ≤ pt.length) :
    ((∀ (whole : Delivery (imageOf chunks)) (parts : Delivery (chunkedBody chunks)), Agree pt http whole parts) ↔
        imageOf chunks = [] ∧ FirstBlank pt http) ∧
      ∀ (whole : Delivery (imageOf chunks)) (parts : Delivery (chunkedBody chunks)), Agree pt http whole parts →
        imageOf chunks = [] ∧ FirstBlank pt http ∨ (imageOf chunks).head? = some 13 := by
  have some_delivery (stream : List UInt8) : Delivery stream :=
    { data := fun _ => 0, len := 0, net := ⟨stream, [], false⟩, few := by decide, split := rfl }
  cases chunks with
  | nil =>
    constructor
    · constructor
      · exact fun all => ⟨rfl, (agree_empty_iff idle _ _).1 (all (some_delivery _) (some_delivery _))⟩
      · exact fun blank whole parts => (agree_empty_iff idle whole parts).2 blank.2
    · exact fun whole parts agree => Or.inl ⟨rfl, (agree_empty_iff idle whole parts).1 agree⟩
  | cons chunk chunks =>
    constructor
    · constructor
      · intro all
        obtain ⟨parts, failed⟩ := byteByByte idle fits
        exact absurd (all (some_delivery _) parts) (not_agree fits failed)
      · exact fun empty => absurd empty.1 (imageOf_ne_nil chunk chunks)
    · intro whole parts agree
      refine Or.inr ?_
      rw [imageOf_head]
      by_contra other
      exact not_agree fits (retrieveChunked_other parts idle fits other) agree

end

/-! ## A chip that is erased -/

def erasedHttp : HttpData := ⟨0, false, [], 0, fun _ => 0xFF⟩

/-- The empty image, and its last chunk, in one segment each. -/
def emptyWhole : Delivery (imageOf []) where
  data := fun _ => 0
  len := 0
  net := ⟨imageOf [], [], false⟩
  few := by decide
  split := rfl

def emptyParts : Delivery (chunkedBody []) where
  data := fun _ => 0
  len := 0
  net := ⟨chunkedBody [], [], false⟩
  few := by decide
  split := rfl

theorem empty_agrees : Agree otaPartition erasedHttp emptyWhole emptyParts :=
  (downloads_agree_iff otaPartition erasedHttp [] rfl (Nat.zero_le _)).1.2 ⟨rfl, fun _ _ _ => rfl⟩ emptyWhole emptyParts

/-- One chunk, of one byte. -/
def oneByte : Chunk := ⟨[49], [65], by simp; decide, by decide, by decide⟩

/-- The byte itself is taken for the end of the chunk. -/
theorem one_byte_differs : ¬∀ (chunks : List Chunk), (imageOf chunks).length ≤ otaPartition.length →
    ∀ (whole : Delivery (imageOf chunks)) (parts : Delivery (chunkedBody chunks)),
      Agree otaPartition erasedHttp whole parts := by
  intro all
  have fits : (imageOf [oneByte]).length ≤ otaPartition.length := by decide
  let whole : Delivery (imageOf [oneByte]) :=
    { data := fun _ => 0, len := 0, net := ⟨imageOf [oneByte], [], false⟩, few := by decide, split := rfl }
  let parts : Delivery (chunkedBody [oneByte]) :=
    { data := fun _ => 0, len := 0, net := ⟨chunkedBody [oneByte], [], false⟩, few := by decide, split := rfl }
  exact not_agree fits (retrieveChunked_other parts rfl fits (by decide)) (all [oneByte] fits whole parts)

end BekenSdk.HttpOta
