import BekenSdk.HttpOta.Head

/-! Downloads of an image with a Content-Length. The result is 0 with the whole image in the
partition, unless the connection is closed when the response buffer counts as full, or the image is as
long as the partition and its last block is not blank.
-/

set_option autoImplicit false

namespace BekenSdk.HttpOta
open Base

structure Response where
  statusLine : List UInt8
  headers : List (List UInt8)
  body : List UInt8

def Response.head (r : Response) : List UInt8 := r.statusLine ++ crlf ++ (terminated r.headers ++ crlf)

def Response.bytes (r : Response) : List UInt8 := r.head ++ r.body

/-- A 200 response that says the length of its body, which is an image for the partition. -/
structure Response.Proper (r : Response) (pt : Partition) : Prop where
  status : Line r.statusLine
  lines : ∀ line ∈ r.headers, Line line ∧ line ≠ []
  ok : scanStatus r.statusLine = some 200
  length : ∀ line ∈ r.headers, ∀ value, scanHeader line = some (contentLength, value) →
    (scanInt value).map Prod.fst = some (r.body.length : Int)
  plain : ∀ line ∈ r.headers, ∀ value, scanHeader line = some (transferEncoding, value) →
    value ≠ "Chunked".toUTF8.toList ∧ value ≠ "chunked".toUTF8.toList
  fits : r.body.length ≤ pt.length

/-- The length is said in the spelling that is looked for. -/
def Response.Declares (r : Response) :
    Prop := ∃ line ∈ r.headers, ∃ value, scanHeader line = some (contentLength, value)

/-- The head is there and gets read: the first piece has all of the status line. -/
structure Accepted (r : Response) (net : Net) : Prop where
  status : (r.statusLine ++ crlf).length ≤ (net.incoming.take (net.share (httpclientChunkSize - 1))).length
  scanned : ∀ line ∈ r.headers, scanHeader line ≠ none
  declares : r.Declares
  complete : r.head.length ≤ net.incoming.length

/-- The result is 0 only when the image has come and is in the partition. -/
def ImageKept (pt : Partition) (r : Response) (c : Client) (result : Option (Int × Client)) : Prop :=
  ∀ after, result = some (0, after) → c.net.incoming = r.bytes ∧ Holds after.http.flash pt.startAddr r.body

section
variable {pt : Partition} {r : Response} {c : Client} {d : ClientData}

/-! ## The length -/

theorem takeLine_other {line : List UInt8} (silent : ∀ value, scanHeader line ≠ some (contentLength, value))
    (plain : ∀ value, scanHeader line = some (transferEncoding, value) →
      value ≠ "Chunked".toUTF8.toList ∧ value ≠ "chunked".toUTF8.toList) : takeLine d line = d := by
  unfold takeLine
  split
  · rfl
  next header scanned =>
    unfold takeHeader
    rw [if_neg, if_neg]
    · rintro ⟨key, value⟩
      have here := plain header.2 (by rw [scanned, ← key])
      exact value.elim here.1 here.2
    · intro key
      exact silent header.2 (by rw [scanned, ← key])

theorem takeLine_length {line value : List UInt8} {n : Nat} (scanned : scanHeader line = some (contentLength, value))
    (number : (scanInt value).map Prod.fst = some (n : Int)) :
    takeLine d line = { d with responseContentLen := n, retrieveLen := n } := by
  unfold takeLine takeHeader
  rw [scanned]
  dsimp only
  rw [if_pos rfl, number]
  rfl

/-- What the headers come to. -/
theorem headers_length {lines : List (List UInt8)} {n : Nat}
    (length : ∀ line ∈ lines, ∀ value, scanHeader line = some (contentLength, value) →
      (scanInt value).map Prod.fst = some (n : Int))
    (plain : ∀ line ∈ lines, ∀ value, scanHeader line = some (transferEncoding, value) →
      value ≠ "Chunked".toUTF8.toList ∧ value ≠ "chunked".toUTF8.toList) (d : ClientData) :
    (lines.foldl takeLine d).isChunked = d.isChunked ∧
      ((∃ line ∈ lines, ∃ value, scanHeader line = some (contentLength, value)) →
        (lines.foldl takeLine d).retrieveLen = n ∧ (lines.foldl takeLine d).responseContentLen = n) ∧
      ((¬ ∃ line ∈ lines, ∃ value, scanHeader line = some (contentLength, value)) → lines.foldl takeLine d = d) := by
  induction lines generalizing d with
  | nil => exact ⟨rfl, fun ⟨_, member, _⟩ => absurd member List.not_mem_nil, fun _ => rfl⟩
  | cons line lines ih =>
    obtain ⟨here, others⟩ := List.forall_mem_cons.mp length
    obtain ⟨plain_here, plain_others⟩ := List.forall_mem_cons.mp plain
    rw [List.foldl_cons]
    by_cases said : ∃ value, scanHeader line = some (contentLength, value)
    · obtain ⟨value, scanned⟩ := said
      rw [takeLine_length scanned (here value scanned)]
      obtain ⟨chunked, later, silent⟩ := ih others plain_others { d with responseContentLen := n, retrieveLen := n }
      refine ⟨chunked, fun _ => ?_, fun never => absurd ⟨line, List.mem_cons_self .., value, scanned⟩ never⟩
      by_cases again : ∃ line ∈ lines, ∃ value, scanHeader line = some (contentLength, value)
      · exact later again
      · rw [silent again]
        exact ⟨rfl, rfl⟩
    · rw [takeLine_other (fun value scanned => said ⟨value, scanned⟩) plain_here]
      obtain ⟨chunked, later, silent⟩ := ih others plain_others d
      refine ⟨chunked, ?_, fun never => silent fun ⟨other, member, found⟩ => never ⟨other,
        List.mem_cons_of_mem _ member, found⟩⟩
      rintro ⟨other, member, found⟩
      rcases List.mem_cons.mp member with rfl | member
      · exact absurd found said
      · exact later ⟨other, member, found⟩

theorem retrieveAll_negative (count len : Nat) (c : Client) : (retrieveAll pt count len c).1 < 0 := by
  fun_induction retrieveAll pt count len c with
  | case1 =>
    change errorHttpConn < 0
    decide
  | case2 => assumption
  | case3 =>
    change errorNoSupport < 0
    decide

/-! ## The head of the response -/

/-- The data with which the headers are read. -/
def fresh (d : ClientData) : ClientData := { d with responseContentLen := -1, isChunked := false }

theorem Response.head_eq (r : Response) : r.head = terminated (r.statusLine :: r.headers) ++ crlf := by
  simp only [Response.head, terminated, List.flatMap_cons, List.append_assoc]

/-- The content is retrieved from behind the head. -/
structure HeadDone (r : Response) (c : Client) (data : Cells) (len : Nat) (after : Client) : Prop where
  status : (r.statusLine ++ crlf).length ≤ (c.net.incoming.take (c.net.share (httpclientChunkSize - 1))).length
  scanned : ∀ line ∈ r.headers, scanHeader line ≠ none
  split : c.net.incoming = r.head ++ (readBytes data 0 len ++ after.net.incoming)
  few : len < httpclientChunkSize
  closes : after.net.closes = c.net.closes

theorem recvResponse_cases (proper : r.Proper pt) (idle : c.http.doData = false)
    (delivered : c.net.incoming <+: r.bytes) :
    (∃ data len after, HeadDone r c data len after ∧
        httpclientRecvResponse pt d c =
          httpclientRetrieveContent pt data len (r.headers.foldl takeLine (fresh d)) after) ∨
      ∃ ret after, httpclientRecvResponse pt d c = some (ret, after) ∧ ret < 0 ∧ ¬ Accepted r c.net := by
  have head : ∀ line ∈ r.statusLine :: r.headers, Line line ∧ line ≠ [] := by
    refine List.forall_mem_cons.mpr ⟨⟨proper.status, fun empty => ?_⟩, proper.lines⟩
    have scanned := proper.ok
    rw [empty] at scanned
    cases scanned
  unfold httpclientRecvResponse
  rcases @httpclientRecv_head pt (httpclientChunkSize - 1) c (by decide) idle
    with ⟨empty, after, none_read⟩ | ⟨after, read, some_bytes, split, closes, http⟩
  · right
    rw [none_read]
    refine ⟨_, _, rfl, by decide, fun accepted => ?_⟩
    have status := accepted.status
    rw [empty, List.length_append, crlf_length] at status
    simp at status
  · rw [read]
    dsimp only
    generalize first_eq : c.net.incoming.take (c.net.share (httpclientChunkSize - 1)) = b at *
    have data_eq : readBytes (Function.update (storeBytes (fun _ => 0) 0 b) b.length 0) 0 b.length = b := by
      have stored := readBytes_store (fun _ => 0) 0 b
      rw [Nat.zero_add] at stored
      exact stored
    generalize Function.update (storeBytes (fun _ => 0) 0 b) b.length 0 = data at *
    have few : b.length ≤ httpclientChunkSize - 1 := by
      rw [← first_eq, List.length_take]
      exact (Nat.min_le_left _ _).trans (Nat.min_le_left _ _)
    rw [Response.bytes, Response.head_eq, split, ← data_eq] at delivered
    have shown := buffer head delivered
    unfold httpclientResponseParse
    rcases found : strstrCrlf (cString data b.length) with _ | pos
    · right
      refine ⟨_, _, rfl, by decide, fun accepted => ?_⟩
      have here := shown.found
      have status := accepted.status
      rw [first_eq, List.length_append] at status
      rw [found, List.headD_cons, if_pos status] at here
      cases here
    · obtain ⟨rfl, room, text, line⟩ := shown.taken found
      dsimp only
      rw [text, List.headD_cons, proper.ok]
      dsimp only
      rw [List.headD_cons] at room line
      have moved : readBytes (memmove data (r.statusLine.length + 2) (b.length - (r.statusLine.length + 2) + 1)) 0
          (b.length - (r.statusLine.length + 2)) =
          readBytes data (r.statusLine.length + 2) (b.length - (r.statusLine.length + 2)) :=
        readBytes_memmove _ _ _ (by omega)
      have whole : b ++ after.net.incoming = r.statusLine ++ crlf ++
          (readBytes (memmove data (r.statusLine.length + 2) (b.length - (r.statusLine.length + 2) + 1)) 0
            (b.length - (r.statusLine.length + 2)) ++ after.net.incoming) := by
        rw [moved, ← data_eq, data_eq, ← List.append_assoc]
        exact congrArg (· ++ after.net.incoming) (data_eq.symm.trans line)
      have later : readBytes (memmove data (r.statusLine.length + 2) (b.length - (r.statusLine.length + 2) + 1)) 0
          (b.length - (r.statusLine.length + 2)) ++ after.net.incoming <+: terminated r.headers ++ crlf ++ r.body := by
        rw [data_eq, whole, ← Response.head_eq, Response.head, List.append_assoc, List.append_assoc, List.append_assoc,
          List.prefix_append_right_inj, List.prefix_append_right_inj] at delivered
        exact delivered
      generalize memmove data (r.statusLine.length + 2) (b.length - (r.statusLine.length + 2) + 1) = start at *
      rcases readHeaders_lines start (b.length - (r.statusLine.length + 2)) (fresh d) after proper.lines (by rw [chunk_size] at few ⊢; omega) (by rw [http]; exact idle) later with
        ⟨data', len', last, result, done⟩ | ⟨e, last, result, negative, refused⟩
      · left
        refine ⟨data', len', last, ⟨?_, done.scanned, ?_, done.few, done.closes.trans closes⟩, ?_⟩
        · rw [first_eq, List.length_append]
          exact room
        · rw [split, whole, done.split, Response.head]
          simp only [List.append_assoc]
        · rw [show ({ d with responseContentLen := -1, isChunked := false } : ClientData) = fresh d from rfl, result]
          dsimp only
          rw [if_neg (by decide)]
      · right
        refine ⟨e, last, ?_, negative, fun accepted => ?_⟩
        · rw [show ({ d with responseContentLen := -1, isChunked := false } : ClientData) = fresh d from rfl, result]
        · rcases refused with short | ⟨line, member, unscanned⟩
          · have complete := accepted.complete
            rw [split, whole, Response.head, List.length_append,
              @List.length_append _ (r.statusLine ++ crlf) (_ ++ _)] at complete
            omega
          · exact accepted.scanned line member unscanned

/-! ## Image -/

/-- How many bytes of the body have come. -/
def arrived (r : Response) (net : Net) : Nat := net.incoming.length - r.head.length

theorem recvResponse_accepted (proper : r.Proper pt) (idle : c.http.doData = false)
    (delivered : c.net.incoming <+: r.bytes)
    (accepted : Accepted r c.net) :
    ∃ after, httpclientRecvResponse pt d c = some (bodyResult r.body.length (arrived r c.net) c.net.closes, after) ∧
      (c.net.incoming = r.bytes → (Holds after.http.flash pt.startAddr r.body ↔
        (r.body.length = pt.length → r.body.drop (pt.length - httpFlashWrBufMax) = blank httpFlashWrBufMax))) := by
  rcases @recvResponse_cases pt r c d proper idle delivered with ⟨data, len, last, done, result⟩ | ⟨_, _, _, _, refused⟩
  · obtain ⟨chunked, said, -⟩ := headers_length proper.length proper.plain (fresh d)
    obtain ⟨length, content⟩ := said accepted.declares
    have count : arrived r c.net = len + last.net.incoming.length := by
      rw [arrived, done.split, List.length_append, List.length_append, readBytes_length, Nat.add_sub_cancel_left]
    have body : readBytes data 0 len ++ last.net.incoming <+: r.body := by
      rw [done.split, Response.bytes, List.prefix_append_right_inj] at delivered
      exact delivered
    have most : len + last.net.incoming.length ≤ r.body.length := by
      have less := body.length_le
      rw [List.length_append, readBytes_length] at less
      exact less
    obtain ⟨after, retrieved, image⟩ :=
      @retrieve_length pt len r.body.length data _ last done.few most proper.fits chunked length content
    rw [result, count, ← done.closes]
    refine ⟨after, retrieved, fun whole => ?_⟩
    have all : readBytes data 0 len ++ last.net.incoming = r.body := by
      rw [done.split, Response.bytes] at whole
      exact List.append_cancel_left whole
    rw [all] at image
    apply image
    rw [← all, List.length_append, readBytes_length]
  · exact absurd accepted refused

theorem recvResponse_refused (proper : r.Proper pt) (idle : c.http.doData = false)
    (delivered : c.net.incoming <+: r.bytes)
    (refused : ¬ Accepted r c.net) : ∃ ret after, httpclientRecvResponse pt d c = some (ret, after) ∧ ret < 0 := by
  rcases @recvResponse_cases pt r c d proper idle delivered
    with ⟨data, len, last, done, result⟩ | ⟨ret, after, result, negative, -⟩
  · -- the head was read, so that the length was not looked for
    have silent : ¬ r.Declares := by
      intro declares
      apply refused
      refine ⟨done.status, done.scanned, declares, ?_⟩
      rw [done.split, List.length_append]
      exact Nat.le_add_right _ _
    obtain ⟨-, -, same⟩ := headers_length proper.length proper.plain (fresh d)
    rw [result, same silent, httpclientRetrieveContent, if_pos ⟨rfl, rfl⟩]
    exact ⟨_, _, rfl, retrieveAll_negative 0 len last⟩
  · exact ⟨ret, after, result, negative⟩

/-- The connection is closed after so much of the body that the response buffer counts as full. -/
def CutLate (r : Response) (net : Net) : Prop :=
  net.closes = true ∧ responseBufLen - 1 ≤ arrived r net ∧ arrived r net < r.body.length

/-- The image fills the partition, and its last block is not what an erased sector has. -/
def LastBlockLost (pt : Partition) (r : Response) (net : Net) : Prop :=
  arrived r net = r.body.length ∧ r.body.length = pt.length ∧
    r.body.drop (pt.length - httpFlashWrBufMax) ≠ blank httpFlashWrBufMax

/-- Only a result below 0 is handed on. -/
theorem common_eq {ret : Int} {after : Client} (connected : Int) (up : connected = 0)
    (result : httpclientRecvResponse pt d c = some (ret, after)) :
    httpclientCommon pt connected d c =
      some (if ret < 0 then (ret, { after with http := after.http.httpFlashDeinit }) else (0, after)) := by
  unfold httpclientCommon
  rw [if_neg (not_not.mpr up), result]
  rfl

theorem kept_of_negative {ret : Int} {after : Client} (negative : ret < 0) : ImageKept pt r c (some (ret, after)) := by
  intro last same
  have zero := (Prod.mk.inj (Option.some.inj same)).1
  exact absurd zero (Int.ne_of_lt negative)

theorem download_complete (connected : Int) (d : ClientData) (proper : r.Proper pt) (idle : c.http.doData = false)
    (delivered : c.net.incoming <+: r.bytes) :
    ImageKept pt r c (httpclientCommon pt connected d c) ↔
      ¬ (connected = 0 ∧ Accepted r c.net ∧ (CutLate r c.net ∨ LastBlockLost pt r c.net)) := by
  by_cases up : connected = 0
  swap
  · have never : httpclientCommon pt connected d c = some (connected, c) := if_pos up
    rw [never]
    refine iff_of_true (fun last same => ?_) fun bad => up bad.1
    exact absurd (Prod.mk.inj (Option.some.inj same)).1 up
  by_cases accepted : Accepted r c.net
  swap
  · obtain ⟨ret, after, result, negative⟩ := @recvResponse_refused pt r c d proper idle delivered accepted
    rw [common_eq connected up result, if_pos negative]
    exact iff_of_true (kept_of_negative negative) fun bad => accepted bad.2.1
  obtain ⟨after, result, image⟩ := @recvResponse_accepted pt r c d proper idle delivered accepted
  have size : c.net.incoming.length = r.head.length + arrived r c.net := by
    have complete := accepted.complete
    rw [arrived]
    omega
  have most : arrived r c.net ≤ r.body.length := by
    have less := delivered.length_le
    rw [Response.bytes, List.length_append] at less
    omega
  rw [common_eq connected up result]
  by_cases whole : arrived r c.net = r.body.length
  · -- all of it is there, and the last block decides
    have all : c.net.incoming = r.bytes := by
      apply delivered.eq_of_length
      rw [Response.bytes, List.length_append, size, whole]
    have good : bodyResult r.body.length (arrived r c.net) c.net.closes = 0 := if_pos whole
    rw [good, if_neg (Int.lt_irrefl 0)]
    constructor
    · rintro kept ⟨-, -, cut | lost⟩
      · exact absurd whole (Nat.ne_of_lt cut.2.2)
      · exact lost.2.2 ((image all).mp (kept after rfl).2 lost.2.1)
    · intro fine last same
      obtain rfl := (Prod.mk.inj (Option.some.inj same)).2
      refine ⟨all, (image all).mpr fun full => ?_⟩
      by_contra lost
      exact fine ⟨up, accepted, .inr ⟨whole, full, lost⟩⟩
  · have part : arrived r c.net < r.body.length := Nat.lt_of_le_of_ne most whole
    by_cases late : c.net.closes = true ∧ responseBufLen - 1 ≤ arrived r c.net
    · have more : bodyResult r.body.length (arrived r c.net) c.net.closes = httpRetrieveMoreData := by
        rw [bodyResult, if_neg whole, if_pos late]
      rw [more, if_neg (by decide)]
      refine iff_of_false (fun kept => ?_) fun fine => fine ⟨up, accepted, .inl ⟨late.1, late.2, part⟩⟩
      have all := congrArg List.length (kept after rfl).1
      rw [Response.bytes, List.length_append, size] at all
      omega
    · have failed : bodyResult r.body.length (arrived r c.net) c.net.closes = errorHttpConn := by
        rw [bodyResult, if_neg whole, if_neg late]
      rw [failed, if_pos (by decide)]
      refine iff_of_true (kept_of_negative (by decide)) ?_
      rintro ⟨-, -, cut | lost⟩
      · exact late ⟨cut.1, cut.2.1⟩
      · exact whole lost.1

end

/-! ## A partition and a response -/

def otaPartition : Partition := ⟨0x132000, 0xA6000, by decide, by decide, by decide, by decide⟩

/-- 3000 bytes. -/
def sample : Response := ⟨"HTTP/1.1 200 OK".toUTF8.toList, ["Content-Length: 3000".toUTF8.toList],
    List.replicate 3000 0⟩

/-- The connection is closed after so many bytes of the body. -/
def sampleClient (n : Nat) : Client :=
  ⟨⟨sample.head ++ List.replicate n 0, [], true⟩, ⟨0, false, [], 0, fun _ => 0⟩⟩

theorem sample_proper : sample.Proper otaPartition where
  status := ⟨by decide +kernel, by decide +kernel⟩
  lines := by
    intro line member
    obtain rfl := List.mem_singleton.mp member
    exact ⟨⟨by decide +kernel, by decide +kernel⟩, by decide +kernel⟩
  ok := by decide +kernel
  length := by
    intro line member value scanned
    obtain rfl := List.mem_singleton.mp member
    have said : scanHeader "Content-Length: 3000".toUTF8.toList = some (contentLength, "3000".toUTF8.toList) :=
      by decide +kernel
    obtain ⟨-, rfl⟩ := Prod.mk.inj (Option.some.inj (said.symm.trans scanned))
    rw [sample, List.length_replicate]
    decide +kernel
  plain := by
    intro line member value scanned
    obtain rfl := List.mem_singleton.mp member
    have said : scanHeader "Content-Length: 3000".toUTF8.toList = some (contentLength, "3000".toUTF8.toList) :=
      by decide +kernel
    obtain ⟨key, -⟩ := Prod.mk.inj (Option.some.inj (said.symm.trans scanned))
    exact absurd key (by decide +kernel)
  fits := by
    rw [sample, List.length_replicate]
    decide

theorem sample_delivered {n : Nat} (part : n ≤ 3000) : (sampleClient n).net.incoming <+: sample.bytes := by
  rw [sampleClient, Response.bytes, List.prefix_append_right_inj]
  refine ⟨List.replicate (3000 - n) 0, ?_⟩
  rw [← List.replicate_add, Nat.add_sub_cancel' part]
  rfl

theorem sample_accepted (n : Nat) : Accepted sample (sampleClient n).net where
  status := by
    have line : (sample.statusLine ++ crlf).length = 17 := by decide +kernel
    have head : sample.head.length = 41 := by decide +kernel
    have share : (sampleClient n).net.share (httpclientChunkSize - 1) = 255 := rfl
    have size : (sampleClient n).net.incoming.length = sample.head.length + n := by
      rw [sampleClient, List.length_append, List.length_replicate]
    rw [List.length_take, line, share, size, head]
    omega
  scanned := by
    intro line member
    obtain rfl := List.mem_singleton.mp member
    decide +kernel
  declares := ⟨_, List.mem_singleton.mpr rfl, "3000".toUTF8.toList, by decide +kernel⟩
  complete := by
    rw [sampleClient, List.length_append]
    exact Nat.le_add_right _ _

theorem sample_arrived (n : Nat) : arrived sample (sampleClient n).net = n := by
  rw [arrived, sampleClient, List.length_append, List.length_replicate, Nat.add_sub_cancel_left]

/-- Half of the image is taken for the whole of it. -/
theorem late_close_taken :
    sample.Proper otaPartition ∧ (sampleClient 1500).http.doData = false ∧
      (sampleClient 1500).net.incoming <+: sample.bytes ∧
      ¬ ImageKept otaPartition sample (sampleClient 1500) (httpclientCommon otaPartition 0 ⟨false, 0,
        0⟩ (sampleClient 1500)) := by
  refine ⟨sample_proper, rfl, sample_delivered (by decide), fun kept => ?_⟩
  obtain ⟨after, result, -⟩ :=
    @recvResponse_accepted _ _ _ ⟨false, 0, 0⟩ sample_proper rfl (sample_delivered (by decide)) (sample_accepted 1500)
  rw [sample_arrived] at result
  have more : bodyResult sample.body.length 1500 (sampleClient 1500).net.closes = httpRetrieveMoreData := by
    rw [sample, List.length_replicate]
    decide
  rw [more] at result
  rw [common_eq 0 rfl result, if_neg (by decide)] at kept
  have all := congrArg List.length (kept after rfl).1
  rw [Response.bytes, List.length_append, sampleClient, List.length_append, List.length_replicate,
    Nat.add_left_cancel_iff] at all
  rw [sample, List.length_replicate] at all
  exact absurd all (by decide)

theorem download_complete_sample :
    ImageKept otaPartition sample (sampleClient 3000) (httpclientCommon otaPartition 0 ⟨false, 0,
      0⟩ (sampleClient 3000)) := by
  apply (download_complete 0 ⟨false, 0, 0⟩ sample_proper rfl (sample_delivered (Nat.le_refl _))).mpr
  rintro ⟨-, -, cut | lost⟩
  · have less := cut.2.2
    rw [sample_arrived, sample, List.length_replicate] at less
    exact absurd less (Nat.lt_irrefl _)
  · have full := lost.2.1
    rw [sample, List.length_replicate] at full
    exact absurd full (by decide)

end BekenSdk.HttpOta
