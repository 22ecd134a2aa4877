import BekenSdk.HttpOta.Body
import BekenSdk.HttpOta.Content

/-! The head of an HTTP response, line by line through the receive buffer of HTTPCLIENT_CHUNK_SIZE
bytes (utils_httpc.c).
-/

set_option autoImplicit false

namespace BekenSdk.HttpOta
open Base

def mqttSubInfoNotFoundError : Int := -43

/-! ## Scanning -/

/-- os_strstr for the end of a line. -/
def strstrCrlf : List UInt8 → Option Nat
  | 13 :: 10 :: _ => some 0
  | [] => none
  | _ :: rest => (strstrCrlf rest).map (· + 1)

def isDigit (b : UInt8) : Bool := 48 ≤ b ∧ b ≤ 57

def decNumber (digits : List UInt8) : Nat := digits.foldl (fun n b => 10 * n + (b.toNat - 48)) 0

/-- sscanf with %d, and what follows the number. Numbers are far from the end of 32 bits. -/
def scanInt (s : List UInt8) : Option (Int × List UInt8) :=
  let s := s.dropWhile isSpace
  let negative : Bool := s.head? = some 45
  let s := if s.head? = some 45 ∨ s.head? = some 43 then s.tail else s
  let digits := s.takeWhile isDigit
  if digits = [] then none
  else some (if negative then -decNumber digits else decNumber digits, s.dropWhile isDigit)

def scanChar (b : UInt8) (s : List UInt8) : Option (List UInt8) := if s.head? = some b then some s.tail else none

/-- The code in HTTP/%*d.%*d %d. -/
def scanStatus (line : List UInt8) : Option Int := do
  let s ← scanChar 72 line
  let s ← scanChar 84 s
  let s ← scanChar 84 s
  let s ← scanChar 80 s
  let s ← scanChar 47 s
  let (_, s) ← scanInt s
  let s ← scanChar 46 s
  let (_, s) ← scanInt s
  let (code, _) ← scanInt s
  some code

/-- Key and value in %31[^:]: %31[^\\r\\n]. -/
def scanHeader (line : List UInt8) : Option (List UInt8 × List UInt8) :=
  let key := (line.takeWhile (· ≠ 58)).take 31
  let s := line.drop key.length
  if key = [] then none
  else
    (scanChar 58 s).bind fun s =>
      let s := s.dropWhile isSpace
      let value := (s.takeWhile fun b => b ≠ 13 ∧ b ≠ 10).take 31
      if value = [] then none else some (key, value)

def contentLength : List UInt8 := "Content-Length".toUTF8.toList

def transferEncoding : List UInt8 := "Transfer-Encoding".toUTF8.toList

def takeHeader (d : ClientData) (header : List UInt8 × List UInt8) : ClientData :=
  if header.1 = contentLength then
    let n := ((scanInt header.2).map Prod.fst).getD d.responseContentLen
    { d with responseContentLen := n, retrieveLen := n }
  else if header.1 = transferEncoding ∧ (header.2 = "Chunked".toUTF8.toList ∨ header.2 = "chunked".toUTF8.toList) then
    ⟨true, 0, 0⟩
  else d

theorem strstrCrlf_le {s : List UInt8} {pos : Nat} (found : strstrCrlf s = some pos) : pos + 2 ≤ s.length := by
  fun_induction strstrCrlf s generalizing pos with
  | case1 => cases found; simp
  | case2 => cases found
  | case3 b rest _ ih =>
    obtain ⟨p, later, rfl⟩ := Option.map_eq_some_iff.mp found
    have bound := ih later
    rw [List.length_cons]
    omega

theorem cString_length (data : Cells) (len : Nat) : (cString data len).length ≤ len :=
  (List.takeWhile_prefix _).length_le.trans_eq (readBytes_length data 0 len)

/-! ## Head -/

/-- The headers; at their end what is in the buffer. -/
def readHeaders (pt : Partition) (data : Cells) (len : Nat) (d : ClientData) (c : Client) :
    Except Int (Cells × Nat × ClientData) × Client :=
  match _found : strstrCrlf (cString data len) with
  | none =>
    if len < httpclientChunkSize - 1 then
      match _received : httpclientRecv pt (httpclientChunkSize - len - 1) c with
      | (none, c) => (.error errorHttpConn, c)
      | (some b, c) => readHeaders pt (Function.update (storeBytes data len b) (len + b.length) 0) (len + b.length) d c
    else (.error errorHttp, c)
  | some crlfPos =>
    if crlfPos = 0 then (.ok (memmove data 2 (len - 2 + 1), len - 2, d), c)
    else
      match scanHeader ((cString data len).take crlfPos) with
      | none => (.error errorHttp, c)
      | some header =>
        readHeaders pt (memmove data (crlfPos + 2) (len - (crlfPos + 2) + 1)) (len - (crlfPos + 2)) (takeHeader d header) c
termination_by 2 * c.net.incoming.length + len
decreasing_by
  · have less := length_less _received
    omega
  · have bound := strstrCrlf_le _found
    have size := cString_length data len
    omega

def httpclientResponseParse (pt : Partition) (data : Cells) (len : Nat) (d : ClientData) (c : Client) :
    Option (Int × Client) :=
  match strstrCrlf (cString data len) with
  | none => some (errorHttpUnresolvedDns, c)
  | some crlfPos =>
    match scanStatus ((cString data len).take crlfPos) with
    | none => some (errorHttpUnresolvedDns, c)
    | some responseCode =>
      match readHeaders pt (memmove data (crlfPos + 2) (len - (crlfPos + 2) + 1)) (len - (crlfPos + 2))
          { d with responseContentLen := -1, isChunked := false } c with
      | (.error e, c) => some (e, c)
      | (.ok (data, len, d), c) =>
        if responseCode ≠ 200 then some (mqttSubInfoNotFoundError, c)
        else httpclientRetrieveContent pt data len d c

/-- The first call for a response, which is_more says. -/
def httpclientRecvResponse (pt : Partition) (d : ClientData) (c : Client) : Option (Int × Client) :=
  match httpclientRecv pt (httpclientChunkSize - 1) c with
  | (none, c) => some (errorHttpConn, c)
  | (some b, c) =>
    httpclientResponseParse pt (Function.update (storeBytes (fun _ => 0) 0 b) b.length 0) b.length d c

/-- With the result of connecting and of sending the request. -/
def httpclientCommon (pt : Partition) (connected : Int) (d : ClientData) (c : Client) : Option (Int × Client) :=
  if connected ≠ 0 then some (connected, c)
  else
    (httpclientRecvResponse pt d c).map fun (ret, c) =>
      if ret < 0 then (ret, { c with http := c.http.httpFlashDeinit }) else (0, c)

/-! ## The head

A head that is made of lines, taken off what the connection delivers: the lines are read
as they were sent, wherever the delivery is divided, or the head is refused.
-/

def crlf : List UInt8 := [13, 10]

def terminated (lines : List (List UInt8)) : List UInt8 := lines.flatMap (· ++ crlf)

/-- A line that the receive buffer has room for with its end. -/
structure Line (line : List UInt8) : Prop where
  plain : ∀ b ∈ line, b ≠ 0 ∧ b ≠ 13
  short : line.length + crlf.length < httpclientChunkSize

/-- The headers, as they come. -/
def takeLine (d : ClientData) (line : List UInt8) : ClientData :=
  match scanHeader line with
  | none => d
  | some header => takeHeader d header

section
variable {line rest s : List UInt8}

theorem crlf_length : crlf.length = 2 := rfl

theorem chunk_size : httpclientChunkSize = 256 := rfl

/-! ## Lines in the buffer -/

theorem strstrCrlf_cons {b : UInt8} (other : b ≠ 13) : strstrCrlf (b :: s) = (strstrCrlf s).map (· + 1) := by
  rw [strstrCrlf]
  intro tail same
  exact absurd same other

/-- The first line ends where it was ended, when its end is there. -/
theorem strstrCrlf_line (plain : ∀ b ∈ line, b ≠ 0 ∧ b ≠ 13) (first : s <+: line ++ crlf ++ rest) :
    strstrCrlf (s.takeWhile (· ≠ 0)) = if line.length + crlf.length ≤ s.length then some line.length else none := by
  induction line generalizing s with
  | nil =>
    rcases s with _ | ⟨cr, _ | ⟨lf, s⟩⟩
    · rfl
    · obtain ⟨rfl, -⟩ := List.cons_prefix_cons.mp first
      rfl
    · obtain ⟨rfl, second⟩ := List.cons_prefix_cons.mp first
      obtain ⟨rfl, -⟩ := List.cons_prefix_cons.mp second
      rw [if_pos (by simp [crlf])]
      rfl
  | cons b line ih =>
    obtain ⟨⟨not_nul, not_cr⟩, others⟩ := List.forall_mem_cons.mp plain
    rcases s with _ | ⟨b', s⟩
    · rfl
    · rw [List.cons_append, List.cons_append] at first
      obtain ⟨rfl, tail⟩ := List.cons_prefix_cons.mp first
      rw [List.takeWhile_cons_of_pos (by simpa using not_nul), strstrCrlf_cons not_cr, ih others tail,
        List.length_cons, List.length_cons]
      by_cases there : line.length + crlf.length ≤ s.length
      · rw [if_pos there, if_pos (by omega)]
        rfl
      · rw [if_neg there, if_neg (by omega)]
        rfl

/-- The text up to the end of the line. -/
theorem take_line (plain : ∀ b ∈ line, b ≠ 0 ∧ b ≠ 13) (first : s <+: line ++ crlf ++ rest)
    (there : line.length + crlf.length ≤ s.length) :
    (s.takeWhile (· ≠ 0)).take line.length = line ∧ ∃ later, s = line ++ crlf ++ later ∧ later <+: rest := by
  have whole : line ++ crlf <+: s := by
    apply List.prefix_of_prefix_length_le (List.prefix_append _ rest) first
    rw [List.length_append]
    exact there
  obtain ⟨later, rfl⟩ := whole
  refine ⟨?_, later, rfl, (List.prefix_append_right_inj _).mp first⟩
  rw [List.append_assoc, List.takeWhile_append_of_pos fun b member => decide_eq_true (plain b member).1, List.take_left]

theorem readBytes_memmove (data : Cells) (source n : Nat) {len : Nat} (few : len ≤ n) :
    readBytes (memmove data source n) 0 len = readBytes data source len := by
  have shifted (i : Nat) (inside : i + len ≤ n) : readBytes (memmove data source n) i len =
    readBytes data (source + i) len := by
    clear few
    induction len generalizing i with
    | zero => rfl
    | succ len ih =>
      have here : memmove data source n i = data (source + i) := if_pos (by omega)
      rw [readBytes, readBytes, here, ih _ (by omega), Nat.add_assoc]
  exact shifted 0 (by omega)

theorem readBytes_store (data : Cells) (len : Nat) (b : List UInt8) :
    readBytes (Function.update (storeBytes data len b) (len + b.length) 0) 0 (len + b.length) =
      readBytes data 0 len ++ b := by
  rw [readBytes_add, Nat.zero_add]
  congr 1
  · apply readBytes_congr
    intro a _ high
    rw [Function.update_of_ne (by omega), storeBytes_outside (.inl (by omega))]
  · have stored : readBytes (storeBytes data len b) len b.length = b := (holds_storeBytes data len b).read
    rw [readBytes_congr fun a _ high => Function.update_of_ne (by omega) _ _]
    exact stored

/-! ## A read of the head -/

/-- Nothing is waited for after a first piece. -/
theorem halTcpRead_once {pt : Partition} {len : Nat} {c : Client} {net : Net} {b : List UInt8}
    (none_yet : c.http.doData = false)
    (read : c.net.recv len = (.bytes b, net)) : halTcpRead pt len [] false c = (.bytes b, ⟨net, c.http⟩) := by
  rw [halTcpRead]
  split
  next eq => cases (Prod.mk.inj (eq.symm.trans read)).1
  next eq => cases (Prod.mk.inj (eq.symm.trans read)).1
  next eq =>
    obtain ⟨bytes, rfl⟩ := Prod.mk.inj (eq.symm.trans read)
    obtain rfl := Received.bytes.inj bytes
    dsimp only
    rw [List.nil_append, none_yet, if_neg Bool.false_ne_true, if_neg]
    rintro (⟨data, -⟩ | ⟨short, full⟩)
    · exact Bool.false_ne_true data
    · rw [Bool.false_or, decide_eq_false_iff_not] at full
      exact full short

theorem httpclientRecv_head {pt : Partition} {maxLen : Nat} {c : Client} (asked : 0 < maxLen)
    (none_yet : c.http.doData = false) :
    (c.net.incoming = [] ∧ ∃ after, httpclientRecv pt maxLen c = (none, after)) ∨
      ∃ after, httpclientRecv pt maxLen c = (some (c.net.incoming.take (c.net.share maxLen)), after) ∧
        c.net.incoming.take (c.net.share maxLen) ≠ [] ∧
          c.net.incoming = c.net.incoming.take (c.net.share maxLen) ++ after.net.incoming ∧
          after.net.closes = c.net.closes ∧ after.http = c.http := by
  by_cases empty : c.net.incoming = []
  · exact .inl ⟨empty, httpclientRecv_dry maxLen empty⟩
  · right
    have share : 0 < c.net.share maxLen := by
      unfold Net.share
      omega
    have most : c.net.share maxLen ≤ maxLen := Nat.min_le_left _ _
    have read : c.net.recv maxLen = (.bytes (c.net.incoming.take (c.net.share maxLen)),
        { c.net with incoming := c.net.incoming.drop (c.net.share maxLen), grants := c.net.grants.tail }) := by
      unfold Net.recv
      rw [if_neg empty, if_neg (Nat.ne_of_gt asked)]
    obtain ⟨some_bytes, split⟩ := Net.recv_less read
    refine ⟨⟨_, c.http⟩, ?_, some_bytes, split, rfl, rfl⟩
    unfold httpclientRecv
    rw [halTcpRead_once none_yet read]

/-! ## The headers -/

/-- What is read is the head, and the rest is there. -/
structure HeadRead (lines : List (List UInt8)) (delivered : List UInt8) (c : Client) (data : Cells) (len : Nat)
    (after : Client) : Prop where
  scanned : ∀ line ∈ lines, scanHeader line ≠ none
  split : delivered = terminated lines ++ crlf ++ (readBytes data 0 len ++ after.net.incoming)
  few : len < httpclientChunkSize
  closes : after.net.closes = c.net.closes
  http : after.http = c.http

/-- Why a head is refused. -/
def Refused (lines : List (List UInt8)) (delivered : List UInt8) : Prop :=
  delivered.length < (terminated lines ++ crlf).length ∨ ∃ line ∈ lines, scanHeader line = none

/-- What is behind the first line, which may be the one that ends the head. -/
def behind (lines : List (List UInt8)) (rest : List UInt8) : List UInt8 :=
  match lines with
  | [] => rest
  | _ :: more => terminated more ++ crlf ++ rest

theorem first_line (lines : List (List UInt8)) (rest : List UInt8) :
    terminated lines ++ crlf ++ rest = lines.headD [] ++ crlf ++ behind lines rest := by
  cases lines with
  | nil => rfl
  | cons line more => simp only [terminated, behind, List.flatMap_cons, List.headD_cons, List.append_assoc]

/-- What the buffer shows of lines that it starts with. -/
structure Buffer (lines : List (List UInt8)) (rest : List UInt8) (data : Cells) (len : Nat) : Prop where
  line : Line (lines.headD [])
  first : readBytes data 0 len <+: lines.headD [] ++ crlf ++ behind lines rest
  found : strstrCrlf (cString data len) = if (lines.headD []).length + crlf.length ≤
    len then some (lines.headD []).length else none

theorem buffer {lines : List (List UInt8)} {data : Cells} {len : Nat} {incoming : List UInt8}
    (head : ∀ line ∈ lines, Line line ∧ line ≠ [])
    (first : readBytes data 0 len ++ incoming <+: terminated lines ++ crlf ++ rest) : Buffer lines rest data len := by
  have line : Line (lines.headD []) := by
    cases lines with
    | nil => exact ⟨fun b member => absurd member List.not_mem_nil, by decide⟩
    | cons line more => exact (head line (List.mem_cons_self ..)).1
  have starts : readBytes data 0 len <+: lines.headD [] ++ crlf ++ behind lines rest := by
    rw [← first_line]
    exact (List.prefix_append _ _).trans first
  refine ⟨line, starts, ?_⟩
  have found := strstrCrlf_line line.plain starts
  rw [readBytes_length] at found
  exact found

/-- The line is in the buffer with its end. -/
theorem Buffer.taken {lines : List (List UInt8)} {data : Cells} {len pos : Nat} (shown : Buffer lines rest data len)
    (found : strstrCrlf (cString data len) = some pos) :
    pos = (lines.headD []).length ∧ pos + crlf.length ≤ len ∧ (cString data len).take pos = lines.headD [] ∧
      readBytes data 0 len = lines.headD [] ++ crlf ++ readBytes data (pos + crlf.length) (len - (pos + crlf.length)) := by
  have here := shown.found
  rw [found] at here
  by_cases there : (lines.headD []).length + crlf.length ≤ len
  · rw [if_pos there] at here
    obtain rfl := Option.some.inj here
    obtain ⟨text, later, split, -⟩ := take_line shown.line.plain shown.first (by rw [readBytes_length]; exact there)
    refine ⟨rfl, there, text, ?_⟩
    have total : len = (lines.headD []).length + crlf.length + (len - ((lines.headD []).length + crlf.length)) :=
      by omega
    have parts := readBytes_add data 0 ((lines.headD []).length + crlf.length) (len - ((lines.headD []).length + crlf.length))
    rw [← total, Nat.zero_add] at parts
    rw [parts] at split
    have front := (List.append_inj split (by rw [readBytes_length, List.length_append])).1
    rw [parts, front]
  · rw [if_neg there] at here
    cases here

theorem readHeaders_lines {pt : Partition} {lines : List (List UInt8)} (data : Cells) (len : Nat) (d : ClientData)
    (c : Client)
    (head : ∀ line ∈ lines, Line line ∧ line ≠ []) (few : len < httpclientChunkSize) (none_yet : c.http.doData = false)
    (first : readBytes data 0 len ++ c.net.incoming <+: terminated lines ++ crlf ++ rest) :
    (∃ data' len' after, readHeaders pt data len d c = (.ok (data', len', lines.foldl takeLine d), after) ∧
        HeadRead lines (readBytes data 0 len ++ c.net.incoming) c data' len' after) ∨
      ∃ e after, readHeaders pt data len d c = (.error e, after) ∧ e < 0 ∧
        Refused lines (readBytes data 0 len ++ c.net.incoming) := by
  fun_induction readHeaders pt data len d c generalizing lines with
  | case1 data len d c found low after received =>
    have shown := buffer head first
    right
    refine ⟨_, _, rfl, by decide, .inl ?_⟩
    have missing : ¬ (lines.headD []).length + crlf.length ≤ len := by
      intro there
      have here := shown.found
      rw [found, if_pos there] at here
      cases here
    have size : (lines.headD []).length + crlf.length ≤ (terminated lines ++ crlf).length := by
      cases lines with
      | nil => exact Nat.le_refl _
      | cons line more =>
        rw [terminated, List.flatMap_cons, List.length_append, List.length_append, List.length_append, List.headD_cons]
        omega
    rcases @httpclientRecv_head pt (httpclientChunkSize - len - 1) c (by omega) none_yet
      with ⟨empty, -⟩ | ⟨other, some_read, -⟩
    · rw [empty, List.append_nil, readBytes_length]
      omega
    · cases (Prod.mk.inj (some_read.symm.trans received)).1
  | case2 data len d c found low b after received =>
    rename_i ih
    rcases @httpclientRecv_head pt (httpclientChunkSize - len - 1) c (by omega) none_yet
      with ⟨-, other, none_read⟩ | ⟨other, some_read, -, split, closes, http⟩
    · cases (Prod.mk.inj (none_read.symm.trans received)).1
    · obtain ⟨bytes, rfl⟩ := Prod.mk.inj (some_read.symm.trans received)
      have bytes := Option.some.inj bytes
      rw [bytes] at split
      have size : b.length ≤ httpclientChunkSize - len - 1 := by
        rw [← bytes, List.length_take]
        exact (Nat.min_le_left _ _).trans (Nat.min_le_left _ _)
      have same : readBytes (Function.update (storeBytes data len b) (len + b.length) 0) 0 (len + b.length) ++ other.net.incoming =
          readBytes data 0 len ++ c.net.incoming := by
        rw [readBytes_store, split, List.append_assoc]
      rw [← same] at first ⊢
      rcases ih head (by omega) (by rw [http]; exact none_yet) first with ⟨data', len', after, read, done⟩ | refused
      · exact .inl ⟨data', len', after, read, done.scanned, done.split, done.few, done.closes.trans closes,
          done.http.trans http⟩
      · exact .inr refused
  | case3 data len d c found high =>
    have shown := buffer head first
    have short := shown.line.short
    have here := shown.found
    rw [found, if_pos (by omega)] at here
    cases here
  | case4 data len d c found =>
    obtain ⟨size, room, -, split⟩ := (buffer head first).taken found
    cases lines with
    | cons line more => exact absurd (List.eq_nil_of_length_eq_zero size.symm) (head line (List.mem_cons_self ..)).2
    | nil =>
      left
      refine ⟨_, _, _, rfl, fun line member => absurd member List.not_mem_nil, ?_, by omega, rfl, rfl⟩
      rw [readBytes_memmove _ _ _ (by omega), split]
      rfl
  | case5 data len d c pos found some_text unscanned =>
    obtain ⟨size, room, text, split⟩ := (buffer head first).taken found
    cases lines with
    | nil => exact absurd size some_text
    | cons line more =>
      right
      refine ⟨_, _, rfl, by decide, .inr ⟨line, List.mem_cons_self .., ?_⟩⟩
      rw [text] at unscanned
      exact unscanned
  | case6 data len d c pos found some_text header scanned =>
    rename_i ih
    obtain ⟨size, room, text, split⟩ := (buffer head first).taken found
    cases lines with
    | nil => exact absurd size some_text
    | cons line more =>
      have scanned : scanHeader line = some header := by
        rw [text] at scanned
        exact scanned
      have taken : takeLine d line = takeHeader d header := by
        unfold takeLine
        rw [scanned]
      have moved : readBytes (memmove data (pos + 2) (len - (pos + 2) + 1)) 0 (len - (pos + 2)) =
        readBytes data (pos + 2) (len - (pos + 2)) :=
        readBytes_memmove _ _ _ (by omega)
      have whole : readBytes data 0 len ++ c.net.incoming =
          line ++ crlf ++ (readBytes data (pos + 2) (len - (pos + 2)) ++ c.net.incoming) := by
        rw [split, List.append_assoc]
        rfl
      rw [moved] at ih
      rw [whole, first_line] at first
      have later : readBytes data (pos + 2) (len - (pos + 2)) ++ c.net.incoming <+: terminated more ++ crlf ++ rest :=
        (List.prefix_append_right_inj _).mp first
      have size : (terminated (line :: more) ++ crlf).length =
        (line ++ crlf).length + (terminated more ++ crlf).length := by
        rw [terminated, List.flatMap_cons, List.append_assoc, List.length_append]
        rfl
      rw [whole]
      rcases ih (fun line member => head line (List.mem_cons_of_mem _ member)) (by omega) none_yet later with
        ⟨data', len', after, read, done⟩ | ⟨e, after, read, negative, refused⟩
      · left
        refine ⟨data', len', after, ?_, ?_, ?_, done.few, done.closes, done.http⟩
        · rw [read, List.foldl_cons, taken]
        · intro other member
          rcases List.mem_cons.mp member with rfl | member
          · rw [scanned]
            exact Option.some_ne_none _
          · exact done.scanned other member
        · rw [done.split, terminated, terminated, List.flatMap_cons]
          simp only [List.append_assoc]
      · right
        refine ⟨e, after, read, negative, ?_⟩
        rcases refused with short | ⟨line, member, unscanned⟩
        · left
          rw [List.length_append, size]
          omega
        · exact .inr ⟨line, List.mem_cons_of_mem _ member, unscanned⟩

end

end BekenSdk.HttpOta
