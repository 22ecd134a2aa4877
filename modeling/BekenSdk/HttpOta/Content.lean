import BekenSdk.Base.FlashStream

/-! The content of an HTTP response on its way to the OTA partition (utils_httpc.c and utils_net.c,
written directly, without AT_SERVICE_CFG). The socket delivers bytes in pieces of any size and then is
closed or stays silent until the time is over. Memory is always there for malloc.
-/

set_option autoImplicit false

namespace BekenSdk.HttpOta
open Base

def httpclientChunkSize : Nat := 256

/-- HTTP_RESP_CONTENT_LEN, as http_ota_download has it. -/
def responseBufLen : Nat := 1024

def tcpLenMax : Nat := 1460

def httpFlashWrBufMax : Nat := 1024

def flashSectorSize : Nat := 0x1000

/-- HTTP_RETRIEVE_MORE_DATA. -/
def httpRetrieveMoreData : Int := 1

def errorHttp : Int := -4

def errorHttpUnresolvedDns : Int := -6

def errorHttpConn : Int := -8

def errorNoSupport : Int := -12

/-- The entry of the OTA partition; in all tables it is made of whole sectors. The flash takes addresses of 24 bits. -/
structure Partition where
  startAddr : Nat
  length : Nat
  aligned : startAddr % flashSectorSize = 0
  whole : length % flashSectorSize = 0
  room : 0 < length
  inside : startAddr + length ≤ 2 ^ 24

/-! ## bk_http -/

structure HttpData where
  httpTotal : UInt32
  doData : Bool
  /-- The first `wr_last_len` bytes of `wr_buf`. -/
  wrBuf : List UInt8
  flashAddress : Nat
  /-- The flash chip. -/
  flash : Cells

def HttpData.httpFlashWr (pt : Partition) (src : List UInt8) (h : HttpData) : HttpData :=
  let h := { h with flash := erasedAt flashSectorSize h.flash h.flashAddress }
  if h.flashAddress ≥ pt.startAddr ∧ h.flashAddress + src.length < pt.startAddr + pt.length then
    { h with flash := programBytes h.flash h.flashAddress src, flashAddress := h.flashAddress + src.length }
  else h

def HttpData.httpFlashInit (pt : Partition) (h : HttpData) : HttpData :=
    { h with wrBuf := [], flashAddress := pt.startAddr }

def HttpData.httpFlashDeinit (h : HttpData) : HttpData := ⟨0, false, [], 0, h.flash⟩

/-- A round of the loop in http_wr_to_flash. -/
def HttpData.wrRound (pt : Partition) (piece : List UInt8) (h : HttpData) : HttpData :=
  let h := { h with wrBuf := h.wrBuf ++ piece }
  if h.wrBuf.length ≥ httpFlashWrBufMax then { h.httpFlashWr pt h.wrBuf with wrBuf := [] } else h

/-- Each round takes a byte at least. -/
def HttpData.wrRounds (pt : Partition) : Nat → List UInt8 → HttpData → HttpData
  | 0, _, h => h
  | rounds + 1, page, h =>
    if page = [] then h
    else
      let wL := min page.length (httpFlashWrBufMax - h.wrBuf.length)
      (h.wrRound pt (page.take wL)).wrRounds pt rounds (page.drop wL)

def HttpData.httpWrToFlash (pt : Partition) (page : List UInt8) (h : HttpData) :
    HttpData := h.wrRounds pt page.length page

/-! ## Connection -/

structure Net where
  incoming : List UInt8
  /-- How much each recv gets at most. -/
  grants : List Nat
  closes : Bool

inductive Received where
  | bytes (b : List UInt8)
  | closed
  | timeout

def Net.share (net : Net) (len : Nat) : Nat := min len (max 1 (net.grants.headD len))

/-- select and recv. -/
def Net.recv (net : Net) (len : Nat) : Received × Net :=
  if net.incoming = [] then (if net.closes then .closed else .timeout, net)
  else if len = 0 then (.closed, net)
  else
    (.bytes (net.incoming.take (net.share len)),
      { net with incoming := net.incoming.drop (net.share len), grants := net.grants.tail })

theorem Net.recv_other {net after : Net} {len : Nat} {received : Received} (none_read : ∀ b, received ≠ .bytes b)
    (eq : net.recv len = (received, after)) : after = net := by
  unfold Net.recv at eq
  split at eq
  · exact (Prod.mk.inj eq).2.symm
  · split at eq
    · exact (Prod.mk.inj eq).2.symm
    · exact absurd (Prod.mk.inj eq).1.symm (none_read _)

theorem Net.recv_less {net after : Net} {len : Nat} {b : List UInt8} (received : net.recv len = (.bytes b, after)) :
    b ≠ [] ∧ net.incoming = b ++ after.incoming := by
  unfold Net.recv at received
  split at received
  · split at received <;> cases received
  next some_left =>
    split at received
    · cases received
    next asked =>
      obtain ⟨first, rfl⟩ := Prod.mk.inj received
      obtain rfl := Received.bytes.inj first
      have share : 0 < net.share len := by
        unfold Net.share
        omega
      refine ⟨?_, (List.take_append_drop _ _).symm⟩
      rw [ne_eq, List.take_eq_nil_iff]
      rintro (none | empty)
      · omega
      · exact some_left empty

structure Client where
  net : Net
  http : HttpData

/-- HAL_TCP_Read behind `got`. It returns what it got before the connection was closed; the bytes are all those that it
received, of which the last are in the buffer. -/
def halTcpRead (pt : Partition) (len : Nat) (got : List UInt8) (dataOver : Bool) (c : Client) : Received × Client :=
  match _received : c.net.recv len with
  | (.timeout, net) => (.timeout, { c with net := net })
  | (.closed, net) => (if got = [] then .closed else .bytes got, { c with net := net })
  | (.bytes b, net) =>
    let dataOver := dataOver || decide (b.length < len)
    let http := if c.http.doData then c.http.httpWrToFlash pt b else c.http
    let got := got ++ b
    if (c.http.doData ∧ got.length < c.http.httpTotal.toNat) ∨ (got.length < len ∧ dataOver = false) then
      halTcpRead pt len got dataOver ⟨net, http⟩
    else (.bytes got, ⟨net, http⟩)
termination_by c.net.incoming.length
decreasing_by
  obtain ⟨some_bytes, split⟩ := Net.recv_less _received
  have positive := List.length_pos_of_ne_nil some_bytes
  rw [split, List.length_append]
  omega

/-- `none` is ERROR_HTTP_CONN. -/
def httpclientRecv (pt : Partition) (maxLen : Nat) (c : Client) : Option (List UInt8) × Client :=
  match halTcpRead pt maxLen [] false c with
  | (.bytes b, c) => (some b, c)
  | (_, c) => (none, c)

/-- What is read comes off what the connection still delivers. -/
theorem halTcpRead_less {pt : Partition} {len : Nat} {got b : List UInt8} {dataOver : Bool} {c after : Client}
    (read : halTcpRead pt len got dataOver c = (.bytes b, after)) :
    b ≠ [] ∧ got ++ c.net.incoming = b ++ after.net.incoming := by
  fun_induction halTcpRead pt len got dataOver c with
  | case1 => cases read
  | case2 got dataOver c net received =>
    obtain rfl := Net.recv_other (fun _ same => by cases same) received
    split at read
    · cases read
    next some_got =>
      obtain ⟨first, rfl⟩ := Prod.mk.inj read
      obtain rfl := Received.bytes.inj first
      exact ⟨some_got, rfl⟩
  | case3 got dataOver c net part received ended http got' more ih =>
    obtain ⟨-, split⟩ := Net.recv_less received
    obtain ⟨some_got, rest⟩ := ih read
    refine ⟨some_got, ?_⟩
    rw [split, ← List.append_assoc]
    exact rest
  | case4 got dataOver c net part received ended http got' enough =>
    obtain ⟨some_bytes, split⟩ := Net.recv_less received
    obtain ⟨first, rfl⟩ := Prod.mk.inj read
    obtain rfl := Received.bytes.inj first
    refine ⟨fun empty => some_bytes (List.append_eq_nil_iff.mp empty).2, ?_⟩
    rw [split, ← List.append_assoc]

theorem httpclientRecv_less {pt : Partition} {maxLen : Nat} {c after : Client} {b : List UInt8}
    (read : httpclientRecv pt maxLen c = (some b, after)) : b ≠ [] ∧ c.net.incoming = b ++ after.net.incoming := by
  unfold httpclientRecv at read
  split at read
  next b' c' eq =>
    obtain ⟨first, rfl⟩ := Prod.mk.inj read
    obtain rfl := Option.some.inj first
    exact halTcpRead_less eq
  · cases read

theorem length_less {pt : Partition} {maxLen : Nat} {c after : Client} {b : List UInt8}
    (read : httpclientRecv pt maxLen c = (some b, after)) :
    after.net.incoming.length + b.length = c.net.incoming.length ∧ 0 < b.length := by
  obtain ⟨some_bytes, split⟩ := httpclientRecv_less read
  rw [split, List.length_append, Nat.add_comm]
  exact ⟨rfl, List.length_pos_of_ne_nil some_bytes⟩

/-! ## Buffers -/

/-- os_memmove to the start of the buffer. -/
def memmove (data : Cells) (source n : Nat) : Cells := fun a => if a < n then data (source + a) else data a

def isSpace (b : UInt8) : Bool := b = 32 ∨ (9 ≤ b ∧ b ≤ 13)

def hexValue (b : UInt8) : Option Nat :=
  if 48 ≤ b ∧ b ≤ 57 then some (b.toNat - 48)
  else if 97 ≤ b ∧ b ≤ 102 then some (b.toNat - 87)
  else if 65 ≤ b ∧ b ≤ 70 then some (b.toNat - 55)
  else none

def hexNumber (digits : List UInt8) : Nat := digits.foldl (fun n b => 16 * n + (hexValue b).getD 0) 0

/-- The prefix that %x allows. -/
def skipHexPrefix : List UInt8 → List UInt8
  | 48 :: x :: digit :: rest => if (x = 120 ∨ x = 88) ∧
    (hexValue digit).isSome then digit :: rest else 48 :: x :: digit :: rest
  | s => s

/-- sscanf with %x. -/
def scanHex (s : List UInt8) : Option UInt32 :=
  let s := s.dropWhile isSpace
  let negative : Bool := s.head? = some 45
  let s := skipHexPrefix (if s.head? = some 45 ∨ s.head? = some 43 then s.tail else s)
  let digits := s.takeWhile fun b => (hexValue b).isSome
  if digits = [] then none
  else some (if negative then 0 - UInt32.ofNat (hexNumber digits) else UInt32.ofNat (hexNumber digits))

/-- The string in the buffer. -/
def cString (data : Cells) (len : Nat) : List UInt8 := (readBytes data 0 len).takeWhile (· ≠ 0)

/-! ## Body -/

/-- How the loop over a body ends: the rest does not count for the response buffer, the connection is gone, or all is read. -/
inductive Body where
  | more
  | failed
  | done (count : Nat) (retrieveLen : Int) (len : Nat)

def readBody (pt : Partition) (count readLen len : Nat) (retrieveLen : Int) (c : Client) : Body × Client :=
  let templen := min len readLen
  if count + templen < responseBufLen - 1 then
    let count := count + templen
    let retrieveLen := if len > readLen then 0 else retrieveLen - templen
    let rest := if len > readLen then 0 else readLen - len
    -- the bytes behind the body are moved in b_data, where they are not
    let len := if len > readLen then len - readLen else len
    if rest = 0 then (.done count retrieveLen len, c)
    else
      match _received : httpclientRecv pt (min (min tcpLenMax (responseBufLen - 1 - count)) rest) c with
      | (none, c) => (.failed, c)
      | (some b, c) =>
        if rest = b.length then (.done count retrieveLen b.length, c) else readBody pt count rest b.length retrieveLen c
  else (.more, c)
termination_by c.net.incoming.length
decreasing_by
  have less := length_less _received
  omega

structure ClientData where
  isChunked : Bool
  retrieveLen : Int
  responseContentLen : Int

def findCrlf (data : Cells) (len : Nat) :
    Option Nat := (List.range (len - 2)).find? fun p => data p = 13 ∧ data (p + 1) = 10

/-- The line with the length of a chunk comes into the buffer: where it ends, and how much is in the buffer. -/
def readChunkHeader (pt : Partition) (data : Cells) (len : Nat) (c : Client) :
    Except Int (Nat × Cells × Nat) × Client :=
  let data := Function.update data len 0
  match findCrlf data len with
  | some crlfPos => (.ok (crlfPos, data, len), c)
  | none =>
    if len < httpclientChunkSize then
      match _received : httpclientRecv pt (httpclientChunkSize - len - 1) c with
      | (none, c) => (.error errorHttpConn, c)
      | (some b, c) => readChunkHeader pt (storeBytes data len b) (len + b.length) c
    else (.error errorHttp, c)
termination_by c.net.incoming.length
decreasing_by
  have less := length_less _received
  omega

/-- What is in the buffer, and how long the body is; or the result. -/
def nextBody (pt : Partition) (data : Cells) (len : Nat) (d : ClientData) (c : Client) :
    Except Int (Nat × Cells × Nat × ClientData) × Client :=
  if d.isChunked ∧ d.retrieveLen ≤ 0 then
    match readChunkHeader pt data len c with
    | (.error e, c) => (.error e, c)
    | (.ok (crlfPos, data, len), c) =>
      let data := Function.update data crlfPos 0
      match scanHex (cString data crlfPos) with
      | none => (.error errorHttpUnresolvedDns, c)
      | some readLen =>
        if readLen = 0 then (.error 0, c)
        else
          (.ok (readLen.toNat, memmove data (crlfPos + 2) (len - (crlfPos + 2)), len - (crlfPos + 2),
            { d with retrieveLen := readLen.toInt32.toInt, responseContentLen := d.responseContentLen + readLen.toInt32.toInt }), c)
  else (.ok ((d.retrieveLen % 2 ^ 32).toNat, data, len, d), c)

/-- A body is begun, with what is in the buffer. -/
def HttpData.beginBody (pt : Partition) (readLen : Nat) (buffered : List UInt8) (h : HttpData) : HttpData :=
  { (h.httpFlashInit pt).httpWrToFlash pt buffered with
    doData := true
    httpTotal := UInt32.ofNat readLen - UInt32.ofNat buffered.length }

/-- The response without a length is only taken into the response buffer. -/
def retrieveAll (pt : Partition) (count len : Nat) (c : Client) : Int × Client :=
  if count + len < responseBufLen - 1 then
    match _received : httpclientRecv pt (min (httpclientChunkSize - 1) (responseBufLen - 1 - (count + len))) c with
    | (none, c) => (errorHttpConn, c)
    | (some b, c) => retrieveAll pt (count + len) b.length c
  else (errorNoSupport, c)
termination_by c.net.incoming.length
decreasing_by
  have less := length_less _received
  omega

/-- The loop over bodies; `none` when it is still not over. -/
def retrieveBodies (pt : Partition) : Nat → Nat → Cells → Nat → ClientData → Client → Option (Int × Client)
  | 0, _, _, _, _, _ => none
  | rounds + 1, count, data, len, d, c =>
    match nextBody pt data len d c with
    | (.error ret, c) => some (ret, c)
    | (.ok (readLen, data, len, d), c) =>
      match readBody pt count readLen len d.retrieveLen { c with http := c.http.beginBody pt readLen (readBytes data 0 len) } with
      | (.more, c) => some (httpRetrieveMoreData, c)
      | (.failed, c) => some (errorHttpConn, c)
      | (.done count retrieveLen len, c) =>
        let c := { c with http := { c.http with doData := false } }
        if d.isChunked then
          let ended : Option (Cells × Nat) × Client :=
            if len < 2 then
              match httpclientRecv pt (httpclientChunkSize - len - 1) c with
              | (none, c) => (none, c)
              | (some b, c) => (some (storeBytes data len b, len + b.length), c)
            else (some (data, len), c)
          match ended with
          | (none, c) => some (errorHttpConn, c)
          | (some (data, len), c) =>
            if data 0 ≠ 13 ∨ data 1 ≠ 10 then some (errorHttpUnresolvedDns, c)
            else retrieveBodies pt rounds count (memmove data 2 (len - 2)) (len - 2) { d with retrieveLen := retrieveLen } c
        else some (0, { c with http := (c.http.httpFlashWr pt c.http.wrBuf).httpFlashDeinit })

def httpclientRetrieveContent (pt : Partition) (data : Cells) (len : Nat) (d : ClientData) (c : Client) :
    Option (Int × Client) :=
  if d.responseContentLen = -1 ∧ d.isChunked = false then some (retrieveAll pt 0 len c)
  else retrieveBodies pt (c.net.incoming.length + len + 1) 0 data len d c

end BekenSdk.HttpOta
