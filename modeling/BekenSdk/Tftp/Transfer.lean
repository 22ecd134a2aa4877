import BekenSdk.Base.Machine
import BekenSdk.Tftp.Confinement

/-! A transfer from a lock-step server over a network that repeats and delays data packets.
The image is stored block by block and its header is written at the end, as long as
no packet of an earlier block comes late, the block number does not come round, the last block is
short and the flash can take what is not erased.
-/

set_option autoImplicit false

namespace BekenSdk.Tftp
open Base

/-! ## Images -/

/-- An image as it is packed for the server, which cuts it into blocks of `blkSize`. -/
structure Image where
  blkSize : UInt16
  totalLen : UInt32
  os0ExAddr : UInt32
  osHdAddr : UInt32
  os0FlashAddr : UInt32
  os1FlashAddr : UInt32
  payloads : List (List UInt8)

namespace Image
variable (image : Image)

/-- The header of the block with this number, from 1 on. -/
def head (n : Nat) : SendPtkHd where
  totalLen := image.totalLen
  seq := UInt16.ofNat n
  totalSeq := UInt16.ofNat image.payloads.length
  os0ExAddr := image.os0ExAddr
  osHdAddr := image.osHdAddr
  os0FlashAddr := image.os0FlashAddr
  os1FlashAddr := image.os1FlashAddr

/-- The block after the first so many. -/
def dataBlock (i : Nat) : List UInt8 := (image.head (i + 1)).bytes ++ image.payloads.getD i []

def dataBlocks : List (List UInt8) := (List.range image.payloads.length).map image.dataBlock

/-- The last block is as long as the others, so that an empty one follows. -/
def Full : Prop := ∃ payload, image.payloads.getLast? = some payload ∧ 24 + payload.length = image.blkSize.toNat

instance : Decidable image.Full :=
  match last : image.payloads.getLast? with
  | none => .isFalse fun ⟨_, same, _⟩ => nomatch last.symm.trans same
  | some payload =>
    if size : 24 + payload.length = image.blkSize.toNat then .isTrue ⟨payload, last, size⟩
    else .isFalse fun ⟨_, same, full⟩ => size (Option.some.inj (last.symm.trans same) ▸ full)

/-- What the server sends, one packet each. -/
def blocks : List (List UInt8) := if image.Full then image.dataBlocks ++ [[]] else image.dataBlocks

/-- The data packet of the block with this number. -/
def packet (n : Nat) : List UInt8 := [0, 3] ++ be16 (n % 2 ^ 16) ++ image.blocks.getD (n - 1) []

/-- The checksum after so many blocks. -/
def crcAfter (coCrc32 : List UInt8 → UInt32 → UInt32) : Nat → UInt32
  | 0 => 0
  | i + 1 => coCrc32 (image.dataBlock i) (crcAfter coCrc32 i)

/-- The last block. -/
def lastBlock : List UInt8 := image.dataBlock (image.payloads.length - 1)

/-- An image that is packed right, for a place in the flash. -/
structure Packed (coCrc32 : List UInt8 → UInt32 → UInt32) : Prop where
  nonempty : 0 < image.payloads.length
  whole : ∀ i, i + 1 < image.payloads.length → 24 + (image.payloads.getD i []).length = image.blkSize.toNat
  last : 4 ≤ (image.payloads.getD (image.payloads.length - 1) []).length ∧
    24 + (image.payloads.getD (image.payloads.length - 1) []).length ≤ image.blkSize.toNat
  /-- The client asks for blocks of 1048 bytes, and gets no longer ones. -/
  small : image.blkSize.toNat ≤ 1048
  crc : coCrc32 (summed image.lastBlock) (image.crcAfter coCrc32 (image.payloads.length - 1)) =
    trailingCrc image.lastBlock
  low : 0x27000 ≤ image.os1FlashAddr.toNat
  fits : image.os1FlashAddr.toNat + image.payloads.flatten.length ≤ 0x200000
  headFits : image.osHdAddr.toNat % 0x1000 + 32 ≤ 0x1000 ∧ image.osHdAddr.toNat + 32 ≤ 0x200000
  headApart : image.osHdAddr.toNat / 0x1000 * 0x1000 + 0x1000 ≤ image.os1FlashAddr.toNat ∨
    image.os1FlashAddr.toNat + image.payloads.flatten.length ≤ image.osHdAddr.toNat / 0x1000 * 0x1000

/-- The image header at the end. -/
def finalHead : ImgHead := imgHead (image.head image.payloads.length) (trailingCrc image.lastBlock) 0

end Image

/-! ## The network -/

structure Net where
  client : Client
  /-- How many blocks the server has sent. -/
  sentBlocks : Nat

inductive NetEvent where
  /-- The data packet of a block arrives, for the first time or again. -/
  | deliver (n : Nat) (malloced : Bool)
  /-- The server sees its last block acknowledged, or the request, and sends the next one. -/
  | acked
  | timeout

def netStep (coCrc32 : List UInt8 → UInt32 → UInt32) (flashSize : UInt32) (image : Image) (port : UInt16)
    (event : NetEvent) (net : Net) : Option Net :=
  match event with
  | .deliver n malloced =>
    if net.client.running ∧ 1 ≤ n ∧ n ≤ net.sentBlocks then
      some { net with client := net.client.receive coCrc32 flashSize (image.packet n) port malloced }
    else none
  | .acked =>
    if net.sentBlocks < image.blocks.length ∧
        (net.sentBlocks = 0 ∨ Packet.ack (UInt16.ofNat net.sentBlocks) ∈ net.client.sent) then
      some { net with sentBlocks := net.sentBlocks + 1 }
    else none
  | .timeout => if net.client.running then some { net with client := net.client.tftpTimeout } else none

/-- A transfer that has begun: the request is out, and perhaps its options are acknowledged. -/
structure Begun (image : Image) (port : UInt16) (c : Client) : Prop where
  running : c.running = true
  state : c.tftpState = .rrq ∨ c.tftpState = .oack ∧ c.tftpServerPort = port
  blkSize : c.tftpBlkSize = image.blkSize
  block : c.tftpBlock = 0
  sent : ∀ packet ∈ c.sent, packet = .rrq ∨ packet = .ack 0
  stores : c.stores = []
  heads : c.heads = []
  bk : c.imgHd.bk = 0

/-! ## What is claimed -/

/-- The first so many blocks have been handed to store_block, each once and in their order, and are in the
flash; the image header is there when they are all, and not before. -/
def Received (image : Image) (net : Net) : Prop :=
  ∃ m ≤ image.payloads.length,
    net.client.stores.map Prod.snd = (image.dataBlocks.take m).reverse ∧
      Holds net.client.cells image.os1FlashAddr.toNat (image.payloads.take m).flatten ∧
      (m < image.payloads.length → net.client.heads = []) ∧
      (m = image.payloads.length →
        net.client.heads = [image.finalHead] ∧ Holds net.client.cells image.osHdAddr.toNat image.finalHead.bytes)

/-- No packet of a block before the last one stored arrives. -/
def InOrder (net : Net) : NetEvent → Prop
  | .deliver n _ => net.client.stores.length ≤ n
  | _ => True

instance (net : Net) (event : NetEvent) : Decidable (InOrder net event) :=
  match event with
  | .deliver n _ => inferInstanceAs (Decidable (net.client.stores.length ≤ n))
  | .acked => .isTrue trivial
  | .timeout => .isTrue trivial

/-! ## One packet -/

variable {coCrc32 : List UInt8 → UInt32 → UInt32} {flashSize : UInt32} {c : Client} {port : UInt16} {malloced : Bool}

/-- A data packet from the server is taken as it was sent. -/
theorem receive_data {n : Nat} {bytes : List UInt8} (long : bytes.length ≤ 1048) (small : n < 2 ^ 16)
    (heard : c.tftpState = .rrq ∨ port = c.tftpServerPort) :
    ∃ mem, Holds mem 4 bytes ∧ (mem 2).toNat * 256 + (mem 3).toNat = n ∧
      c.receive coCrc32 flashSize ([0, 3] ++ be16 n ++ bytes) port malloced =
        (Client.read { c with mem := mem } 0 2 (4 + bytes.length)).handleData coCrc32 flashSize
          (UInt32.ofNat bytes.length) port (4 + bytes.length) malloced := by
  have length : ([0, 3] ++ be16 n ++ bytes : List UInt8).length = 4 + bytes.length := by
    simp only [List.length_append, List.length_cons, List.length_nil, be16_length]
  have whole : ([0, 3] ++ be16 n ++ bytes : List UInt8).take tftpLen = [0, 3] ++ be16 n ++ bytes := by
    apply List.take_of_length_le
    rw [length, tftpLen]
    omega
  have held := holds_storeBytes c.mem 0 ([0, 3] ++ be16 n ++ bytes)
  unfold Client.receive
  rw [whole]
  dsimp only
  generalize storeBytes c.mem 0 ([0, 3] ++ be16 n ++ bytes) = mem at held
  obtain ⟨zero, three, high, low, block⟩ := held
  refine ⟨mem, block, ?_, ?_⟩
  · rw [high, low]
    exact fromBe_be16 small
  have bound : 4 + bytes.length ≤ tftpLen := by
    rw [tftpLen]
    omega
  have listened : ¬(c.tftpState ≠ .rrq ∧ port ≠ c.tftpServerPort) := fun both => heard.elim both.1 both.2
  have two : (2 : UInt32).toNat = 2 := rfl
  have enough : ¬UInt32.ofNat (4 + bytes.length) < 2 := by
    rw [UInt32.lt_iff_toNat_lt, size_toNat bound]
    omega
  have behind : UInt32.ofNat (4 + bytes.length) - 2 = UInt32.ofNat (4 + bytes.length - 2) :=
    @size_sub (4 + bytes.length) 2 bound (by omega)
  have numbered : ¬UInt32.ofNat (4 + bytes.length - 2) < 2 := by
    rw [UInt32.lt_iff_toNat_lt, size_toNat (Nat.le_trans (Nat.sub_le _ _) bound)]
    omega
  have payload : UInt32.ofNat (4 + bytes.length - 2) - 2 = UInt32.ofNat bytes.length := by
    have rest : 4 + bytes.length - 2 - 2 = bytes.length := by omega
    have less := @size_sub (4 + bytes.length - 2) 2 (Nat.le_trans (Nat.sub_le _ _) bound) (by omega)
    rw [rest] at less
    exact less
  have opcode : (mem 0).toNat * 256 + (mem 1).toNat = 3 := by
    rw [zero, three]
    rfl
  unfold Client.tftpHandler
  rw [length, if_neg listened, if_neg enough]
  dsimp only [Client.read]
  rw [opcode]
  rw [behind, if_neg numbered, payload]
  rfl

/-- The last block again: it is acknowledged again. -/
theorem receive_again {n : Nat} {bytes : List UInt8} (long : bytes.length ≤ 1048) (small : n < 2 ^ 16)
    (state : c.tftpState = .data) (heard : port = c.tftpServerPort) (last : c.tftpLastBlock = UInt64.ofNat n) :
    ∃ mem wrap offset ops,
      c.receive coCrc32 flashSize ([0, 3] ++ be16 n ++ bytes) port malloced =
        (atBlock c mem .data port (UInt64.ofNat n) (UInt64.ofNat n) wrap offset ops).tftpSend := by
  obtain ⟨mem, -, number, received⟩ := @receive_data coCrc32 flashSize c port malloced n bytes long small (.inr heard)
  have block : blockNumber (Client.read { c with mem := mem } 0 2 (4 + bytes.length)) = UInt64.ofNat n :=
    congrArg UInt64.ofNat number
  obtain ⟨wrap, offset, numbered⟩ :=
    readBlockNumber_eq (Client.read { c with mem := mem } 0 2 (4 + bytes.length)) (4 + bytes.length)
  have started : ¬(c.tftpState = .rrq ∨ c.tftpState = .oack) := by
    rw [state]
    decide
  refine ⟨mem, wrap, offset, .read 2 2 (4 + bytes.length) :: .read 0 2 (4 + bytes.length) :: c.ops, ?_⟩
  rw [received, Client.handleData, numbered, block, firstBlock_later]
  · dsimp only
    rw [takeBlock_again]
    · rw [heard, ← last, ← state]
      rfl
    · exact last.symm
  · exact started

/-- The next block: it is stored and acknowledged, and when it is a short one the client is done. -/
theorem receive_next {n : Nat} {bytes : List UInt8} (long : bytes.length ≤ 1048) (small : n < 2 ^ 16)
    (next : c.tftpState = .data ∧ port = c.tftpServerPort ∧ c.tftpLastBlock ≠ UInt64.ofNat n ∨
      (c.tftpState = .rrq ∨ c.tftpState = .oack ∧ port = c.tftpServerPort) ∧ n = 1) :
    ∃ mem wrap offset ops, Holds mem 4 bytes ∧
      c.receive coCrc32 flashSize ([0, 3] ++ be16 n ++ bytes) port malloced =
        let e := ((atBlock c mem .data port (UInt64.ofNat n) (UInt64.ofNat n) wrap offset ops).storeBlock coCrc32 flashSize
          (UInt64.ofNat n - 1).toUInt32 4 (4 + bytes.length) (UInt32.ofNat bytes.length) malloced).tftpSend
        if UInt32.ofNat bytes.length < e.tftpBlkSize.toUInt32 then e.tftpUninit else e := by
  have heard : c.tftpState = .rrq ∨ port = c.tftpServerPort := by
    rcases next with ⟨-, heard, -⟩ | ⟨first | ⟨-, heard⟩, -⟩
    · exact .inr heard
    · exact .inl first
    · exact .inr heard
  obtain ⟨mem, held, number, received⟩ := @receive_data coCrc32 flashSize c port malloced n bytes long small heard
  have block : blockNumber (Client.read { c with mem := mem } 0 2 (4 + bytes.length)) = UInt64.ofNat n :=
    congrArg UInt64.ofNat number
  obtain ⟨wrap, offset, numbered⟩ :=
    readBlockNumber_eq (Client.read { c with mem := mem } 0 2 (4 + bytes.length)) (4 + bytes.length)
  rcases next with ⟨state, heard, last⟩ | ⟨first, rfl⟩
  · have started : ¬(c.tftpState = .rrq ∨ c.tftpState = .oack) := by
      rw [state]
      decide
    refine ⟨mem, wrap, offset, .read 2 2 (4 + bytes.length) :: .read 0 2 (4 + bytes.length) :: c.ops, held, ?_⟩
    rw [received, Client.handleData, numbered, block, firstBlock_later]
    · dsimp only
      rw [takeBlock_other]
      · rw [heard, ← state]
        rfl
      · exact last.symm
    · exact started
  · have starts : c.tftpState = .rrq ∨ c.tftpState = .oack := first.imp_right And.left
    refine ⟨mem, 0, 0, .read 2 2 (4 + bytes.length) :: .read 0 2 (4 + bytes.length) :: c.ops, held, ?_⟩
    rw [received, Client.handleData, numbered, block, firstBlock_first]
    · dsimp only
      rw [takeBlock_other]
      · rfl
      · exact (by decide : (1 : UInt64) ≠ 0)
    · exact starts
    · rfl

/-! ## What is in the flash -/

variable {image : Image}

/-- The first so many blocks are stored, and the client is ready for the next one. -/
structure Stored (coCrc32 : List UInt8 → UInt32 → UInt32) (image : Image) (m : Nat) (c : Client) : Prop where
  stores : c.stores.map Prod.snd = (image.dataBlocks.take m).reverse
  streamed : Streamed 0x1000 c.cells image.os1FlashAddr.toNat image.payloads m
  cursor : 0 < m → m < image.payloads.length →
    c.osDataAddr.toNat = pieceStart image.os1FlashAddr.toNat image.payloads m ∧ c.tftpCrc = image.crcAfter coCrc32 m
  heads : m < image.payloads.length → c.heads = [] ∧ c.imgHd.bk = 0
  done : m = image.payloads.length →
    c.heads = [image.finalHead] ∧ Holds c.cells image.osHdAddr.toNat image.finalHead.bytes

theorem dataBlocks_getD {m : Nat} (more : m < image.payloads.length) :
    image.dataBlocks.getD m [] = image.dataBlock m := by
  rw [Image.dataBlocks, List.getD_eq_getElem _ _ (by rw [List.length_map, List.length_range]; exact more),
    List.getElem_map,
    List.getElem_range]

theorem dataBlocks_take_succ {m : Nat} (more : m < image.payloads.length) :
    image.dataBlocks.take (m + 1) = image.dataBlocks.take m ++ [image.dataBlock m] := by
  have inside : m < image.dataBlocks.length := by
    rw [Image.dataBlocks, List.length_map, List.length_range]
    exact more
  rw [List.take_add_one, List.getElem?_eq_getElem inside, ← dataBlocks_getD more, List.getD_eq_getElem _ _ inside,
    Option.toList_some]

/-- Up to the point where the block number comes round, only the first block is stored as block 0. -/
theorem blockArgument {m : Nat} (small : m < 2 ^ 16) :
    (UInt64.ofNat ((m + 1) % 2 ^ 16) - 1).toUInt32 ≠ 0 ↔ 0 < m := by
  rcases Nat.lt_or_ge (m + 1) (2 ^ 16) with less | wrapped
  · have number : UInt64.ofNat ((m + 1) % 2 ^ 16) - 1 = UInt64.ofNat m := by
      rw [Nat.mod_eq_of_lt less, UInt64.ofNat_add]
      exact UInt64.add_sub_cancel _ _
    have size : (UInt64.ofNat m).toUInt32.toNat = m := by
      rw [UInt64.toNat_toUInt32, UInt64.toNat_ofNat_of_lt' (Nat.lt_trans small (by decide)), Nat.mod_eq_of_lt]
      exact Nat.lt_trans small (by decide)
    rw [number, Ne, ← UInt32.toNat_inj, size]
    exact Nat.pos_iff_ne_zero.symm
  · have same : m = 65535 := by omega
    rw [same]
    decide

theorem payload_bounds {m : Nat} (packed : image.Packed coCrc32) (more : m < image.payloads.length) :
    0x27000 ≤ pieceStart image.os1FlashAddr.toNat image.payloads m ∧
      pieceStart image.os1FlashAddr.toNat image.payloads m < 0x200000 ∧
      pieceStart image.os1FlashAddr.toNat image.payloads m + (image.payloads.getD m []).length ≤ 0x200000 ∧
      24 + (image.payloads.getD m []).length ≤ image.blkSize.toNat := by
  have low := packed.low
  have fits := packed.fits
  have last := packed.last
  have nonempty := packed.nonempty
  have final : image.payloads.length - 1 + 1 = image.payloads.length := Nat.sub_add_cancel nonempty
  have behind := @pieceStart_succ image.os1FlashAddr.toNat image.payloads (image.payloads.length - 1) (by omega)
  have whole : pieceStart image.os1FlashAddr.toNat image.payloads image.payloads.length =
      image.os1FlashAddr.toNat + image.payloads.flatten.length := by
    rw [pieceStart, List.take_length]
  rw [final, whole] at behind
  have before := @pieceStart_mono image.os1FlashAddr.toNat image.payloads m (image.payloads.length - 1) (by omega)
  have start := @pieceStart_mono image.os1FlashAddr.toNat image.payloads 0 m (Nat.zero_le m)
  have first : pieceStart image.os1FlashAddr.toNat image.payloads 0 = image.os1FlashAddr.toNat := rfl
  have next := @pieceStart_succ image.os1FlashAddr.toNat image.payloads m more
  have later := @pieceStart_mono image.os1FlashAddr.toNat image.payloads (m + 1) image.payloads.length more
  rw [whole] at later
  refine ⟨by omega, by omega, by omega, ?_⟩
  rcases Nat.lt_or_ge (m + 1) image.payloads.length with inner | outer
  · exact Nat.le_of_eq (packed.whole m inner)
  · have same : m = image.payloads.length - 1 := by omega
    rw [same]
    exact last.2

/-- The block numbers of two headers agree only at the last block. -/
theorem seq_last {m : Nat} (small : image.payloads.length ≤ 2 ^ 16) (more : m < image.payloads.length) :
    (image.head (m + 1)).seq = (image.head (m + 1)).totalSeq ↔ m + 1 = image.payloads.length := by
  have halves : UInt16.ofNat (m + 1) = UInt16.ofNat image.payloads.length ↔
      (m + 1) % 2 ^ 16 = image.payloads.length % 2 ^ 16 := by
    rw [← UInt16.toNat_inj, UInt16.toNat_ofNat', UInt16.toNat_ofNat']
  exact halves.trans (by omega)

theorem Stored.next {m : Nat} {mem : Cells} {wrap offset last : UInt64} {ops : List Op} {avail : Nat}
    (packed : image.Packed coCrc32) (big : 0x200000 ≤ flashSize.toNat) (small : image.payloads.length ≤ 2 ^ 16)
    (more : m < image.payloads.length) (stored : Stored coCrc32 image m c) (held : Holds mem 4 (image.dataBlock m)) :
    Stored coCrc32 image (m + 1)
      ((atBlock c mem .data port (UInt64.ofNat ((m + 1) % 2 ^ 16)) last wrap offset ops).storeBlock coCrc32 flashSize
        (UInt64.ofNat ((m + 1) % 2 ^ 16) - 1).toUInt32 4 avail (UInt32.ofNat (image.dataBlock m).length) malloced) := by
  obtain ⟨low, start, fits, short⟩ := payload_bounds packed more
  have limit := packed.small
  have first := @blockArgument m (Nat.lt_of_lt_of_le more small)
  generalize UInt64.ofNat ((m + 1) % 2 ^ 16) = number at first
  have length : (image.dataBlock m).length = 24 + (image.payloads.getD m []).length := by
    rw [Image.dataBlock, List.length_append, SendPtkHd.bytes_length]
  have size : (UInt32.ofNat (image.dataBlock m).length).toNat = 24 + (image.payloads.getD m []).length := by
    rw [length]
    apply size_toNat
    rw [tftpLen]
    omega
  generalize UInt32.ofNat (image.dataBlock m).length = len at size
  have address : (UInt32.ofNat (pieceStart image.os1FlashAddr.toNat image.payloads m)).toNat =
      pieceStart image.os1FlashAddr.toNat image.payloads m := UInt32.toNat_ofNat_of_lt' (Nat.lt_trans start (by decide))
  have here : Block (atBlock c mem .data port number last wrap offset ops) (number - 1).toUInt32 (image.head (m + 1))
      (image.payloads.getD m []) (UInt32.ofNat (pieceStart image.os1FlashAddr.toNat image.payloads m)) len := by
    refine ⟨held, size, ?_, by rw [address]; exact low, by rw [address]; exact start, by rw [address]; exact fits⟩
    apply UInt32.toNat_inj.mp
    rw [address]
    split
    next later => exact (stored.cursor (first.mp later) more).1
    next zero =>
      have same : m = 0 := Nat.eq_zero_of_not_pos fun positive => zero (first.mpr positive)
      rw [same]
      rfl
  have crc : (if (number - 1).toUInt32 ≠ 0 then c.tftpCrc else 0) = image.crcAfter coCrc32 m := by
    split
    next later => exact (stored.cursor (first.mp later) more).2
    next zero =>
      have same : m = 0 := Nat.eq_zero_of_not_pos fun positive => zero (first.mpr positive)
      rw [same]
      rfl
  obtain ⟨stores, cursor⟩ := @storeBlock_stores coCrc32 flashSize _ _ _ _ _ _ malloced avail big here
  have streamed := stored.streamed.next (by decide : 0 < 0x1000) more
  rw [← address] at streamed
  have recorded : (c.stores.map Prod.snd).reverse ++ [image.dataBlock m] = image.dataBlocks.take (m + 1) := by
    rw [dataBlocks_take_succ more, stored.stores, List.reverse_reverse]
  obtain ⟨heads, bk⟩ := stored.heads more
  rcases Nat.lt_or_eq_of_le more with inner | last
  · obtain ⟨cells, heads', imgHd, crc'⟩ := @storeBlock_more coCrc32 flashSize _ _ _ _ _ _ malloced avail big here
      (fun same => absurd ((seq_last small more).mp same) (Nat.ne_of_lt inner))
    refine ⟨?_, ?_, fun _ _ => ⟨?_, ?_⟩, fun _ => ⟨heads'.trans heads, (congrArg ImgHead.bk imgHd).trans bk⟩,
      fun same => absurd same (Nat.ne_of_lt inner)⟩
    · rw [stores, List.map_cons, ← recorded, List.reverse_append, List.reverse_reverse]
      rfl
    · rw [cells]
      exact streamed
    · have count : (len - 24).toNat = (image.payloads.getD m []).length := by
        rw [UInt32.toNat_sub_of_le _ _ (UInt32.le_iff_toNat_le.mpr (size ▸ Nat.le_add_right 24 _)), size]
        exact Nat.add_sub_cancel_left _ _
      rw [cursor, UInt32.toNat_add, address, count, pieceStart_succ more]
      exact Nat.mod_eq_of_lt (Nat.lt_of_le_of_lt fits (by decide))
    · rw [crc']
      exact congrArg _ crc
  · have last : m + 1 = image.payloads.length := last
    have final : image.payloads.length - 1 = m := by omega
    have whole : image.lastBlock = image.dataBlock m := by rw [Image.lastBlock, final]
    have sum := packed.crc
    rw [whole, final] at sum
    have long : 4 ≤ (image.payloads.getD m []).length := by
      have := packed.last.1
      rwa [final] at this
    obtain ⟨cells, heads'⟩ := @storeBlock_last coCrc32 flashSize _ _ _ _ _ _ malloced avail big here
      ((seq_last small more).mpr last) long packed.headFits.2 ((congrArg _ crc).trans sum)
    have allTaken : (image.payloads.take (m + 1)).flatten = image.payloads.flatten := by rw [last, List.take_length]
    have header : imgHead (image.head (m + 1)) (trailingCrc (image.dataBlock m)) c.imgHd.bk = image.finalHead := by
      rw [Image.finalHead, whole, last, bk]
    have kept := @holds_header 0x1000 image.os1FlashAddr.toNat _ _ image.finalHead.bytes image.osHdAddr.toNat (by decide)
      streamed.holds packed.headFits.1 (by rw [allTaken]; exact packed.headApart)
    refine ⟨?_, ⟨?_, ?_⟩, fun _ less => absurd last (Nat.ne_of_lt less), fun less => absurd last (Nat.ne_of_lt less),
      fun _ => ⟨?_, ?_⟩⟩
    · rw [stores, List.map_cons, ← recorded, List.reverse_append, List.reverse_reverse]
      rfl
    · rw [cells]
      change Holds (programBytes _ _ (imgHead (image.head (m + 1)) (trailingCrc (image.dataBlock m)) c.imgHd.bk).bytes) _ _
      rw [header]
      exact kept.1
    · intro j low from_here
      rw [allTaken] at from_here
      exact absurd low (Nat.not_lt.mpr from_here)
    · rw [heads', ← header]
      exact congrArg (List.cons _) heads
    · rw [cells]
      change Holds (programBytes _ _ (imgHead (image.head (m + 1)) (trailingCrc (image.dataBlock m)) c.imgHd.bk).bytes) _ _
      rw [header]
      exact kept.2

/-! ## The protocol -/

/-- How far a transfer has got: the server has sent no more than the next block, and the
client has acknowledged none but those stored. -/
structure Progress (image : Image) (port : UInt16) (m : Nat) (net : Net) : Prop where
  bound : m ≤ image.payloads.length
  running : net.client.running = true ↔ m < image.payloads.length
  sentBlocks : m ≤ net.sentBlocks ∧ net.sentBlocks ≤ m + 1 ∧ net.sentBlocks ≤ image.payloads.length
  blkSize : net.client.tftpBlkSize = image.blkSize
  acks : ∀ w, .ack w ∈ net.client.sent → ∃ n ≤ m, w = UInt16.ofNat n
  block : net.client.tftpBlock = UInt64.ofNat (m % 2 ^ 16)
  waiting : m = 0 → net.client.tftpState = .rrq ∨ net.client.tftpState = .oack ∧ net.client.tftpServerPort = port
  started : 0 < m → net.client.tftpState = .data ∧ net.client.tftpServerPort = port ∧
    net.client.tftpLastBlock = UInt64.ofNat (m % 2 ^ 16)

/-- An invariant of the whole transfer. -/
def Going (coCrc32 : List UInt8 → UInt32 → UInt32) (image : Image) (port : UInt16) (net : Net) : Prop :=
  ∃ m, Progress image port m net ∧ Stored coCrc32 image m net.client

theorem going_begun (packed : image.Packed coCrc32) (begun : Begun image port c)
    (clearable : Clearable 0x1000 c.cells image.os1FlashAddr.toNat image.payloads) :
    Going coCrc32 image port ⟨c, 0⟩ := by
  refine ⟨0, ?_, ?_⟩
  · refine ⟨Nat.zero_le _, iff_of_true begun.running packed.nonempty, ⟨Nat.le_refl _, Nat.zero_le _, Nat.zero_le _⟩,
      begun.blkSize, ?_, begun.block, fun _ => begun.state, fun positive => absurd positive (Nat.lt_irrefl 0)⟩
    intro w sent
    rcases begun.sent _ sent with request | zero
    · cases request
    · exact ⟨0, Nat.le_refl 0, Packet.ack.inj zero⟩
  · refine ⟨?_, streamed_zero clearable, fun positive => absurd positive (Nat.lt_irrefl 0),
      fun _ => ⟨begun.heads, begun.bk⟩,
      fun empty => absurd packed.nonempty (by omega)⟩
    rw [begun.stores]
    rfl

theorem ack_of_block {m : Nat} {block : UInt64} (same : block = UInt64.ofNat (m % 2 ^ 16)) :
    block.toUInt16 = UInt16.ofNat m := by
  apply UInt16.toNat_inj.mp
  rw [same, UInt64.toNat_toUInt16, UInt64.toNat_ofNat_of_lt' (Nat.lt_trans (Nat.mod_lt _ (by decide)) (by decide)),
    UInt16.toNat_ofNat', Nat.mod_mod]

theorem received_of_going {net : Net} (going : Going coCrc32 image port net) : Received image net := by
  obtain ⟨m, progress, stored⟩ := going
  exact ⟨m, progress.bound, stored.stores, stored.streamed.holds, fun less => (stored.heads less).1, stored.done⟩

theorem Stored.send {m : Nat} (stored : Stored coCrc32 image m c) : Stored coCrc32 image m c.tftpSend :=
  ⟨stored.stores, stored.streamed, stored.cursor, stored.heads, stored.done⟩

theorem Progress.send {m : Nat} {net : Net} (progress : Progress image port m net) :
    Progress image port m { net with client := net.client.tftpSend } := by
  refine ⟨progress.bound, progress.running, progress.sentBlocks, progress.blkSize, ?_, progress.block, progress.waiting,
    progress.started⟩
  intro w sent
  rcases List.mem_cons.mp sent with now | before
  · refine ⟨m, Nat.le_refl m, ?_⟩
    split at now
    · cases now
    · exact (Packet.ack.inj now).trans (ack_of_block progress.block)
    · exact (Packet.ack.inj now).trans (ack_of_block progress.block)
    · cases now
    · cases now
  · exact progress.acks w before

theorem length_stores {m : Nat} (bound : m ≤ image.payloads.length) (stored : Stored coCrc32 image m c) :
    c.stores.length = m := by
  have length := congrArg List.length stored.stores
  rw [List.length_map, List.length_reverse, List.length_take, Image.dataBlocks, List.length_map,
    List.length_range] at length
  omega

/-- The server goes on when the client has the block. -/
theorem going_acked {net next : Net} (small : image.payloads.length ≤ 2 ^ 16) (short : ¬image.Full)
    (going : Going coCrc32 image port net) (taken : netStep coCrc32 flashSize image port .acked net = some next) :
    Going coCrc32 image port next := by
  obtain ⟨m, progress, stored⟩ := going
  unfold netStep at taken
  dsimp only at taken
  split at taken
  next acked =>
    obtain rfl := Option.some.inj taken
    obtain ⟨more, acked⟩ := acked
    rw [Image.blocks, if_neg short, Image.dataBlocks, List.length_map, List.length_range] at more
    have before : net.sentBlocks ≤ m := by
      rcases acked with none_yet | ack
      · rw [none_yet]
        exact Nat.zero_le m
      · obtain ⟨n, low, same⟩ := progress.acks _ ack
        have halves := congrArg UInt16.toNat same
        rw [UInt16.toNat_ofNat', UInt16.toNat_ofNat'] at halves
        have bound := progress.bound
        have next := progress.sentBlocks.2.1
        omega
    obtain ⟨low, -, -⟩ := progress.sentBlocks
    exact ⟨m, ⟨progress.bound, progress.running, ⟨Nat.le_succ_of_le low, Nat.succ_le_succ before, more⟩,
      progress.blkSize,
      progress.acks, progress.block, progress.waiting, progress.started⟩, stored⟩
  · cases taken

/-- The packet of a block that the server has sent. -/
theorem packet_eq {n : Nat} (short : ¬image.Full) (positive : 1 ≤ n) (inside : n ≤ image.payloads.length) :
    image.packet n = [0, 3] ++ be16 (n % 2 ^ 16) ++ image.dataBlock (n - 1) := by
  rw [Image.packet, Image.blocks, if_neg short, dataBlocks_getD (by omega)]

theorem dataBlock_length {m : Nat} (packed : image.Packed coCrc32) (more : m < image.payloads.length) :
    (image.dataBlock m).length = 24 + (image.payloads.getD m []).length ∧ (image.dataBlock m).length ≤ 1048 := by
  have length : (image.dataBlock m).length = 24 + (image.payloads.getD m []).length := by
    rw [Image.dataBlock, List.length_append, SendPtkHd.bytes_length]
  have short := (payload_bounds packed more).2.2.2
  exact ⟨length, by have := packed.small; omega⟩

/-- The last block stored arrives again. -/
theorem going_again {m : Nat} {net : Net} (packed : image.Packed coCrc32) (short : ¬image.Full) (positive : 1 ≤ m)
    (progress : Progress image port m net) (stored : Stored coCrc32 image m net.client) :
    Going coCrc32 image port
      { net with client := net.client.receive coCrc32 flashSize (image.packet m) port malloced } := by
  obtain ⟨state, heard, last⟩ := progress.started positive
  have bound := progress.bound
  have less : m - 1 < image.payloads.length := by omega
  obtain ⟨mem, wrap, offset, ops, received⟩ := @receive_again coCrc32 flashSize net.client port malloced (m % 2 ^ 16)
    (image.dataBlock (m - 1)) (dataBlock_length packed less).2 (Nat.mod_lt _ (by decide)) state heard.symm last
  rw [packet_eq short positive bound, received]
  refine ⟨m, @Progress.send port image m ⟨atBlock net.client mem .data port (UInt64.ofNat (m % 2 ^ 16))
    (UInt64.ofNat (m % 2 ^ 16)) wrap offset ops, net.sentBlocks⟩ ?_, Stored.send ?_⟩
  · exact ⟨bound, progress.running, progress.sentBlocks, progress.blkSize, progress.acks, rfl,
      fun zero => absurd positive (by omega), fun _ => ⟨rfl, rfl, rfl⟩⟩
  · exact ⟨stored.stores, stored.streamed, stored.cursor, stored.heads, stored.done⟩

/-- The next block arrives. -/
theorem going_next {m : Nat} {net : Net} (packed : image.Packed coCrc32) (big : 0x200000 ≤ flashSize.toNat)
    (small : image.payloads.length ≤ 2 ^ 16) (short : ¬image.Full) (more : m < image.payloads.length)
    (sent : m + 1 ≤ net.sentBlocks) (progress : Progress image port m net)
    (stored : Stored coCrc32 image m net.client) :
    Going coCrc32 image port
      { net with client := net.client.receive coCrc32 flashSize (image.packet (m + 1)) port malloced } := by
  have next : net.client.tftpState = .data ∧ port = net.client.tftpServerPort ∧
        net.client.tftpLastBlock ≠ UInt64.ofNat ((m + 1) % 2 ^ 16) ∨
      (net.client.tftpState = .rrq ∨ net.client.tftpState = .oack ∧ port = net.client.tftpServerPort) ∧
        (m + 1) % 2 ^ 16 = 1 := by
    rcases Nat.eq_zero_or_pos m with rfl | positive
    · exact .inr ⟨(progress.waiting rfl).imp_right fun both => ⟨both.1, both.2.symm⟩, rfl⟩
    · obtain ⟨state, heard, last⟩ := progress.started positive
      refine .inl ⟨state, heard.symm, ?_⟩
      rw [last, Ne, ← UInt64.toNat_inj, UInt64.toNat_ofNat', UInt64.toNat_ofNat']
      omega
  obtain ⟨mem, wrap, offset, ops, held, received⟩ := @receive_next coCrc32 flashSize net.client port malloced
    ((m + 1) % 2 ^ 16) (image.dataBlock m) (dataBlock_length packed more).2 (Nat.mod_lt _ (by decide)) next
  have data := @packet_eq image (m + 1) short (Nat.succ_pos m) more
  rw [Nat.add_sub_cancel] at data
  rw [data, received]
  dsimp only
  have storedNext := @Stored.next coCrc32 flashSize net.client port malloced image m mem wrap offset
    (UInt64.ofNat ((m + 1) % 2 ^ 16)) ops (4 + (image.dataBlock m).length) packed big small more stored held
  have same := @storeBlock_same coCrc32 flashSize (atBlock net.client mem .data port (UInt64.ofNat ((m + 1) % 2 ^ 16))
    (UInt64.ofNat ((m + 1) % 2 ^ 16)) wrap offset ops) (UInt64.ofNat ((m + 1) % 2 ^ 16) - 1).toUInt32 4
    (4 + (image.dataBlock m).length) (UInt32.ofNat (image.dataBlock m).length) malloced
  generalize Client.storeBlock _ _ _ _ _ _ _ _ = e at storedNext same
  have base : ∀ runs : Bool, (runs = true ↔ m + 1 < image.payloads.length) →
      Progress image port (m + 1) ⟨{ e with running := runs }, net.sentBlocks⟩ := by
    intro runs ends
    refine ⟨more, ends, ⟨sent, Nat.le_succ_of_le progress.sentBlocks.2.1, progress.sentBlocks.2.2⟩,
      same.blkSize.trans progress.blkSize, ?_, same.block, fun zero => absurd zero (Nat.succ_ne_zero m),
      fun _ => ⟨same.state, same.port, same.last⟩⟩
    intro w acked
    obtain ⟨n, low, acks⟩ := progress.acks w (same.sent ▸ acked)
    exact ⟨n, Nat.le_succ_of_le low, acks⟩
  obtain ⟨length, small'⟩ := dataBlock_length packed more
  have size : (UInt32.ofNat (image.dataBlock m).length).toNat = 24 + (image.payloads.getD m []).length := by
    rw [← length]
    exact size_toNat (Nat.le_trans small' (by decide))
  have blkSize : e.tftpSend.tftpBlkSize.toUInt32.toNat = image.blkSize.toNat := by
    rw [← progress.blkSize]
    exact (UInt16.toNat_toUInt32 _).trans (congrArg UInt16.toNat same.blkSize)
  split
  next ended =>
    rw [UInt32.lt_iff_toNat_lt, size, blkSize] at ended
    have last : ¬m + 1 < image.payloads.length := fun inner => absurd (packed.whole m inner) (Nat.ne_of_lt ended)
    have finished : Going coCrc32 image port ⟨e.tftpUninit.tftpSend, net.sentBlocks⟩ :=
      ⟨m + 1, (base false (iff_of_false Bool.false_ne_true last)).send,
        ⟨storedNext.stores, storedNext.streamed, storedNext.cursor, storedNext.heads, storedNext.done⟩⟩
    exact finished
  next whole =>
    rw [UInt32.lt_iff_toNat_lt, size, blkSize] at whole
    have inner : m + 1 < image.payloads.length := by
      apply Nat.lt_of_le_of_ne more
      intro last
      have final : image.payloads.length - 1 = m := by omega
      have most := packed.last.2
      rw [final] at most
      apply short
      refine ⟨image.payloads.getD m [], ?_, by omega⟩
      rw [List.getLast?_eq_getElem?, final, List.getElem?_eq_getElem more, List.getD_eq_getElem _ _ more]
    have running : e.running = true := same.running.trans (progress.running.mpr more)
    exact ⟨m + 1, (base e.running (iff_of_true running inner)).send, storedNext.send⟩

theorem going_step {net next : Net} {event : NetEvent} (packed : image.Packed coCrc32)
    (big : 0x200000 ≤ flashSize.toNat)
    (small : image.payloads.length ≤ 2 ^ 16) (short : ¬image.Full) (going : Going coCrc32 image port net)
    (inOrder : InOrder net event) (taken : netStep coCrc32 flashSize image port event net = some next) :
    Going coCrc32 image port next := by
  cases event with
  | deliver n malloced =>
    obtain ⟨m, progress, stored⟩ := going
    unfold netStep at taken
    dsimp only at taken
    split at taken
    next arrives =>
      obtain rfl := Option.some.inj taken
      obtain ⟨runs, positive, sent⟩ := arrives
      have more := progress.running.mp runs
      have old : m ≤ n := (length_stores progress.bound stored) ▸ inOrder
      have recent := progress.sentBlocks.2.1
      have cases : n = m ∨ n = m + 1 := by omega
      rcases cases with rfl | rfl
      · exact going_again packed short positive progress stored
      · exact going_next packed big small short more sent progress stored
    · cases taken
  | acked => exact going_acked small short going taken
  | timeout =>
    obtain ⟨m, progress, stored⟩ := going
    unfold netStep at taken
    dsimp only at taken
    split at taken
    · obtain rfl := Option.some.inj taken
      exact ⟨m, progress.send, stored.send⟩
    · cases taken

/-- Without late packets, an image of at most 65536 blocks with a short last one arrives as it is, on flash that
can take what no block has erased. -/
theorem transfer_received (coCrc32 : List UInt8 → UInt32 → UInt32) (flashSize : UInt32) {image : Image} {port : UInt16}
    {c : Client} {moments : List (Moment Net NetEvent)} {final : Net} (packed : image.Packed coCrc32)
    (big : 0x200000 ≤ flashSize.toNat) (small : image.payloads.length ≤ 2 ^ 16) (short : ¬image.Full)
    (clearable : Clearable 0x1000 c.cells image.os1FlashAddr.toNat image.payloads) (begun : Begun image port c)
    (run : Run (Machine.Step (netStep coCrc32 flashSize image port)) ⟨c, 0⟩ moments final)
    (inOrder : ∀ moment ∈ moments, InOrder moment.before moment.event) :
    Machine.Always (Received image) moments final := by
  have always := @Machine.always_of_invariant _ _ _ _ _ _ (Going coCrc32 image port) InOrder run
    (going_begun packed begun clearable)
    (fun going allowed taken => going_step packed big small short going allowed taken) inOrder
  exact always.mono fun _ => received_of_going

/-! ## A small image -/

/-- Three blocks of 32 bytes at most. -/
def threeBlocks : Image where
  blkSize := 32
  totalLen := 20
  os0ExAddr := 0
  osHdAddr := 0x27000
  os0FlashAddr := 0x10000
  os1FlashAddr := 0x28000
  payloads := [[1, 2, 3, 4, 5, 6, 7, 8], [9, 10, 11, 12, 13, 14, 15, 16], [0, 0, 0, 0]]

/-- An acknowledged block size of 32. -/
def smallOack : List UInt8 := [0, 6] ++ blksizeOption ++ [51, 50, 0]

def acknowledged : Client := begun.receive noCrc 0x200000 smallOack 1069 true

theorem threeBlocks_packed : threeBlocks.Packed noCrc where
  nonempty := by decide
  whole
    | 0, _ => rfl
    | 1, _ => rfl
    | i + 2, less => absurd less (Nat.not_lt.mpr (Nat.le_add_left 3 i))
  last := by decide
  small := by decide
  crc := by decide
  low := by decide
  fits := by decide
  headFits := by decide
  headApart := by decide

theorem acknowledged_begun : Begun threeBlocks 1069 acknowledged := by
  refine ⟨?_, .inr ?_, ?_, ?_, ?_, ?_, ?_, ?_⟩ <;> decide

theorem acknowledged_cells : acknowledged.cells = fun _ => 0xFF := rfl

/-- The latest first: each block arrives once, the first one twice. -/
def onceEach : List NetEvent :=
  [.deliver 3 true, .acked, .deliver 2 true, .acked, .deliver 1 false, .deliver 1 true, .acked]

theorem transfer_received_three :
    ∃ moments final, Run (Machine.Step (netStep noCrc 0x200000 threeBlocks 1069)) ⟨acknowledged, 0⟩ moments final ∧
      moments.map Moment.event = onceEach ∧ Machine.Always (Received threeBlocks) moments final ∧
      final.client.heads.length = 1 := by
  obtain ⟨moments, final, run, events, inOrder, shown⟩ := @Machine.run_of_fine _ _
    (netStep noCrc 0x200000 threeBlocks 1069) ⟨acknowledged, 0⟩ InOrder _ onceEach
    (fun final => final.client.heads.length = 1) (by decide)
  refine ⟨moments, final, run, events, ?_, of_decide_eq_true shown⟩
  apply transfer_received noCrc 0x200000 threeBlocks_packed (Nat.le_refl _) (by decide) (by decide) _ acknowledged_begun run
    inOrder
  intro j _
  right
  rw [acknowledged_cells]
  exact takes_erased _

/-- The latest first: the first block comes again behind the second one. -/
def lateDuplicate : List NetEvent := [.deliver 1 true, .deliver 2 true, .acked, .deliver 1 true, .acked]

theorem late_duplicate_stored :
    ¬∀ moments final, Run (Machine.Step (netStep noCrc 0x200000 threeBlocks 1069)) ⟨acknowledged, 0⟩ moments final →
      Machine.Always (Received threeBlocks) moments final := by
  intro received
  obtain ⟨moments, final, run, -, shown⟩ := @Machine.run_of_any _ _ (netStep noCrc 0x200000 threeBlocks 1069)
    ⟨acknowledged, 0⟩ lateDuplicate
    (fun final => final.client.stores.map Prod.snd =
      [threeBlocks.dataBlock 0, threeBlocks.dataBlock 1, threeBlocks.dataBlock 0]) (by decide)
  have stores := of_decide_eq_true shown
  obtain ⟨m, bound, same, -⟩ := (received moments final run).2
  rw [stores] at same
  have length := congrArg List.length same
  rw [List.length_reverse, List.length_take] at length
  have all : m = 3 := Nat.le_antisymm bound (Nat.le_trans (Nat.le_of_eq length) (Nat.min_le_left _ _))
  rw [all] at same
  exact absurd same (by decide)

end BekenSdk.Tftp
