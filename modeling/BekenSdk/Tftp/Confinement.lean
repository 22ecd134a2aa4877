import BekenSdk.Base.Machine
import BekenSdk.Tftp.Blocks

/-! Which accesses the client makes, whatever is received: it stays inside the datagram, the
read-back buffer and the flash range of the update exactly when the datagrams fit.
-/

set_option autoImplicit false

namespace BekenSdk.Tftp
open Base

variable {coCrc32 : List UInt8 → UInt32 → UInt32} {flashSize : UInt32}
variable {c : Client} {src avail : Nat} {len : UInt32} {port : UInt16} {malloced : Bool}

/-! ## The machine -/

inductive Event where
  | datagram (bytes : List UInt8) (port : UInt16) (malloced : Bool)
  | failure (port : UInt16) (malloced : Bool)
  | timeout

def step (coCrc32 : List UInt8 → UInt32 → UInt32) (flashSize : UInt32) (event : Event) (c : Client) : Option Client :=
  if c.running then
    match event with
    | .datagram bytes port malloced => some (c.receive coCrc32 flashSize bytes port malloced)
    | .failure port malloced => some (c.receiveFails coCrc32 flashSize port malloced)
    | .timeout => some c.tftpTimeout
  else none

/-! ## What is claimed -/

/-- Reads stay in the datagram, the read-back in its buffer, and the flash range is kept to. -/
def Op.Inside : Op → Prop
  | .read offset count avail => offset + count ≤ avail
  | .readBack count => count ≤ 1024
  | .erase addr => 0x27000 ≤ addr.toNat / 0x1000 * 0x1000 ∧ addr.toNat / 0x1000 * 0x1000 + 0x1000 ≤ 0x200000
  | .program addr count => 0x27000 ≤ addr.toNat ∧ addr.toNat + count.toNat ≤ 0x200000

def Client.Inside (c : Client) : Prop := ∀ op ∈ c.ops, op.Inside

/-- The block's header says that it is the last, and the checksum is right. -/
def Completes (coCrc32 : List UInt8 → UInt32 → UInt32) (c : Client) (block : UInt32) (src : Nat) (len : UInt32) :
    Prop :=
  (SendPtkHd.parse c.mem src).seq = (SendPtkHd.parse c.mem src).totalSeq ∧
    coCrc32 (readBytes c.mem src (len - 4).toNat) (if block ≠ 0 then c.tftpCrc else 0) =
      UInt32.ofNat (fromLe (readBytes c.mem (src + len.toNat - 4) 4))

/-- The block has its header, it comes to lie in the flash range, its payload fits the read-back
buffer, and so does the image header that the last one leads to. -/
structure BlockFits (coCrc32 : List UInt8 → UInt32 → UInt32) (c : Client) (block : UInt32) (src avail : Nat)
    (len : UInt32) (malloced : Bool) : Prop where
  header : src + 24 ≤ avail
  sector : storeAddr c block src % 0x1000 = 0 → storeAddr c block src < 0x200000 ∧ ¬storeAddr c block src < 0x27000
  payload : storeAddr c block src < 0x200000 → ¬storeAddr c block src < 0x27000 →
    (storeAddr c block src).toNat + (len - 24).toNat ≤ 0x200000 ∧ (malloced = true → (len - 24).toNat ≤ 1024)
  last : storeAddr c block src < 0x200000 → ¬storeAddr c block src < 0x27000 → Completes coCrc32 c block src len →
    0x27000 ≤ (SendPtkHd.parse c.mem src).osHdAddr.toNat ∧
      (SendPtkHd.parse c.mem src).osHdAddr.toNat + 32 ≤ 0x200000

/-- A block is stored unless it is the last one again, the first one only as block 1. -/
def Stores (c : Client) : Prop :=
  if c.tftpState = .rrq ∨ c.tftpState = .oack then blockNumber c = 1 else blockNumber c ≠ c.tftpLastBlock

/-- The block size of an option ends before the datagram does, and a block that is stored fits. -/
def DatagramFits (coCrc32 : List UInt8 → UInt32 → UInt32) (c : Client) (n : Nat) (malloced : Bool) : Prop :=
  match (c.mem 0).toNat * 256 + (c.mem 1).toNat with
  | 6 => ∀ i, findBlksize c.mem 2 (n - 2 - 8) 0 = some i → (numberAt c.mem (2 + i + 8)).2.2 < n
  | 3 => 4 ≤ n → Stores c → BlockFits coCrc32 c (blockNumber c - 1).toUInt32 4 n (UInt32.ofNat (n - 4)) malloced
  | _ => True

/-- A packet from the server's port, or any at first, is looked at if it has an opcode; a failing
receive call would have to be ignored. -/
def Fine (coCrc32 : List UInt8 → UInt32 → UInt32) (c : Client) : Event → Prop
  | .datagram bytes port malloced =>
    (c.tftpState = .rrq ∨ port = c.tftpServerPort) → 2 ≤ (bytes.take tftpLen).length →
      DatagramFits coCrc32 { c with mem := storeBytes c.mem 0 (bytes.take tftpLen) } (bytes.take tftpLen).length malloced
  | .failure port _ => c.tftpState ≠ .rrq ∧ port ≠ c.tftpServerPort
  | .timeout => True

/-! ## The accesses of each function -/

theorem read_inside (c : Client) (offset count avail : Nat) :
    (c.read offset count avail).Inside ↔ c.Inside ∧ offset + count ≤ avail := by
  rw [Client.Inside, Client.read, List.forall_mem_cons, and_comm]
  rfl

theorem erase_inside (c : Client) (address : UInt32) :
    (c.erase flashSize address).Inside ↔ c.Inside ∧ Op.Inside (.erase address) := by
  rw [Client.Inside, Client.erase, List.forall_mem_cons, and_comm]
  rfl

theorem flashWrite_inside (c : Client) (bytes : List UInt8) (count address : UInt32) :
    (c.flashWrite flashSize bytes count address).Inside ↔ c.Inside ∧ Op.Inside (.program address count) := by
  rw [Client.Inside, Client.flashWrite, List.forall_mem_cons, and_comm]
  rfl

theorem sector_inside (address : UInt32) (aligned : address % 0x1000 = 0) :
    Op.Inside (.erase address) ↔ address < 0x200000 ∧ ¬address < 0x27000 := by
  have whole : address.toNat % 0x1000 = 0 := by
    have same := congrArg UInt32.toNat aligned
    rwa [UInt32.toNat_mod] at same
  rw [Op.Inside, UInt32.lt_iff_toNat_lt, UInt32.lt_iff_toNat_lt]
  have low : (0x27000 : UInt32).toNat = 0x27000 := rfl
  have high : (0x200000 : UInt32).toNat = 0x200000 := rfl
  rw [low, high]
  omega

theorem eraseSectorStart_inside (c : Client) :
    (c.eraseSectorStart flashSize).Inside ↔
      c.Inside ∧ (c.osDataAddr % 0x1000 = 0 → c.osDataAddr < 0x200000 ∧ ¬c.osDataAddr < 0x27000) := by
  unfold Client.eraseSectorStart
  split
  next aligned =>
    rw [erase_inside, sector_inside _ aligned]
    exact and_congr_right fun _ => ⟨fun fits _ => fits, fun fits => fits aligned⟩
  next unaligned => exact ⟨fun inside => ⟨inside, fun aligned => absurd aligned unaligned⟩, And.left⟩

theorem readBack_inside (c : Client) (count : Nat) :
    Client.Inside { c with ops := .readBack count :: c.ops } ↔ c.Inside ∧ count ≤ 1024 := by
  rw [Client.Inside, List.forall_mem_cons, and_comm]
  rfl

theorem writePayload_inside (c : Client) :
    (c.writePayload flashSize src avail len malloced).Inside ↔
      c.Inside ∧ src + 24 + (len - 24).toNat ≤ avail ∧ Op.Inside (.program c.osDataAddr (len - 24)) ∧
        (malloced = true → (len - 24).toNat ≤ 1024) := by
  have written := @flashWrite_inside flashSize (c.read (src + 24) (len - 24).toNat avail)
    (readBytes c.mem (src + 24) (len - 24).toNat) (len - 24) c.osDataAddr
  rw [read_inside] at written
  cases malloced with
  | false =>
    apply Iff.trans written
    constructor
    · rintro ⟨⟨inside, reads⟩, program⟩
      exact ⟨inside, reads, program, nofun⟩
    · rintro ⟨inside, reads, program, -⟩
      exact ⟨⟨inside, reads⟩, program⟩
  | true =>
    apply Iff.trans (read_inside _ _ _ _)
    apply Iff.trans (and_congr_left' (readBack_inside _ _))
    constructor
    · rintro ⟨⟨all, back⟩, -⟩
      obtain ⟨⟨inside, reads⟩, program⟩ := written.mp all
      exact ⟨inside, reads, program, fun _ => back⟩
    · rintro ⟨inside, reads, program, back⟩
      exact ⟨⟨written.mpr ⟨⟨inside, reads⟩, program⟩, back rfl⟩, reads⟩

theorem writePayload_keeps (c : Client) :
    (c.writePayload flashSize src avail len malloced).mem = c.mem ∧
      (c.writePayload flashSize src avail len malloced).sendHd = c.sendHd ∧
      (c.writePayload flashSize src avail len malloced).tftpCrc = c.tftpCrc := by
  cases malloced <;> exact ⟨rfl, rfl, rfl⟩

theorem imgHead_inside (address : UInt32) :
    Op.Inside (.erase address) ∧ Op.Inside (.program address 32) ↔
      0x27000 ≤ address.toNat ∧ address.toNat + 32 ≤ 0x200000 := by
  have count : (32 : UInt32).toNat = 32 := rfl
  rw [Op.Inside, Op.Inside, count]
  omega

theorem writeImgHead_inside (c : Client) (crc : UInt32) :
    (c.writeImgHead flashSize crc).Inside ↔
      c.Inside ∧ 0x27000 ≤ c.sendHd.osHdAddr.toNat ∧ c.sendHd.osHdAddr.toNat + 32 ≤ 0x200000 := by
  have added : (c.writeImgHead flashSize crc).ops =
    .program c.sendHd.osHdAddr 32 :: .erase c.sendHd.osHdAddr :: c.ops := rfl
  rw [Client.Inside, added, List.forall_mem_cons, List.forall_mem_cons, ← imgHead_inside]
  constructor
  · exact fun ⟨program, erase, inside⟩ => ⟨inside, erase, program⟩
  · exact fun ⟨inside, erase, program⟩ => ⟨program, erase, inside⟩

theorem sumBlock_inside (c : Client) (count : UInt32) :
    (c.sumBlock coCrc32 src avail count).Inside ↔ c.Inside ∧ src + count.toNat ≤ avail :=
  read_inside c src count.toNat avail

theorem confirmCrc_inside (c : Client) (crc : UInt32) :
    (c.confirmCrc flashSize crc).Inside ↔
      c.Inside ∧ (c.tftpCrc = crc → 0x27000 ≤ c.sendHd.osHdAddr.toNat ∧ c.sendHd.osHdAddr.toNat + 32 ≤ 0x200000) := by
  unfold Client.confirmCrc
  split
  next right =>
    rw [writeImgHead_inside]
    exact and_congr_right fun _ => ⟨fun head _ => head, fun head => head right⟩
  next wrong => exact (and_iff_left fun right => absurd right wrong).symm

/-- The reads of the checksum lie in the block. -/
theorem checkCrc_inside (c : Client) (whole : src + len.toNat ≤ avail) (long : 4 ≤ len.toNat) :
    (c.checkCrc coCrc32 flashSize src avail len).Inside ↔
      c.Inside ∧ (c.sendHd.seq = c.sendHd.totalSeq →
        coCrc32 (readBytes c.mem src (len - 4).toNat) c.tftpCrc =
          UInt32.ofNat (fromLe (readBytes c.mem (src + len.toNat - 4) 4)) →
        0x27000 ≤ c.sendHd.osHdAddr.toNat ∧ c.sendHd.osHdAddr.toNat + 32 ≤ 0x200000) := by
  have shorter : (len - 4).toNat = len.toNat - 4 := UInt32.toNat_sub_of_le _ _ (UInt32.le_iff_toNat_le.mpr long)
  unfold Client.checkCrc
  split
  next more =>
    rw [sumBlock_inside]
    exact and_congr_right fun _ => iff_of_true whole fun last => absurd last more
  next last =>
    have ended := not_not.mp last
    dsimp only
    rw [confirmCrc_inside, sumBlock_inside, read_inside]
    constructor
    · rintro ⟨⟨⟨inside, -⟩, -⟩, head⟩
      exact ⟨inside, fun _ => head⟩
    · rintro ⟨inside, head⟩
      exact ⟨⟨⟨inside, by omega⟩, by omega⟩, head ended⟩

theorem eraseSectorStart_keeps (c : Client) :
    (c.eraseSectorStart flashSize).mem = c.mem ∧ (c.eraseSectorStart flashSize).sendHd = c.sendHd ∧
      (c.eraseSectorStart flashSize).tftpCrc = c.tftpCrc ∧
      (c.eraseSectorStart flashSize).osDataAddr = c.osDataAddr := by
  unfold Client.eraseSectorStart
  split <;> exact ⟨rfl, rfl, rfl, rfl⟩

/-- What the test of the address lets through. -/
def InRange (address : UInt32) : Prop := address < 0x200000 ∧ ¬address < 0x27000

theorem storePayload_inside (c : Client) (whole : src + len.toNat ≤ avail) (long : 24 ≤ len.toNat) :
    (c.storePayload coCrc32 flashSize src avail len malloced).Inside ↔
      c.Inside ∧
        (InRange c.osDataAddr →
          c.osDataAddr.toNat + (len - 24).toNat ≤ 0x200000 ∧ (malloced = true → (len - 24).toNat ≤ 1024) ∧
            (c.sendHd.seq = c.sendHd.totalSeq →
              coCrc32 (readBytes c.mem src (len - 4).toNat) c.tftpCrc =
                UInt32.ofNat (fromLe (readBytes c.mem (src + len.toNat - 4) 4)) →
              0x27000 ≤ c.sendHd.osHdAddr.toNat ∧ c.sendHd.osHdAddr.toNat + 32 ≤ 0x200000)) := by
  have shorter : (len - 24).toNat = len.toNat - 24 := UInt32.toNat_sub_of_le _ _ (UInt32.le_iff_toNat_le.mpr long)
  unfold Client.storePayload
  split
  next outside =>
    have never : ¬InRange c.osDataAddr := fun range => outside.elim (UInt32.not_le.mpr range.1) range.2
    exact ⟨fun inside => ⟨inside, fun range => absurd range never⟩, And.left⟩
  next range =>
    obtain ⟨high, low⟩ := not_or.mp range
    have below := UInt32.not_le.mp high
    have reached : c.osDataAddr < 0x400000 := UInt32.lt_trans below (by decide)
    rw [if_pos reached]
    obtain ⟨mem, hd, crc⟩ := @writePayload_keeps flashSize src avail len malloced c
    apply Iff.trans (checkCrc_inside _ whole (by omega))
    rw [mem, hd, crc, writePayload_inside]
    have above : 0x27000 ≤ c.osDataAddr.toNat := UInt32.le_iff_toNat_le.mp (UInt32.not_lt.mp low)
    constructor
    · rintro ⟨⟨inside, -, program, back⟩, last⟩
      exact ⟨inside, fun _ => ⟨program.2, back, last⟩⟩
    · rintro ⟨inside, fits⟩
      obtain ⟨program, back, last⟩ := fits ⟨below, low⟩
      exact ⟨⟨inside, by omega, ⟨above, program⟩, back⟩, last⟩

/-- Accesses are only added. -/
theorem inside_of_checkCrc (c : Client) (inside : (c.checkCrc coCrc32 flashSize src avail len).Inside) : c.Inside := by
  unfold Client.checkCrc at inside
  split at inside
  · exact ((sumBlock_inside _ _).mp inside).1
  · have summed := ((confirmCrc_inside _ _).mp inside).1
    exact ((read_inside _ _ _ _).mp ((sumBlock_inside _ _).mp summed).1).1

theorem inside_of_storePayload (c : Client)
    (inside : (c.storePayload coCrc32 flashSize src avail len malloced).Inside) :
    c.Inside := by
  unfold Client.storePayload at inside
  split at inside
  · exact inside
  · split at inside
    · exact ((writePayload_inside c).mp (inside_of_checkCrc _ inside)).1
    · exact inside

theorem storeBlock_inside (c : Client) (block : UInt32) (whole : src + len.toNat = avail) :
    (c.storeBlock coCrc32 flashSize block src avail len malloced).Inside ↔
      c.Inside ∧ BlockFits coCrc32 c block src avail len malloced := by
  have headed := readHead_eq { c with stores := (block, readBytes c.mem src len.toNat) :: c.stores } block src avail
  unfold Client.storeBlock
  dsimp only
  generalize Client.readHead _ block src avail = d at headed
  have header : d.Inside ↔ c.Inside ∧ src + 24 ≤ avail := by
    rw [headed]
    exact read_inside c src 24 avail
  have erased := @eraseSectorStart_inside flashSize d
  obtain ⟨mem, hd, crc, addr⟩ := @eraseSectorStart_keeps flashSize d
  have mem := mem.trans (congrArg Client.mem headed)
  have hd := hd.trans (congrArg Client.sendHd headed)
  have crc := crc.trans (congrArg Client.tftpCrc headed)
  rw [header, congrArg Client.osDataAddr headed] at erased
  have addr := addr.trans (congrArg Client.osDataAddr headed)
  generalize d.eraseSectorStart flashSize = e at erased mem hd crc addr
  by_cases long : src + 24 ≤ avail
  · have stored := @storePayload_inside coCrc32 flashSize src avail len malloced e (Nat.le_of_eq whole) (by omega)
    rw [mem, hd, crc, addr, erased] at stored
    apply Iff.trans stored
    constructor
    · rintro ⟨⟨⟨inside, header⟩, sector⟩, payload⟩
      exact ⟨inside, header, sector, fun high low => ⟨(payload ⟨high, low⟩).1, (payload ⟨high, low⟩).2.1⟩,
        fun high low complete => (payload ⟨high, low⟩).2.2 complete.1 complete.2⟩
    · rintro ⟨inside, fits⟩
      exact ⟨⟨⟨inside, fits.header⟩, fits.sector⟩, fun range =>
        ⟨(fits.payload range.1 range.2).1, (fits.payload range.1 range.2).2,
          fun ended right => fits.last range.1 range.2 ⟨ended, right⟩⟩⟩
  · exact iff_of_false (fun all => long (erased.mp (inside_of_storePayload e all)).1.2) fun all => long all.2.header

/-! ## Packets -/

theorem send_inside (c : Client) : c.tftpSend.Inside ↔ c.Inside := Iff.rfl

theorem le_skip (kind : UInt8 → Bool) (mem : Cells) (left start : Nat) : start ≤ skip kind mem left start := by
  induction left generalizing start with
  | zero => exact Nat.le_refl _
  | succ left ih =>
    rw [skip]
    split
    · exact Nat.le_of_succ_le (ih (start + 1))
    · exact Nat.le_refl _

theorem le_numberAt (mem : Cells) (start : Nat) : start ≤ (numberAt mem start).2.2 := by
  have sign := le_skip isSpace mem addressSpace start
  apply Nat.le_trans _ (le_skip isDigit mem addressSpace _)
  split
  · exact Nat.le_succ_of_le sign
  · exact sign

theorem handleOack_inside (c : Client) {n : Nat} (long : 2 ≤ n) (bound : n ≤ tftpLen) :
    (c.handleOack (UInt32.ofNat (n - 2)) port n).Inside ↔
      c.Inside ∧ ∀ i, findBlksize c.mem 2 (n - 2 - 8) 0 = some i → (numberAt c.mem (2 + i + 8)).2.2 < n := by
  have size := size_toNat (Nat.le_trans (Nat.sub_le n 2) bound)
  unfold Client.handleOack
  dsimp only
  rw [size]
  generalize scanned : (if UInt32.ofNat (n - 2) > 8 then _ else _ : Client) = d
  have inside : d.Inside ↔ c.Inside := by
    rw [← scanned]
    split
    · exact (read_inside _ _ _ _).trans (and_iff_left (by omega))
    · exact Iff.rfl
  have mem : d.mem = c.mem := by
    rw [← scanned]
    split <;> rfl
  rw [send_inside, mem]
  cases found : findBlksize c.mem 2 (n - 2 - 8) 0 with
  | none => exact inside.trans (and_iff_left nofun).symm
  | some i =>
    have later := le_numberAt c.mem (2 + i + 8)
    have number := read_inside d (2 + i + 8) ((numberAt c.mem (2 + i + 8)).2.2 + 1 - (2 + i + 8)) n
    rw [inside] at number
    apply Iff.trans number
    apply and_congr_right
    intro _
    constructor
    · intro fits j same
      cases same
      omega
    · intro fits
      have := fits i rfl
      omega

theorem blockFits_congr {d : Client} (mem : d.mem = c.mem) (addr : d.osDataAddr = c.osDataAddr)
    (crc : d.tftpCrc = c.tftpCrc)
    (block : UInt32) :
    BlockFits coCrc32 d block src avail len malloced ↔ BlockFits coCrc32 c block src avail len malloced := by
  have same : storeAddr d block src = storeAddr c block src := by rw [storeAddr, storeAddr, mem, addr]
  have complete : Completes coCrc32 d block src len ↔ Completes coCrc32 c block src len := by
    rw [Completes, Completes, mem, crc]
  constructor
  · rintro ⟨header, sector, payload, last⟩
    rw [same] at sector payload last
    rw [complete, mem] at last
    exact ⟨header, sector, payload, last⟩
  · rintro ⟨header, sector, payload, last⟩
    rw [← same] at sector payload last
    rw [← complete, ← mem] at last
    exact ⟨header, sector, payload, last⟩

/-- The end of the transfer makes no accesses. -/
theorem ended_inside (c : Client) (short : Prop) [Decidable short] :
    (if short then c.tftpSend.tftpUninit else c.tftpSend).Inside ↔ c.Inside := by
  split <;> exact Iff.rfl

theorem takeBlock_inside (c : Client) (whole : 4 + len.toNat = avail) :
    (c.takeBlock coCrc32 flashSize len avail malloced).Inside ↔
      c.Inside ∧ (c.tftpBlock ≠ c.tftpLastBlock →
        BlockFits coCrc32 c (c.tftpBlock - 1).toUInt32 4 avail len malloced) := by
  unfold Client.takeBlock
  split
  next again => exact (and_iff_left fun other => absurd again other).symm
  next other =>
    apply Iff.trans (ended_inside _ _)
    apply Iff.trans (storeBlock_inside _ _ whole)
    apply and_congr_right
    intro _
    rw [@blockFits_congr coCrc32 c 4 avail len malloced { c with tftpLastBlock := c.tftpBlock } rfl rfl rfl]
    exact ⟨fun fits _ => fits, fun fits => fits other⟩

/-- What storing a block depends on, and the accesses so far. -/
structure SameStore (c d : Client) : Prop where
  ops : d.ops = c.ops
  mem : d.mem = c.mem
  osDataAddr : d.osDataAddr = c.osDataAddr
  tftpCrc : d.tftpCrc = c.tftpCrc

theorem readBlockNumber_same (c : Client) (avail : Nat) :
    SameStore (c.read 2 2 avail) (c.readBlockNumber avail) ∧ (c.readBlockNumber avail).tftpBlock = blockNumber c ∧
      (c.readBlockNumber avail).tftpState = c.tftpState ∧
      (c.readBlockNumber avail).tftpLastBlock = c.tftpLastBlock := by
  unfold Client.readBlockNumber
  dsimp only
  split <;> exact ⟨⟨rfl, rfl, rfl, rfl⟩, rfl, rfl, rfl⟩

theorem firstBlock_same (c : Client) (port : UInt16) :
    SameStore c (c.firstBlock port).1 ∧ (c.firstBlock port).1.tftpBlock = c.tftpBlock ∧
      ((c.firstBlock port).2 = true ∧ c.tftpBlock ≠ (c.firstBlock port).1.tftpLastBlock ↔
        if c.tftpState = .rrq ∨ c.tftpState = .oack then c.tftpBlock = 1 else c.tftpBlock ≠ c.tftpLastBlock) := by
  unfold Client.firstBlock
  split
  · refine ⟨⟨rfl, rfl, rfl, rfl⟩, rfl, ?_⟩
    constructor
    · exact fun both => of_decide_eq_true both.1
    · intro one
      refine ⟨decide_eq_true one, ?_⟩
      rw [one]
      exact (by decide : (1 : UInt64) ≠ 0)
  · exact ⟨⟨rfl, rfl, rfl, rfl⟩, rfl, and_iff_right rfl⟩

theorem handleData_inside (c : Client) {n : Nat} (long : 4 ≤ n) (bound : n ≤ tftpLen) :
    (c.handleData coCrc32 flashSize (UInt32.ofNat (n - 4)) port n malloced).Inside ↔
      c.Inside ∧
        (Stores c → BlockFits coCrc32 c (blockNumber c - 1).toUInt32 4 n (UInt32.ofNat (n - 4)) malloced) := by
  have size := size_toNat (Nat.le_trans (Nat.sub_le n 4) bound)
  have whole : 4 + (UInt32.ofNat (n - 4)).toNat = n := by omega
  obtain ⟨read, number, state, last⟩ := readBlockNumber_same c n
  unfold Client.handleData
  generalize c.readBlockNumber n = d at read number state last
  obtain ⟨first, number', stores⟩ := firstBlock_same d port
  rw [state, number, last] at stores
  generalize d.firstBlock port = result at first number' stores
  obtain ⟨e, go⟩ := result
  have passed : e.Inside ↔ c.Inside := by
    rw [Client.Inside, first.ops, read.ops, Client.read, List.forall_mem_cons]
    exact and_iff_right long
  have fits := @blockFits_congr coCrc32 c 4 n (UInt32.ofNat (n - 4)) malloced e (first.mem.trans read.mem)
    (first.osDataAddr.trans read.osDataAddr) (first.tftpCrc.trans read.tftpCrc) (blockNumber c - 1).toUInt32
  cases go with
  | false =>
    apply Iff.trans passed
    exact (and_iff_left fun stored => absurd (stores.mpr stored).1 Bool.false_ne_true).symm
  | true =>
    apply Iff.trans (takeBlock_inside e whole)
    rw [number', number, fits, passed]
    exact and_congr_right fun _ => imp_congr_left ((and_iff_right rfl).symm.trans stores)

theorem datagramFits_oack {c : Client} {n : Nat} (oack : (c.mem 0).toNat * 256 + (c.mem 1).toNat = 6) :
    DatagramFits coCrc32 c n malloced ↔
      ∀ i, findBlksize c.mem 2 (n - 2 - 8) 0 = some i → (numberAt c.mem (2 + i + 8)).2.2 < n := by
  simp only [DatagramFits, oack]

theorem datagramFits_data {c : Client} {n : Nat} (data : (c.mem 0).toNat * 256 + (c.mem 1).toNat = 3) :
    DatagramFits coCrc32 c n malloced ↔
      (4 ≤ n → Stores c → BlockFits coCrc32 c (blockNumber c - 1).toUInt32 4 n (UInt32.ofNat (n - 4)) malloced) := by
  simp only [DatagramFits, data]

theorem datagramFits_other {c : Client} {n : Nat} (not_oack : (c.mem 0).toNat * 256 + (c.mem 1).toNat ≠ 6)
    (not_data : (c.mem 0).toNat * 256 + (c.mem 1).toNat ≠ 3) : DatagramFits coCrc32 c n malloced := by
  unfold DatagramFits
  split
  next same => exact absurd same not_oack
  next same => exact absurd same not_data
  next => trivial

theorem tftpHandler_inside (c : Client) {n : Nat} (long : 2 ≤ n) (bound : n ≤ tftpLen)
    (heard : c.tftpState = .rrq ∨ port = c.tftpServerPort) :
    (c.tftpHandler coCrc32 flashSize (UInt32.ofNat n) port n malloced).Inside ↔
      c.Inside ∧ DatagramFits coCrc32 c n malloced := by
  have size := size_toNat bound
  have listened : ¬(c.tftpState ≠ .rrq ∧ port ≠ c.tftpServerPort) := fun ⟨other, stranger⟩ => heard.elim other stranger
  have enough : ¬UInt32.ofNat n < 2 := by
    rw [UInt32.lt_iff_toNat_lt, size]
    exact Nat.not_lt.mpr long
  have opcode : (c.read 0 2 n).Inside ↔ c.Inside := (read_inside c 0 2 n).trans (and_iff_left (by omega))
  unfold Client.tftpHandler
  rw [if_neg listened, if_neg enough]
  dsimp only
  have rest : UInt32.ofNat n - 2 = UInt32.ofNat (n - 2) := size_sub bound long
  rw [rest]
  have mem : (c.read 0 2 n).mem = c.mem := rfl
  rw [mem]
  generalize number_eq : (c.mem 0).toNat * 256 + (c.mem 1).toNat = number
  split
  next =>
    rw [handleOack_inside _ long bound, opcode, mem, datagramFits_oack number_eq]
  next =>
    have two : (2 : UInt32).toNat = 2 := rfl
    rw [datagramFits_data number_eq]
    split
    next short =>
      have little : ¬4 ≤ n := by
        rw [UInt32.lt_iff_toNat_lt, size_toNat (Nat.le_trans (Nat.sub_le n 2) bound)] at short
        omega
      apply Iff.trans opcode
      exact (and_iff_left fun fits => absurd fits little).symm
    next complete =>
      have fits : 4 ≤ n := by
        rw [UInt32.lt_iff_toNat_lt, size_toNat (Nat.le_trans (Nat.sub_le n 2) bound)] at complete
        omega
      have payload : UInt32.ofNat (n - 2) - 2 = UInt32.ofNat (n - 2 - 2) :=
        size_sub (Nat.le_trans (Nat.sub_le n 2) bound) (Nat.le_sub_of_add_le fits)
      have same := @blockFits_congr coCrc32 c 4 n (UInt32.ofNat (n - 4)) malloced (c.read 0 2 n) rfl rfl rfl
      rw [payload, Nat.sub_sub, handleData_inside _ fits bound, opcode, same]
      exact and_congr_right fun _ => ⟨fun all _ => all, fun all => all fits⟩
  next other_6 other_3 =>
    have fits : DatagramFits coCrc32 c n malloced :=
      datagramFits_other (fun same => other_6 (number_eq.symm.trans same)) fun same => other_3 (number_eq.symm.trans same)
    exact opcode.trans (and_iff_left fits).symm

/-! ## Runs -/

theorem inside_of_handleOack (c : Client) (inside : (c.handleOack len port avail).Inside) : c.Inside := by
  unfold Client.handleOack at inside
  dsimp only at inside
  generalize scanned : (if len > 8 then _ else _ : Client) = d at inside
  have before : d.Inside → c.Inside := by
    rw [← scanned]
    split
    · exact fun all => ((read_inside _ _ _ _).mp all).1
    · exact id
  cases found : findBlksize d.mem 2 (len.toNat - 8) 0 with
  | none =>
    rw [found] at inside
    exact before inside
  | some i =>
    rw [found] at inside
    exact before ((read_inside d _ _ avail).mp inside).1

theorem inside_of_storeBlock (c : Client) (block : UInt32)
    (inside : (c.storeBlock coCrc32 flashSize block src avail len malloced).Inside) : c.Inside := by
  have headed := readHead_eq { c with stores := (block, readBytes c.mem src len.toNat) :: c.stores } block src avail
  have erased := ((eraseSectorStart_inside _).mp (inside_of_storePayload _ inside)).1
  rw [headed] at erased
  exact ((read_inside c src 24 avail).mp erased).1

theorem inside_of_handleData (c : Client) (inside : (c.handleData coCrc32 flashSize len port avail malloced).Inside) :
    c.Inside := by
  obtain ⟨read, -⟩ := readBlockNumber_same c avail
  unfold Client.handleData at inside
  generalize c.readBlockNumber avail = d at read inside
  obtain ⟨first, -⟩ := firstBlock_same d port
  generalize d.firstBlock port = result at first inside
  obtain ⟨e, go⟩ := result
  have before : e.Inside → c.Inside := by
    rw [Client.Inside, first.ops, read.ops]
    exact fun all => ((read_inside c 2 2 avail).mp all).1
  cases go with
  | false => exact before inside
  | true =>
    apply before
    dsimp only at inside
    unfold Client.takeBlock at inside
    split at inside
    · exact inside
    · exact inside_of_storeBlock { e with tftpLastBlock := e.tftpBlock } _ ((ended_inside _ _).mp inside)

/-- A failing receive call is only survived when it is ignored. -/
theorem receiveFails_inside (c : Client) :
    (c.receiveFails coCrc32 flashSize port malloced).Inside ↔ c.Inside ∧ c.tftpState ≠ .rrq ∧
    port ≠ c.tftpServerPort := by
  unfold Client.receiveFails Client.tftpHandler
  split
  next ignored => exact (and_iff_left ignored).symm
  next heard =>
    have long : ¬(-1 : UInt32) < 2 := by decide
    rw [if_neg long]
    have outside : ¬(c.read 0 2 0).Inside := fun inside => absurd ((read_inside c 0 2 0).mp inside).2 (by decide)
    apply iff_of_false _ fun both => heard both.2
    intro inside
    apply outside
    dsimp only at inside
    split at inside
    · exact inside_of_handleOack _ inside
    · split at inside
      · exact inside
      · exact inside_of_handleData _ inside
    · exact inside

theorem step_inside {event : Event} {d : Client} (taken : step coCrc32 flashSize event c = some d) :
    d.Inside ↔ c.Inside ∧ Fine coCrc32 c event := by
  unfold step at taken
  split at taken
  · cases event with
    | datagram bytes port malloced =>
      obtain rfl := Option.some.inj taken
      have bound : (bytes.take tftpLen).length ≤ tftpLen := List.length_take_le _ _
      unfold Client.receive Fine
      dsimp only
      generalize bytes.take tftpLen = packet at bound
      by_cases heard : c.tftpState = .rrq ∨ port = c.tftpServerPort
      · by_cases long : 2 ≤ packet.length
        · rw [tftpHandler_inside { c with mem := storeBytes c.mem 0 packet } long bound heard]
          exact and_congr_right fun _ => ⟨fun fits _ _ => fits, fun fits => fits heard long⟩
        · have short : UInt32.ofNat packet.length < 2 := by
            rw [UInt32.lt_iff_toNat_lt, size_toNat bound]
            exact Nat.not_le.mp long
          have ignored : ¬(c.tftpState ≠ .rrq ∧ port ≠ c.tftpServerPort) := fun both => heard.elim both.1 both.2
          unfold Client.tftpHandler
          rw [if_neg ignored, if_pos short]
          exact (and_iff_left fun _ fits => absurd fits long).symm
      · unfold Client.tftpHandler
        rw [if_pos (not_or.mp heard)]
        exact (and_iff_left fun known => absurd known heard).symm
    | failure port malloced =>
      obtain rfl := Option.some.inj taken
      exact receiveFails_inside c
    | timeout =>
      obtain rfl := Option.some.inj taken
      exact (and_iff_left trivial).symm
  · cases taken

/-- The accesses are inside throughout a run exactly when every datagram fits. -/
theorem confined_iff (coCrc32 : List UInt8 → UInt32 → UInt32) (flashSize : UInt32) {start final : Client}
    {moments : List (Moment Client Event)} (run : Run (Machine.Step (step coCrc32 flashSize)) start moments final)
    (fresh : start.ops = []) :
    Machine.Always Client.Inside moments final ↔ ∀ moment ∈ moments, Fine coCrc32 moment.before moment.event := by
  apply Machine.always_iff run
  · intro op member
    rw [fresh] at member
    cases member
  · exact fun inside fine taken => (step_inside taken).mpr ⟨inside, fine⟩
  · exact fun _ unfit taken inside => unfit ((step_inside taken).mp inside).2

/-- A transfer from the start, in blank memory. -/
def begun : Client := (Client.boot (fun _ => 0) (fun _ => 0xFF)).tftpStart

/-- An acknowledged block size of 1048. -/
def oack : List UInt8 := [0, 6] ++ blksizeOption ++ [49, 48, 52, 56, 0]

/-- No checksum is taken in the runs below. -/
def noCrc (_ : List UInt8) (crc : UInt32) : UInt32 := crc

theorem oack_fine : Fine noCrc begun (.datagram oack 69 true) := by
  intro _ _ i found
  have first : findBlksize (storeBytes begun.mem 0 (oack.take tftpLen)) 2 ((oack.take tftpLen).length - 2 - 8) 0 =
    some 0 := by
    decide
  obtain rfl := Option.some.inj (first.symm.trans found)
  decide

def oackReceived : List (Moment Client Event) := [⟨begun, .datagram oack 69 true⟩]

theorem oack_confined :
    ∃ final, Run (Machine.Step (step noCrc 0x200000)) begun oackReceived final ∧ final.tftpBlkSize = 1048 ∧
      Machine.Always Client.Inside oackReceived final := by
  have run : Run (Machine.Step (step noCrc 0x200000)) begun oackReceived (begun.receive noCrc 0x200000 oack 69 true) :=
    .next .nil ⟨rfl, rfl⟩
  refine ⟨_, run, by decide, (confined_iff noCrc 0x200000 run rfl).mpr ?_⟩
  intro moment member
  obtain rfl := List.mem_singleton.mp member
  exact oack_fine

/-- A data packet without any bytes, as it ends a transfer of whole blocks. -/
def emptyReceived : List (Moment Client Event) := [⟨begun, .datagram [0, 3, 0, 1] 69 true⟩]

theorem empty_block_outside :
    ¬∀ moments final, Run (Machine.Step (step noCrc 0x200000)) begun moments final →
      Machine.Always Client.Inside moments final := by
  intro inside
  have run : Run (Machine.Step (step noCrc 0x200000)) begun emptyReceived
      (begun.receive noCrc 0x200000 [0, 3, 0, 1] 69 true) := .next .nil ⟨rfl, rfl⟩
  have header : Op.read 4 24 4 ∈ (begun.receive noCrc 0x200000 [0, 3, 0, 1] 69 true).ops := by decide
  have read := (inside _ _ run).2 _ header
  exact absurd read (by decide : ¬4 + 24 ≤ 4)

end BekenSdk.Tftp
