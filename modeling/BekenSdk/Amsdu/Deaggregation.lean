import BekenSdk.Base.Bytes
import BekenSdk.Base.CData
import BekenSdk.Base.Loop

/-! `ethernetif_input_amsdu`: the loop over the subframes of an A-MSDU. Memory is
addressed from the start of the payload and goes on behind its end. Headers are
rewritten where they are, so a subframe may find that the one before it has been
at its first bytes. Every access is written down.
-/

set_option autoImplicit false

namespace BekenSdk.Amsdu
open BekenSdk.Base

structure MacAddr where
  bytes : List UInt8
  size : bytes.length = 6
  deriving DecidableEq

/-- What is given with a payload: its length, the interface it came in by, and
the rounds in which `pbuf_alloc` has memory. -/
structure RxInfo where
  len : UInt16
  vif : Option MacAddr
  pbuf : Nat → Bool

def rfc1042Header : List UInt8 := [0xaa, 0xaa, 0x03, 0x00, 0x00, 0x00]
def bridgeTunnelHeader : List UInt8 := [0xaa, 0xaa, 0x03, 0x00, 0xf8, 0x00]
def rxEthProtIdIpx : Nat := 0x8137

inductive Access where
  | read (start size : Nat)
  | write (start size : Nat)
  /-- Bytes copied to the start of a new buffer. -/
  | store (capacity size : Nat)
  deriving DecidableEq, Repr

/-- The access stays in the payload, or in the buffer. -/
def Access.Inside (len : Nat) : Access → Prop
  | .read start size => start + size ≤ len
  | .write start size => start + size ≤ len
  | .store capacity size => size ≤ capacity

instance (len : Nat) (access : Access) : Decidable (access.Inside len) := by
  cases access <;> exact inferInstanceAs (Decidable (_ ≤ _))

/-! ## One subframe -/

/-- Where the loop is: the memory, and `amsdu_subfrm_hdr`. -/
structure Cursor where
  payload : Cells
  hdr : Nat

namespace Cursor

/-- `ntohs(amsdu_subfrm_hdr->len)`. -/
def duLen (c : Cursor) : Nat := (c.payload (c.hdr + 12)).toNat * 256 + (c.payload (c.hdr + 13)).toNat

def IsRfc1042 (c : Cursor) : Prop := readBytes c.payload (c.hdr + 14) 6 = rfc1042Header

instance (c : Cursor) : Decidable c.IsRfc1042 := inferInstanceAs (Decidable (_ = _))

/-- `llc_snap->proto_id`, as the little-endian machine reads it. -/
def protoId (c : Cursor) : Nat := fromLe (readBytes c.payload (c.hdr + 20) 2)

def IsBridgeTunnel (c : Cursor) : Prop := readBytes c.payload (c.hdr + 14) 6 = bridgeTunnelHeader

instance (c : Cursor) : Decidable c.IsBridgeTunnel := inferInstanceAs (Decidable (_ = _))

/-- The subframe is converted as SNAP; otherwise as raw. -/
def Snap (c : Cursor) : Prop := c.IsRfc1042 ∧ c.protoId ≠ rxEthProtIdIpx ∨ c.IsBridgeTunnel

instance (c : Cursor) : Decidable c.Snap := inferInstanceAs (Decidable (_ ∨ _))

/-- `msdu_len_with_padding`, a 16-bit variable. -/
def msduLenWithPadding (c : Cursor) : Nat :=
  let padded := (14 + c.duLen + 4 - 1) % 2 ^ 16
  padded - padded % 4

/-- How far behind the subframe the Ethernet header starts. -/
def shift (c : Cursor) : Nat := if c.Snap then 6 + 2 else 2

def ethHdr (c : Cursor) : Nat := c.hdr + c.shift

/-- `du_len` once the headers have been exchanged. -/
def ethLen (c : Cursor) : Nat := c.duLen + if c.Snap then 14 - 6 - 2 else 14 - 2

/-- `MAC_ADDR_CPY`, in the raw case by way of `temp_mac`. -/
def macAddrCpy (dst src : Nat) (cells : Cells) : Cells := fun a =>
  if dst ≤ a ∧ a < dst + 6 then cells (src + (a - dst)) else cells a

/-- The source address is copied before the destination address. -/
def rewritten (c : Cursor) : Cells :=
  macAddrCpy c.ethHdr c.hdr (macAddrCpy (c.ethHdr + 6) (c.hdr + 6) c.payload)

def next (c : Cursor) : Cursor := ⟨c.rewritten, c.hdr + c.msduLenWithPadding⟩

/-- `eth_hdr->sa` when it is compared. -/
def ethSa (c : Cursor) : List UInt8 := readBytes c.rewritten (c.ethHdr + 6) 6

/-- There is an interface, it is not the source, and there is a buffer. -/
def Copied (rx : RxInfo) (round : Nat) (c : Cursor) : Prop :=
  match rx.vif with
  | some own => c.ethSa ≠ own.bytes ∧ rx.pbuf round = true
  | none => False

instance (rx : RxInfo) (round : Nat) (c : Cursor) : Decidable (c.Copied rx round) := by
  unfold Copied
  cases rx.vif <;> infer_instance

/-- The 16-bit length that `pbuf_alloc` is given. -/
def pbufLen (c : Cursor) : Nat := c.ethLen % 2 ^ 16

/-- What the network stack gets: as much of the copied frame as the buffer is long. -/
def frame (c : Cursor) : List UInt8 := readBytes c.rewritten c.ethHdr c.pbufLen

def accesses (rx : RxInfo) (round : Nat) (c : Cursor) : List Access :=
  [.read (c.hdr + 12) 2, .read (c.hdr + 14) 6] ++
  -- The protocol is looked at behind the RFC 1042 header only, and the other
  -- header compared when the first did not decide.
  (if c.IsRfc1042 then [.read (c.hdr + 20) 2] else []) ++
  (if c.IsRfc1042 ∧ c.protoId ≠ rxEthProtIdIpx then [] else [.read (c.hdr + 14) 6]) ++
  [.read (c.hdr + 6) 6, .write (c.ethHdr + 6) 6, .read c.hdr 6, .write c.ethHdr 6] ++
  (if rx.vif.isSome then [.read (c.ethHdr + 6) 6] else []) ++
  (if c.Copied rx round then [.read c.ethHdr c.ethLen, .store c.pbufLen c.ethLen] else [])

end Cursor

/-! ## The loop -/

structure Deaggregation where
  cursor : Cursor
  round : Nat
  delivered : List (List UInt8)
  accesses : List Access

def subframe (rx : RxInfo) (s : Deaggregation) : Deaggregation where
  cursor := s.cursor.next
  round := s.round + 1
  delivered := if s.cursor.Copied rx s.round then s.delivered ++ [s.cursor.frame] else s.delivered
  accesses := s.accesses ++ s.cursor.accesses rx s.round

/-- `(uint32_t)amsdu_subfrm_hdr < mpdu_end`. -/
def Before (rx : RxInfo) (s : Deaggregation) : Prop := s.cursor.hdr < rx.len.toNat

instance (rx : RxInfo) : DecidablePred (Before rx) := fun s => inferInstanceAs (Decidable (s.cursor.hdr < _))

def start (payload : Cells) : Deaggregation := ⟨⟨payload, 0⟩, 0, [], []⟩

/-- With rounds enough, what the function has done when it returns. -/
def ethernetifInputAmsdu (rx : RxInfo) (fuel : Nat) (payload : Cells) : Option Deaggregation :=
  loop (Before rx) (subframe rx) fuel (start payload)

/-! ## Rounds -/

section
variable (rx : RxInfo) (payload : Cells)

def cursorAt (k : Nat) : Cursor := Cursor.next^[k] ⟨payload, 0⟩

/-- The loop gets to a subframe of this number. -/
def Meets (k : Nat) : Prop := ∀ j, j ≤ k → (cursorAt payload j).hdr < rx.len.toNat

/-- The frame the subframe of this number is delivered as, if it is. -/
def deliveredAt (k : Nat) : Option (List UInt8) :=
  if (cursorAt payload k).Copied rx k then some (cursorAt payload k).frame else none

theorem cursorAt_succ (k : Nat) : cursorAt payload (k + 1) = (cursorAt payload k).next :=
  Function.iterate_succ_apply' _ _ _

/-- The state at the head of the loop after so many rounds. -/
theorem rounds_eq (k : Nat) : (subframe rx)^[k] (start payload) =
    { cursor := cursorAt payload k
      round := k
      delivered := (List.range k).filterMap (deliveredAt rx payload)
      accesses := (List.range k).flatMap fun j => (cursorAt payload j).accesses rx j } := by
  induction k with
  | zero => rfl
  | succ k ih =>
    rw [Function.iterate_succ_apply', ih, subframe, List.range_succ, List.filterMap_append,
      List.flatMap_append, cursorAt_succ]
    have last : [k].filterMap (deliveredAt rx payload) =
        if (cursorAt payload k).Copied rx k then [(cursorAt payload k).frame] else [] := by
      unfold deliveredAt
      split
      next copied => simp [copied]
      next kept => simp [kept]
    rw [last]
    split
    · simp
    · simp

/-- The function returns when a subframe starts behind the payload, and has then
done what the subframes before it ask for. -/
theorem returned_iff {final : Deaggregation} : (∃ fuel, ethernetifInputAmsdu rx fuel payload = some final) ↔
    ∃ k, (∀ j, j < k → (cursorAt payload j).hdr < rx.len.toNat) ∧ rx.len.toNat ≤ (cursorAt payload k).hdr ∧
      final = (subframe rx)^[k] (start payload) := by
  have heads : ∀ k, Before rx ((subframe rx)^[k] (start payload)) ↔
      (cursorAt payload k).hdr < rx.len.toNat := by
    intro k
    rw [rounds_eq]
    exact Iff.rfl
  have same : (∃ fuel, loop (Before rx) (subframe rx) fuel (start payload) = some final) ↔
      ∃ k, Rounds (Before rx) (subframe rx) (start payload) k ∧ ¬Before rx ((subframe rx)^[k] (start payload)) ∧
        final = (subframe rx)^[k] (start payload) := returns_iff
  simp only [Rounds, heads, Nat.not_lt] at same
  exact same

end

/-! ## Aggregation

A-MSDUs as they are put together: subframes with their addresses, bodies and
padding, and the Ethernet frame each of them stands for. Of the code only the
conditions under which it gives that frame back are here.
-/

/-- The type of a SNAP body is given by its two bytes in wire order; a raw body
begins with neither header. -/
inductive Body where
  | rfc1042 (high low : UInt8) (data : List UInt8)
  | bridgeTunnel (high low : UInt8) (data : List UInt8)
  | raw (data : List UInt8) (plain : ¬rfc1042Header <+: data ∧ ¬bridgeTunnelHeader <+: data)

def Body.bytes : Body → List UInt8
  | .rfc1042 high low data => rfc1042Header ++ (high :: low :: data)
  | .bridgeTunnel high low data => bridgeTunnelHeader ++ (high :: low :: data)
  | .raw data _ => data

/-- What follows the addresses in an Ethernet frame: the type or the length, and the data. -/
def Body.framed : Body → List UInt8
  | .rfc1042 high low data => high :: low :: data
  | .bridgeTunnel high low data => high :: low :: data
  | .raw data _ => be16 data.length ++ data

structure Subframe where
  da : MacAddr
  sa : MacAddr
  body : Body
  padding : List UInt8

namespace Subframe

def bytes (x : Subframe) : List UInt8 :=
  x.da.bytes ++ x.sa.bytes ++ be16 x.body.bytes.length ++ x.body.bytes ++ x.padding

/-- What padding to a multiple of four takes. -/
def pad (x : Subframe) : Nat := (4 - (14 + x.body.bytes.length) % 4) % 4

/-- The Ethernet frame of a subframe. -/
def frame (x : Subframe) : List UInt8 := x.da.bytes ++ x.sa.bytes ++ x.body.framed

@[simp] theorem frame_length (x : Subframe) : x.frame.length = 12 + x.body.framed.length := by
  simp only [frame, List.length_append, x.da.size, x.sa.size]

@[simp] theorem bytes_length (x : Subframe) : x.bytes.length = 14 + x.body.bytes.length + x.padding.length := by
  simp only [bytes, List.length_append, x.da.size, x.sa.size, be16_length]

end Subframe

def encode (subframes : List Subframe) : List UInt8 := subframes.flatMap Subframe.bytes

@[simp] theorem encode_cons (x : Subframe) (rest : List Subframe) : encode (x :: rest) = x.bytes ++ encode rest := rfl

/-- Every subframe but the last is padded to a multiple of four, and the last at
most that far. -/
def Aggregated : List Subframe → Prop
  | [] => True
  | [x] => x.padding.length ≤ x.pad
  | x :: y :: rest => x.padding.length = x.pad ∧ Aggregated (y :: rest)

/-- The function returns, and has delivered the frames of the subframes whose
source is not the interface, in order, and nothing else. -/
def Inverts (rx : RxInfo) (payload : Cells) (subframes : List Subframe) : Prop :=
  ∃ fuel final, ethernetifInputAmsdu rx fuel payload = some final ∧
    final.delivered = (subframes.filter fun x => rx.vif ≠ some x.sa).map Subframe.frame

/-! ## When the code gives the frames back -/

/-- The body is one the code converts: a SNAP body, but not an RFC 1042 one whose
type reads as IPX on a little-endian machine. -/
def Body.Converted : Body → Prop
  | .rfc1042 high low _ => ¬(high = 0x37 ∧ low = 0x81)
  | .bridgeTunnel .. => True
  | .raw .. => False

/-- The subframe ends so early that the code looks for its SNAP header in the
next one, and what it finds there looks like one. Converting it then overwrites
the first four bytes of the next subframe's destination. -/
def Subframe.Spoils (x next : Subframe) : Prop :=
  let llc := x.body.bytes ++ x.padding ++ next.da.bytes
  x.body.bytes.length ≤ 2 ∧
    (llc.take 6 = rfc1042Header ∧ fromLe (llc.drop 6) ≠ rxEthProtIdIpx ∨ llc.take 6 = bridgeTunnelHeader)

instance (x next : Subframe) : Decidable (x.Spoils next) := inferInstanceAs (Decidable (_ ∧ (_ ∧ _ ∨ _)))

/-- A subframe that is for the network stack finds an interface and a buffer, has
a body the code converts, and still has its destination. -/
structure Recoverable (rx : RxInfo) (round : Nat) (before : Option Subframe) (x : Subframe) : Prop where
  interface : rx.vif ≠ none
  buffer : rx.pbuf round = true
  converted : x.body.Converted
  kept : ∀ w, before = some w → w.Spoils x → w.sa.bytes.drop 2 = x.da.bytes.take 4

/-- All the subframes that are for the network stack are recoverable. -/
def AllRecoverable (rx : RxInfo) : Nat → Option Subframe → List Subframe → Prop
  | _, _, [] => True
  | round, before, x :: rest =>
    (rx.vif ≠ some x.sa → Recoverable rx round before x) ∧ AllRecoverable rx (round + 1) (some x) rest

/-- No padded length is past sixteen bits. -/
def Short (subframes : List Subframe) : Prop := ∀ x ∈ subframes, x.body.bytes.length ≤ 65518

end BekenSdk.Amsdu
