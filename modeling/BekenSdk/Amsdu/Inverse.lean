import BekenSdk.Amsdu.Deaggregation
import BekenSdk.Amsdu.Bounds

/-! De-aggregation against aggregation. The loop meets the subframes one by one,
each at its own offset and unchanged but for the first bytes of a destination;
a converted one is delivered as its frame, and no other frame has the length of
the one it should be.
-/

set_option autoImplicit false

namespace BekenSdk.Amsdu
open BekenSdk.Base

/-! ## Lists of answers -/

section
variable {α β γ : Type} {f : α → Option γ} {g : β → Option γ} {xs : List α} {ys : List β}

theorem filterMap_length_le (answers : List.Forall₂ (fun a b => (f a).isSome → (g b).isSome) xs ys) :
    (xs.filterMap f).length ≤ (ys.filterMap g).length := by
  induction answers with
  | nil => exact Nat.le_refl _
  | @cons a b _ _ first _ ih =>
    cases left : f a with
    | none =>
      rw [List.filterMap_cons_none left]
      cases right : g b with
      | none => rwa [List.filterMap_cons_none right]
      | some v =>
        rw [List.filterMap_cons_some right]
        exact Nat.le_succ_of_le ih
    | some u =>
      obtain ⟨v, right⟩ := Option.isSome_iff_exists.mp (first (by rw [left]; rfl))
      rw [List.filterMap_cons_some left, List.filterMap_cons_some right]
      exact Nat.succ_le_succ ih

/-- When only questions that have an answer are answered, the answers are the
right ones exactly when each is: one left out would leave the list short. -/
theorem filterMap_eq_iff (answers : List.Forall₂ (fun a b => (f a).isSome → (g b).isSome) xs ys) :
    xs.filterMap f = ys.filterMap g ↔ xs.map f = ys.map g := by
  induction answers with
  | nil => simp
  | @cons a b _ _ first rest ih =>
    rw [List.map_cons, List.map_cons, List.cons.injEq, ← ih]
    cases left : f a with
    | none =>
      rw [List.filterMap_cons_none left]
      cases right : g b with
      | none => rw [List.filterMap_cons_none right, eq_self, true_and]
      | some v =>
        rw [List.filterMap_cons_some right]
        constructor
        · intro same
          have fewer := filterMap_length_le rest
          rw [same, List.length_cons] at fewer
          omega
        · rintro ⟨none, -⟩
          cases none
    | some u =>
      obtain ⟨v, right⟩ := Option.isSome_iff_exists.mp (first (by rw [left]; rfl))
      rw [List.filterMap_cons_some left, List.filterMap_cons_some right, right, List.cons.injEq, Option.some.injEq]

end

/-! ## A subframe in memory -/

section
variable {c : Cursor} {x : Subframe} {tail : List UInt8}

/-- The parts of the subframe, each at its offset. -/
theorem holds_parts (held : Holds c.payload c.hdr (x.bytes ++ tail)) :
    Holds c.payload c.hdr (x.da.bytes ++ x.sa.bytes) ∧
    Holds c.payload (c.hdr + 12) (be16 x.body.bytes.length) ∧
    Holds c.payload (c.hdr + 14) (x.body.bytes ++ x.padding ++ tail) := by
  have macs : (x.da.bytes ++ x.sa.bytes).length = 12 := by rw [List.length_append, x.da.size, x.sa.size]
  have grouped : x.bytes ++ tail = (x.da.bytes ++ x.sa.bytes) ++
      (be16 x.body.bytes.length ++ (x.body.bytes ++ x.padding ++ tail)) := by
    simp only [Subframe.bytes, List.append_assoc]
  rw [grouped] at held
  obtain ⟨addresses, rest⟩ := (holds_append _ _ _ _).mp held
  rw [macs] at rest
  obtain ⟨len, llc⟩ := (holds_append _ _ _ _).mp rest
  exact ⟨addresses, len, llc⟩

theorem duLen_eq (held : Holds c.payload c.hdr (x.bytes ++ tail)) (short : x.body.bytes.length < 2 ^ 16) :
    c.duLen = x.body.bytes.length := by
  obtain ⟨high, low, -⟩ := (holds_parts held).2.1
  rw [Cursor.duLen, high, low]
  exact fromBe_be16 short

/-- The bytes of the LLC header are in the body, its padding, or behind. -/
theorem readLlc_eq (start size : Nat) (held : Holds c.payload c.hdr (x.bytes ++ tail))
    (inside : start + size ≤ (x.body.bytes ++ x.padding ++ tail).length) :
    readBytes c.payload (c.hdr + 14 + start) size = ((x.body.bytes ++ x.padding ++ tail).drop start).take size := by
  have rest := (holds_parts held).2.2
  generalize x.body.bytes ++ x.padding ++ tail = llc at rest inside
  have front : (llc.take start).length = start := List.length_take_of_le (by omega)
  have middle : ((llc.drop start).take size).length = size := by
    rw [List.length_take, List.length_drop]
    omega
  rw [← List.take_append_drop start llc, holds_append, front] at rest
  rw [← List.take_append_drop size (llc.drop start), holds_append] at rest
  exact rest.2.1.read_of_length middle

/-- The source that is compared is the one that was sent. -/
theorem ethSa_eq (held : Holds c.payload c.hdr (x.bytes ++ tail)) : c.ethSa = x.sa.bytes := by
  have macs := (holds_parts held).1
  rw [holds_append, x.da.size] at macs
  have moved : c.ethSa = readBytes c.payload (c.hdr + 6) 6 := by
    rw [Cursor.ethSa, Cursor.rewritten_eq, Cursor.ethHdr]
    exact readBytes_moveUp _ _ _ (by decide) _
  rw [moved]
  exact macs.2.read_of_length x.sa.size

theorem copied_iff (rx : RxInfo) (round : Nat) (held : Holds c.payload c.hdr (x.bytes ++ tail)) :
    c.Copied rx round ↔ rx.vif ≠ none ∧ rx.vif ≠ some x.sa ∧ rx.pbuf round = true := by
  unfold Cursor.Copied
  rw [ethSa_eq held]
  cases rx.vif with
  | none => simp
  | some own =>
    have same : own = x.sa ↔ x.sa.bytes = own.bytes := by
      constructor
      · rintro rfl
        rfl
      · intro bytes
        cases own
        cases sa : x.sa
        simp_all
    simp [same]

/-- A frame is the two addresses and what is behind the headers. -/
theorem frame_eq (held : Holds c.payload c.hdr (x.bytes ++ tail)) (short : x.body.bytes.length ≤ 65518)
    (long : c.shift ≤ x.body.bytes.length + 2) :
    c.frame = x.da.bytes ++ x.sa.bytes ++ x.body.bytes.drop (c.shift - 2) := by
  have du := duLen_eq held (by omega)
  have total := c.ethLen_add_shift
  have two : c.shift = 8 ∨ c.shift = 2 := c.shift_cases.imp And.right And.right
  obtain ⟨macs, -, llc⟩ := holds_parts held
  have size : c.pbufLen = 12 + (x.body.bytes.length - (c.shift - 2)) := by
    rw [Cursor.pbufLen, Nat.mod_eq_of_lt (by omega)]
    omega
  have front : readBytes c.rewritten c.ethHdr 12 = x.da.bytes ++ x.sa.bytes := by
    rw [Cursor.rewritten_eq, Cursor.ethHdr]
    have moved : readBytes (moveUp c.hdr 12 c.shift c.payload) (c.hdr + c.shift) 12 = readBytes c.payload c.hdr 12 :=
      readBytes_moveUp c.hdr c.shift 0 (by decide) c.payload
    rw [moved]
    exact macs.read_of_length (by rw [List.length_append, x.da.size, x.sa.size])
  have back : readBytes c.rewritten (c.ethHdr + 12) (x.body.bytes.length - (c.shift - 2)) =
      x.body.bytes.drop (c.shift - 2) := by
    have above : readBytes c.rewritten (c.ethHdr + 12) (x.body.bytes.length - (c.shift - 2)) =
        readBytes c.payload (c.hdr + 14 + (c.shift - 2)) (x.body.bytes.length - (c.shift - 2)) := by
      have apart : c.ethHdr + 12 = c.hdr + 14 + (c.shift - 2) := by
        unfold Cursor.ethHdr
        omega
      rw [← apart, Cursor.rewritten_eq]
      apply readBytes_congr
      intro a low _
      unfold Cursor.ethHdr at low
      exact if_neg (by omega)
    rw [above, readLlc_eq _ _ held (by simp only [List.length_append]; omega), List.append_assoc,
      List.drop_append_of_le_length (by omega), List.take_append_of_le_length (by simp)]
    exact List.take_of_length_le (by simp)
  rw [Cursor.frame, size, readBytes_add, front, back]

/-! ## Kinds of body -/

theorem rfc1042_parts {high low : UInt8} {data : List UInt8} (body : x.body = .rfc1042 high low data)
    (held : Holds c.payload c.hdr (x.bytes ++ tail)) :
    c.IsRfc1042 ∧ c.protoId = high.toNat + 256 * low.toNat := by
  have llc : x.body.bytes ++ x.padding ++ tail = rfc1042Header ++ ([high, low] ++ (data ++ x.padding ++ tail)) := by
    simp [body, Body.bytes]
  have sizes : 8 ≤ (x.body.bytes ++ x.padding ++ tail).length := by
    rw [llc]
    simp [rfc1042Header]
  constructor
  · have header := readLlc_eq 0 6 held (by omega)
    rw [llc] at header
    exact header
  · have proto := readLlc_eq 6 2 held (by omega)
    rw [llc] at proto
    have two : readBytes c.payload (c.hdr + 20) 2 = [high, low] := proto
    rw [Cursor.protoId, two]
    simp [fromLe]

theorem bridgeTunnel_part {high low : UInt8} {data : List UInt8} (body : x.body = .bridgeTunnel high low data)
    (held : Holds c.payload c.hdr (x.bytes ++ tail)) : c.IsBridgeTunnel := by
  have llc : x.body.bytes ++ x.padding ++ tail = bridgeTunnelHeader ++ ([high,
    low] ++ (data ++ x.padding ++ tail)) := by
    simp [body, Body.bytes]
  have header := readLlc_eq 0 6 held (by rw [llc]; simp [bridgeTunnelHeader])
  rw [llc] at header
  exact header

theorem snap_of_converted (converted : x.body.Converted) (held : Holds c.payload c.hdr (x.bytes ++ tail)) :
    c.Snap := by
  cases body : x.body with
  | rfc1042 high low data =>
    obtain ⟨header, proto⟩ := rfc1042_parts body held
    refine Or.inl ⟨header, fun ipx => ?_⟩
    rw [body] at converted
    -- A type that reads as 0x8137 is 0x37 0x81 on the wire.
    have bounds := high.toNat_lt
    rw [proto, rxEthProtIdIpx] at ipx
    exact converted ⟨UInt8.toNat_inj.mp (by simp; omega), UInt8.toNat_inj.mp (by simp; omega)⟩
  | bridgeTunnel high low data => exact Or.inr (bridgeTunnel_part body held)
  | raw data plain =>
    rw [body] at converted
    exact False.elim converted

/-- A converted subframe is delivered as its frame. -/
theorem frame_of_converted (converted : x.body.Converted) (held : Holds c.payload c.hdr (x.bytes ++ tail))
    (short : x.body.bytes.length ≤ 65518) : c.frame = x.frame := by
  have snap := snap_of_converted converted held
  have eight : c.shift = 8 := if_pos snap
  have long : c.shift ≤ x.body.bytes.length + 2 := by
    cases body : x.body with
    | raw data plain =>
    rw [body] at converted
    exact False.elim converted
    | _ => simp [eight, Body.bytes, rfc1042Header, bridgeTunnelHeader]
  rw [frame_eq held short long, eight, Subframe.frame]
  cases body : x.body with
  | raw data plain =>
    rw [body] at converted
    exact False.elim converted
  | _ => rfl

/-- A subframe that is not converted is not delivered with the length of its frame. -/
theorem frame_length_ne (unconverted : ¬x.body.Converted) (held : Holds c.payload c.hdr (x.bytes ++ tail))
    (short : x.body.bytes.length ≤ 65518) : c.frame.length ≠ x.frame.length := by
  intro same
  have du := duLen_eq held (by omega)
  have total := c.ethLen_add_shift
  have sent : c.ethLen = x.frame.length := by
    rw [← same, Cursor.frame, readBytes_length, Cursor.pbufLen, Nat.mod_eq_of_lt]
    have two : c.shift = 8 ∨ c.shift = 2 := c.shift_cases.imp And.right And.right
    omega
  rw [Subframe.frame_length] at sent
  cases body : x.body with
  | bridgeTunnel high low data => exact unconverted (body ▸ trivial)
  | raw data plain =>
    -- The length field is missing, and with a SNAP header the LLC header as well.
    have two : c.shift = 8 ∨ c.shift = 2 := c.shift_cases.imp And.right And.right
    simp only [body, Body.bytes] at du
    simp only [body, Body.framed, List.length_append, be16_length] at sent
    omega
  | rfc1042 high low data =>
    have ipx : high = 0x37 ∧ low = 0x81 := by
      by_contra other
      exact unconverted (body ▸ other)
    obtain ⟨header, proto⟩ := rfc1042_parts body held
    have raw : ¬c.Snap := by
      rintro (⟨-, type⟩ | bridge)
      · exact type (by rw [proto, ipx.1, ipx.2]; rfl)
      · have clash : rfc1042Header = bridgeTunnelHeader := header.symm.trans bridge
        exact absurd clash (by decide)
    have two : c.shift = 2 := if_neg raw
    simp only [body, Body.bytes, rfc1042Header, List.length_append, List.length_cons, List.length_nil] at du
    simp only [body, Body.framed, List.length_cons] at sent
    omega

end

/-! ## The next subframe -/

/-- The subframe behind one that spoils it. -/
def Subframe.spoiled (w x : Subframe) : Subframe :=
  { x with da := ⟨w.sa.bytes.drop 2 ++ x.da.bytes.drop 4, by simp [w.sa.size, x.da.size]⟩ }

/-- The subframe as the loop meets it. -/
def met : Option Subframe → Subframe → Subframe
  | some w, x => if w.Spoils x then w.spoiled x else x
  | none, x => x

@[simp] theorem met_sa (before : Option Subframe) (x : Subframe) : (met before x).sa = x.sa := by
  unfold met
  split
  · split <;> rfl
  · rfl

@[simp] theorem met_body (before : Option Subframe) (x : Subframe) : (met before x).body = x.body := by
  unfold met
  split
  · split <;> rfl
  · rfl

@[simp] theorem met_padding (before : Option Subframe) (x : Subframe) : (met before x).padding = x.padding := by
  unfold met
  split
  · split <;> rfl
  · rfl

theorem met_length (before : Option Subframe) (x : Subframe) : (met before x).bytes.length = x.bytes.length := by
  simp

/-- The frame is the one it should be when the destination was not spoiled, or
was spoiled with what it had been. -/
theorem met_frame_iff (before : Option Subframe) (x : Subframe) : (met before x).frame = x.frame ↔
    ∀ w, before = some w → w.Spoils x → w.sa.bytes.drop 2 = x.da.bytes.take 4 := by
  cases before with
  | none => simp [met]
  | some w =>
    have spoilt : (w.spoiled x).frame = x.frame ↔ w.sa.bytes.drop 2 = x.da.bytes.take 4 := by
      simp only [Subframe.frame, Subframe.spoiled, List.append_left_inj]
      have four : (w.sa.bytes.drop 2).length = (x.da.bytes.take 4).length := by simp [w.sa.size, x.da.size]
      constructor
      · intro same
        have whole := same.trans (List.take_append_drop 4 x.da.bytes).symm
        exact (List.append_inj whole four).1
      · intro same
        rw [same, List.take_append_drop]
    unfold met
    simp only [Option.some.injEq, forall_eq']
    split
    next spoils => simp [spoilt, spoils]
    next kept => simp [kept]

section
variable {c : Cursor} {w x : Subframe} {tail : List UInt8}

theorem next_hdr_le (held : Holds c.payload c.hdr (w.bytes ++ tail)) (short : w.body.bytes.length ≤ 65518)
    (padded : w.padding.length ≤ w.pad) : c.hdr + w.bytes.length ≤ c.next.hdr := by
  have du := duLen_eq held (by omega)
  simp only [Cursor.next, Cursor.msduLenWithPadding, Subframe.bytes_length, Subframe.pad] at *
  omega

theorem next_hdr_eq (held : Holds c.payload c.hdr (w.bytes ++ tail)) (short : w.body.bytes.length ≤ 65518)
    (padded : w.padding.length = w.pad) : c.next.hdr = c.hdr + w.bytes.length := by
  have du := duLen_eq held (by omega)
  simp only [Cursor.next, Cursor.msduLenWithPadding, Subframe.bytes_length, Subframe.pad] at *
  omega

/-- The rewritten header reaches into the next subframe when the subframe spoils it. -/
theorem snap_iff_spoils (held : Holds c.payload c.hdr (w.bytes ++ (x.bytes ++ tail)))
    (padded : w.padding.length = w.pad) (tiny : w.body.bytes.length ≤ 2) : c.Snap ↔ w.Spoils x := by
  have two : (w.body.bytes ++ w.padding).length = 2 := by
    simp only [Subframe.pad, List.length_append] at *
    omega
  have llc : w.body.bytes ++ w.padding ++ (x.bytes ++ tail) = (w.body.bytes ++ w.padding ++ x.da.bytes) ++
      (x.sa.bytes ++ be16 x.body.bytes.length ++ x.body.bytes ++ x.padding ++ tail) := by
    simp only [Subframe.bytes, List.append_assoc]
  have eight : (w.body.bytes ++ w.padding ++ x.da.bytes).length = 8 := by
    rw [List.length_append, two, x.da.size]
  have header : readBytes c.payload (c.hdr + 14) 6 = (w.body.bytes ++ w.padding ++ x.da.bytes).take 6 := by
    have read := readLlc_eq 0 6 held (by rw [llc, List.length_append]; omega)
    rw [llc] at read
    rw [← List.take_append_of_le_length (by omega : 6 ≤ (w.body.bytes ++ w.padding ++ x.da.bytes).length)]
    exact read
  have proto : readBytes c.payload (c.hdr + 20) 2 = (w.body.bytes ++ w.padding ++ x.da.bytes).drop 6 := by
    have last : ((w.body.bytes ++ w.padding ++ x.da.bytes).drop 6).length = 2 := by rw [List.length_drop, eight]
    have read := readLlc_eq 6 2 held (by rw [llc, List.length_append]; omega)
    rw [llc, List.drop_append_of_le_length (by omega), List.take_append_of_le_length (Nat.le_of_eq last.symm),
      List.take_of_length_le (Nat.le_of_eq last)] at read
    exact read
  unfold Cursor.Snap Cursor.IsRfc1042 Cursor.IsBridgeTunnel Cursor.protoId Subframe.Spoils
  simp only [header, proto, tiny, true_and, ne_eq]

/-- One round on, the memory holds the rest, as the loop meets it. -/
theorem next_holds (held : Holds c.payload c.hdr (w.bytes ++ (x.bytes ++ tail)))
    (short : w.body.bytes.length ≤ 65518) (padded : w.padding.length = w.pad) :
    Holds c.next.payload c.next.hdr ((met (some w) x).bytes ++ tail) := by
  have size : w.bytes.length = 14 + w.body.bytes.length + w.pad := by rw [Subframe.bytes_length, padded]
  have behind : Holds c.payload (c.hdr + w.bytes.length) (x.bytes ++ tail) := ((holds_append _ _ _ _).mp held).2
  have two : c.shift = 8 ∨ c.shift = 2 := c.shift_cases.imp And.right And.right
  have moved : c.next.payload = moveUp c.hdr 12 c.shift c.payload := c.rewritten_eq
  rw [next_hdr_eq held short padded, moved]
  by_cases spoils : w.Spoils x
  · have tiny := spoils.1
    have snap : c.shift = 8 := if_pos ((snap_iff_spoils held padded tiny).mpr spoils)
    have sixteen : w.bytes.length = 16 := by
      unfold Subframe.pad at size
      omega
    have split : (met (some w) x).bytes ++ tail = w.sa.bytes.drop 2 ++ ((x.bytes ++ tail).drop 4) := by
      have met' : met (some w) x = w.spoiled x := if_pos spoils
      rw [met']
      simp only [Subframe.bytes, Subframe.spoiled, List.append_assoc]
      rw [List.drop_append_of_le_length (by rw [x.da.size]; decide)]
    have four : (w.sa.bytes.drop 2).length = 4 := by simp [w.sa.size]
    rw [split, holds_append, four, sixteen, snap]
    constructor
    · -- The last four bytes of the source have come up.
      have sa : Holds c.payload (c.hdr + 8) (w.sa.bytes.drop 2) := by
        have macs := (holds_parts held).1
        rw [holds_append, w.da.size, ← List.take_append_drop 2 w.sa.bytes, holds_append] at macs
        have cut : (w.sa.bytes.take 2).length = 2 := by simp [w.sa.size]
        rw [cut] at macs
        exact macs.2.2
      have read : readBytes (moveUp c.hdr 12 8 c.payload) (c.hdr + 16) 4 = readBytes c.payload (c.hdr + 8) 4 :=
        readBytes_moveUp c.hdr 8 8 (by decide) c.payload
      rw [sa.read_of_length four] at read
      rw [← read]
      exact holds_readBytes _ _ _
    · have rest : Holds c.payload (c.hdr + 16 + 4) ((x.bytes ++ tail).drop 4) := by
        have cut : ((x.bytes ++ tail).take 4).length = 4 := by
          rw [List.length_take, List.length_append, Subframe.bytes_length]
          omega
        rw [sixteen, ← List.take_append_drop 4 (x.bytes ++ tail), holds_append, cut] at behind
        exact behind.2
      apply rest.congr
      intro a low _
      exact if_neg (by omega)
  · have kept : met (some w) x = x := if_neg spoils
    rw [kept]
    apply behind.congr
    intro a low _
    refine if_neg fun inside => ?_
    -- Only a SNAP header that moves by eight could get past sixteen bytes.
    have pad : 14 + w.body.bytes.length + w.pad < 20 := by omega
    have tiny : w.body.bytes.length ≤ 2 := by
      unfold Subframe.pad at pad
      omega
    have raw : c.shift = 2 := if_neg fun snap => spoils ((snap_iff_spoils held padded tiny).mp snap)
    unfold Subframe.pad at size
    omega

end

/-! ## The walk over an A-MSDU -/

/-- The loop has come to the subframes that are left. -/
def Reached (rx : RxInfo) (payload : Cells) (k : Nat) (before : Option Subframe) : List Subframe → Prop
  | [] => rx.len.toNat ≤ (cursorAt payload k).hdr
  | x :: rest =>
    Holds (cursorAt payload k).payload (cursorAt payload k).hdr ((met before x).bytes ++ encode rest) ∧
    (cursorAt payload k).hdr + (encode (x :: rest)).length = rx.len.toNat ∧ Aggregated (x :: rest) ∧
    Short (x :: rest)

/-- The frame a subframe should be delivered as, if it is for the network stack. -/
def wanted (rx : RxInfo) (x : Subframe) : Option (List UInt8) :=
  if rx.vif ≠ some x.sa then some x.frame else none

section
variable {rx : RxInfo} {payload : Cells} {k : Nat} {before : Option Subframe} {x : Subframe} {rest : List Subframe}

/-- What spoils the next subframe was not spoiled itself. -/
theorem met_met (before : Option Subframe) (w x : Subframe) : met (some (met before w)) x = met (some w) x := by
  have same : (met before w).Spoils x ↔ w.Spoils x := by
    unfold Subframe.Spoils
    simp only [met_body, met_padding]
  change (if (met before w).Spoils x then (met before w).spoiled x else x) = if w.Spoils x then w.spoiled x else x
  simp only [same, Subframe.spoiled, met_sa]

theorem Reached.next (reached : Reached rx payload k before (x :: rest)) :
    Reached rx payload (k + 1) (some x) rest := by
  obtain ⟨held, ends, aggregated, short⟩ := reached
  have fits : (met before x).body.bytes.length ≤ 65518 := by
    rw [met_body]
    exact short x List.mem_cons_self
  rw [encode_cons, List.length_append, ← met_length before x] at ends
  cases rest with
  | nil =>
    have last : x.padding.length ≤ x.pad := aggregated
    have padded : (met before x).padding.length ≤ (met before x).pad := by
      simpa only [met_padding, Subframe.pad, met_body] using last
    have passed := next_hdr_le held fits padded
    rw [encode, List.flatMap_nil, List.length_nil, Nat.add_zero] at ends
    rw [Reached, cursorAt_succ, ← ends]
    exact passed
  | cons y others =>
    have padded : (met before x).padding.length = (met before x).pad := by
      simpa only [met_padding, Subframe.pad, met_body] using aggregated.1
    refine ⟨?_, ?_, aggregated.2, fun z member => short z (List.mem_cons_of_mem _ member)⟩
    · rw [cursorAt_succ, ← met_met before]
      exact next_holds held fits padded
    · rw [cursorAt_succ, next_hdr_eq held fits padded, Nat.add_assoc]
      exact ends

theorem Reached.before_end (reached : Reached rx payload k before (x :: rest)) :
    (cursorAt payload k).hdr < rx.len.toNat := by
  have ends := reached.2.1
  rw [encode_cons, List.length_append, Subframe.bytes_length] at ends
  omega

/-- Nothing is delivered for a subframe that is not for the network stack. -/
theorem Reached.wanted_of_delivered (reached : Reached rx payload k before (x :: rest))
    (delivered : (deliveredAt rx payload k).isSome) : (wanted rx x).isSome := by
  have copied : (cursorAt payload k).Copied rx k := by
    by_contra kept
    simp [deliveredAt, kept] at delivered
  have source := ((copied_iff rx k reached.1).mp copied).2.1
  rw [met_sa] at source
  simp [wanted, source]

/-- A subframe is delivered as it should be when it is recoverable or not wanted. -/
theorem Reached.delivered_iff (reached : Reached rx payload k before (x :: rest)) :
    deliveredAt rx payload k = wanted rx x ↔ (rx.vif ≠ some x.sa → Recoverable rx k before x) := by
  obtain ⟨held, -, -, short⟩ := reached
  have fits : (met before x).body.bytes.length ≤ 65518 := by
    rw [met_body]
    exact short x List.mem_cons_self
  have copied := copied_iff rx k held
  rw [met_sa] at copied
  unfold deliveredAt wanted
  by_cases own : rx.vif = some x.sa
  · simp [own, copied]
  · rw [if_pos own]
    constructor
    · intro same _
      by_cases taken : (cursorAt payload k).Copied rx k
      · obtain ⟨interface, -, buffer⟩ := copied.mp taken
        rw [if_pos taken] at same
        have frame := Option.some.inj same
        have converted : (met before x).body.Converted := by
          by_contra unconverted
          apply frame_length_ne unconverted held fits
          rw [frame, Subframe.frame_length, Subframe.frame_length, met_body]
        have kept := (frame_of_converted converted held fits).symm.trans frame
        exact ⟨interface, buffer, by rwa [met_body] at converted, (met_frame_iff before x).mp kept⟩
      · rw [if_neg taken] at same
        cases same
    · intro recoverable
      obtain ⟨interface, buffer, converted, kept⟩ := recoverable own
      rw [if_pos (copied.mpr ⟨interface, own, buffer⟩)]
      have framed := frame_of_converted (by rwa [met_body]) held fits
      rw [framed, (met_frame_iff before x).mpr kept]

/-- The loop goes through all the subframes and ends behind the last. -/
theorem Reached.through {xs : List Subframe} (reached : Reached rx payload k before xs) :
    (∀ j, j < xs.length → (cursorAt payload (k + j)).hdr < rx.len.toNat) ∧
      rx.len.toNat ≤ (cursorAt payload (k + xs.length)).hdr := by
  induction xs generalizing k before with
  | nil => exact ⟨fun j none => absurd none (Nat.not_lt_zero j), reached⟩
  | cons x rest ih =>
    obtain ⟨inside, ended⟩ := ih reached.next
    have shift : ∀ j, k + (j + 1) = k + 1 + j := by
      intro j
      omega
    rw [List.length_cons, shift]
    refine ⟨fun j early => ?_, ended⟩
    cases j with
    | zero => exact reached.before_end
    | succ j =>
      rw [shift]
      exact inside j (Nat.lt_of_succ_lt_succ early)

/-- Frame by frame, what is delivered is what is wanted when all is recoverable. -/
theorem Reached.all_delivered_iff {xs : List Subframe} (reached : Reached rx payload k before xs) :
    (List.range' k xs.length).map (deliveredAt rx payload) = xs.map (wanted rx) ↔ AllRecoverable rx k before xs := by
  induction xs generalizing k before with
  | nil => simp [AllRecoverable]
  | cons x rest ih =>
    rw [List.length_cons, List.range'_succ, List.map_cons, List.map_cons, List.cons.injEq, ih reached.next,
      reached.delivered_iff, AllRecoverable]

theorem Reached.answers {xs : List Subframe} (reached : Reached rx payload k before xs) :
    List.Forall₂ (fun j x => (deliveredAt rx payload j).isSome → (wanted rx x).isSome)
      (List.range' k xs.length) xs := by
  induction xs generalizing k before with
  | nil => exact .nil
  | cons x rest ih =>
    rw [List.length_cons, List.range'_succ]
    exact .cons reached.wanted_of_delivered (ih reached.next)

/-- An A-MSDU at the start of the payload is reached. -/
theorem reached_start {xs : List Subframe} (held : Holds payload 0 (encode xs))
    (len : rx.len.toNat = (encode xs).length) (aggregated : Aggregated xs) (short : Short xs) :
    Reached rx payload 0 none xs := by
  cases xs with
  | nil => exact Nat.le_of_eq len
  | cons x rest => exact ⟨held, by rw [len]; exact Nat.zero_add _, aggregated, short⟩

theorem filter_wanted (rx : RxInfo) (xs : List Subframe) :
    (xs.filter fun x => rx.vif ≠ some x.sa).map Subframe.frame = xs.filterMap (wanted rx) := by
  induction xs with
  | nil => rfl
  | cons x rest ih =>
    by_cases own : rx.vif = some x.sa
    · have skipped : wanted rx x = none := by simp [wanted, own]
      rw [List.filterMap_cons_none skipped, ← ih]
      simp [own]
    · have framed : wanted rx x = some x.frame := by simp [wanted, own]
      rw [List.filterMap_cons_some framed, ← ih]
      simp [own]

/-- The function returns after the last subframe, with what was delivered for each. -/
theorem Reached.delivers_wanted {xs : List Subframe} (reached : Reached rx payload 0 none xs) :
    Inverts rx payload xs ↔ (List.range' 0 xs.length).filterMap (deliveredAt rx payload) =
      xs.filterMap (wanted rx) := by
  have ends : (cursorAt payload xs.length).hdr ≥ rx.len.toNat ∧
      ∀ j, j < xs.length → (cursorAt payload j).hdr < rx.len.toNat := by
    obtain ⟨inside, ended⟩ := reached.through
    simp only [Nat.zero_add] at inside ended
    exact ⟨ended, inside⟩
  unfold Inverts
  rw [filter_wanted, ← List.range_eq_range']
  constructor
  · rintro ⟨fuel, final, returned, same⟩
    obtain ⟨k, on, ended, rfl⟩ := (returned_iff rx payload).mp ⟨fuel, returned⟩
    have last : k = xs.length := by
      apply Nat.le_antisymm
      · exact Nat.le_of_not_lt fun later => absurd (on _ later) (Nat.not_lt.mpr ends.1)
      · exact Nat.le_of_not_lt fun early => absurd (ends.2 _ early) (Nat.not_lt.mpr ended)
    rwa [rounds_eq, last] at same
  · intro same
    obtain ⟨fuel, returned⟩ := (returned_iff rx payload).mpr ⟨xs.length, ends.2, ends.1, rfl⟩
    refine ⟨fuel, _, returned, ?_⟩
    rw [rounds_eq]
    exact same

end

/-- De-aggregation inverts aggregation when every subframe for the network stack
is recoverable, and, as long as no padded length is past sixteen bits, only then. -/
theorem inverts_iff {rx : RxInfo} {payload : Cells} {subframes : List Subframe}
    (held : Holds payload 0 (encode subframes)) (len : rx.len.toNat = (encode subframes).length)
    (aggregated : Aggregated subframes) :
    (Short subframes ∧ AllRecoverable rx 0 none subframes → Inverts rx payload subframes) ∧
      (Short subframes → Inverts rx payload subframes → AllRecoverable rx 0 none subframes) := by
  have exact' : Short subframes → (Inverts rx payload subframes ↔ AllRecoverable rx 0 none subframes) := by
    intro short
    have reached := reached_start held len aggregated short
    rw [reached.delivers_wanted, filterMap_eq_iff reached.answers, reached.all_delivered_iff]
  constructor
  · rintro ⟨short, recoverable⟩
    exact (exact' short).mpr recoverable
  · intro short inverts
    exact (exact' short).mp inverts

/-! ## Two A-MSDUs -/

def stationRx (subframes : List Subframe) : RxInfo :=
  ⟨UInt16.ofNat (encode subframes).length, some stationMac, fun _ => true⟩

/-- An IPv4 packet for the station, padded, and a frame it sent itself. -/
def ipv4ThenOwn : List Subframe :=
  [⟨stationMac, ⟨[0x02, 0, 0, 0, 0, 0x01], rfl⟩, .rfc1042 0x08 0x00 [0x45, 0x00, 0x00], [0, 0, 0]⟩,
    ⟨⟨[0xff, 0xff, 0xff, 0xff, 0xff, 0xff], rfl⟩, stationMac, .raw [0x42, 0x42, 0x03] (by decide), []⟩]

theorem ipv4_then_own_inverts : (ipv4ThenOwn.filter fun x => some stationMac ≠ some x.sa).length = 1 ∧
    Inverts (stationRx ipv4ThenOwn) (fun a => (encode ipv4ThenOwn).getD a 0) ipv4ThenOwn := by
  have recoverable : AllRecoverable (stationRx ipv4ThenOwn) 0 none ipv4ThenOwn := by
    refine ⟨fun _ => ⟨nofun, rfl, ?_, nofun⟩, fun other => absurd rfl other, trivial⟩
    rintro ⟨high, -⟩
    exact absurd high (by decide)
  have short : Short ipv4ThenOwn := by
    unfold Short
    decide
  have aggregated : Aggregated ipv4ThenOwn := ⟨by decide, by unfold Aggregated; decide⟩
  exact ⟨by decide, (inverts_iff (holds_getD _ 0) (by decide) aggregated).1 ⟨short, recoverable⟩⟩

/-- A spanning-tree frame, whose body is raw. -/
def spanningTree : List Subframe :=
  [⟨⟨[0x01, 0x80, 0xc2, 0, 0, 0], rfl⟩, ⟨[0x02, 0, 0, 0, 0, 0x01], rfl⟩,
    .raw [0x42, 0x42, 0x03, 0, 0, 0, 0, 0] (by decide), []⟩]

/-- It is delivered without its length. -/
theorem raw_not_inverted : ¬∀ (rx : RxInfo) (payload : Cells) (subframes : List Subframe),
    Holds payload 0 (encode subframes) → rx.len.toNat = (encode subframes).length → Aggregated subframes →
    Inverts rx payload subframes := by
  intro claim
  let payload : Cells := fun a => (encode spanningTree).getD a 0
  obtain ⟨fuel, final, returned, delivered⟩ := claim (stationRx spanningTree) payload spanningTree
    (holds_getD _ 0) (by decide) (by unfold spanningTree Aggregated; decide)
  have once : Rounds (Before (stationRx spanningTree)) (subframe (stationRx spanningTree)) (start payload) 1 := by
    intro j early
    obtain rfl := Nat.lt_one_iff.mp early
    decide
  have ended : ¬Before (stationRx spanningTree) ((subframe (stationRx spanningTree))^[1] (start payload)) := by
    decide
  rw [returned_unique returned (loop_of_rounds once ended)] at delivered
  exact absurd delivered (by decide)

end BekenSdk.Amsdu
