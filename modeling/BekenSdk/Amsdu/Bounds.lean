import BekenSdk.Amsdu.Deaggregation

/-! Where the de-aggregation loop reads and writes, and whether it ends. A
subframe length just below 2^16 makes the padded length wrap to zero: the loop
stays at the subframe, whose header has moved up, and after nine such rounds the
header has moved as far as it can.
-/

set_option autoImplicit false

namespace BekenSdk.Amsdu
open BekenSdk.Base

/-! ## The property and its condition -/

/-- The function returns, reads and rewrites only bytes of the payload, and fills
only what it allocated. -/
def Safe (rx : RxInfo) (payload : Cells) : Prop :=
  ∃ fuel final, ethernetifInputAmsdu rx fuel payload = some final ∧
    ∀ access ∈ final.accesses, access.Inside rx.len.toNat

/-- The subframe is there as far as it is looked at: both headers, the protocol
behind an RFC 1042 header, and the body if it is copied. -/
structure Cursor.Whole (rx : RxInfo) (round : Nat) (c : Cursor) : Prop where
  headers : c.hdr + 20 ≤ rx.len.toNat
  protocol : c.IsRfc1042 → c.hdr + 22 ≤ rx.len.toNat
  body : c.Copied rx round → c.hdr + 14 + c.duLen ≤ rx.len.toNat

/-! ## One round -/

namespace Cursor
variable {c : Cursor}

theorem shift_cases (c : Cursor) : c.Snap ∧ c.shift = 8 ∨ ¬c.Snap ∧ c.shift = 2 := by
  by_cases snap : c.Snap
  · exact Or.inl ⟨snap, if_pos snap⟩
  · exact Or.inr ⟨snap, if_neg snap⟩

theorem ethLen_add_shift (c : Cursor) : c.ethLen + c.shift = c.duLen + 14 := by
  unfold ethLen shift
  split <;> omega

/-- The twelve bytes of the two addresses move up together. -/
theorem rewritten_eq (c : Cursor) : c.rewritten = moveUp c.hdr 12 c.shift c.payload := by
  funext a
  have two : c.shift = 8 ∨ c.shift = 2 := c.shift_cases.imp And.right And.right
  unfold rewritten macAddrCpy moveUp ethHdr
  by_cases da : c.hdr + c.shift ≤ a ∧ a < c.hdr + c.shift + 6
  · have below : ¬(c.hdr + c.shift + 6 ≤ c.hdr + (a - (c.hdr + c.shift)) ∧
        c.hdr + (a - (c.hdr + c.shift)) < c.hdr + c.shift + 6 + 6) := by omega
    have from' : c.hdr + (a - (c.hdr + c.shift)) = a - c.shift := by omega
    rw [if_pos da, if_neg below, if_pos (by omega), from']
  · by_cases sa : c.hdr + c.shift + 6 ≤ a ∧ a < c.hdr + c.shift + 6 + 6
    · have from' : c.hdr + 6 + (a - (c.hdr + c.shift + 6)) = a - c.shift := by omega
      rw [if_neg da, if_pos sa, if_pos (by omega), from']
    · rw [if_neg da, if_neg sa, if_neg (by omega)]

theorem hdr_le_next (c : Cursor) : c.hdr ≤ c.next.hdr := Nat.le_add_right _ _

/-- In bounds are the subframes that are whole. -/
theorem inside_iff (rx : RxInfo) (round : Nat) (c : Cursor) :
    (∀ access ∈ c.accesses rx round, access.Inside rx.len.toNat) ↔ c.Whole rx round := by
  have bound := rx.len.toNat_lt
  have total := c.ethLen_add_shift
  have two : c.shift = 8 ∨ c.shift = 2 := c.shift_cases.imp And.right And.right
  constructor
  · intro inside
    have read : ∀ {start size : Nat}, Access.read start size ∈ c.accesses rx round → start + size ≤ rx.len.toNat :=
      fun member => inside _ member
    refine ⟨?_, fun matched => ?_, fun copied => ?_⟩
    · have llc : Access.read (c.hdr + 14) 6 ∈ c.accesses rx round := by simp [accesses]
      have ended := read llc
      omega
    · have proto : Access.read (c.hdr + 20) 2 ∈ c.accesses rx round := by simp [accesses, matched]
      have ended := read proto
      omega
    · have body : Access.read c.ethHdr c.ethLen ∈ c.accesses rx round := by simp [accesses, copied]
      have ended := read body
      unfold ethHdr at ended
      omega
  · intro whole access member
    have headers := whole.headers
    have mac : ∀ start, start ≤ c.hdr + 14 → start + 6 ≤ rx.len.toNat := fun start low => by omega
    simp only [accesses, List.mem_append] at member
    rcases member with ((((member | member) | member) | member) | member) | member
    · simp only [List.mem_cons, List.not_mem_nil, or_false] at member
      rcases member with rfl | rfl
      · simp only [Access.Inside]
        omega
      · exact mac _ (Nat.le_refl _)
    · split at member
      next matched =>
        obtain rfl := List.mem_singleton.mp member
        exact whole.protocol matched
      · cases member
    · split at member
      · cases member
      · obtain rfl := List.mem_singleton.mp member
        exact mac _ (Nat.le_refl _)
    · simp only [List.mem_cons, List.not_mem_nil, or_false, ethHdr] at member
      rcases member with rfl | rfl | rfl | rfl
      · exact mac _ (by omega)
      · exact mac _ (by omega)
      · exact mac _ (by omega)
      · exact mac _ (by omega)
    · split at member
      · obtain rfl := List.mem_singleton.mp member
        exact mac _ (by unfold ethHdr; omega)
      · cases member
    · split at member
      next copied =>
        have body := whole.body copied
        simp only [List.mem_cons, List.not_mem_nil, or_false] at member
        rcases member with rfl | rfl
        · simp only [Access.Inside, ethHdr]
          omega
        · simp only [Access.Inside, pbufLen]
          rw [Nat.mod_eq_of_lt (by omega)]
      · cases member

/-! ## Rounds that do not get on -/

/-- The loop stays at the subframe. -/
def Stays (c : Cursor) : Prop := c.msduLenWithPadding = 0

theorem next_of_stays (stays : c.Stays) : c.next = ⟨moveUp c.hdr 12 c.shift c.payload, c.hdr⟩ := by
  rw [next, rewritten_eq, stays, Nat.add_zero]

/-- Converting a raw subframe does not reach its LLC header. -/
theorem raw_next (raw : ¬c.Snap) (stays : c.Stays) : ¬c.next.Snap := by
  have two : c.shift = 2 := if_neg raw
  rw [next_of_stays stays, two]
  have kept : ∀ start size, c.hdr + 14 ≤ start →
      readBytes (moveUp c.hdr 12 2 c.payload) start size = readBytes c.payload start size := by
    intro start size above
    apply readBytes_congr
    intro a low _
    exact if_neg (by omega)
  simpa only [Snap, IsRfc1042, protoId, IsBridgeTunnel, kept _ _ (Nat.le_refl _),
    kept (c.hdr + 20) 2 (by omega)] using raw

end Cursor

section
variable {rx : RxInfo} {payload : Cells}

/-- While the loop stays and the kind of the subframe is the same, its header moves up. -/
theorem cursorAt_stays {k count step : Nat} (stays : ∀ j, j < count → (cursorAt payload (k + j)).Stays)
    (kind : ∀ j, j < count → (cursorAt payload (k + j)).shift = step) (j : Nat) (few : j ≤ count) :
    cursorAt payload (k + j) =
      ⟨(moveUp (cursorAt payload k).hdr 12 step)^[j] (cursorAt payload k).payload, (cursorAt payload k).hdr⟩ := by
  induction j with
  | zero => rfl
  | succ j ih =>
    have before := ih (by omega)
    rw [← Nat.add_assoc, cursorAt_succ, Cursor.next_of_stays (stays j (by omega)), kind j (by omega), before,
      Function.iterate_succ_apply']

theorem cursorAt_fixed {k count step : Nat} (stays : ∀ j, j ≤ count → (cursorAt payload (k + j)).Stays)
    (kind : ∀ j, j ≤ count → (cursorAt payload (k + j)).shift = step) (positive : 0 < step)
    (enough : step + 12 ≤ step * (count + 1)) :
    (cursorAt payload (k + count)).next = cursorAt payload (k + count) := by
  have here := cursorAt_stays (fun j early => stays j (Nat.le_of_lt early))
    (fun j early => kind j (Nat.le_of_lt early)) count (Nat.le_refl _)
  rw [Cursor.next_of_stays (stays count (Nat.le_refl _)), kind count (Nat.le_refl _), here]
  simp only [moveUp_settles positive enough]

/-- A loop that has stayed for nine rounds stays for ever: a SNAP header has
settled after two of them, and a subframe that is raw once is raw from then on
and has settled six rounds later. -/
theorem cursorAt_stuck {k : Nat} (stays : ∀ i, i ≤ 8 → (cursorAt payload (k + i)).Stays) :
    ∃ i, i ≤ 8 ∧ (cursorAt payload (k + i)).next = cursorAt payload (k + i) := by
  have raws : ∀ i, i ≤ 2 → ¬(cursorAt payload (k + i)).Snap →
      (cursorAt payload (k + i + 6)).next = cursorAt payload (k + i + 6) := by
    intro i low raw
    have later : ∀ j, j ≤ 6 → ¬(cursorAt payload (k + i + j)).Snap := by
      intro j few
      induction j with
      | zero => exact raw
      | succ j ih =>
        rw [← Nat.add_assoc, cursorAt_succ]
        apply Cursor.raw_next (ih (by omega))
        rw [Nat.add_assoc]
        exact stays _ (by omega)
    refine cursorAt_fixed (fun j few => ?_) (fun j few => if_neg (later j few)) (by decide) (by decide)
    rw [Nat.add_assoc]
    exact stays _ (by omega)
  by_cases snaps : ∀ i, i ≤ 2 → (cursorAt payload (k + i)).Snap
  · refine ⟨2, by decide, ?_⟩
    exact cursorAt_fixed (fun j few => stays j (by omega)) (fun j few => if_pos (snaps j few)) (by decide) (by decide)
  · have found : ∃ i, i ≤ 2 ∧ ¬(cursorAt payload (k + i)).Snap := by
      simpa only [not_forall, exists_prop] using snaps
    obtain ⟨i, low, raw⟩ := found
    exact ⟨i + 6, by omega, raws i low raw⟩

theorem cursorAt_of_fixed {k : Nat} (fixed : (cursorAt payload k).next = cursorAt payload k) (j : Nat) :
    cursorAt payload (j + k) = cursorAt payload k := by
  unfold cursorAt at fixed ⊢
  rw [Function.iterate_add_apply]
  exact Function.iterate_fixed fixed j

theorem hdr_mono (payload : Cells) {j k : Nat} (earlier : j ≤ k) :
    (cursorAt payload j).hdr ≤ (cursorAt payload k).hdr := by
  induction earlier with
  | refl => exact Nat.le_refl _
  | step _ ih =>
    rw [cursorAt_succ]
    exact Nat.le_trans ih (Cursor.hdr_le_next _)

/-! ## Runs -/

/-- The loop ends if and only if it never stays nine times in a row. -/
theorem ends_iff : (∃ k, rx.len.toNat ≤ (cursorAt payload k).hdr) ↔
    ∀ k, Meets rx payload (k + 8) → ∃ i, i ≤ 8 ∧ ¬(cursorAt payload (k + i)).Stays := by
  constructor
  · rintro ⟨last, ended⟩ k meets
    by_contra all
    have stays : ∀ i, i ≤ 8 → (cursorAt payload (k + i)).Stays := by
      intro i few
      by_contra on
      exact all ⟨i, few, on⟩
    obtain ⟨i, few, fixed⟩ := cursorAt_stuck stays
    -- From the fixed round on the cursor is in the payload for good.
    have inside := meets (k + i) (by omega)
    have same := cursorAt_of_fixed fixed last
    have reached := hdr_mono payload (Nat.le_add_right last (k + i))
    rw [same] at reached
    omega
  · intro moves
    have exit := @exists_exit _ (Before rx) (subframe rx) (start payload) (fun s => s.cursor.hdr) rx.len.toNat
      (fun s before => before)
    simp only [rounds_eq, Before, Nat.not_lt] at exit
    apply exit
    intro k on
    obtain ⟨i, _, moved⟩ := moves k fun j _ => on j
    refine ⟨k + i + 1, ?_⟩
    have before := hdr_mono payload (Nat.le_add_right k i)
    have further : (cursorAt payload (k + i)).hdr < (cursorAt payload (k + i + 1)).hdr := by
      rw [cursorAt_succ]
      exact Nat.lt_add_of_pos_right (Nat.pos_of_ne_zero moved)
    omega

theorem safe_iff_rounds : Safe rx payload ↔ ∃ k, (∀ j, j < k → (cursorAt payload j).hdr < rx.len.toNat) ∧
    rx.len.toNat ≤ (cursorAt payload k).hdr ∧ ∀ j, j < k → (cursorAt payload j).Whole rx j := by
  have done : ∀ k, (∀ access ∈ ((subframe rx)^[k] (start payload)).accesses, access.Inside rx.len.toNat) ↔
      ∀ j, j < k → (cursorAt payload j).Whole rx j := by
    intro k
    rw [rounds_eq]
    simp only [List.mem_flatMap, List.mem_range, forall_exists_index, and_imp]
    constructor
    · intro inside j early
      exact (Cursor.inside_iff rx j _).mp fun access member => inside access j early member
    · intro whole access j early member
      exact (Cursor.inside_iff rx j _).mpr (whole j early) access member
  constructor
  · rintro ⟨fuel, final, returned, inside⟩
    obtain ⟨k, on, ended, rfl⟩ := (returned_iff rx payload).mp ⟨fuel, returned⟩
    exact ⟨k, on, ended, (done k).mp inside⟩
  · rintro ⟨k, on, ended, whole⟩
    obtain ⟨fuel, returned⟩ := (returned_iff rx payload).mpr ⟨k, on, ended, rfl⟩
    exact ⟨fuel, _, returned, (done k).mpr whole⟩

end

/-- The de-aggregation of a payload is safe if and only if every subframe the
loop meets is whole and it never stays at one for nine rounds. -/
theorem safe_iff (rx : RxInfo) (payload : Cells) : Safe rx payload ↔
    (∀ k, Meets rx payload k → (cursorAt payload k).Whole rx k) ∧
      ∀ k, Meets rx payload (k + 8) → ∃ i, i ≤ 8 ∧ (cursorAt payload (k + i)).msduLenWithPadding ≠ 0 := by
  rw [safe_iff_rounds]
  constructor
  · rintro ⟨last, on, ended, whole⟩
    refine ⟨fun k meets => whole k ?_, ends_iff.mp ⟨last, ended⟩⟩
    by_contra late
    exact absurd (meets last (Nat.le_of_not_lt late)) (Nat.not_lt.mpr ended)
  · rintro ⟨whole, moves⟩
    obtain ⟨some, ended⟩ := ends_iff.mpr moves
    have found : ∃ k, rx.len.toNat ≤ (cursorAt payload k).hdr := ⟨some, ended⟩
    have on : ∀ j, j < Nat.find found → (cursorAt payload j).hdr < rx.len.toNat :=
      fun j early => Nat.not_le.mp (Nat.find_min found early)
    refine ⟨Nat.find found, on, Nat.find_spec found, fun j early => whole j fun i low => on i ?_⟩
    exact Nat.lt_of_le_of_lt low early

/-! ## Two payloads -/

/-- Thirty-four bytes whose only subframe says that its body has 1500. -/
def overlong : Cells := fun a =>
  ([0x02, 0, 0, 0, 0, 0x01, 0x02, 0, 0, 0, 0, 0x02, 0x05, 0xdc] ++ rfc1042Header ++ [0x08, 0x00]).getD a 0

def stationMac : MacAddr := ⟨[0x02, 0, 0, 0, 0, 0x03], rfl⟩

def overlongRx : RxInfo := ⟨34, some stationMac, fun _ => true⟩

/-- A header that is one word over and over, a length of 0xffef in the end. -/
def periodic : Cells := fun a => if a < 14 then if a % 2 = 0 then 0xff else 0xef else 0

theorem periodic_fixed : (cursorAt periodic 0).next = cursorAt periodic 0 := by
  have stays : (⟨periodic, 0⟩ : Cursor).msduLenWithPadding = 0 := by decide
  have raw : (⟨periodic, 0⟩ : Cursor).shift = 2 := by decide
  refine (Cursor.next_of_stays (c := ⟨periodic, 0⟩) stays).trans (congrArg (Cursor.mk · 0) ?_)
  rw [raw]
  funext a
  simp only [moveUp, periodic]
  split
  next inside =>
    have parity : (a - 2) % 2 = a % 2 := by omega
    have here : a < 14 := by omega
    have there : a - 2 < 14 := by omega
    simp only [here, there, if_true, parity]
  next => rfl

/-- A subframe longer than its payload is copied as long as it says, and a header
that moves up onto itself keeps the loop for ever. -/
theorem amsdu_unsafe : ¬Safe overlongRx overlong ∧
    ∀ fuel, ethernetifInputAmsdu ⟨20, none, fun _ => true⟩ fuel periodic = none := by
  constructor
  · rintro ⟨fuel, final, returned, inside⟩
    have once : Rounds (Before overlongRx) (subframe overlongRx) (start overlong) 1 := by
      intro j early
      obtain rfl := Nat.lt_one_iff.mp early
      decide
    have ended : ¬Before overlongRx ((subframe overlongRx)^[1] (start overlong)) := by decide
    have same := returned_unique returned (loop_of_rounds once ended)
    have copied : Access.read 8 1506 ∈ final.accesses := by
      rw [same]
      decide
    exact absurd (inside _ copied) (by decide)
  · intro fuel
    cases returned : ethernetifInputAmsdu ⟨20, none, fun _ => true⟩ fuel periodic with
    | none => rfl
    | some final =>
      obtain ⟨k, -, ended, -⟩ := (returned_iff _ _).mp ⟨fuel, returned⟩
      have same : cursorAt periodic k = cursorAt periodic 0 := cursorAt_of_fixed periodic_fixed k
      rw [same] at ended
      exact absurd ended (by decide)

end BekenSdk.Amsdu
