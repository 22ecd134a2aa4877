import BekenSdk.ScanResults.Frames

/-! How the table of a scan is built from its frames, whatever they are. An entry is the item of a frame that was taken; it is
replaced only by one that was received on its own channel, and that one stays. The lengths are right as long as no frame is shorter
than its fixed part and no element that is looked at is cut off.
-/

set_option autoImplicit false

namespace BekenSdk.ScanResults.Frames
open Base

/-! ## Elements -/

section
variable (cells : Cells) (data : Nat)

/-- Where `for_each_element` comes after that many elements. -/
def elementAt : Nat → Nat
  | 0 => data
  | n + 1 => elementAt n + 2 + (cells (elementAt n + 1)).toNat

def IsElement (len addr : Nat) : Prop :=
  ∃ n, addr = elementAt cells data n ∧ addr + 2 + (cells (addr + 1)).toNat ≤ data + len

end

section
variable {cells : Cells} {data : Nat}

theorem elementAt_lt {n m : Nat} (less : n < m) :
    elementAt cells data n + 2 + (cells (elementAt cells data n + 1)).toNat ≤ elementAt cells data m := by
  induction less with
  | refl => exact Nat.le_refl _
  | step _ ih => exact Nat.le_trans ih (Nat.le_trans (Nat.le_add_right _ 2) (Nat.le_add_right _ _))

theorem elementAt_ge (n : Nat) : data ≤ elementAt cells data n := by
  induction n with
  | zero => exact Nat.le_refl _
  | succ n ih => exact Nat.le_trans ih (Nat.le_trans (Nat.le_add_right _ 2) (Nat.le_add_right _ _))

theorem IsElement.apart {len first second : Nat} (one : IsElement cells data len first) (two : IsElement cells data len second)
    (other : cells first ≠ cells second) :
    first + 2 + (cells (first + 1)).toNat ≤ second ∨ second + 2 + (cells (second + 1)).toNat ≤ first := by
  obtain ⟨n, rfl, _⟩ := one
  obtain ⟨m, rfl, _⟩ := two
  rcases Nat.lt_trichotomy n m with before | same | behind
  · exact Or.inl (elementAt_lt before)
  · exact absurd (same ▸ rfl) other
  · exact Or.inr (elementAt_lt behind)

theorem IsElement.within {len addr : Nat} (element : IsElement cells data len addr) :
    data ≤ addr ∧ addr + 2 + (cells (addr + 1)).toNat ≤ data + len := by
  obtain ⟨n, rfl, fits⟩ := element
  exact ⟨elementAt_ge n, fits⟩

end

/-- The two functions of the supplicant give the address of an element with the identifier, if they give one. -/
structure Documented (parsers : Parsers) : Prop where
  ie : ∀ cells data len id addr, parsers.getIe cells data len id = some addr →
    IsElement cells data len.toNat addr ∧ cells addr = id
  vendorIe : ∀ cells data len vendor addr, parsers.getVendorIe cells data len vendor = some addr →
    IsElement cells data len.toNat addr ∧ cells addr = wlanEidVendorSpecific

/-! ## What is asked of a table and of a frame -/

section
variable (parsers : Parsers)

/-- The frame was received on the channel that its DS element announces. -/
def OnAnnounced (arrival : Arrival) : Prop :=
  ∃ addr, findElement parsers arrival macEltidDs = some addr ∧
    arrival.payload (addr + 2) = rwIeee80211GetChanId arrival.centerFreq

/-- What is read of a frame is in the frame. -/
def Within (read : Arrival × Nat × Nat) : Prop := read.2.1 + read.2.2 ≤ read.1.length.toNat

/-- The table that the frames of a scan have made. -/
structure Collected (s : Scan) : Prop where
  few : s.res.length ≤ maxBssList
  distinct : (s.res.map StaScanRes.bssid).Nodup
  onChannel : ∀ entry ∈ s.res,
    (entry.onChannel = true ↔ ∃ arrival ∈ s.accepted, bssid arrival = entry.bssid ∧ OnAnnounced parsers arrival)
  data : ∀ entry ∈ s.res, ∀ arrival ∈ s.accepted, bssid arrival = entry.bssid → OnAnnounced parsers arrival →
    entry = item parsers arrival
  reads : ∀ read ∈ s.reads, Within read
  ieLen : ∀ entry ∈ s.res, ∃ arrival ∈ s.accepted, entry = item parsers arrival ∧
    entry.ies.length = entry.ieLen.toNat ∧ entry.ieLen.toNat ≤ arrival.length.toNat
  confirmed : ∀ after, mhdrScanuStartCfm true s.scanRstSetPtr = some after →
    after.Perm s.res ∧ after.Pairwise fun first later => later.level ≤ first.level

variable (res : List StaScanRes) (arrival : Arrival)

/-- The handler looks at the name: to report that the frame is dropped because of its channel, or for a new item. -/
def LooksAtSsid : Prop :=
  (adjustChannel parsers arrival).permitted = false ∨
    checkDuplicate (bssid arrival) (adjustChannel parsers arrival).onChannel res 0 none ≠ none ∧
      (arrival.scanOnly = true → arrival.iesMemory = true) ∧ arrival.itemMemory = true

/-- The fixed part is there, and no element that the handler looks at is cut off by the end of the frame. -/
structure Whole : Prop where
  fixed : macBeaconVariablePartOft ≤ arrival.length.toNat
  ds : ∀ addr, findElement parsers arrival macEltidDs = some addr → addr + 3 ≤ arrival.length.toNat
  ssid : LooksAtSsid parsers res arrival → ∀ addr, findElement parsers arrival macEltidSsid = some addr →
    addr + 2 + min (arrival.payload (addr + 1)).toNat macSsidLen ≤ arrival.length.toNat

/-- There is a table, and room in it. -/
def Handled (s : Scan) : Prop :=
  (s.scanRstSetPtr = none → arrival.shellMemory = true) ∧ s.res.length < maxBssList

end

/-! ## Lengths -/

section
variable {parsers : Parsers} {arrival : Arrival}

theorem viesLen_toNat (fixed : macBeaconVariablePartOft ≤ arrival.length.toNat) :
    (viesLen arrival).toNat = arrival.length.toNat - macBeaconVariablePartOft := by
  have small := arrival.length.toNat_lt
  unfold viesLen macBeaconVariablePartOft at *
  rw [UInt32.toNat_sub_of_le]
  · rfl
  · rw [UInt32.le_iff_toNat_le]
    simpa using fixed

/-- What is searched is as long as the elements are. -/
theorem searched_toNat (fixed : macBeaconVariablePartOft ≤ arrival.length.toNat) :
    (viesLen arrival).toUInt16.toNat = arrival.length.toNat - macBeaconVariablePartOft := by
  have small := arrival.length.toNat_lt
  rw [UInt32.toNat_toUInt16, viesLen_toNat fixed]
  exact Nat.mod_eq_of_lt (Nat.lt_of_le_of_lt (Nat.sub_le _ _) small)

variable (arrival) in
/-- The ranges are in the frame. -/
def Fits (reads : List (Nat × Nat)) : Prop := ∀ read ∈ reads, read.1 + read.2 ≤ arrival.length.toNat

theorem fits_append {first second : List (Nat × Nat)} :
    Fits arrival (first ++ second) ↔ Fits arrival first ∧ Fits arrival second := List.forall_mem_append

theorem fits_cons {read : Nat × Nat} {rest : List (Nat × Nat)} :
    Fits arrival (read :: rest) ↔ read.1 + read.2 ≤ arrival.length.toNat ∧ Fits arrival rest := List.forall_mem_cons

theorem fits_nil : Fits arrival [] := fun _ member => absurd member List.not_mem_nil

theorem searched_fits :
    macBeaconVariablePartOft + (viesLen arrival).toUInt16.toNat ≤ arrival.length.toNat ↔
      macBeaconVariablePartOft ≤ arrival.length.toNat := by
  constructor
  · exact fun fits => Nat.le_trans (Nat.le_add_right _ _) fits
  · intro fixed
    rw [searched_toNat fixed, Nat.add_sub_cancel' fixed]

theorem channel_fits : Fits arrival (adjustChannel parsers arrival).reads ↔
    macBeaconVariablePartOft ≤ arrival.length.toNat ∧
      ∀ addr, findElement parsers arrival macEltidDs = some addr → addr + 3 ≤ arrival.length.toNat := by
  unfold adjustChannel
  cases found : findElement parsers arrival macEltidDs with
  | none => simp only [fits_cons, fits_nil, and_true, searched_fits, reduceCtorEq, false_implies, implies_true]
  | some addr => simp only [fits_cons, fits_nil, and_true, searched_fits, Option.some.injEq, forall_eq', Nat.add_assoc]

theorem ssid_fits : Fits arrival (ssidPart parsers arrival).reads ↔
    ∀ addr, findElement parsers arrival macEltidSsid = some addr →
      addr + 2 + min (arrival.payload (addr + 1)).toNat macSsidLen ≤ arrival.length.toNat := by
  unfold ssidPart
  cases found : findElement parsers arrival macEltidSsid with
  | none => simp only [fits_nil, reduceCtorEq, false_implies, implies_true]
  | some addr =>
    simp only [fits_cons, fits_nil, and_true, Option.some.injEq, forall_eq', and_iff_right_iff_imp]
    exact fun fits => Nat.le_trans (Nat.le_add_right _ _) fits

/-! ## The elements that the supplicant needs -/

variable (arrival) in
/-- The bytes of an element, with its head. -/
def ieSize (ie : Option Nat) : Nat := (ie.map fun addr => (arrival.payload (addr + 1)).toNat + 2).getD 0

theorem wpabufPutIe_length (buf : Part) (ie : Option Nat) :
    (wpabufPutIe arrival buf ie).bytes.length ≤ buf.bytes.length + ieSize arrival ie := by
  cases ie with
  | none => exact Nat.le_refl _
  | some addr =>
    unfold wpabufPutIe
    dsimp only
    split
    · exact Nat.le_of_eq (by rw [List.length_append, readBytes_length]; rfl)
    · exact Nat.le_add_right _ _

theorem wpabufPutIe_fits {buf : Part} {ie : Option Nat} (before : Fits arrival buf.reads)
    (inside : ∀ addr, ie = some addr → addr + 2 + (arrival.payload (addr + 1)).toNat ≤ arrival.length.toNat) :
    Fits arrival (wpabufPutIe arrival buf ie).reads := by
  cases ie with
  | none => exact before
  | some addr =>
    unfold wpabufPutIe
    dsimp only
    split
    · refine fits_cons.2 ⟨?_, before⟩
      have fits := inside addr rfl
      omega
    · exact before

section
variable (documented : Documented parsers) (fixed : macBeaconVariablePartOft ≤ arrival.length.toNat)
include documented fixed

theorem getIe_inside {id : UInt8} {addr : Nat}
    (found : parsers.getIe arrival.payload macBeaconVariablePartOft (viesLen arrival) id = some addr) :
    macBeaconVariablePartOft ≤ addr ∧ addr + 2 + (arrival.payload (addr + 1)).toNat ≤ arrival.length.toNat := by
  have inside := (documented.ie _ _ _ _ _ found).1.within
  rw [viesLen_toNat fixed, Nat.add_sub_cancel' fixed] at inside
  exact inside

theorem getVendorIe_inside {vendor : UInt32} {addr : Nat}
    (found : parsers.getVendorIe arrival.payload macBeaconVariablePartOft (viesLen arrival) vendor = some addr) :
    macBeaconVariablePartOft ≤ addr ∧ addr + 2 + (arrival.payload (addr + 1)).toNat ≤ arrival.length.toNat := by
  have inside := (documented.vendorIe _ _ _ _ _ found).1.within
  rw [viesLen_toNat fixed, Nat.add_sub_cancel' fixed] at inside
  exact inside

theorem wlanGetBssBeaconIes_fits : Fits arrival (wlanGetBssBeaconIes parsers arrival).reads := by
  apply wpabufPutIe_fits
  · apply wpabufPutIe_fits
    · apply wpabufPutIe_fits fits_nil
      exact fun addr found => (getIe_inside documented fixed found).2
    · exact fun addr found => (getIe_inside documented fixed found).2
  · exact fun addr found => (getVendorIe_inside documented fixed found).2

/-- Three elements with different identifiers do not overlap. -/
theorem ieSize_sum :
    macBeaconVariablePartOft +
        (ieSize arrival (parsers.getIe arrival.payload macBeaconVariablePartOft (viesLen arrival) macEltidSsid) +
          ieSize arrival (parsers.getIe arrival.payload macBeaconVariablePartOft (viesLen arrival) wlanEidRsn) +
          ieSize arrival (parsers.getVendorIe arrival.payload macBeaconVariablePartOft (viesLen arrival) wpaIeVendorType)) ≤
      arrival.length.toNat := by
  have ssidInside := fun addr => @getIe_inside _ _ documented fixed macEltidSsid addr
  have rsnInside := fun addr => @getIe_inside _ _ documented fixed wlanEidRsn addr
  have vendorInside := fun addr => @getVendorIe_inside _ _ documented fixed wpaIeVendorType addr
  have ssid := documented.ie arrival.payload macBeaconVariablePartOft (viesLen arrival) macEltidSsid
  have rsn := documented.ie arrival.payload macBeaconVariablePartOft (viesLen arrival) wlanEidRsn
  have vendor := documented.vendorIe arrival.payload macBeaconVariablePartOft (viesLen arrival) wpaIeVendorType
  have apart : ∀ {first second : Nat} {one two : UInt8},
      IsElement arrival.payload macBeaconVariablePartOft (viesLen arrival).toNat first ∧ arrival.payload first = one →
      IsElement arrival.payload macBeaconVariablePartOft (viesLen arrival).toNat second ∧ arrival.payload second = two →
      one ≠ two → first + 2 + (arrival.payload (first + 1)).toNat ≤ second ∨
        second + 2 + (arrival.payload (second + 1)).toNat ≤ first := by
    intro first second one two here there other
    exact here.1.apart there.1 (by rwa [here.2, there.2])
  have ssidRsn := fun first second one two => @apart first second _ _ (ssid first one) (rsn second two) (by decide)
  have ssidVendor := fun first second one two => @apart first second _ _ (ssid first one) (vendor second two) (by decide)
  have rsnVendor := fun first second one two => @apart first second _ _ (rsn first one) (vendor second two) (by decide)
  clear apart ssid rsn vendor
  generalize parsers.getIe arrival.payload macBeaconVariablePartOft (viesLen arrival) macEltidSsid = x at *
  generalize parsers.getIe arrival.payload macBeaconVariablePartOft (viesLen arrival) wlanEidRsn = y at *
  generalize parsers.getVendorIe arrival.payload macBeaconVariablePartOft (viesLen arrival) wpaIeVendorType = z at *
  cases x <;> cases y <;> cases z <;> simp_all [ieSize] <;> omega

theorem wlanGetBssBeaconIes_length :
    macBeaconVariablePartOft + (wlanGetBssBeaconIes parsers arrival).bytes.length ≤ arrival.length.toNat := by
  refine Nat.le_trans (Nat.add_le_add_left ?_ _) (ieSize_sum documented fixed)
  refine Nat.le_trans (wpabufPutIe_length _ _) (Nat.add_le_add_right ?_ _)
  refine Nat.le_trans (wpabufPutIe_length _ _) (Nat.add_le_add_right ?_ _)
  exact Nat.le_trans (wpabufPutIe_length _ _) (Nat.le_of_eq (Nat.zero_add _))

theorem iesPart_fits : Fits arrival (iesPart parsers arrival).reads := by
  unfold iesPart
  split
  · exact wlanGetBssBeaconIes_fits documented fixed
  · refine fits_cons.2 ⟨?_, fits_nil⟩
    rw [viesLen_toNat fixed, Nat.add_sub_cancel' fixed]

theorem item_ieLen : (item parsers arrival).ies.length = (item parsers arrival).ieLen.toNat ∧
    (item parsers arrival).ieLen.toNat ≤ arrival.length.toNat := by
  have small := arrival.length.toNat_lt
  unfold item iesPart
  cases only : arrival.scanOnly with
  | true =>
    have short := wlanGetBssBeaconIes_length documented fixed
    have kept : (UInt32.ofNat (wlanGetBssBeaconIes parsers arrival).bytes.length).toNat =
        (wlanGetBssBeaconIes parsers arrival).bytes.length := UInt32.toNat_ofNat_of_lt' (by simp only [UInt32.size]; omega)
    simp only [if_true, kept]
    exact ⟨trivial, Nat.le_trans (Nat.le_add_left _ _) short⟩
  | false =>
    simp only [Bool.false_eq_true, if_false, readBytes_length, true_and]
    exact viesLen_toNat fixed ▸ Nat.sub_le _ _

end

/-! ## What a message has read -/

section
variable {res : List StaScanRes}

theorem reads_fit_iff (documented : Documented parsers) :
    Fits arrival (mhdrScanuResultInd parsers arrival res).reads ↔
      (res.length < maxBssList → Whole parsers res arrival) := by
  unfold mhdrScanuResultInd
  by_cases full : maxBssList ≤ res.length
  · rw [if_pos full]
    exact ⟨fun _ room => absurd room (Nat.not_lt.2 full), fun _ => fits_nil⟩
  rw [if_neg full]
  have room : res.length < maxBssList := Nat.not_le.1 full
  have whole : (res.length < maxBssList → Whole parsers res arrival) ↔ Fits arrival (adjustChannel parsers arrival).reads ∧
      (LooksAtSsid parsers res arrival → Fits arrival (ssidPart parsers arrival).reads) := by
    rw [channel_fits, ssid_fits]
    exact ⟨fun given => ⟨⟨(given room).fixed, (given room).ds⟩, (given room).ssid⟩, fun given _ => ⟨given.1.1, given.1.2, given.2⟩⟩
  rw [whole]
  unfold LooksAtSsid
  dsimp only
  by_cases permitted : (adjustChannel parsers arrival).permitted = false
  · rw [if_pos permitted, fits_append]
    simp only [permitted, true_or, true_implies]
  rw [if_neg permitted]
  cases checked : checkDuplicate (bssid arrival) (adjustChannel parsers arrival).onChannel res 0 none with
  | none => simp only [permitted, ne_eq, not_true_eq_false, false_and, reduceCtorEq, or_self, false_implies, and_true]
  | some replaceIndex =>
    have iesFit (channel : Fits arrival (adjustChannel parsers arrival).reads) :
        Fits arrival (iesPart parsers arrival).reads := iesPart_fits documented (channel_fits.1 channel).1
    have viesFit (channel : Fits arrival (adjustChannel parsers arrival).reads) :
        Fits arrival [(macBeaconVariablePartOft, (viesLen arrival).toNat)] := by
      have fixed := (channel_fits.1 channel).1
      exact fits_cons.2 ⟨by rw [viesLen_toNat fixed, Nat.add_sub_cancel' fixed], fits_nil⟩
    cases only : arrival.scanOnly <;> cases ies : arrival.iesMemory <;> cases memory : arrival.itemMemory <;>
      simp only [permitted, fits_append, fits_nil, ne_eq, reduceCtorEq, not_false_eq_true, false_or, and_true,
        and_false, true_implies, false_implies, implies_true, Bool.not_true, Bool.not_false, Bool.and_self, Bool.and_true,
        Bool.and_false, if_true, if_false, Bool.false_eq_true]
    all_goals grind

end

/-! ## Duplicates -/

theorem checkDuplicate_none {key : List UInt8} {onChannel : Bool} {res : List StaScanRes} {i : Nat} {old : Option Nat}
    (checked : checkDuplicate key onChannel res i old = some none) : old = none ∧ ∀ entry ∈ res, entry.bssid ≠ key := by
  induction res generalizing i old with
  | nil => exact ⟨Option.some.inj checked, fun _ member => absurd member List.not_mem_nil⟩
  | cons first rest ih =>
    unfold checkDuplicate at checked
    split_ifs at checked with same
    · exact absurd (ih checked).1 (by simp)
    · have tail := ih checked
      exact ⟨tail.1, List.forall_mem_cons.2 ⟨fun twice => same twice.symm, tail.2⟩⟩

/-- What is to be replaced was given before, or is an entry of the same access point that is not on its channel. -/
theorem checkDuplicate_some {key : List UInt8} {onChannel : Bool} {res : List StaScanRes} {i k : Nat} {old : Option Nat}
    (checked : checkDuplicate key onChannel res i old = some (some k)) :
    old = some k ∨ ∃ j entry, k = i + j ∧ res[j]? = some entry ∧ entry.bssid = key ∧ entry.onChannel = false ∧ onChannel = true := by
  induction res generalizing i old with
  | nil => exact Or.inl (Option.some.inj checked)
  | cons first rest ih =>
    unfold checkDuplicate at checked
    split_ifs at checked with same stays
    · rcases ih checked with given | ⟨j, entry, rfl, found⟩
      · rw [not_or, Bool.not_eq_true, Bool.not_eq_false] at stays
        cases given
        exact Or.inr ⟨0, first, rfl, rfl, same.symm, stays⟩
      · exact Or.inr ⟨j + 1, entry, by omega, found⟩
    · rcases ih checked with given | ⟨j, entry, rfl, found⟩
      · exact Or.inl given
      · exact Or.inr ⟨j + 1, entry, by omega, found⟩

/-- What the handler can do with a frame. -/
inductive Taken (parsers : Parsers) (arrival : Arrival) (res : List StaScanRes) : Outcome → Prop where
  | dropped (reads : List (Nat × Nat)) : Taken parsers arrival res ⟨res, false, reads⟩
  | added {reads : List (Nat × Nat)} (room : res.length < maxBssList) (other : ∀ entry ∈ res, entry.bssid ≠ bssid arrival)
      (searched : (macBeaconVariablePartOft, (viesLen arrival).toUInt16.toNat) ∈ reads) :
      Taken parsers arrival res ⟨res ++ [item parsers arrival], true, reads⟩
  | replaced {reads : List (Nat × Nat)} {j : Nat} {old : StaScanRes} (found : res[j]? = some old)
      (same : old.bssid = bssid arrival) (off : old.onChannel = false)
      (searched : (macBeaconVariablePartOft, (viesLen arrival).toUInt16.toNat) ∈ reads) :
      Taken parsers arrival res ⟨res.set j (item parsers arrival), true, reads⟩

theorem channel_searched :
    (macBeaconVariablePartOft, (viesLen arrival).toUInt16.toNat) ∈ (adjustChannel parsers arrival).reads := by
  unfold adjustChannel
  cases findElement parsers arrival macEltidDs <;> exact List.mem_cons_self

theorem taken (parsers : Parsers) (arrival : Arrival) (res : List StaScanRes) :
    Taken parsers arrival res (mhdrScanuResultInd parsers arrival res) := by
  unfold mhdrScanuResultInd
  dsimp only
  by_cases full : maxBssList ≤ res.length
  · rw [if_pos full]
    exact Taken.dropped _
  rw [if_neg full]
  by_cases permitted : (adjustChannel parsers arrival).permitted = false
  · rw [if_pos permitted]
    exact Taken.dropped _
  rw [if_neg permitted]
  cases checked : checkDuplicate (bssid arrival) (adjustChannel parsers arrival).onChannel res 0 none with
  | none => exact Taken.dropped _
  | some replaceIndex =>
    by_cases noIes : (arrival.scanOnly && !arrival.iesMemory) = true
    · simp only [noIes, if_true]
      exact Taken.dropped _
    by_cases noItem : arrival.itemMemory = false
    · simp only [noIes, noItem, if_true]
      exact Taken.dropped _
    simp only [noIes, noItem]
    have searched (more : List (Nat × Nat)) := List.mem_append_left more (@channel_searched parsers arrival)
    cases replaceIndex with
    | none =>
      refine Taken.added (Nat.not_le.1 full) (checkDuplicate_none checked).2 ?_
      exact List.mem_append_left _ (List.mem_append_left _ (searched _))
    | some k =>
      rcases checkDuplicate_some checked with given | ⟨j, old, rfl, found, same, off, _⟩
      · cases given
      · rw [Nat.zero_add]
        exact Taken.replaced found same off (List.mem_append_left _ (List.mem_append_left _ (searched _)))

/-! ## The entries -/

section
variable (parsers)

theorem onAnnounced_iff (arrival : Arrival) :
    OnAnnounced parsers arrival ↔ (item parsers arrival).onChannel = true := by
  unfold OnAnnounced item adjustChannel
  cases findElement parsers arrival macEltidDs with
  | none => simp
  | some addr => simp

/-- The entries are items of accepted frames, one for each access point; the item of a frame that was received on its channel
stays. -/
structure Kept (res : List StaScanRes) (accepted : List Arrival) : Prop where
  few : res.length ≤ maxBssList
  distinct : (res.map StaScanRes.bssid).Nodup
  listed : ∀ entry ∈ res, ∃ arrival ∈ accepted, entry = item parsers arrival
  present : ∀ arrival ∈ accepted, ∃ entry ∈ res, entry.bssid = bssid arrival
  stays : ∀ entry ∈ res, ∀ arrival ∈ accepted, bssid arrival = entry.bssid → OnAnnounced parsers arrival →
    entry = item parsers arrival

end

section
variable {res : List StaScanRes} {accepted : List Arrival} (kept : Kept parsers res accepted)
include kept

theorem Kept.append (room : res.length < maxBssList) (other : ∀ entry ∈ res, entry.bssid ≠ bssid arrival) :
    Kept parsers (res ++ [item parsers arrival]) (arrival :: accepted) where
  few := by rw [List.length_append]; exact room
  distinct := by
    rw [List.map_append, List.map_singleton, List.nodup_append]
    refine ⟨kept.distinct, List.nodup_singleton _, ?_⟩
    intro key listed other' same
    obtain ⟨entry, member, rfl⟩ := List.mem_map.1 listed
    rw [List.mem_singleton.1 same]
    exact other entry member
  listed := by
    intro entry member
    rcases List.mem_append.1 member with old | new
    · obtain ⟨source, taken, same⟩ := kept.listed entry old
      exact ⟨source, List.mem_cons_of_mem _ taken, same⟩
    · exact ⟨arrival, List.mem_cons_self, List.mem_singleton.1 new⟩
  present := by
    refine List.forall_mem_cons.2 ⟨⟨item parsers arrival, List.mem_append_right _ List.mem_cons_self, rfl⟩, ?_⟩
    intro source taken
    obtain ⟨entry, member, same⟩ := kept.present source taken
    exact ⟨entry, List.mem_append_left _ member, same⟩
  stays := by
    intro entry member source taken same announced
    rcases List.mem_append.1 member with old | new
    · rcases List.mem_cons.1 taken with rfl | before
      · exact absurd same.symm (other entry old)
      · exact kept.stays entry old source before same announced
    · rw [List.mem_singleton.1 new] at same ⊢
      rcases List.mem_cons.1 taken with rfl | before
      · rfl
      · obtain ⟨twin, member, twinSame⟩ := kept.present source before
        exact absurd (twinSame.trans same) (other twin member)

theorem Kept.replace {j : Nat} {old : StaScanRes} (found : res[j]? = some old) (same : old.bssid = bssid arrival)
    (off : old.onChannel = false) : Kept parsers (res.set j (item parsers arrival)) (arrival :: accepted) := by
  have inside : j < res.length := (List.getElem?_eq_some_iff.1 found).1
  have keys : (res.set j (item parsers arrival)).map StaScanRes.bssid = res.map StaScanRes.bssid := by
    apply List.ext_getElem?
    intro k
    rw [List.getElem?_map, List.getElem?_map]
    by_cases place : j = k
    · subst place
      rw [List.getElem?_set_self inside, found]
      exact congrArg some same.symm
    · rw [List.getElem?_set_ne place]
  refine ⟨?_, keys ▸ kept.distinct, ?_, ?_, ?_⟩
  · rw [List.length_set]
    exact kept.few
  · intro entry member
    rcases List.mem_or_eq_of_mem_set member with before | rfl
    · obtain ⟨source, taken, same⟩ := kept.listed entry before
      exact ⟨source, List.mem_cons_of_mem _ taken, same⟩
    · exact ⟨arrival, List.mem_cons_self, rfl⟩
  · refine List.forall_mem_cons.2 ⟨⟨item parsers arrival, List.mem_set inside _, rfl⟩, ?_⟩
    intro source taken
    obtain ⟨entry, member, sameKey⟩ := kept.present source taken
    have listed := keys.symm ▸ List.mem_map_of_mem member
    obtain ⟨new, newMember, newKey⟩ := List.mem_map.1 listed
    exact ⟨new, newMember, newKey.trans sameKey⟩
  · intro entry member source taken sameKey announced
    obtain ⟨k, atK⟩ := List.mem_iff_getElem?.1 member
    by_cases place : j = k
    · subst place
      rw [List.getElem?_set_self inside] at atK
      cases atK
      rcases List.mem_cons.1 taken with rfl | before
      · rfl
      · have twin := kept.stays old (List.mem_of_getElem? found) source before (sameKey.trans same.symm) announced
        rw [twin, (onAnnounced_iff parsers source).1 announced] at off
        cases off
    · rw [List.getElem?_set_ne place] at atK
      rcases List.mem_cons.1 taken with rfl | before
      · have twice : j = k := by
          refine (List.getElem?_inj (by rwa [List.length_map]) kept.distinct).1 ?_
          rw [List.getElem?_map, List.getElem?_map, found, atK]
          exact congrArg some (same.trans sameKey)
        exact absurd twice place
      · exact kept.stays entry (List.mem_of_getElem? atK) source before sameKey announced

theorem Kept.handle : Kept parsers (mhdrScanuResultInd parsers arrival res).res
    (if (mhdrScanuResultInd parsers arrival res).stored then arrival :: accepted else accepted) := by
  have result := taken parsers arrival res
  generalize mhdrScanuResultInd parsers arrival res = outcome at result ⊢
  cases result with
  | dropped reads => exact kept
  | added room other _ => exact kept.append room other
  | replaced found same off _ => exact kept.replace found same off

end

end

/-! ## Runs -/

section
variable (parsers : Parsers)

/-- The table, and what was searched of the frames that it has taken. -/
structure Recorded (s : Scan) : Prop where
  kept : Kept parsers s.res s.accepted
  searched : ∀ arrival ∈ s.accepted, (arrival, macBeaconVariablePartOft, (viesLen arrival).toUInt16.toNat) ∈ s.reads

variable {parsers} {s : Scan}

theorem Recorded.receive (recorded : Recorded parsers s) (arrival : Arrival) : Recorded parsers (receive parsers s arrival) := by
  unfold Frames.receive
  split
  · exact recorded
  refine ⟨recorded.kept.handle, ?_⟩
  have result := taken parsers arrival s.res
  generalize mhdrScanuResultInd parsers arrival s.res = outcome at result ⊢
  cases result with
  | dropped reads => exact fun source member => List.mem_append_right _ (recorded.searched source member)
  | added _ _ searched =>
    refine List.forall_mem_cons.2 ⟨List.mem_append_left _ (List.mem_map_of_mem searched), ?_⟩
    exact fun source member => List.mem_append_right _ (recorded.searched source member)
  | replaced _ _ _ searched =>
    refine List.forall_mem_cons.2 ⟨List.mem_append_left _ (List.mem_map_of_mem searched), ?_⟩
    exact fun source member => List.mem_append_right _ (recorded.searched source member)

theorem collect_snoc (arrivals : List Arrival) (arrival : Arrival) :
    collect parsers (arrivals ++ [arrival]) = receive parsers (collect parsers arrivals) arrival := by
  rw [collect, List.foldl_append]
  rfl

theorem collect_recorded (arrivals : List Arrival) : Recorded parsers (collect parsers arrivals) := by
  induction arrivals using List.reverseRecOn with
  | nil =>
    refine ⟨⟨Nat.zero_le _, List.nodup_nil, ?_, ?_, ?_⟩, ?_⟩ <;> exact fun _ member => absurd member List.not_mem_nil
  | append_singleton arrivals arrival ih =>
    rw [collect_snoc]
    exact ih.receive arrival

/-- One frame more is read within itself just if it is whole or not handled. -/
theorem receive_within_iff (documented : Documented parsers) (arrival : Arrival) :
    (∀ read ∈ (receive parsers s arrival).reads, Within read) ↔
      (∀ read ∈ s.reads, Within read) ∧ (Handled arrival s → Whole parsers s.res arrival) := by
  have outcome := @reads_fit_iff parsers arrival s.res documented
  unfold receive Handled
  by_cases missing : (s.scanRstSetPtr.isNone && !arrival.shellMemory) = true
  · simp only [missing, if_true]
    rw [Bool.and_eq_true, Option.isNone_iff_eq_none, Bool.not_eq_true'] at missing
    simp only [missing, Bool.false_eq_true, true_implies, false_and, false_implies, and_true]
  · simp only [missing, if_false, List.forall_mem_append, List.forall_mem_map, Bool.false_eq_true]
    have shell : s.scanRstSetPtr = none → arrival.shellMemory = true := by
      intro nothing
      simpa [nothing] using missing
    rw [and_iff_right shell, and_comm]
    exact and_congr_right fun _ => outcome

variable (parsers) in
/-- Each frame that is handled is whole. -/
def AllWhole (arrivals : List Arrival) : Prop :=
  ∀ before arrival after, arrivals = before ++ arrival :: after →
    Handled arrival (collect parsers before) → Whole parsers (collect parsers before).res arrival

theorem allWhole_snoc (arrivals : List Arrival) (arrival : Arrival) :
    AllWhole parsers (arrivals ++ [arrival]) ↔ AllWhole parsers arrivals ∧
      (Handled arrival (collect parsers arrivals) → Whole parsers (collect parsers arrivals).res arrival) := by
  constructor
  · intro all
    refine ⟨?_, all arrivals arrival [] rfl⟩
    intro before one after same
    exact all before one (after ++ [arrival]) (by rw [same, List.append_assoc]; rfl)
  · intro both before one after same
    rcases List.eq_nil_or_concat after with rfl | ⟨rest, last', rfl⟩
    · obtain ⟨rfl, single⟩ := List.append_inj' same rfl
      cases single
      exact both.2
    · have shifted : arrivals ++ [arrival] = (before ++ one :: rest) ++ [last'] := by
        rw [same, List.concat_eq_append, List.append_assoc]
        rfl
      exact both.1 before one rest (List.append_inj' shifted rfl).1

theorem reads_within_iff (documented : Documented parsers) (arrivals : List Arrival) :
    (∀ read ∈ (collect parsers arrivals).reads, Within read) ↔ AllWhole parsers arrivals := by
  induction arrivals using List.reverseRecOn with
  | nil =>
    refine iff_of_true (fun _ member => absurd member List.not_mem_nil) ?_
    exact fun before arrival after same => absurd same (by simp)
  | append_singleton arrivals arrival ih =>
    rw [collect_snoc, receive_within_iff documented, ih, allWhole_snoc]

theorem confirmed {after : List StaScanRes} (ended : mhdrScanuStartCfm true s.scanRstSetPtr = some after) :
    after.Perm s.res ∧ after.Pairwise fun first later => later.level ≤ first.level := by
  obtain ⟨res, table, sorted⟩ := Option.bind_eq_some_iff.1 ended
  cases sorted
  rw [Scan.res, table]
  refine ⟨exchangeSort_perm _ _, (exchangeSort_sorted _ _).imp ?_⟩
  exact fun less => Int32.le_iff_toInt_le.2 less

/-- The frames of a scan make a right table exactly if each frame that is handled is whole. -/
theorem collected_iff (documented : Documented parsers) (arrivals : List Arrival) :
    Collected parsers (collect parsers arrivals) ↔ AllWhole parsers arrivals := by
  rw [← reads_within_iff documented]
  refine ⟨Collected.reads, fun reads => ?_⟩
  obtain ⟨kept, searched⟩ := @collect_recorded parsers arrivals
  refine ⟨kept.few, kept.distinct, ?_, kept.stays, reads, ?_, fun _ => confirmed⟩
  · intro entry member
    constructor
    · intro on
      obtain ⟨arrival, taken, rfl⟩ := kept.listed entry member
      exact ⟨arrival, taken, rfl, (onAnnounced_iff parsers arrival).2 on⟩
    · rintro ⟨arrival, taken, same, announced⟩
      rw [kept.stays entry member arrival taken same announced]
      exact (onAnnounced_iff parsers arrival).1 announced
  · intro entry member
    obtain ⟨arrival, taken, rfl⟩ := kept.listed entry member
    have fixed := searched_fits.1 (reads _ (searched arrival taken))
    exact ⟨arrival, taken, rfl, item_ieLen documented fixed⟩

end

/-! ## Parsers -/

section
variable (cells : Cells) (wanted : Nat → Bool) (last : Nat)

/-- The first whole element that is wanted. -/
def firstElement : Nat → Nat → Option Nat
  | 0, _ => none
  | fuel + 1, addr =>
    if addr + 2 + (cells (addr + 1)).toNat ≤ last then
      if wanted addr then some addr else firstElement fuel (addr + 2 + (cells (addr + 1)).toNat)
    else none

theorem firstElement_isElement {data len fuel n addr : Nat}
    (found : firstElement cells wanted (data + len) fuel (elementAt cells data n) = some addr) :
    IsElement cells data len addr ∧ wanted addr = true := by
  induction fuel generalizing n with
  | zero => cases found
  | succ fuel ih =>
    unfold firstElement at found
    split_ifs at found with fits want
    · cases found
      exact ⟨⟨n, rfl, fits⟩, want⟩
    · exact @ih (n + 1) found

end

/-- `get_vendor_ie` compares the identifier, and four bytes of the element with the type. -/
def walkParsers : Parsers where
  macIeFind cells data len id := firstElement cells (fun addr => cells addr = id) (data + len.toNat) len.toNat data
  getIe cells data len id := firstElement cells (fun addr => cells addr = id) (data + len.toNat) len.toNat data
  getVendorIe cells data len vendor := firstElement cells
    (fun addr => cells addr = wlanEidVendorSpecific && 4 ≤ (cells (addr + 1)).toNat &&
      fromLe (readBytes cells (addr + 2) 4).reverse = vendor.toNat) (data + len.toNat) len.toNat data
  getSecurityTypeFromIe _ _ _ _ := 0

theorem walkParsers_documented : Documented walkParsers where
  ie cells data len id addr found := by
    have element := @firstElement_isElement cells _ data len.toNat len.toNat 0 addr found
    exact ⟨element.1, of_decide_eq_true element.2⟩
  vendorIe cells data len vendor addr found := by
    have element := @firstElement_isElement cells _ data len.toNat len.toNat 0 addr found
    have wanted := element.2
    rw [Bool.and_eq_true, Bool.and_eq_true] at wanted
    exact ⟨element.1, of_decide_eq_true wanted.1.1⟩

/-- A probe response on channel 6 with a name of two letters. -/
def probeResponse : Arrival where
  length := 43
  centerFreq := 2437
  rssi := -40
  payload := storeBytes (fun _ => 0) macBeaconVariablePartOft [0, 2, 0x61, 0x62, 3, 1, 6]
  country := ⟨false, 1, 13⟩
  scanOnly := true
  shellMemory := true
  iesMemory := true
  itemMemory := true

theorem probeResponse_collected : Collected walkParsers (collect walkParsers [probeResponse]) := by
  refine (collected_iff walkParsers_documented [probeResponse]).2 ?_
  intro before arrival after same handled
  have ds : findElement walkParsers probeResponse macEltidDs = some 40 := by decide
  have ssid : findElement walkParsers probeResponse macEltidSsid = some 36 := by decide
  obtain ⟨rfl, rfl, rfl⟩ : before = [] ∧ arrival = probeResponse ∧ after = [] := by
    cases before with
    | nil => simpa [eq_comm] using same
    | cons first rest => simp at same
  refine ⟨by decide, fun addr found => ?_, fun _ addr found => ?_⟩
  · cases ds.symm.trans found
    decide
  · cases ssid.symm.trans found
    decide

/-- A frame that ends within its fixed part. -/
def shortFrame : Arrival := { probeResponse with length := 20 }

theorem shortFrame_not_collected : ¬Collected walkParsers (collect walkParsers [shortFrame]) := by
  intro collected
  have whole := (reads_within_iff walkParsers_documented [shortFrame]).1 collected.reads
  have fixed := (whole [] shortFrame [] rfl ⟨fun _ => rfl, by decide⟩).fixed
  exact absurd fixed (by decide)

end BekenSdk.ScanResults.Frames
