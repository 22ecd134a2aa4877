import BekenSdk.SdioIntf.Commands
import BekenSdk.SdioScan.Tlvs

/-! When the loop over the TLVs of a scan command ends, and when what it copies stays in `ssid[]`: by the lengths and
types of the places it looks at.
-/

set_option autoImplicit false

namespace BekenSdk.SdioIntf
open Base SdioScan

section
variable (cmd : ScanCmd)

/-- Where the loop looks after the rounds. -/
def place : Nat → Nat
  | 0 => tlvbuffer
  | k + 1 => tlvbuffer + (cmd.len (place k)).toNat + mrvlIeHdrLen

/-- What is left of the length then, modulo 2 ^ 32. -/
def left : Nat → UInt32
  | 0 => cmd.size.toUInt32 - tlvbuffer.toUInt32
  | k + 1 => left k - ((cmd.len (place cmd k)).toUInt32 + 4)

/-- How many SSIDs there have been. -/
def ssids : Nat → UInt32
  | 0 => 0
  | k + 1 => if cmd.type (place cmd k) = tlvTypeSsid then ssids k + 1 else ssids k

/-- An SSID in that round is copied into `ssid[]`. -/
def SsidFits (k : Nat) : Prop :=
  cmd.type (place cmd k) = tlvTypeSsid →
    macSsidSize * (ssids cmd k).toNat + ((cmd.len (place cmd k)).toNat + 1) ≤ macSsidSize * scanSsidMax

/-- The lengths use up what there is, and every SSID up to there fits. -/
def TlvsEnd : Prop := ∃ k, (∀ j, j < k → left cmd j ≠ 0) ∧ left cmd k = 0 ∧ ∀ j, j < k → SsidFits cmd j

end

variable {cmd : ScanCmd} {frame : Frame}

theorem round_fields (k : Nat) :
    ((Scan.round cmd)^[k] (.start cmd)).mrvlIe = place cmd k ∧
      ((Scan.round cmd)^[k] (.start cmd)).ieTotalLen = left cmd k ∧
      ((Scan.round cmd)^[k] (.start cmd)).ssidId = ssids cmd k := by
  induction k with
  | zero => exact ⟨rfl, rfl, rfl⟩
  | succ k ih =>
    obtain ⟨looked, rest, counted⟩ := ih
    rw [Function.iterate_succ_apply', Scan.round_mrvlIe, Scan.round_ieTotalLen, Scan.round_ssidId, looked, rest, counted]
    exact ⟨rfl, rfl, rfl⟩

theorem round_inside (k : Nat) :
    (∀ place ∈ ((Scan.round cmd)^[k] (.start cmd)).ssidWrites, place.1 + place.2 ≤ macSsidSize * scanSsidMax) ↔
      ∀ j, j < k → SsidFits cmd j := by
  induction k with
  | zero => exact iff_of_true (fun _ none => absurd none List.not_mem_nil) (fun j early => absurd early (Nat.not_lt_zero j))
  | succ k ih =>
    obtain ⟨looked, _, counted⟩ := @round_fields cmd k
    rw [Function.iterate_succ_apply', Scan.round_ssid_iff, ih, looked, counted, Nat.forall_lt_succ_right]
    rfl

theorem ssidInside_iff {scan : Scan} :
    ssidInside scan = true ↔ ∀ place ∈ scan.ssidWrites, place.1 + place.2 ≤ macSsidSize * scanSsidMax := by
  simp only [ssidInside, List.all_eq_true, decide_eq_true_eq]

theorem finish_inside {scan : Scan} : ssidInside scan.finish = true ↔
    ∀ place ∈ scan.ssidWrites, place.1 + place.2 ≤ macSsidSize * scanSsidMax := by
  rw [ssidInside_iff]
  show (∀ place ∈ scan.ssidWrites ++ [(0, 1)], _) ↔ _
  rw [List.forall_mem_append, List.forall_mem_singleton]
  exact and_iff_left (by decide)

theorem rounds_on {k : Nat} :
    Rounds (fun s : Scan => s.ieTotalLen ≠ 0) (Scan.round cmd) (.start cmd) k ↔ ∀ j, j < k → left cmd j ≠ 0 := by
  refine forall_congr' fun j => forall_congr' fun _ => ?_
  rw [← (@round_fields cmd j).2.1]

theorem tlvsEnd_iff :
    (∃ rounds scan, cmdConversion80211Scan cmd rounds = some scan ∧ ssidInside scan = true) ↔ TlvsEnd cmd := by
  constructor
  · rintro ⟨fuel, scan, returned, inside⟩
    obtain ⟨last, looped, rfl⟩ := Option.map_eq_some_iff.1 returned
    obtain ⟨k, through, ended, rfl⟩ := loop_rounds looped
    rw [not_not, (@round_fields cmd k).2.1] at ended
    exact ⟨k, rounds_on.1 through, ended, (round_inside k).1 (finish_inside.1 inside)⟩
  · rintro ⟨k, through, ended, fits⟩
    refine ⟨k, _, ?_, finish_inside.2 ((round_inside k).2 fits)⟩
    rw [cmdConversion80211Scan, loop_of_rounds (rounds_on.2 through), Option.map_some]
    rw [not_not, (@round_fields cmd k).2.1]
    exact ended

/-- How the loop goes does not depend on how it is told. -/
theorem ends_iff (finds : Finds frame) : finds.Ends ↔ TlvsEnd frame.scan := by
  rw [← tlvsEnd_iff]
  constructor
  · rintro ⟨scan, found, inside⟩
    obtain ⟨rounds, returned⟩ := finds.conversion.ended scan found
    exact ⟨rounds, scan, returned, inside⟩
  · rintro ⟨rounds, scan, returned, inside⟩
    cases found : finds.conversion.result with
    | none => rw [finds.conversion.goesOn found rounds] at returned; cases returned
    | some other =>
      obtain ⟨fuel, ended⟩ := finds.conversion.ended other found
      obtain ⟨last, looped, rfl⟩ := Option.map_eq_some_iff.1 ended
      obtain ⟨lastToo, loopedToo, rfl⟩ := Option.map_eq_some_iff.1 returned
      obtain rfl := returned_unique looped loopedToo
      exact ⟨_, found, inside⟩

end BekenSdk.SdioIntf
