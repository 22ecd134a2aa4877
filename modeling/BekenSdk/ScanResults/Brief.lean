import BekenSdk.ScanResults.Construction
import BekenSdk.ScanResults.Handler

/-! The tables of the handler have short entries. What it does with them is what is done with the entries of the frames.
-/

set_option autoImplicit false

namespace BekenSdk.ScanResults.Frames
open Base

/-- What decides about an entry later. -/
def brief (entry : StaScanRes) : ScanResults.StaScanRes := ⟨entry.bssid, entry.onChannel, entry.level⟩

section
variable (parsers : Parsers) (arrival : Arrival) (res : List StaScanRes)

def briefInd : ScanResults.ScanInd where
  item := brief (item parsers arrival)
  permitted := (adjustChannel parsers arrival).permitted
  memory := (!arrival.scanOnly || arrival.iesMemory) && arrival.itemMemory

/-- The last index of an entry for which it holds. -/
theorem lastIndex_cons {α : Type} (holds : α → Bool) (first : α) (rest : List α) :
    ((List.range (first :: rest).length).filter fun j => ((first :: rest)[j]?).any holds).getLast? =
      (((List.range rest.length).filter fun j => (rest[j]?).any holds).getLast?.map (· + 1)).or
        (if holds first then some 0 else none) := by
  have tail : ((List.range rest.length).map Nat.succ).filter (fun j => ((first :: rest)[j]?).any holds) =
      ((List.range rest.length).filter fun j => (rest[j]?).any holds).map Nat.succ := by
    rw [List.filter_map]
    rfl
  have head : (((first :: rest)[0]?).any holds) = holds first := rfl
  rw [List.length_cons, List.range_succ_eq_map, List.filter_cons, tail, head]
  cases holds first with
  | false => simp
  | true => simp [List.getLast?_cons, Option.or_some]

/-- The last one of the same access point, counted from an index, or what was found before. -/
theorem checkDuplicate_eq (key : List UInt8) (onChannel : Bool) (i : Nat) (old : Option Nat) :
    checkDuplicate key onChannel res i old =
      if res.any fun entry => entry.bssid = key ∧ (entry.onChannel = true ∨ onChannel = false) then none
      else some ((((List.range res.length).filter fun j =>
        (res[j]?).any fun entry => entry.bssid = key).getLast?.map (i + ·)).or old) := by
  induction res generalizing i old with
  | nil => simp [checkDuplicate]
  | cons first rest ih =>
    unfold checkDuplicate
    rw [ih, ih, lastIndex_cons, List.any_cons]
    generalize ((List.range rest.length).filter fun j =>
      (rest[j]?).any fun entry => decide (entry.bssid = key)).getLast? = later
    by_cases same : first.bssid = key
    · subst same
      by_cases stays : first.onChannel = true ∨ onChannel = false
      · simp [stays]
      · cases later <;> simp [stays, Nat.add_assoc, Nat.add_comm 1]
    · cases later <;> simp [same, Ne.symm same, Nat.add_assoc, Nat.add_comm 1]

/-- The handler does with the short entries what it does with the whole ones. -/
theorem brief_handle (ref : UInt16) :
    (ScanResults.mhdrScanuResultInd (briefInd parsers arrival) ⟨ref, res.map brief⟩).res =
      (mhdrScanuResultInd parsers arrival res).res.map brief := by
  have duplicate := checkDuplicate_eq res (bssid arrival) (adjustChannel parsers arrival).onChannel 0 none
  have index : ScanResults.replaceIndex (brief (item parsers arrival)) (res.map brief) =
      ((List.range res.length).filter fun j => (res[j]?).any fun entry => entry.bssid = bssid arrival).getLast? := by
    unfold ScanResults.replaceIndex
    simp only [List.length_map, List.getElem?_map, Option.any_map]
    rfl
  have key : (brief (item parsers arrival)).bssid = bssid arrival := rfl
  have onChannel : (brief (item parsers arrival)).onChannel = (adjustChannel parsers arrival).onChannel := rfl
  have any : ∀ key onChannel, ((res.map brief).any fun old => old.bssid = key ∧ (old.onChannel = true ∨ onChannel = false)) =
      res.any fun entry => entry.bssid = key ∧ (entry.onChannel = true ∨ onChannel = false) := fun _ _ => List.any_map
  unfold ScanResults.mhdrScanuResultInd mhdrScanuResultInd
  simp only [briefInd, key, onChannel, any, index, List.length_map, duplicate, ScanResults.maxBssList, maxBssList]
  by_cases full : 32 ≤ res.length
  · simp only [full, if_true]
  by_cases permitted : (adjustChannel parsers arrival).permitted = false
  · simp only [full, permitted, if_true, if_false]
  by_cases known : (res.any fun entry => decide (entry.bssid = bssid arrival ∧
      (entry.onChannel = true ∨ (adjustChannel parsers arrival).onChannel = false))) = true
  · simp only [full, permitted, known, if_true, if_false, reduceCtorEq]
  generalize ((List.range res.length).filter fun j =>
    (res[j]?).any fun entry => decide (entry.bssid = bssid arrival)).getLast? = last'
  simp only [full, permitted, known, if_false, reduceCtorEq]
  cases arrival.scanOnly <;> cases arrival.iesMemory <;> cases arrival.itemMemory <;> cases last' <;> simp [place]

end

theorem brief_exchange (elem : StaScanRes) (rest : List StaScanRes) :
    ScanResults.exchange (brief elem) (rest.map brief) =
      (brief (exchangeAlong (fun entry => entry.level.toInt) elem rest).1,
        (exchangeAlong (fun entry => entry.level.toInt) elem rest).2.map brief) := by
  induction rest generalizing elem with
  | nil => rfl
  | cons next rest ih =>
    unfold exchangeAlong
    rw [List.map_cons, ScanResults.exchange, ih, ih]
    have same : (brief next).level > (brief elem).level ↔ elem.level.toInt < next.level.toInt := Int32.lt_iff_toInt_lt
    by_cases stronger : elem.level.toInt < next.level.toInt
    · rw [if_pos stronger, if_pos (same.2 stronger)]
      rfl
    · rw [if_neg stronger, if_neg (mt same.1 stronger)]
      rfl

theorem brief_rounds (rounds : Nat) (res : List StaScanRes) :
    ScanResults.sortRounds rounds (res.map brief) = (exchangeRounds (fun entry => entry.level.toInt) rounds res).map brief := by
  induction rounds generalizing res with
  | zero => cases res <;> rfl
  | succ rounds ih =>
    cases res with
    | nil => rfl
    | cons elem rest =>
      rw [List.map_cons, ScanResults.sortRounds, brief_exchange, ih]
      rfl

theorem brief_sort (ref : UInt16) (res : List StaScanRes) :
    (ScanResults.sortScanResult ⟨ref, res.map brief⟩).res = (sortScanResult res).map brief := by
  have rounds := brief_rounds res.length res
  rw [ScanResults.sortScanResult, List.length_map]
  exact rounds

end BekenSdk.ScanResults.Frames
