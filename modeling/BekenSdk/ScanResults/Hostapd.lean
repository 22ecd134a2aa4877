import BekenSdk.ScanResults.Handler

/-! The references of the hostapd ioctls on scan results (hostapd_intf.c). The pointer that
the layer saves is the only place where it keeps a reference. It is in balance as long as results are not
fetched again before they are given back, and nothing clears the pointer meanwhile.
The station status, the callbacks and the information elements of the results are not modelled.
-/

set_option autoImplicit false

namespace BekenSdk.ScanResults
open Base

structure Build where
  wpaCtrlIface : Bool
  roleLaunch : Bool
  sme : Bool

/-- Where a call of the layer is. Only one task makes such calls. -/
inductive Call where
  | idle
  /-- Before the test of the saved pointer. -/
  | testing (orGet : Bool)
  | releasing (ptr : Nat)
  | storing
  | getting
  | pairing (rst : Option Nat)

/-- A reference is on its way back. -/
def Call.giving : Call → Bool
  | .releasing _ | .storing | .pairing _ => true
  | _ => false

/-- `refs` has the sets that the layer got from `sr_get_scan_results` and has not given back,
and `stray` those that it released without a reference. -/
structure Hapd where
  scan : Scan
  scanResultUploadPtr : Option Nat
  call : Call
  refs : List Nat
  stray : List Nat

/-- What the callers and the other tasks do. -/
inductive HapdEvent where
  | getScanRst (cancel : Bool) (memory : Nat → Bool)
  | sendAssocReq (cancel memory : Bool) (sent : Int)
  | releaseScanRst
  /-- The call goes on. -/
  | proceed
  | clear
  | scan (event : Event)

namespace Scan

/-- The release frees the set, and calls `wpa_clear_scan_results`. -/
def frees (ptr : Option Nat) (s : Scan) : Bool := ptr.any fun p => (s.sets.content p).ref = 1

/-- The step of the handler or of a reader ends with a set freed. -/
def clears (event : Event) (s : Scan) : Bool :=
  match event, s.handler with
  | .release ptr, _ => s.frees ptr
  | .handle _, .flushing ptr _ => ptr.isSome
  | _, _ => false

end Scan

namespace Hapd

/-! ## The layer -/

def srGetScanResults (h : Hapd) : Option Nat × Hapd :=
  (h.scan.scanRstSetPtr, { h with
    scan := { h.scan.srGetScanResults with held := h.scan.held }
    refs := h.scan.scanRstSetPtr.toList ++ h.refs })

def wpaClearScanResults (h : Hapd) : Hapd := { h with scanResultUploadPtr := none }

def wpaBufferScanResults (h : Hapd) : Hapd :=
  let (ptr, h) := h.srGetScanResults
  { h with scanResultUploadPtr := ptr }

def srReleaseScanResults (ptr : Option Nat) (h : Hapd) : Hapd :=
  let g := { h with
    scan := h.scan.srReleaseScanResults ptr
    refs := ptr.elim h.refs h.refs.erase
    stray := ptr.toList.filter (fun p => p ∉ h.refs) ++ h.stray }
  if h.scan.frees ptr then g.wpaClearScanResults else g

/-- The results are copied as long as there is memory. -/
def copyResults (memory : Nat → Bool) : Nat → List StaScanRes → Int × List StaScanRes
  | _, [] => (0, [])
  | i, item :: rest =>
    if memory i then
      let (ret, results) := copyResults memory (i + 1) rest
      (ret, item :: results)
    else (-1, [])

/-- The return value, the results, and the state when interrupts are on again. -/
def wpaGetScanRst (build : Build) (cancel : Bool) (memory : Nat → Bool) (h : Hapd) : (Int × List StaScanRes) × Hapd :=
  let h := h.wpaBufferScanResults
  match h.scanResultUploadPtr with
  | none => ((if build.roleLaunch ∧ cancel then -1 else if build.wpaCtrlIface then 0 else -1, []), h)
  | some p =>
    (copyResults memory 0 (h.scan.sets.content p).res,
      -- wpa_hostapd_release_scan_rst comes after GLOBAL_INT_RESTORE
      { h with scan := h.scan.touch p id, call := if build.wpaCtrlIface then .testing true else .idle })

/-- Up to the test of the saved pointer; without memory the call returns before. -/
def wpaSendAssocReq (build : Build) (cancel memory : Bool) (sent : Int) (h : Hapd) : Int × Hapd :=
  if !build.sme ∧ build.roleLaunch ∧ cancel then (0, { h with call := .testing false })
  else if memory then (sent, { h with call := .testing false })
  else (-1, h)

def wpaHostapdReleaseScanRst (h : Hapd) : Hapd := { h with call := .testing true }

/-- Between two of these steps other tasks may run. -/
def proceed (h : Hapd) : Option Hapd :=
  match h.call with
  | .idle => none
  | .testing orGet =>
    match h.scanResultUploadPtr with
    | some p => some { h with call := .releasing p }
    | none => some { h with call := if orGet then .getting else .idle }
  | .releasing p => some { h.srReleaseScanResults (some p) with call := .storing }
  | .storing => some { h with scanResultUploadPtr := none, call := .idle }
  | .getting =>
    let (rst, h) := h.srGetScanResults
    some { h with call := .pairing rst }
  | .pairing rst => some { h.srReleaseScanResults rst with call := .idle }

def scanned (event : Event) (h : Hapd) : Option Hapd :=
  (h.scan.step event).map fun scan =>
    let g := { h with scan := scan }
    if h.scan.clears event then g.wpaClearScanResults else g

def step (build : Build) (event : HapdEvent) (h : Hapd) : Option Hapd :=
  match event, h.call with
  | .getScanRst cancel memory, .idle => some (h.wpaGetScanRst build cancel memory).2
  | .sendAssocReq cancel memory sent, .idle => some (h.wpaSendAssocReq build cancel memory sent).2
  | .releaseScanRst, .idle => some h.wpaHostapdReleaseScanRst
  | .proceed, _ => h.proceed
  | .clear, _ => some h.wpaClearScanResults
  | .scan event, _ => h.scanned event
  | _, _ => none

def start (scan : Scan) : Hapd := ⟨scan, none, .idle, [], []⟩

end Hapd

/-! ## The balance -/

/-- The saved pointer stands for the one reference there is, but while it is given back. -/
structure Accounted (h : Hapd) : Prop where
  balance : h.call.giving = false → h.refs.length = if h.scanResultUploadPtr.isSome then 1 else 0
  owned : h.stray = []

/-- Results are fetched when none are kept, and the pointer is not cleared under a reference. -/
def Kept (h : Hapd) : HapdEvent → Prop
  | .getScanRst _ _ => h.scanResultUploadPtr = none
  | .clear => h.scanResultUploadPtr = none ∨ h.call.giving = true
  | .scan event => h.scan.clears event = true → h.scanResultUploadPtr = none ∨ h.call.giving = true
  | _ => True

instance (h : Hapd) (event : HapdEvent) : Decidable (Kept h event) := by
  unfold Kept
  split <;> infer_instance

namespace Hapd
variable {h next : Hapd} {build : Build}

/-- Which references there are, at each place of a call. -/
def Balanced (h : Hapd) : Prop :=
  match h.call with
  | .idle | .testing _ => h.refs = h.scanResultUploadPtr.toList
  | .releasing p => h.refs = [p]
  | .storing => h.refs = []
  | .getting => h.refs = [] ∧ h.scanResultUploadPtr = none
  | .pairing rst => h.refs = rst.toList ∧ h.scanResultUploadPtr = none

/-- The set given back is the one that the layer has. -/
theorem srReleaseScanResults_own {ptr : Option Nat} (refs : h.refs = ptr.toList) (owned : h.stray = []) :
    (h.srReleaseScanResults ptr).refs = [] ∧ (h.srReleaseScanResults ptr).stray = [] := by
  suffices ptr.elim h.refs h.refs.erase = [] ∧ ptr.toList.filter (fun p => p ∉ h.refs) ++ h.stray = [] by
    unfold srReleaseScanResults
    dsimp only
    split
    · exact this
    · exact this
  cases ptr with
  | none => exact ⟨refs, owned⟩
  | some p =>
    rw [refs, owned]
    exact ⟨List.erase_cons_head p [], by simp⟩

/-- It does not set the saved pointer. -/
theorem srReleaseScanResults_ptr {ptr : Option Nat} (cleared : h.scanResultUploadPtr = none) :
    (h.srReleaseScanResults ptr).scanResultUploadPtr = none := by
  unfold srReleaseScanResults
  dsimp only
  split
  · rfl
  · exact cleared

theorem start_balanced (scan : Scan) : (start scan).Balanced := rfl

/-- Without a reference, or while it is given back, the saved pointer may go. -/
theorem Balanced.cleared (balanced : h.Balanced) (free : h.scanResultUploadPtr = none ∨ h.call.giving = true) :
    h.wpaClearScanResults.Balanced := by
  unfold Balanced at balanced ⊢
  unfold wpaClearScanResults
  dsimp only
  cases place : h.call with
  | idle =>
    rw [place] at balanced free
    rcases free with none_kept | giving
    · rwa [none_kept] at balanced
    · cases giving
  | testing orGet =>
    rw [place] at balanced free
    rcases free with none_kept | giving
    · rwa [none_kept] at balanced
    · cases giving
  | releasing p => rwa [place] at balanced
  | storing => rwa [place] at balanced
  | getting =>
    rw [place] at balanced
    exact ⟨balanced.1, rfl⟩
  | pairing rst =>
    rw [place] at balanced
    exact ⟨balanced.1, rfl⟩

theorem getScanRst_balanced {cancel : Bool} {memory : Nat → Bool} (balanced : h.Balanced) (idle : h.call = .idle)
    (kept : h.scanResultUploadPtr = none) : (h.wpaGetScanRst build cancel memory).2.Balanced := by
  unfold Balanced at balanced
  rw [idle, kept] at balanced
  have refs : h.scan.scanRstSetPtr.toList ++ h.refs = h.scan.scanRstSetPtr.toList := by
    have none_there : h.refs = [] := balanced
    rw [none_there, List.append_nil]
  unfold wpaGetScanRst wpaBufferScanResults srGetScanResults
  dsimp only
  split
  next current =>
    unfold Balanced
    dsimp only
    rw [idle]
    exact refs
  next p current =>
    unfold Balanced
    dsimp only
    cases build.wpaCtrlIface with
    | true => exact refs
    | false => exact refs

theorem proceed_balanced (balanced : h.Balanced) (owned : h.stray = []) (taken : h.proceed = some next) :
    next.Balanced ∧ next.stray = [] := by
  unfold Balanced at balanced
  unfold proceed at taken
  cases place : h.call with
  | idle =>
    rw [place] at taken
    cases taken
  | testing orGet =>
    rw [place] at balanced taken
    dsimp only at balanced taken
    cases saved : h.scanResultUploadPtr with
    | none =>
      rw [saved] at balanced taken
      obtain rfl := Option.some.inj taken
      refine ⟨?_, owned⟩
      cases orGet with
      | true => exact ⟨balanced, rfl⟩
      | false => exact balanced
    | some p =>
      rw [saved] at balanced taken
      obtain rfl := Option.some.inj taken
      exact ⟨balanced, owned⟩
  | releasing p =>
    rw [place] at balanced taken
    obtain rfl := Option.some.inj taken
    exact @srReleaseScanResults_own h (some p) balanced owned
  | storing =>
    rw [place] at balanced taken
    obtain rfl := Option.some.inj taken
    exact ⟨balanced, owned⟩
  | getting =>
    rw [place] at balanced taken
    obtain rfl := Option.some.inj taken
    refine ⟨⟨?_, balanced.2⟩, owned⟩
    change h.scan.scanRstSetPtr.toList ++ h.refs = _
    rw [balanced.1, List.append_nil]
  | pairing rst =>
    rw [place] at balanced taken
    obtain rfl := Option.some.inj taken
    obtain ⟨refs, stray⟩ := srReleaseScanResults_own balanced.1 owned
    refine ⟨?_, stray⟩
    change (h.srReleaseScanResults rst).refs = (h.srReleaseScanResults rst).scanResultUploadPtr.toList
    rw [refs, srReleaseScanResults_ptr balanced.2]
    rfl

theorem step_balanced {event : HapdEvent} (both : h.Balanced ∧ h.stray = []) (kept : Kept h event)
    (taken : step build event h = some next) : next.Balanced ∧ next.stray = [] := by
  obtain ⟨balanced, owned⟩ := both
  unfold step at taken
  split at taken
  next cancel memory idle =>
    obtain rfl := Option.some.inj taken
    refine ⟨getScanRst_balanced balanced idle kept, ?_⟩
    unfold wpaGetScanRst
    dsimp only
    split
    · exact owned
    · exact owned
  next cancel memory sent idle =>
    obtain rfl := Option.some.inj taken
    have refs : h.refs = h.scanResultUploadPtr.toList := by
      unfold Balanced at balanced
      rwa [idle] at balanced
    unfold wpaSendAssocReq
    split_ifs
    · exact ⟨refs, owned⟩
    · exact ⟨refs, owned⟩
    · exact ⟨balanced, owned⟩
  next idle =>
    obtain rfl := Option.some.inj taken
    unfold Balanced at balanced
    rw [idle] at balanced
    exact ⟨balanced, owned⟩
  next => exact proceed_balanced balanced owned taken
  next =>
    obtain rfl := Option.some.inj taken
    exact ⟨balanced.cleared kept, owned⟩
  next event =>
    obtain ⟨scan, -, rfl⟩ := Option.map_eq_some_iff.mp taken
    split
    next cleared => exact ⟨@Balanced.cleared { h with scan := scan } balanced (kept cleared), owned⟩
    next => exact ⟨balanced, owned⟩
  next => cases taken

theorem accounted_of_balanced (balanced : h.Balanced) (owned : h.stray = []) : Accounted h := by
  refine ⟨fun place => ?_, owned⟩
  have same : h.refs = h.scanResultUploadPtr.toList := by
    unfold Balanced at balanced
    cases at_call : h.call with
    | idle => rwa [at_call] at balanced
    | testing orGet => rwa [at_call] at balanced
    | getting =>
      rw [at_call] at balanced
      rw [balanced.1, balanced.2]
      rfl
    | releasing p =>
      rw [at_call] at place
      cases place
    | storing =>
      rw [at_call] at place
      cases place
    | pairing rst =>
      rw [at_call] at place
      cases place
  rw [same]
  cases h.scanResultUploadPtr with
  | none => rfl
  | some p => rfl

end Hapd

/-- The references are in balance throughout a run that keeps the saved pointer. -/
theorem references_balanced (build : Build) (scan : Scan) {moments : List (Moment Hapd HapdEvent)} {final : Hapd}
    (run : Run (Machine.Step (Hapd.step build)) (.start scan) moments final)
    (kept : ∀ moment ∈ moments, Kept moment.before moment.event) : Machine.Always Accounted moments final := by
  have always := @Machine.always_of_invariant _ _ _ _ _ _ (fun h => Hapd.Balanced h ∧ h.stray = []) Kept run
    ⟨Hapd.start_balanced scan, rfl⟩ (fun both fine taken => Hapd.step_balanced both fine taken) kept
  exact always.mono fun _ both => Hapd.accounted_of_balanced both.1 both.2

/-! ## Small runs -/

/-- A build as the default configurations have it. -/
def plain : Build := ⟨false, false, false⟩

/-- The core has found an access point, and nobody reads the results. -/
def found : Scan where
  sets := (Arena.empty fun _ => ⟨0, []⟩).alloc ⟨0, [⟨[2], true, -40⟩]⟩
  scanRstSetPtr := some 0
  resultfulScanCfm := false
  held := []
  handler := .idle
  lost := []

/-- The latest first: the results are fetched and an association gives them back. -/
def fetchThenAssociate : List HapdEvent :=
  [.proceed, .proceed, .proceed, .sendAssocReq false true 0, .getScanRst false fun _ => true]

theorem references_balanced_association :
    ∃ moments final, Run (Machine.Step (Hapd.step plain)) (.start found) moments final ∧
      moments.map Moment.event = fetchThenAssociate ∧ final.scan.sets.freed = [0] ∧
      Machine.Always Accounted moments final := by
  obtain ⟨moments, final, run, events, kept, shown⟩ := @Machine.run_of_fine _ _ (Hapd.step plain) (.start found) Kept _
    fetchThenAssociate (fun final => final.scan.sets.freed = [0]) (by decide)
  exact ⟨moments, final, run, events, of_decide_eq_true shown, references_balanced plain found run kept⟩

/-- The results are fetched twice, before any association. -/
def fetchTwice : List HapdEvent := [.getScanRst false fun _ => true, .getScanRst false fun _ => true]

theorem second_fetch_unbalanced :
    ¬∀ (build : Build) (scan : Scan) (moments : List (Moment Hapd HapdEvent)) (final : Hapd),
      Run (Machine.Step (Hapd.step build)) (.start scan) moments final → Machine.Always Accounted moments final := by
  intro accounted
  obtain ⟨moments, final, run, -, shown⟩ := @Machine.run_of_any _ _ (Hapd.step plain) (.start found) fetchTwice
    (fun final => final.call.giving = false ∧ final.refs.length = 2) (by decide)
  obtain ⟨idle, two⟩ := of_decide_eq_true shown
  have balance := (accounted plain found moments final run).2.balance idle
  rw [two] at balance
  split at balance
  · cases balance
  · cases balance

end BekenSdk.ScanResults
