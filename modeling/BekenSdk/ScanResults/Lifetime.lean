import BekenSdk.ScanResults.Handler

/-! How long a result set lives. The reference count is that of the readers, so the
last one to release frees the set; a flush does not ask for it. As long as a set
has fewer readers than its count can hold, flushes are all that can go wrong, and
one goes wrong just when there is a reader, or when the set is no longer there.
-/

set_option autoImplicit false

namespace BekenSdk.ScanResults
open Base

/-- Every set is freed once or is the current one, none that a reader has is freed,
and the global pointer is right and was never taken from a live set. -/
structure Lasting (s : Scan) : Prop where
  once : s.sets.freed.Nodup
  each : ∀ p < s.sets.count, p ∈ s.sets.freed ∨ s.scanRstSetPtr = some p
  held : ∀ p, some p ∈ s.held → p ∉ s.sets.freed
  current : ∀ p, s.scanRstSetPtr = some p → s.sets.Live p
  kept : s.lost = []

/-- The set flushed is the current one, and nobody reads it. -/
def Unread (s : Scan) (event : Event) : Prop :=
  match event, s.handler with
  | .handle _, .flushing (some p) _ => s.scanRstSetPtr = some p ∧ some p ∉ s.held
  | _, _ => True

/-- A reader comes when the count is not at its end. -/
def Countable (s : Scan) (event : Event) : Prop :=
  match event, s.scanRstSetPtr with
  | .get, some p => (s.sets.content p).ref ≠ 0xffff
  | _, _ => True

instance (s : Scan) (event : Event) : Decidable (Unread s event) := by
  unfold Unread
  have apart (p : Nat) : Decidable (some p ∉ s.held) :=
    decidable_of_iff (∀ ptr ∈ s.held, some p ≠ ptr)
      ⟨fun all member => all _ member rfl, fun absent ptr member same => absent (same ▸ member)⟩
  generalize s.handler = handler
  cases event <;> rcases handler with _ | _ | _ | _ | _ | ⟨_ | _, _⟩ <;> infer_instance

instance (s : Scan) (event : Event) : Decidable (Countable s event) := by
  unfold Countable
  split <;> infer_instance

theorem mhdrScanuResultInd_ref {ind : ScanInd} {set : ScanRstUpload} : (mhdrScanuResultInd ind set).ref = set.ref := by
  unfold mhdrScanuResultInd
  split_ifs
  case neg => split <;> rfl
  all_goals rfl

namespace Scan
variable {s t : Scan} {p : Nat} {ptr : Option Nat} {change : ScanRstUpload → ScanRstUpload}

/-- What the handler relies on between two of its steps. -/
def HandlerSound (s : Scan) : Prop :=
  match s.handler with
  | .flushing none _ => s.scanRstSetPtr = none
  | .flushing (some p) _ => p < s.sets.count
  | .clearing _ => s.scanRstSetPtr = none
  | .allocating _ => s.scanRstSetPtr = none
  | _ => True

theorem HandlerSound.of_cleared (sound : s.HandlerSound) (same : t.handler = s.handler)
    (cleared : t.scanRstSetPtr = none)
    (count : t.sets.count = s.sets.count) : t.HandlerSound := by
  unfold HandlerSound at sound ⊢
  rw [same, cleared, count]
  cases shape : s.handler with
  | flushing ptr reason =>
    cases ptr with
    | none => rfl
    | some p => simpa only [shape] using sound
  | clearing reason => rfl
  | allocating ind => rfl
  | _ => trivial

/-- The current set is the only one, and counts its readers. -/
structure Sound (s : Scan) : Prop where
  each : (s.scanRstSetPtr.toList ++ s.sets.freed).Perm (List.range s.sets.count)
  counted : ∀ p, s.scanRstSetPtr = some p → (s.sets.content p).ref.toNat = s.held.count (some p)
  held : ∀ p, some p ∈ s.held → s.scanRstSetPtr = some p
  handler : s.HandlerSound
  kept : s.lost = []

section
variable (p : Nat) (change : ScanRstUpload → ScanRstUpload) (s : Scan)

@[simp] theorem touch_freed : (s.touch p change).sets.freed = s.sets.freed := Arena.access_freed _ _

@[simp] theorem touch_count : (s.touch p change).sets.count = s.sets.count := Arena.access_count _ _

@[simp] theorem touch_ptr : (s.touch p change).scanRstSetPtr = s.scanRstSetPtr := rfl

@[simp] theorem touch_held : (s.touch p change).held = s.held := rfl

@[simp] theorem touch_handler : (s.touch p change).handler = s.handler := rfl

@[simp] theorem touch_lost : (s.touch p change).lost = s.lost := rfl

@[simp] theorem touch_content_self : (s.touch p change).sets.content p = change (s.sets.content p) :=
  Function.update_self _ _ _

end

theorem touch_content_ne {q : Nat} (other : q ≠ p) : (s.touch p change).sets.content q = s.sets.content q :=
  Function.update_of_ne other _ _

theorem start_sound (content : Nat → ScanRstUpload) : (start content).Sound where
  each := List.Perm.refl _
  counted _ none := nomatch none
  held _ member := absurd member List.not_mem_nil
  handler := trivial
  kept := rfl

theorem get_of_none (nothing : s.scanRstSetPtr = none) : s.srGetScanResults = { s with held := none :: s.held } := by
  rw [srGetScanResults, nothing]

theorem get_of_some (current : s.scanRstSetPtr = some p) : s.srGetScanResults =
    { s.touch p (fun set => { set with ref := set.ref + 1 }) with held := some p :: s.held } := by
  rw [srGetScanResults, current]

theorem release_last (one : (s.sets.content p).ref = 1) : s.srReleaseScanResults (some p) =
    ((s.touch p fun set => { set with ref := set.ref - 1 }).srFreeAll p).clear := by
  rw [srReleaseScanResults, one]
  rfl

theorem release_later (some' : (s.sets.content p).ref ≠ 0) (more : (s.sets.content p).ref ≠ 1) :
    s.srReleaseScanResults (some p) = s.touch p fun set => { set with ref := set.ref - 1 } := by
  have left : (s.sets.content p).ref - 1 ≠ 0 := fun none => more (by grind)
  rw [srReleaseScanResults, if_neg some', if_pos left]

/-- A flush frees the set that it is given. -/
theorem flush_eq : s.srFlushScanResults (some p) =
    (((s.touch p fun set => { set with ref := 1 }).touch p fun set => { set with ref := set.ref - 1 }).srFreeAll p).clear :=
  release_last (by rw [touch_content_self])

theorem freeAll_freed : (s.srFreeAll p).sets.freed = p :: s.sets.freed := by
  simp only [srFreeAll, Arena.free, touch_freed]

theorem freeAll_count : (s.srFreeAll p).sets.count = s.sets.count := by
  simp only [srFreeAll, Arena.free, Arena.access_count, touch_count]

namespace Sound

theorem nodup (sound : s.Sound) : (s.scanRstSetPtr.toList ++ s.sets.freed).Nodup :=
  sound.each.nodup_iff.mpr List.nodup_range

theorem known (sound : s.Sound) : p < s.sets.count ↔ s.scanRstSetPtr = some p ∨ p ∈ s.sets.freed := by
  rw [← List.mem_range, ← sound.each.mem_iff, List.mem_append, Option.mem_toList]

theorem live (sound : s.Sound) (current : s.scanRstSetPtr = some p) : s.sets.Live p := by
  refine ⟨sound.known.mpr (.inl current), fun gone => ?_⟩
  have member : p ∈ s.scanRstSetPtr.toList := Option.mem_toList.mpr current
  exact List.disjoint_of_nodup_append sound.nodup member gone

/-- What the claim says follows from the invariant. -/
theorem lasting (sound : s.Sound) : Lasting s where
  once := (List.nodup_append.mp sound.nodup).2.1
  each _ allocated := (sound.known.mp allocated).symm
  held p member := (sound.live (sound.held p member)).2
  current _ now := sound.live now
  kept := sound.kept

/-! ## Steps -/

theorem setHandler {handler : Handler} (sound : s.Sound) (fine : HandlerSound { s with handler := handler }) :
    Sound { s with handler := handler } := ⟨sound.each, sound.counted, sound.held, fine, sound.kept⟩

theorem setFlag (sound : s.Sound) (flag : Bool) : Sound { s with resultfulScanCfm := flag } :=
  ⟨sound.each, sound.counted, sound.held, sound.handler, sound.kept⟩

/-- Items come and go without a change of the count. -/
theorem touch (sound : s.Sound) (same : ∀ set, (change set).ref = set.ref) : (s.touch p change).Sound where
  each := by simpa only [touch_ptr, touch_freed, touch_count] using sound.each
  counted q current := by
    rw [touch_held, ← sound.counted q current]
    by_cases here : q = p
    · subst here
      rw [touch_content_self, same]
    · rw [touch_content_ne here]
  held := sound.held
  handler := by
    have before := sound.handler
    unfold HandlerSound at before ⊢
    simpa only [touch_handler, touch_count, touch_ptr] using before
  kept := sound.kept

theorem get (sound : s.Sound) (room : Countable s .get) : s.srGetScanResults.Sound := by
  cases current : s.scanRstSetPtr with
  | none =>
    rw [get_of_none current]
    refine ⟨sound.each, fun p now => ?_, fun p member => ?_, sound.handler, sound.kept⟩
    · cases current.symm.trans now
    · rcases List.mem_cons.mp member with clash | before
      · cases clash
      · exact sound.held p before
  | some p =>
    have bound : (s.sets.content p).ref ≠ 0xffff := by
      unfold Countable at room
      simpa only [current] using room
    have small : (s.sets.content p).ref.toNat + 1 < 2 ^ 16 := by
      have wide := (s.sets.content p).ref.toNat_lt
      have other : (s.sets.content p).ref.toNat ≠ 0xffff := fun equal => bound (UInt16.toNat_inj.mp equal)
      omega
    rw [get_of_some current]
    constructor
    · simpa only [touch_ptr, touch_freed, touch_count] using sound.each
    · intro q now
      obtain rfl : p = q := Option.some.inj (current.symm.trans now)
      rw [touch_content_self, List.count_cons_self, ← sound.counted p current, UInt16.toNat_add]
      exact Nat.mod_eq_of_lt small
    · intro q member
      rcases List.mem_cons.mp member with here | before
      · exact current.trans here.symm
      · exact sound.held q before
    · have before := sound.handler
      unfold HandlerSound at before ⊢
      simpa only [touch_handler, touch_count, touch_ptr] using before
    · exact sound.kept

/-- The current set goes when no reader is left, whatever its count was before. -/
theorem drop {u : Scan} {held : List (Option Nat)} (sound : s.Sound) (current : s.scanRstSetPtr = some p)
    (same : u.scanRstSetPtr = s.scanRstSetPtr ∧ u.sets.freed = s.sets.freed ∧ u.sets.count = s.sets.count ∧
      u.handler = s.handler ∧ u.lost = s.lost)
    (unread : ∀ q, some q ∈ held → q ≠ p ∧ some q ∈ s.held) : Sound { (u.srFreeAll p).clear with held := held } := by
  obtain ⟨ptr, freed, count, handler, lost⟩ := same
  constructor
  · have each := sound.each
    rw [current, ← freed, ← count] at each
    simpa only [clear, freeAll_freed, freeAll_count, Option.toList_none, Option.toList_some, List.singleton_append,
      List.nil_append] using each
  · exact fun _ none => nomatch none
  · intro q member
    obtain ⟨other, before⟩ := unread q member
    exact absurd (Option.some.inj ((sound.held q before).symm.trans current)) other
  · exact sound.handler.of_cleared handler rfl (freeAll_count.trans count)
  · have dead : ¬(u.srFreeAll p).sets.Live p := fun live => live.2 (by rw [freeAll_freed]; exact List.mem_cons_self)
    have now : (u.srFreeAll p).scanRstSetPtr = some p := ptr.trans current
    have old : (u.srFreeAll p).lost = [] := lost.trans sound.kept
    simp [clear, now, old, dead]

theorem release (sound : s.Sound) (member : ptr ∈ s.held) :
    Sound { s.srReleaseScanResults ptr with held := s.held.erase ptr } := by
  cases ptr with
  | none =>
    have same : ∀ q, (s.held.erase none).count (some q) = s.held.count (some q) :=
      fun q => List.count_erase_of_ne (Option.some_ne_none q)
    refine ⟨sound.each, fun q now => (sound.counted q now).trans (same q).symm, fun q held => ?_, sound.handler,
      sound.kept⟩
    exact sound.held q (List.mem_of_mem_erase held)
  | some p =>
    have current := sound.held p member
    have counted := sound.counted p current
    have positive : 0 < s.held.count (some p) := List.count_pos_iff.mpr member
    have readers : (s.held.erase (some p)).count (some p) = s.held.count (some p) - 1 := List.count_erase_self
    have some' : (s.sets.content p).ref ≠ 0 := by
      intro zero
      rw [zero] at counted
      exact Nat.ne_of_gt positive counted.symm
    by_cases one : (s.sets.content p).ref = 1
    · rw [release_last one]
      -- the count is that of the readers, so nobody else has the set
      have alone : some p ∉ s.held.erase (some p) := by
        rw [one] at counted
        rw [← List.count_eq_zero, readers, ← counted]
        rfl
      have same := @touch_freed p (fun set => { set with ref := set.ref - 1 }) s
      have kept := @touch_count p (fun set => { set with ref := set.ref - 1 }) s
      refine sound.drop current ⟨rfl, same, kept, rfl, rfl⟩ fun q held => ⟨?_, List.mem_of_mem_erase held⟩
      rintro rfl
      exact alone held
    · rw [release_later some' one]
      constructor
      · simpa only [touch_ptr, touch_freed, touch_count] using sound.each
      · intro q now
        obtain rfl : p = q := Option.some.inj (current.symm.trans now)
        have least : 1 ≤ (s.sets.content p).ref := by grind
        rw [touch_content_self, readers, ← counted, UInt16.toNat_sub_of_le _ _ least]
        rfl
      · exact fun q held => sound.held q (List.mem_of_mem_erase held)
      · have before := sound.handler
        unfold HandlerSound at before ⊢
        simpa only [touch_handler, touch_count, touch_ptr] using before
      · exact sound.kept

theorem flush (sound : s.Sound) (current : s.scanRstSetPtr = some p) (unread : some p ∉ s.held) :
    (s.srFlushScanResults (some p)).Sound := by
  rw [flush_eq]
  refine sound.drop current ⟨rfl, ?_, ?_, rfl, rfl⟩ fun q held => ⟨?_, held⟩
  · rw [touch_freed, touch_freed]
  · rw [touch_count, touch_count]
  · rintro rfl
    exact unread held

theorem flush_ptr : (s.srFlushScanResults (some p)).scanRstSetPtr = none := by
  rw [flush_eq]
  rfl

/-- Clearing the pointer again does nothing more. -/
theorem clear (sound : s.Sound) (cleared : s.scanRstSetPtr = none) : s.clear.Sound := by
  constructor
  · have each := sound.each
    rwa [cleared] at each
  · exact fun _ none => nomatch none
  · intro q member
    cases cleared.symm.trans (sound.held q member)
  · exact sound.handler.of_cleared rfl rfl rfl
  · simp [Scan.clear, cleared, sound.kept]

theorem alloc (sound : s.Sound) (cleared : s.scanRstSetPtr = none) :
    Sound { s with sets := s.sets.alloc ⟨0, []⟩, scanRstSetPtr := some s.sets.count, handler := .idle } := by
  have unread : ∀ q, some q ∉ s.held := fun q member => nomatch cleared.symm.trans (sound.held q member)
  constructor
  · have each := sound.each
    rw [cleared] at each
    simpa only [Arena.alloc, Option.toList_some, Option.toList_none, List.nil_append, List.singleton_append,
      List.range_succ] using (each.cons s.sets.count).trans (List.perm_append_singleton _ _).symm
  · intro q now
    obtain rfl := Option.some.inj now
    simp only [Arena.alloc, Function.update_self, List.count_eq_zero.mpr (unread _)]
    rfl
  · exact fun q member => absurd member (unread q)
  · trivial
  · exact sound.kept

theorem receive (sound : s.Sound) (msg : Message) : (s.receive msg).Sound := by
  cases msg with
  | scanuStartCfm ok => exact sound.setHandler (by unfold HandlerSound; cases s.scanRstSetPtr <;> trivial)
  | scanuResultInd ind =>
    exact sound.setHandler (by unfold HandlerSound; cases s.resultfulScanCfm && s.scanRstSetPtr.isSome <;> trivial)
  | smConnectInd =>
    exact sound.setHandler (by unfold HandlerSound; cases s.resultfulScanCfm && s.scanRstSetPtr.isSome <;> trivial)

theorem handle {memory : Bool} (sound : s.Sound) (unread : Unread s (.handle memory))
    (taken : s.handle memory = some t) : t.Sound := by
  have before := sound.handler
  unfold HandlerSound at before
  unfold Unread at unread
  have flushed : ∀ {ptr : Option Nat} {reason : Flush}, s.handler = .flushing ptr reason →
      (s.srFlushScanResults ptr).Sound ∧ (s.srFlushScanResults ptr).scanRstSetPtr = none := by
    intro ptr reason shape
    rw [shape] at before unread
    cases ptr with
    | none => exact ⟨sound, before⟩
    | some p => exact ⟨sound.flush unread.1 unread.2, flush_ptr⟩
  unfold Scan.handle at taken
  split at taken
  · cases taken
  next ok _ =>
    obtain rfl := Option.some.inj taken
    exact (sound.setFlag true).setHandler trivial
  next ok _ =>
    split at taken
    · obtain rfl := Option.some.inj taken
      exact sound.setHandler trivial
    · obtain rfl := Option.some.inj taken
      exact sound.setHandler (by unfold HandlerSound; cases ok <;> trivial)
  next =>
    split at taken
    · obtain rfl := Option.some.inj taken
      exact sound.setHandler trivial
    next p _ =>
      obtain rfl := Option.some.inj taken
      exact (@Sound.touch s p sortScanResult sound fun _ => rfl).setHandler trivial
  next reason _ =>
    obtain rfl := Option.some.inj taken
    refine sound.setHandler ?_
    unfold HandlerSound
    cases current : s.scanRstSetPtr with
    | none => rfl
    | some p => exact (sound.live current).1
  next ptr shape =>
    obtain rfl := Option.some.inj taken
    exact (flushed shape).1.setHandler trivial
  next ptr reason _ shape =>
    obtain rfl := Option.some.inj taken
    exact (flushed shape).1.setHandler (flushed shape).2
  next ind shape =>
    rw [shape] at before
    obtain rfl := Option.some.inj taken
    exact (sound.clear before).setHandler trivial
  next reason _ shape =>
    rw [shape] at before
    obtain rfl := Option.some.inj taken
    exact (sound.clear before).setHandler trivial
  next ind _ =>
    split at taken
    next current =>
      obtain rfl := Option.some.inj taken
      exact sound.setHandler current
    · obtain rfl := Option.some.inj taken
      exact sound.setHandler trivial
  next ind shape =>
    rw [shape] at before
    split at taken
    · obtain rfl := Option.some.inj taken
      exact (sound.alloc before).setHandler trivial
    · obtain rfl := Option.some.inj taken
      have same : { s with scanRstSetPtr := none } = s := by rw [← before]
      exact (same ▸ sound : Sound { s with scanRstSetPtr := none }).setHandler trivial
  next ind _ =>
    split at taken
    · obtain rfl := Option.some.inj taken
      exact sound.setHandler trivial
    next p _ =>
      obtain rfl := Option.some.inj taken
      exact (@Sound.touch s p (fun set => { set with res := [] }) sound fun _ => rfl).setHandler trivial
  next ind _ =>
    split at taken
    · obtain rfl := Option.some.inj taken
      exact sound.setHandler trivial
    next p _ =>
      obtain rfl := Option.some.inj taken
      exact (@Sound.touch s p (mhdrScanuResultInd ind) sound fun _ => mhdrScanuResultInd_ref).setHandler trivial

theorem step {event : Event} (sound : s.Sound) (room : Countable s event) (unread : Unread s event)
    (taken : Scan.step event s = some t) : t.Sound := by
  cases event with
  | get =>
    obtain rfl := Option.some.inj taken
    exact sound.get room
  | release ptr =>
    obtain ⟨member, last⟩ := Option.ite_none_right_eq_some.mp taken
    obtain rfl := Option.some.inj last
    exact sound.release member
  | message msg =>
    unfold Scan.step at taken
    dsimp only at taken
    split at taken
    · obtain rfl := Option.some.inj taken
      exact sound.receive msg
    · cases taken
  | handle memory => exact sound.handle unread taken

/-- A flush of a set that is read, or of one that is gone. -/
theorem spoiled {event : Event} (sound : s.Sound) (bad : ¬Unread s event) (taken : Scan.step event s = some t) :
    ¬Lasting t := by
  unfold Unread at bad
  split at bad
  next memory p reason shape =>
    have freed : t.sets.freed = p :: s.sets.freed ∧ t.held = s.held := by
      have flushed : (s.srFlushScanResults (some p)).sets.freed = p :: s.sets.freed := by
        rw [flush_eq]
        simp only [Scan.clear, freeAll_freed, touch_freed]
      have kept : (s.srFlushScanResults (some p)).held = s.held := by
        rw [flush_eq]
        rfl
      unfold Scan.step Scan.handle at taken
      rw [shape] at taken
      cases reason <;> obtain rfl := Option.some.inj taken <;> exact ⟨flushed, kept⟩
    have known := sound.handler
    unfold HandlerSound at known
    rw [shape] at known
    intro lasting
    have once := lasting.once
    rw [freed.1] at once
    have current := (sound.known.mp known).resolve_right (List.nodup_cons.mp once).1
    refine bad ⟨current, fun member => ?_⟩
    have live := lasting.held p (freed.2 ▸ member)
    rw [freed.1] at live
    exact live List.mem_cons_self
  · exact absurd trivial bad

end Sound

end Scan

/-! ## Runs -/

/-- As long as the readers of a set can be counted, every set lasts as long as its
readers if and only if each flush finds the current set, without a reader. -/
theorem lasting_iff {content : Nat → ScanRstUpload} {moments : List (Moment Scan Event)} {final : Scan}
    (run : Run (Machine.Step Scan.step) (Scan.start content) moments final)
    (countable : ∀ moment ∈ moments, Countable moment.before moment.event) :
    Machine.Always Lasting moments final ↔ ∀ moment ∈ moments, Unread moment.before moment.event :=
  Machine.always_iff_of_invariant run (Scan.start_sound content) (fun _ sound => sound.lasting)
    (fun sound room unread taken => sound.step room unread taken)
    (fun sound _ bad taken => sound.spoiled bad taken) countable

/-! ## Sample runs -/

def noSet : Nat → ScanRstUpload := fun _ => ⟨0, []⟩

def accessPoint : ScanInd := ⟨⟨[1, 2, 3, 4, 5, 6], true, -40⟩, true, true⟩

/-- Handling of an indication that begins a set, the latest step first. -/
def beginSet : List Event := List.replicate 4 (.handle true) ++ [.message (.scanuResultInd accessPoint)]

def confirm (ok : Bool) : List Event := List.replicate 3 (.handle true) ++ [.message (.scanuStartCfm ok)]

/-- What the sample runs may do: both conditions at once. -/
def Fine (s : Scan) (event : Event) : Prop := Countable s event ∧ Unread s event

instance (s : Scan) (event : Event) : Decidable (Fine s event) := inferInstanceAs (Decidable (_ ∧ _))

/-- Two readers share the first set, which goes with the second of them; the set
of the next scan is flushed by the first result of the one after it. -/
theorem two_scans_lasting : ∃ moments final, Run (Machine.Step Scan.step) (Scan.start noSet) moments final ∧
    final.sets.freed = [1, 0] ∧ final.scanRstSetPtr = some 2 ∧ Machine.Always Lasting moments final := by
  have scanned : (Machine.replay (Machine.guarded Fine Scan.step) (Scan.start noSet)
      (List.replicate 7 (.handle true) ++ [.message (.scanuResultInd accessPoint)] ++ confirm true ++ beginSet ++
        [.release (some 0), .release (some 0), .get, .get] ++ confirm true ++ beginSet)).any
      (fun s => decide (s.sets.freed = [1, 0] ∧ s.scanRstSetPtr = some 2)) = true := by
    decide
  obtain ⟨moments, final, run, -, fine, shown⟩ := Machine.run_of_fine scanned
  obtain ⟨freed, current⟩ := of_decide_eq_true shown
  have lasting := (lasting_iff run fun moment member => (fine moment member).1).mpr fun moment member =>
    (fine moment member).2
  exact ⟨moments, final, run, freed, current, lasting⟩

/-- A scan fails while a reader has the set that it has brought so far. -/
theorem failed_scan_frees_read_set : ¬∀ moments final,
    Run (Machine.Step Scan.step) (Scan.start noSet) moments final → Machine.Always Lasting moments final := by
  intro claim
  have freed : (Machine.replay Scan.step (Scan.start noSet) ([.handle true] ++ confirm false ++ [.get] ++ beginSet)).any
      (fun s => decide (some 0 ∈ s.held ∧ 0 ∈ s.sets.freed)) = true := by
    decide
  obtain ⟨moments, final, run, -, shown⟩ := Machine.run_of_any freed
  obtain ⟨member, gone⟩ := of_decide_eq_true shown
  exact (claim moments final run).2.held 0 member gone

/-- A reader comes and goes between the pointer being read and the flush, and the
set is freed a second time. -/
theorem flush_frees_twice : ¬∀ moments final,
    Run (Machine.Step Scan.step) (Scan.start noSet) moments final → Machine.Always Lasting moments final := by
  intro claim
  have freed : (Machine.replay Scan.step (Scan.start noSet)
      ([.handle true, .release (some 0), .get] ++ confirm false ++ beginSet)).any
      (fun s => decide (s.sets.freed = [0, 0])) = true := by
    decide
  obtain ⟨moments, final, run, -, shown⟩ := Machine.run_of_any freed
  have once := (claim moments final run).2.once
  rw [of_decide_eq_true shown] at once
  exact absurd once (by decide)

end BekenSdk.ScanResults
