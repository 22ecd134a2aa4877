import BekenSdk.Base.Machine
import BekenSdk.Heap.Operations

/-! The heap of RAM and PSRAM (heap_4.c and mem_arch.c, as built for BK7221U and BK7252N).
Both regions keep their lists, counters and blocks, until the block at the start of PSRAM is freed:
that one is given to the list of the RAM region.
-/

set_option autoImplicit false

namespace BekenSdk.Heap
open Base Region

/-! ## Two regions -/

inductive Soc where
  | bk7221u
  | bk7252n

/-- PSRAM_START_ADDRESS. -/
def psramUcHeap : Soc → Nat
  | .bk7221u => 0x00900000
  | .bk7252n => 0x02000000

def psramTotalHeapSize : Nat := 256 * 1024

/-- Where the heap is; the linker leaves it the rest of RAM. -/
structure Layout where
  soc : Soc
  ucHeap : Nat
  xTotalHeapSize : Nat

/-- There is room for a block in RAM, which lies below PSRAM. -/
structure Layout.Fits (l : Layout) : Prop where
  room : 32 ≤ l.xTotalHeapSize
  below : l.ucHeap + l.xTotalHeapSize ≤ psramUcHeap l.soc

structure Heaps where
  /-- `pxEnd` and `psram_pxEnd` are set. -/
  initialised : Bool
  ram : Region
  psram : Region

namespace Heaps
variable (l : Layout)

def boot (ramMem psramMem : Cells) : Heaps :=
  ⟨false, ⟨[], 0, 0, 0, ramMem, [], false⟩, ⟨[], 0, 0, 0, psramMem, [], false⟩⟩

def prvHeapInit (h : Heaps) : Heaps where
  initialised := true
  ram := init l.ucHeap l.xTotalHeapSize h.ram.mem
  psram := init (psramUcHeap l.soc) psramTotalHeapSize h.psram.mem

/-- The first call of malloc sets the heap up. -/
def ready (h : Heaps) : Heaps := if h.initialised then h else h.prvHeapInit l

def atLeastSome (xWantedSize : UInt32) : UInt32 := if xWantedSize = 0 then 4 else xWantedSize

def psramMalloc (xWantedSize : UInt32) (h : Heaps) : Option Nat × Heaps :=
  let h := h.ready l
  let (b, psram) := h.psram.mallocWithoutLock (atLeastSome xWantedSize)
  (b.map (·.start + xHeapStructSize), { h with psram := psram })

def pvPortMalloc (xWantedSize : UInt32) (h : Heaps) : Option Nat × Heaps :=
  let h := h.ready l
  let (b, ram) := h.ram.mallocWithoutLock (atLeastSome xWantedSize)
  (b.map (·.start + xHeapStructSize), { h with ram := ram })

def osMalloc (size : UInt32) (h : Heaps) : Option Nat × Heaps :=
  match h.psramMalloc l size with
  | (some ptr, h) => (some ptr, h)
  | (none, h) => h.pvPortMalloc l size

/-- Into the list that the address says. -/
def addFree (b : Extent) (h : Heaps) : Heaps :=
  if b.start > psramUcHeap l.soc then { h with psram := h.psram.addFree b } else { h with ram := h.ram.addFree b }

/-- A header that is not marked as in use is left alone. -/
def vPortFree (pv : Nat) (h : Heaps) : Heaps :=
  match h.ram.findLive pv, h.psram.findLive pv with
  | some x, _ => { h with ram := h.ram.unmark x }.addFree l x.block
  | none, some x => { h with psram := h.psram.unmark x }.addFree l x.block
  | none, none => h

/-- Only for blocks in use, and NULL. -/
def psramRealloc (memcpy : Memcpy) (pv : Nat) (xWantedSize : UInt32) (h : Heaps) : Option Nat × Heaps :=
  if pv = 0 then h.psramMalloc l xWantedSize
  else
    match h.psram.findLive pv with
    | some x =>
      let (pvReturn, psram) := h.psram.realloc memcpy x xWantedSize
      (pvReturn, { h with psram := psram })
    | none => (none, h)

def pvPortRealloc (memcpy : Memcpy) (pv : Nat) (xWantedSize : UInt32) (h : Heaps) : Option Nat × Heaps :=
  if pv > psramUcHeap l.soc then h.psramRealloc l memcpy pv xWantedSize
  else if pv = 0 then h.psramMalloc l xWantedSize
  else
    match h.ram.findLive pv with
    | some x =>
      let (pvReturn, ram) := h.ram.realloc memcpy x xWantedSize
      (pvReturn, { h with ram := ram })
    | none => (none, h)

end Heaps

/-! ## Calls -/

inductive Call where
  | osMalloc (size : UInt32)
  | psramMalloc (size : UInt32)
  | pvPortMalloc (size : UInt32)
  /-- Also os_free. -/
  | vPortFree (pv : Nat)
  | pvPortRealloc (pv : Nat) (size : UInt32)
  /-- Of a block of PSRAM. -/
  | psramRealloc (pv : Nat) (size : UInt32)

/-- The pointers that were returned and not freed. -/
def Heaps.returned (h : Heaps) : List Nat := (h.ram.live ++ h.psram.live).map Live.pv

def step (l : Layout) (memcpy : Memcpy) (call : Call) (h : Heaps) : Option Heaps :=
  -- behind a wild walk there is no heap any more
  if h.ram.wild ∨ h.psram.wild then none
  else
    match call with
    | .osMalloc size => some (h.osMalloc l size).2
    | .psramMalloc size => some (h.psramMalloc l size).2
    | .pvPortMalloc size => some (h.pvPortMalloc l size).2
    | .vPortFree pv => if pv ∈ h.returned then some (h.vPortFree l pv) else none
    | .pvPortRealloc pv size =>
      if pv = 0 ∨ pv ∈ h.returned then some (h.pvPortRealloc l memcpy pv size).2 else none
    | .psramRealloc pv size =>
      if pv = 0 ∨ pv ∈ h.psram.live.map Live.pv then some (h.psramRealloc l memcpy pv size).2 else none

/-! ## What is claimed -/

structure Intact (low high : Nat) (r : Region) : Prop where
  tame : r.wild = false
  ordered : Separated r.free
  ends : r.pxEnd = high
  tiles : ∀ a, cover a (r.free ++ r.live.map Live.block) = if low ≤ a ∧ a < high then 1 else 0
  counted : r.xFreeBytesRemaining = totalSize r.free

structure Integrity (l : Layout) (h : Heaps) : Prop where
  ram : Intact (alignedHeap l.ucHeap) (endMarker l.ucHeap l.xTotalHeapSize) h.ram
  psram : Intact (alignedHeap (psramUcHeap l.soc)) (endMarker (psramUcHeap l.soc) psramTotalHeapSize) h.psram
  apart : (h.ram.live ++ h.psram.live).Pairwise fun x y => x.block.Apart y.block
  large : ∀ x ∈ h.ram.live ++ h.psram.live, x.wanted ≤ x.payloadSize

/-- From the first call of malloc on. -/
def Good (l : Layout) (h : Heaps) : Prop := h.initialised = true → Integrity l h

/-- Not the block that starts where PSRAM does. -/
def Inner (l : Layout) : Call → Prop
  | .vPortFree pv => pv ≠ psramUcHeap l.soc + xHeapStructSize
  | _ => True

instance (l : Layout) (call : Call) : Decidable (Inner l call) := by
  unfold Inner
  split <;> infer_instance

/-! ## The invariant -/

/-- Each region is sound by itself. -/
structure BothSound (l : Layout) (h : Heaps) : Prop where
  ram : Sound (alignedHeap l.ucHeap) (endMarker l.ucHeap l.xTotalHeapSize) h.ram
  psram : Sound (alignedHeap (psramUcHeap l.soc)) (endMarker (psramUcHeap l.soc) psramTotalHeapSize) h.psram

structure Inv (l : Layout) (h : Heaps) : Prop where
  fresh : h.initialised = false → h.ram.live = [] ∧ h.psram.live = []
  sound : h.initialised = true → BothSound l h

section
variable {l : Layout} {h t : Heaps} {w : UInt32} {pv low high : Nat} {r : Region} {x : Live} {call : Call} {memcpy : Memcpy}

theorem alignedHeap_psram (soc : Soc) : alignedHeap (psramUcHeap soc) = psramUcHeap soc := by
  cases soc <;> decide

theorem endMarker_le {ucHeap size : Nat} (room : 32 ≤ size) :
    endMarker ucHeap size + xHeapStructSize ≤ ucHeap + size := by
  have struct : xHeapStructSize = 8 := rfl
  unfold endMarker alignedHeap
  omega

theorem intact_of_sound (sound : Sound low high r) : Intact low high r :=
  ⟨sound.tiled.tame, sound.tiled.ordered, sound.ends, fun a => (sound.tiled.tiles a).trans (by rw [sound.ends]),
    sound.counted⟩

theorem live_apart (sound : Sound low high r) : r.live.Pairwise fun x y => x.block.Apart y.block := by
  have blocks := @pairwise_of_cover (r.blocks []) (fun e member => sound.tiled.size_pos member) fun a => by
    rw [sound.tiled.tiles]
    split <;> decide
  exact List.pairwise_map.mp (List.pairwise_append.mp (List.pairwise_append.mp blocks).2.1).2.1

theorem live_inside (sound : Sound low high r) (member : x ∈ r.live) : low ≤ x.block.start ∧ x.block.stop ≤ high := by
  have position := sound.tiled.inside (mem_blocks_of_live member)
  rwa [sound.ends] at position

theorem integrity_of_sound (fits : l.Fits) (both : BothSound l h) : Integrity l h := by
  refine ⟨intact_of_sound both.ram, intact_of_sound both.psram, ?_, ?_⟩
  · refine List.pairwise_append.mpr ⟨live_apart both.ram, live_apart both.psram, fun x inRam y inPsram => .inl ?_⟩
    have last := (live_inside both.ram inRam).2
    have first := (live_inside both.psram inPsram).1
    have below := fits.below
    have finish := @endMarker_le l.ucHeap l.xTotalHeapSize fits.room
    rw [alignedHeap_psram] at first
    omega
  · intro x member
    have served : x.wanted + xHeapStructSize ≤ x.block.size :=
      (List.mem_append.mp member).elim (both.ram.served x) (both.psram.served x)
    exact Nat.le_sub_of_add_le served

/-! ## Each call -/

theorem ready_sound (fits : l.Fits) (inv : Inv l h) : BothSound l (h.ready l) ∧ (h.ready l).initialised = true := by
  unfold Heaps.ready
  split
  next set => exact ⟨inv.sound set, set⟩
  next => exact ⟨⟨init_sound _ fits.room, init_sound _ (by decide)⟩, rfl⟩

theorem psramMalloc_inv (fits : l.Fits) (inv : Inv l h) : Inv l (h.psramMalloc l w).2 := by
  obtain ⟨both, set⟩ := ready_sound fits inv
  exact ⟨fun unset => absurd (set.symm.trans unset) (by decide), fun _ => ⟨both.ram, both.psram.malloc⟩⟩

theorem pvPortMalloc_inv (fits : l.Fits) (inv : Inv l h) : Inv l (h.pvPortMalloc l w).2 := by
  obtain ⟨both, set⟩ := ready_sound fits inv
  exact ⟨fun unset => absurd (set.symm.trans unset) (by decide), fun _ => ⟨both.ram.malloc, both.psram⟩⟩

theorem osMalloc_inv (fits : l.Fits) (inv : Inv l h) : Inv l (h.osMalloc l w).2 := by
  have psram := @psramMalloc_inv l h w fits inv
  unfold Heaps.osMalloc
  split
  next ptr g eq => rwa [eq] at psram
  next g eq =>
    rw [eq] at psram
    exact pvPortMalloc_inv fits psram

theorem findLive_some (found : r.findLive pv = some x) : x ∈ r.live ∧ x.pv = pv := by
  have search : r.live.find? (·.pv = pv) = some x := found
  exact ⟨List.mem_of_find?_eq_some search, by simpa using List.find?_some search⟩

/-- There is a header in use only in a heap that has been set up. -/
theorem Inv.set_of_live (inv : Inv l h) (member : x ∈ h.ram.live ++ h.psram.live) : h.initialised = true := by
  by_contra unset
  obtain ⟨noRam, noPsram⟩ := inv.fresh (Bool.not_eq_true _ ▸ unset)
  rw [noRam, noPsram] at member
  exact absurd member List.not_mem_nil

/-- A block of RAM goes back to RAM, and one of PSRAM to PSRAM, but for the first. -/
theorem vPortFree_inv (fits : l.Fits) (inv : Inv l h) (inner : pv ≠ psramUcHeap l.soc + xHeapStructSize) :
    Inv l (h.vPortFree l pv) := by
  have below := fits.below
  have finish := @endMarker_le l.ucHeap l.xTotalHeapSize fits.room
  unfold Heaps.vPortFree
  split
  next _ _ x found =>
    obtain ⟨member, same⟩ := findLive_some found
    have set := inv.set_of_live (List.mem_append_left _ member)
    have both := inv.sound set
    have last := (live_inside both.ram member).2
    have low : ¬x.block.start > psramUcHeap l.soc := by
      unfold Extent.stop at last
      omega
    unfold Heaps.addFree
    rw [if_neg low]
    exact ⟨fun unset => absurd (set.symm.trans unset) (by decide), fun _ => ⟨both.ram.release member, both.psram⟩⟩
  next x _ found =>
    obtain ⟨member, same⟩ := findLive_some found
    have set := inv.set_of_live (List.mem_append_right _ member)
    have both := inv.sound set
    have first := (live_inside both.psram member).1
    rw [alignedHeap_psram] at first
    have high : x.block.start > psramUcHeap l.soc := by
      apply Nat.lt_of_le_of_ne first
      intro start
      apply inner
      rw [← same, Live.pv, ← start]
    unfold Heaps.addFree
    rw [if_pos high]
    exact ⟨fun unset => absurd (set.symm.trans unset) (by decide), fun _ => ⟨both.ram, both.psram.release member⟩⟩
  next => exact inv

theorem psramRealloc_inv (fits : l.Fits) (inv : Inv l h) : Inv l (h.psramRealloc l memcpy pv w).2 := by
  unfold Heaps.psramRealloc
  split
  · exact psramMalloc_inv fits inv
  · split
    next x found =>
      obtain ⟨member, -⟩ := findLive_some found
      have set := inv.set_of_live (List.mem_append_right _ member)
      have both := inv.sound set
      exact ⟨fun unset => absurd (set.symm.trans unset) (by decide),
        fun _ => ⟨both.ram, both.psram.realloc memcpy member⟩⟩
    next => exact inv

theorem pvPortRealloc_inv (fits : l.Fits) (inv : Inv l h) : Inv l (h.pvPortRealloc l memcpy pv w).2 := by
  unfold Heaps.pvPortRealloc
  split
  · exact psramRealloc_inv fits inv
  · split
    · exact psramMalloc_inv fits inv
    · split
      next x found =>
        obtain ⟨member, -⟩ := findLive_some found
        have set := inv.set_of_live (List.mem_append_left _ member)
        have both := inv.sound set
        exact ⟨fun unset => absurd (set.symm.trans unset) (by decide),
          fun _ => ⟨both.ram.realloc memcpy member, both.psram⟩⟩
      next => exact inv

theorem step_inv (fits : l.Fits) (inv : Inv l h) (inner : Inner l call) (taken : step l memcpy call h = some t) :
    Inv l t := by
  unfold step at taken
  split at taken
  · cases taken
  · cases call with
    | osMalloc size =>
      obtain rfl := Option.some.inj taken
      exact osMalloc_inv fits inv
    | psramMalloc size =>
      obtain rfl := Option.some.inj taken
      exact psramMalloc_inv fits inv
    | pvPortMalloc size =>
      obtain rfl := Option.some.inj taken
      exact pvPortMalloc_inv fits inv
    | vPortFree pv =>
      dsimp only at taken
      split at taken
      · obtain rfl := Option.some.inj taken
        exact vPortFree_inv fits inv inner
      · cases taken
    | pvPortRealloc pv size =>
      dsimp only at taken
      split at taken
      · obtain rfl := Option.some.inj taken
        exact pvPortRealloc_inv fits inv
      · cases taken
    | psramRealloc pv size =>
      dsimp only at taken
      split at taken
      · obtain rfl := Option.some.inj taken
        exact psramRealloc_inv fits inv
      · cases taken

/-- No block of RAM starts at PSRAM or behind. -/
theorem ram_below (fits : l.Fits) (both : BothSound l h) {e : Extent} (member : e ∈ h.ram.blocks []) :
    e.start < psramUcHeap l.soc := by
  have last := (both.ram.tiled.inside member).2
  have finish := @endMarker_le l.ucHeap l.xTotalHeapSize fits.room
  have struct : xHeapStructSize = 8 := rfl
  have below := fits.below
  rw [both.ram.ends] at last
  unfold Extent.stop at last
  omega

theorem vPortFree_first (fits : l.Fits) (both : BothSound l h)
    (returned : psramUcHeap l.soc + xHeapStructSize ∈ h.returned) :
    (h.vPortFree l (psramUcHeap l.soc + xHeapStructSize)).ram.wild = true := by
  have unmarked : h.ram.findLive (psramUcHeap l.soc + xHeapStructSize) = none := by
    apply Option.eq_none_iff_forall_ne_some.mpr
    intro x found
    obtain ⟨member, same⟩ := findLive_some found
    have below := ram_below fits both (mem_blocks_of_live member)
    unfold Live.pv at same
    omega
  obtain ⟨y, live, same⟩ := List.mem_map.mp returned
  have inPsram : y ∈ h.psram.live := by
    rcases List.mem_append.mp live with inRam | inPsram
    · have below := ram_below fits both (mem_blocks_of_live inRam)
      unfold Live.pv at same
      omega
    · exact inPsram
  unfold Heaps.vPortFree
  rw [unmarked]
  cases found : h.psram.findLive (psramUcHeap l.soc + xHeapStructSize) with
  | none =>
    have absent : h.psram.live.find? (·.pv = psramUcHeap l.soc + xHeapStructSize) = none := found
    have other := List.find?_eq_none.mp absent y inPsram
    exact absurd (decide_eq_true same) other
  | some x =>
    obtain ⟨-, start⟩ := findLive_some found
    have start : x.block.start = psramUcHeap l.soc := Nat.add_right_cancel start
    have finish := @endMarker_le l.ucHeap l.xTotalHeapSize fits.room
    have below := fits.below
    dsimp only
    unfold Heaps.addFree
    rw [if_neg (by omega)]
    unfold Region.addFree prvInsertBlockIntoFreeList
    -- all of the RAM list and its end lie below
    rw [if_pos]
    refine ⟨fun e member => ?_, ?_⟩
    · rw [start]
      exact ram_below fits both (mem_blocks.mpr (.inr (.inl member)))
    · change h.ram.pxEnd < x.block.start
      rw [both.ram.ends, start]
      have struct : xHeapStructSize = 8 := rfl
      omega

theorem vPortFree_initialised : (h.vPortFree l pv).initialised = h.initialised := by
  unfold Heaps.vPortFree
  split
  · unfold Heaps.addFree
    split <;> rfl
  · unfold Heaps.addFree
    split <;> rfl
  · rfl

/-- The first block of PSRAM, freed, sends the walk over the RAM list beyond its end. -/
theorem outer_wild (fits : l.Fits) (inv : Inv l h) (outer : ¬Inner l call) (taken : step l memcpy call h = some t) :
    t.initialised = true ∧ t.ram.wild = true := by
  unfold step at taken
  split at taken
  · cases taken
  · cases call with
    | vPortFree pv =>
      obtain rfl : pv = psramUcHeap l.soc + xHeapStructSize := Decidable.not_not.mp outer
      dsimp only at taken
      split at taken
      next returned =>
        obtain rfl := Option.some.inj taken
        obtain ⟨y, live, -⟩ := List.mem_map.mp returned
        have set := inv.set_of_live live
        exact ⟨vPortFree_initialised.trans set, vPortFree_first fits (inv.sound set) returned⟩
      · cases taken
    | osMalloc _ => exact absurd trivial outer
    | psramMalloc _ => exact absurd trivial outer
    | pvPortMalloc _ => exact absurd trivial outer
    | pvPortRealloc _ _ => exact absurd trivial outer
    | psramRealloc _ _ => exact absurd trivial outer

theorem not_good_of_wild (gone : t.initialised = true ∧ t.ram.wild = true) : ¬Good l t := fun good =>
  absurd ((good gone.1).ram.tame.symm.trans gone.2) (by decide)

theorem boot_inv (ramMem psramMem : Cells) : Inv l (Heaps.boot ramMem psramMem) :=
  ⟨fun _ => ⟨rfl, rfl⟩, fun set => absurd set Bool.false_ne_true⟩

/-- As long as there is a heap, no run has gone wrong. -/
theorem inv_of_tame (fits : l.Fits) {ramMem psramMem : Cells} {moments : List (Moment Heaps Call)}
    (run : Run (Machine.Step (step l memcpy)) (Heaps.boot ramMem psramMem) moments h)
    (tame : ¬(h.ram.wild ∨ h.psram.wild)) :
    Inv l h := by
  induction run with
  | nil => exact boot_inv ramMem psramMem
  | next _ last ih =>
    obtain ⟨rfl, taken⟩ := last
    have before := ih fun wild => by
      unfold step at taken
      rw [if_pos wild] at taken
      cases taken
    refine step_inv fits before ?_ taken
    by_contra outer
    exact tame (.inl (outer_wild fits before outer taken).2)

end

/-! ## Results -/

/-- The heap is intact throughout a run if and only if the block at the start of PSRAM is never freed. -/
theorem heap_integrity {l : Layout} {memcpy : Memcpy} (fits : l.Fits) {ramMem psramMem : Cells}
    {moments : List (Moment Heaps Call)} {final : Heaps} (run : Run (Machine.Step (step l memcpy)) (Heaps.boot ramMem psramMem) moments final) :
    Machine.Always (Good l) moments final ↔ ∀ moment ∈ moments, Inner l moment.event :=
  @Machine.always_iff_of_invariant _ _ _ _ _ _ (Inv l) (Good l) (fun _ _ => True) (fun _ => Inner l) run
    (boot_inv ramMem psramMem) (fun _ inv set => integrity_of_sound fits (inv.sound set))
    (fun inv _ => step_inv fits inv) (fun inv _ outer taken => not_good_of_wild (outer_wild fits inv outer taken)) (fun _ _ => trivial)

/-- BK7252N. -/
def bk7252n : Layout := ⟨.bk7252n, 0x00400100, 0x30000⟩

/-- One that copes with areas that overlap. -/
def memmove : Memcpy := ⟨copied, fun _ _ _ _ _ => rfl⟩

def blank : Heaps := Heaps.boot (fun _ => 0) (fun _ => 0)

theorem heap_integrity_bk7252n :
    ∃ moments final, Run (Machine.Step (step bk7252n memmove)) blank moments final ∧
      moments.map Moment.event = [.vPortFree 0x02000070, .vPortFree 0x00400108, .psramMalloc 5, .pvPortMalloc 300,
        .osMalloc 96] ∧
      (final.ram.live = [] ∧ final.psram.live = [⟨⟨0x02000000, 104⟩, 96⟩]) ∧
      Machine.Always (Good bk7252n) moments final := by
  obtain ⟨moments, final, run, events, fine, shown⟩ := @Machine.run_of_fine _ _ (step bk7252n memmove) blank
    (fun _ => Inner bk7252n) _
    [.vPortFree 0x02000070, .vPortFree 0x00400108, .psramMalloc 5, .pvPortMalloc 300, .osMalloc 96]
    (fun h => h.ram.live = [] ∧ h.psram.live = [⟨⟨0x02000000, 104⟩, 96⟩]) (by decide)
  exact ⟨moments, final, run, events, of_decide_eq_true shown, (heap_integrity ⟨by decide, by decide⟩ run).mpr fine⟩

/-- The first block that os_malloc returns, freed. -/
theorem first_block_lost :
    ∃ moments final, Run (Machine.Step (step bk7252n memmove)) blank moments final ∧
      moments.map Moment.event = [.vPortFree 0x02000008, .osMalloc 96] ∧
        ¬Machine.Always (Good bk7252n) moments final := by
  obtain ⟨moments, final, run, events, shown⟩ := @Machine.run_of_any _ _ (step bk7252n memmove) blank
    [.vPortFree 0x02000008, .osMalloc 96] (fun h => h.initialised ∧ h.ram.wild) (by decide)
  exact ⟨moments, final, run, events, fun always => not_good_of_wild (of_decide_eq_true shown) always.2⟩

end BekenSdk.Heap
