import BekenSdk.SdCard.Driver

/-! The driver's prediction and the card's open transfer. They agree after a call
that moved all of its blocks, so data moves to and from the right place unless
a call is continued that did not get that far.
-/

set_option autoImplicit false

namespace BekenSdk.SdCard
open Base

/-- Data moves in the open transfer if there was no new command, and a success
means just the blocks that were asked for. -/
structure Record.Right (entry : Record) : Prop where
  continues : entry.continued = true → entry.transfer = some (entry.dir, entry.blockAddr.toNat)
  read : entry.ok = true → entry.dir = .read → ∀ i < entry.blockNum.toNat,
    entry.data i = entry.before (entry.blockAddr.toNat + i)
  write : entry.ok = true → entry.dir = .write →
    entry.after = Card.overwrite entry.blockAddr.toNat entry.blockNum.toNat entry.data entry.before

def Right (s : Driver) : Prop := ∀ entry ∈ s.records, entry.Right

/-- A call that the driver takes for a continuation comes where the last call ended,
the blocks of a read get through, and the products with 512 fit in their words. -/
structure Proper (dir : Dir) (blockAddr blockNum : UInt32) (moved : Nat) (s : Driver) : Prop where
  few : blockNum.toNat < 2 ^ 23
  through : dir = .read → blockNum.toNat ≤ moved
  follows : s.Continues dir blockAddr → s.lastEnd = some blockAddr.toNat
  opens : ¬s.Continues dir blockAddr → s.card.sdhc = true ∨ blockAddr.toNat < 2 ^ 23

def Follows (s : Driver) (event : Event) : Prop :=
  match event with
  | .rwBlocks dir blockAddr blockNum _ outcome => s.isInit = true → Proper dir blockAddr blockNum outcome.moved s
  | _ => True

instance (dir : Dir) (blockAddr blockNum : UInt32) (moved : Nat) (s : Driver) :
    Decidable (Proper dir blockAddr blockNum moved s) :=
  decidable_of_iff (blockNum.toNat < 2 ^ 23 ∧ (dir = .read → blockNum.toNat ≤ moved) ∧
    (s.Continues dir blockAddr → s.lastEnd = some blockAddr.toNat) ∧
      (¬s.Continues dir blockAddr → s.card.sdhc = true ∨ blockAddr.toNat < 2 ^ 23))
    ⟨fun all => ⟨all.1, all.2.1, all.2.2.1, all.2.2.2⟩, fun all => ⟨all.few, all.through, all.follows, all.opens⟩⟩

instance (s : Driver) (event : Event) : Decidable (Follows s event) := by
  unfold Follows
  split <;> infer_instance

namespace Driver
variable {s t : Driver} {dir : Dir} {blockAddr blockNum : UInt32} {data : Nat → Block} {moved : Nat}

/-- The prediction is right after a call that is known to have moved its blocks. -/
structure Sound (s : Driver) : Prop where
  kind : s.isInit = true → s.cardTypeSdhc = s.card.sdhc
  settled : s.bakedState ≠ .ended
  quiet : s.isInit = false → s.bakedState = .initialized
  agree : ∀ (dir : Dir) (e : Nat), s.bakedState = dir.state → s.lastEnd = some e → s.card.transfer = some (dir, e)
  right : Right s

theorem state_inj {other : Dir} (same : dir.state = other.state) : dir = other := by
  cases dir <;> cases other <;> first | rfl | cases same

theorem state_ne : dir.state ≠ .ended ∧ dir.state ≠ .initialized := by
  cases dir <;> exact ⟨RwState.noConfusion, RwState.noConfusion⟩

/-! ## sd_card_check_continious_rw -/

theorem check_continues {stopOk : Bool} (continues : s.Continues dir blockAddr) :
    s.sdCardCheckContiniousRw dir.ops blockAddr blockNum stopOk =
      (dir.state, s.setBaked dir.state (blockAddr + blockNum)) := by
  obtain ⟨state, rfl⟩ := continues
  unfold sdCardCheckContiniousRw bake
  cases dir <;> rw [state] <;> simp [Dir.ops, Dir.state]

theorem stop_eq {ok : Bool} : s.sdCardCmdStopTransmission ok =
    s.setCard (s.card.setTransfer (if ok then none else s.card.transfer)) := by
  cases ok <;> rfl

theorem check_of_ended {ops : RwOps} {stopOk : Bool} (baked : s.bake ops blockAddr blockNum = (.ended, t)) :
    s.sdCardCheckContiniousRw ops blockAddr blockNum stopOk =
      (.ended, t.setCard (t.card.setTransfer (if stopOk then none else t.card.transfer))) := by
  rw [sdCardCheckContiniousRw, baked, ← stop_eq]
  rfl

/-- Otherwise the prediction is the same, and the old transfer is stopped if there is one. -/
theorem check_opens {stopOk : Bool} (settled : s.bakedState ≠ .ended) (opens : ¬s.Continues dir blockAddr) :
    ∃ current ≠ dir.state, ∃ transfer, s.sdCardCheckContiniousRw dir.ops blockAddr blockNum stopOk =
      (current, (s.setBaked dir.state (blockAddr + blockNum)).setCard (s.card.setTransfer transfer)) := by
  cases state : s.bakedState with
  | ended => exact absurd state settled
  | initialized =>
    refine ⟨.initialized, (state_ne.2).symm, s.card.transfer, ?_⟩
    unfold sdCardCheckContiniousRw bake
    cases dir <;> rw [state] <;> rfl
  | reading =>
    refine ⟨.ended, (state_ne.1).symm, _, check_of_ended (t := s.setBaked dir.state (blockAddr + blockNum)) ?_⟩
    cases dir with
    | read =>
      have other : s.bakedAddr ≠ blockAddr := fun same => opens ⟨state, same⟩
      unfold bake
      rw [state]
      exact if_neg other
    | write =>
      unfold bake
      rw [state]
      rfl
  | writing =>
    refine ⟨.ended, (state_ne.1).symm, _, check_of_ended (t := s.setBaked dir.state (blockAddr + blockNum)) ?_⟩
    cases dir with
    | read =>
      unfold bake
      rw [state]
      rfl
    | write =>
      have other : s.bakedAddr ≠ blockAddr := fun same => opens ⟨state, same⟩
      unfold bake
      rw [state]
      exact if_neg other

/-- After a synchronisation nothing is predicted. -/
theorem sync_eq (settled : s.bakedState ≠ .ended) (stopOk : Bool) :
    ∃ addr transfer, s.bkSdCardRwSync stopOk =
      (s.setBaked .initialized addr).setCard (s.card.setTransfer transfer) := by
  rw [bkSdCardRwSync]
  cases state : s.bakedState with
  | ended => exact absurd state settled
  | initialized =>
    have same : s.setBaked .initialized s.bakedAddr = s := by rw [setBaked, ← state]
    refine ⟨s.bakedAddr, s.card.transfer, ?_⟩
    rw [same]
    unfold sdCardCheckContiniousRw bake
    rw [state]
    rfl
  | reading =>
    refine ⟨0xffffffff, if stopOk then none else s.card.transfer, ?_⟩
    have baked : s.bake .syncRw 0 0 = (.ended, s.setBaked .initialized 0xffffffff) := by
      unfold bake
      rw [state]
    rw [check_of_ended baked]
    rfl
  | writing =>
    refine ⟨0xffffffff, if stopOk then none else s.card.transfer, ?_⟩
    have baked : s.bake .syncRw 0 0 = (.ended, s.setBaked .initialized 0xffffffff) := by
      unfold bake
      rw [state]
    rw [check_of_ended baked]
    rfl

/-! ## The data -/

theorem dataBlocks_eq (few : blockNum.toNat < 2 ^ 23) : dataBlocks blockNum = blockNum.toNat := by
  rw [dataBlocks, UInt32.toNat_mul]
  change 512 * blockNum.toNat % 2 ^ 32 / 512 = blockNum.toNat
  omega

theorem endOf_some {e : Nat} (ended : endOf blockAddr blockNum moved = some e) :
    e = blockAddr.toNat + moved ∧ moved = blockNum.toNat := by
  rw [endOf] at ended
  obtain ⟨same, last⟩ := Option.ite_none_right_eq_some.mp ended
  exact ⟨(Option.some.inj last).symm, same⟩

theorem right_record {entry : Record} (right : Right s) (now : entry.Right) : Right (s.record entry) := by
  intro other member
  cases List.mem_cons.mp member with
  | inl same => rwa [same]
  | inr early => exact right other early

theorem readData_sound {continued : Bool} (kind : s.cardTypeSdhc = s.card.sdhc) (right : Right s)
    (isInit : s.isInit = true) (state : s.bakedState = .reading)
    (opened : s.card.transfer = some (.read, blockAddr.toNat))
    (few : blockNum.toNat < 2 ^ 23) (through : blockNum.toNat ≤ moved) :
    (s.readData blockAddr blockNum continued data moved).Sound := by
  have enough : blockNum.toNat ≤ min moved (blocksWanted blockNum) := by
    rw [blocksWanted, dataBlocks_eq few]
    omega
  unfold Driver.readData
  dsimp only
  generalize min moved (blocksWanted blockNum) = moved' at enough
  rw [Card.send, opened]
  constructor
  · exact fun _ => kind
  · exact fun ended => RwState.noConfusion (state.symm.trans ended)
  · exact fun off => absurd (isInit.symm.trans off) Bool.noConfusion
  · intro dir e same ended
    obtain ⟨rfl, _⟩ := endOf_some ended
    obtain rfl : Dir.read = dir := state_inj (state.symm.trans same)
    rfl
  · refine right_record right ⟨fun _ => rfl, fun _ _ i inside => ?_, fun _ other => (nomatch other)⟩
    exact if_pos (Nat.lt_of_lt_of_le inside enough)

theorem writeData_sound {continued : Bool} (kind : s.cardTypeSdhc = s.card.sdhc) (right : Right s)
    (isInit : s.isInit = true) (state : s.bakedState = .writing)
    (opened : s.card.transfer = some (.write, blockAddr.toNat))
    (few : blockNum.toNat < 2 ^ 23) : (s.writeData blockAddr blockNum continued data moved).Sound := by
  have same : dataBlocks blockNum = blockNum.toNat := dataBlocks_eq few
  unfold Driver.writeData
  dsimp only
  rw [if_pos (by rw [opened]; rfl)]
  generalize min moved (dataBlocks blockNum) = moved'
  rw [Card.receive, opened, same]
  constructor
  · exact fun _ => kind
  · exact fun ended => RwState.noConfusion (state.symm.trans ended)
  · exact fun off => absurd (isInit.symm.trans off) Bool.noConfusion
  · intro dir e same ended
    obtain ⟨rfl, _⟩ := endOf_some ended
    obtain rfl : Dir.write = dir := state_inj (state.symm.trans same)
    rfl
  · refine right_record right ⟨fun _ => rfl, fun _ other => (nomatch other), fun ok _ => ?_⟩
    have all : moved' = blockNum.toNat := of_decide_eq_true ok
    rw [← all]

theorem moveData_sound {continued : Bool} (kind : s.cardTypeSdhc = s.card.sdhc) (right : Right s)
    (isInit : s.isInit = true) (state : s.bakedState = dir.state)
    (opened : s.card.transfer = some (dir, blockAddr.toNat))
    (few : blockNum.toNat < 2 ^ 23) (through : dir = .read → blockNum.toNat ≤ moved) :
    (s.moveData dir blockAddr blockNum continued data moved).Sound := by
  cases dir with
  | read => exact readData_sound kind right isInit state opened few (through rfl)
  | write => exact writeData_sound kind right isInit state opened few

/-! ## Whole calls -/

/-- The card opens the transfer at the block that was meant. -/
theorem blockOf_argumentOf (kind : s.cardTypeSdhc = s.card.sdhc)
    (low : s.card.sdhc = true ∨ blockAddr.toNat < 2 ^ 23) :
    s.card.blockOf (s.argumentOf blockAddr) = blockAddr.toNat := by
  rw [Card.blockOf, argumentOf, kind]
  cases sdhc : s.card.sdhc with
  | true => rfl
  | false =>
    rw [sdhc] at low
    have small := low.resolve_left Bool.false_ne_true
    change (blockAddr * UInt32.ofNat sdBlockSize).toNat / sdBlockSize = _
    rw [UInt32.toNat_mul]
    change blockAddr.toNat * 512 % 2 ^ 32 / 512 = blockAddr.toNat
    omega

/-- A call that does not get to its data leaves a prediction that nothing is known of. -/
theorem Sound.failed (sound : s.Sound) (isInit : s.isInit = true) (addr : UInt32) (transfer : Option (Dir × Nat)) :
    ((((s.setBaked dir.state addr).setCard (s.card.setTransfer transfer)).setLastEnd none).unlock).Sound where
  kind := sound.kind
  settled := state_ne.1
  quiet off := absurd (isInit.symm.trans off) Bool.noConfusion
  agree _ _ _ ended := nomatch ended
  right := sound.right

theorem Sound.rwBlocks {outcome : Outcome} (sound : s.Sound)
    (proper : s.isInit = true → Proper dir blockAddr blockNum outcome.moved s) :
    (s.rwBlocks dir blockAddr blockNum data outcome).Sound := by
  rw [Driver.rwBlocks]
  split
  · exact { sound with }
  next on =>
    have isInit : s.isInit = true := by rwa [Bool.not_eq_false] at on
    obtain ⟨few, through, follows, opens⟩ := proper isInit
    dsimp only
    by_cases continues : s.Continues dir blockAddr
    · rw [check_continues continues]
      rw [if_neg (not_not.mpr rfl)]
      have opened := sound.agree dir _ continues.1 (follows continues)
      exact moveData_sound (sound.kind isInit) sound.right isInit rfl opened few through
    · obtain ⟨current, apart, transfer, checked⟩ :=
        @check_opens s dir blockAddr blockNum outcome.stop sound.settled continues
      have failed := @Sound.failed s dir sound isInit (blockAddr + blockNum) transfer
      rw [checked, if_pos apart]
      split
      · exact failed
      · split
        · exact failed
        · refine moveData_sound (sound.kind isInit) sound.right isInit rfl ?_ few through
          have kind : (s.setCard (s.card.setTransfer transfer)).cardTypeSdhc = s.card.sdhc := sound.kind isInit
          exact congrArg (fun block => some (dir, block))
            (blockOf_argumentOf (s := s.setCard (s.card.setTransfer transfer)) kind (opens continues))

theorem Sound.lock (sound : s.Sound) (locked : s.lock = some t) : t.Sound ∧ t.isInit = s.isInit ∧
    ∀ dir blockAddr blockNum moved, Proper dir blockAddr blockNum moved s → Proper dir blockAddr blockNum moved t := by
  rw [Driver.lock] at locked
  obtain ⟨_, same⟩ := Option.ite_none_right_eq_some.mp locked
  rw [← Option.some.inj same]
  exact ⟨{ sound with }, rfl, fun _ _ _ _ proper => { proper with }⟩

theorem Sound.sync (sound : s.Sound) (stopOk : Bool) : (s.bkSdCardRwSync stopOk).Sound := by
  obtain ⟨addr, transfer, same⟩ := sync_eq sound.settled stopOk
  rw [same]
  constructor
  · exact sound.kind
  · exact RwState.noConfusion
  · exact fun _ => rfl
  · exact fun dir _ state => absurd state.symm state_ne.2
  · exact sound.right

theorem Sound.bkSdCardInit {hostOk cardOk reset : Bool} (sound : s.Sound) :
    (s.bkSdCardInit hostOk cardOk reset).Sound := by
  rw [Driver.bkSdCardInit]
  split
  · exact { sound with }
  next off =>
    have quiet := sound.quiet (by rwa [Bool.not_eq_true] at off)
    have nothing : ∀ (transfer : Option (Dir × Nat)) (dir : Dir) (e : Nat), s.bakedState = dir.state →
        s.lastEnd = some e → transfer = some (dir, e) := fun _ dir _ state =>
      absurd (state.symm.trans quiet) state_ne.2
    split
    · exact sound
    · split
      · split
        · exact { sound with agree := nothing none }
        · exact { sound with }
      · constructor
        · exact fun _ => rfl
        · exact sound.settled
        · exact fun _ => quiet
        · exact nothing none
        · exact sound.right

theorem Sound.bkSdCardDeinit {stopOk hostOk : Bool} (sound : s.Sound) : (s.bkSdCardDeinit stopOk hostOk).Sound := by
  have synced := sound.sync stopOk
  rw [Driver.bkSdCardDeinit]
  split
  · exact { sound with }
  · dsimp only
    split
    · exact synced
    · constructor
      · exact fun on => Bool.noConfusion on
      · exact synced.settled
      · intro _
        obtain ⟨addr, transfer, same⟩ := sync_eq sound.settled stopOk
        rw [same]
        rfl
      · exact synced.agree
      · exact synced.right

theorem Sound.step {event : Event} (sound : s.Sound) (follows : Follows s event) (taken : step event s = some t) :
    t.Sound := by
  cases event with
  | init mutexOk hostOk cardOk reset =>
    rw [SdCard.step] at taken
    split at taken
    · rwa [← Option.some.inj taken]
    · obtain ⟨u, locked, rfl⟩ := Option.map_eq_some_iff.mp taken
      have created : s.initMutex.Sound := by
        rw [initMutex]
        split
        · exact { sound with }
        · exact sound
      exact (created.lock locked).1.bkSdCardInit
  | deinit stopOk hostOk =>
    rw [SdCard.step] at taken
    split at taken
    · rwa [← Option.some.inj taken]
    · obtain ⟨u, locked, rfl⟩ := Option.map_eq_some_iff.mp taken
      exact (sound.lock locked).1.bkSdCardDeinit
  | rwSync stopOk =>
    rw [← Option.some.inj taken]
    exact sound.sync stopOk
  | rwBlocks dir blockAddr blockNum data outcome =>
    rw [SdCard.step] at taken
    split at taken
    · rwa [← Option.some.inj taken]
    · obtain ⟨u, locked, rfl⟩ := Option.map_eq_some_iff.mp taken
      obtain ⟨kept, same, proper⟩ := sound.lock locked
      exact kept.rwBlocks fun on => proper _ _ _ _ (follows (same.symm.trans on))

theorem start_sound (card : Card) : (start card).Sound where
  kind on := nomatch on
  settled := RwState.noConfusion
  quiet _ := rfl
  agree _ _ _ ended := nomatch ended
  right _ member := absurd member List.not_mem_nil

end Driver

/-- In a run whose calls follow on what has been moved, data is never moved in the
wrong place, and every success is one with the blocks of the call. -/
theorem transfers_right {card : Card} {moments : List (Moment Driver Event)} {final : Driver}
    (run : Run (Machine.Step step) (Driver.start card) moments final)
    (follows : ∀ moment ∈ moments, Follows moment.before moment.event) : Machine.Always Right moments final := by
  have always := @Machine.always_of_invariant _ _ _ _ _ _ Driver.Sound Follows run (Driver.start_sound card)
    (fun sound follows taken => sound.step follows taken) follows
  exact always.mono fun _ sound => sound.right

/-! ## Sample runs -/

/-- A large card whose blocks begin with their numbers. -/
def numberedCard : Card := ⟨true, fun b _ => UInt8.ofNat b, none⟩

def ones : Nat → Block := fun _ _ => 1

/-- All commands succeed, and up to eight blocks get through. -/
def allWell : Outcome := ⟨true, true, true, 8⟩

theorem continued_writes_right : ∃ moments final, Run (Machine.Step step) (Driver.start numberedCard) moments final ∧
    final.records.map (fun entry => (entry.continued, entry.ok, entry.data 3 0)) =
      [(false, true, 1), (true, true, 1), (false, true, 1)] ∧ Machine.Always Right moments final := by
  have moved : (Machine.replay (Machine.guarded Follows step) (Driver.start numberedCard)
      [.rwBlocks .read 9 5 ones allWell, .rwBlocks .write 12 3 ones allWell, .rwBlocks .write 10 2 ones allWell,
        .init true true true true]).any
      (fun s => decide (s.records.map (fun entry => (entry.continued, entry.ok, entry.data 3 0)) =
        [(false, true, 1), (true, true, 1), (false, true, 1)])) = true := by
    decide
  obtain ⟨moments, final, run, -, follows, shown⟩ := Machine.run_of_fine moved
  exact ⟨moments, final, run, of_decide_eq_true shown, transfers_right run follows⟩

/-- `CMD18` fails, and the next call reads on where the failed one would have ended. -/
theorem failed_read_continued : ¬∀ moments final, Run (Machine.Step step) (Driver.start numberedCard) moments final →
    Machine.Always Right moments final := by
  intro claim
  have continued : (Machine.replay step (Driver.start numberedCard)
      [.rwBlocks .read 4 4 ones allWell, .rwBlocks .read 0 4 ones ⟨true, true, false, 8⟩,
        .init true true true true]).any
      (fun s => s.records.any fun entry => entry.continued && decide (entry.transfer = none)) = true := by
    decide
  obtain ⟨moments, final, run, -, shown⟩ := Machine.run_of_any continued
  obtain ⟨entry, member, both⟩ := List.any_eq_true.mp shown
  obtain ⟨continued, closed⟩ := (Bool.and_eq_true _ _).mp both
  have opened := ((claim moments final run).2 entry member).continues continued
  rw [of_decide_eq_true closed] at opened
  cases opened

end BekenSdk.SdCard
