import BekenSdk.KeyValue.Capacity

/-! The fit tests of a write. `data_offset_addr + dw_data_len` and `dw_offset + dw_data_len` are sums of 32 bits that are
compared with the sector; here they are listed without the wrap, in the order a call computes them. Where none of them
reaches 2^32 a value of more than a sector is treated like one that just fills it.
-/

set_option autoImplicit false

namespace BekenSdk.KeyValue
open BekenSdk.Base

/-! ## The sums of a call -/

def reorganizeSums (nBaseAddr : Nat) (nameTemp : List NameFlash) (databuf : List UInt8) (dataSectorAddr dwDataLen : Nat)
    (flash : Flash) : List Nat :=
  match rewriteUsed databuf nameTemp dataSectorAddr nBaseAddr 0
    ((flash.eraseSector nBaseAddr).eraseSector dataSectorAddr) with
  | .undefined _ => []
  | .done (_, _, dwOffset) _ => [dwOffset + dwDataLen]

def newAddrSums (malloc : OsMalloc) (dataSectorAddr baseAddr dwDataLen : Nat) (flash : Flash) : List Nat :=
  if malloc .nameTemp && malloc .dataBuff then
    let nameTemp := flash.readNames baseAddr flashNameMaxArray
    let dataBuff := flash.ddevRead flashSectorSize dataSectorAddr
    match scanFree nameTemp 0 0 0 with
    | .free _ dataOffsetAddr =>
      (dataOffsetAddr + dwDataLen) ::
        if (dataOffsetAddr + dwDataLen) % 2 ^ 32 ≥ flashSectorSize then
          reorganizeSums baseAddr nameTemp dataBuff dataSectorAddr dwDataLen flash
        else []
    | .full dwMaskCount =>
      if dwMaskCount > 0 then reorganizeSums baseAddr nameTemp dataBuff dataSectorAddr dwDataLen flash else []
  else []

def setNameDataSums (table : BkPartitions) (malloc : OsMalloc) (ucnamespace ucname : CString) (npBaseAddr : Nat)
    (indata : Buffer) (dwNOffsetAddr dwOffsetBlock : Nat) (flash : Flash) : List Nat :=
  let dwSecAddr := npBaseAddr + dwNOffsetAddr
  let dataSectorAddr := npBaseAddr + dwOffsetBlock * flashSectorSize +
    nameFlashDataBaseAddr (getFalshNameSpaceMaxArray table ucnamespace)
  match getNameAddr malloc (some ucname) dwSecAddr flash with
  | some (dwOffsetAddr, dwDataOffsetAddr) =>
    let nameTemp := NameFlash.ofBytes (flash.ddevRead perNameFlashSize (dwSecAddr + dwOffsetAddr))
    if nameTemp.dwlength > dataBufSize then []
    else
      let dataBuf := flash.ddevRead nameTemp.dwlength (dataSectorAddr + dwDataOffsetAddr)
      if nameTemp.dwlength ≠ indata.bytes.length ∨ dataBuf ≠ indata.bytes then
        let masked := { nameTemp with dwUsingFlag := flashSpaceMask }
        newAddrSums malloc dataSectorAddr dwSecAddr indata.bytes.length
          (flash.ddevWrite masked.toBytes (dwSecAddr + dwOffsetAddr))
      else []
  | none => newAddrSums malloc dataSectorAddr dwSecAddr indata.bytes.length flash

def writeDataSums (table : BkPartitions) (malloc : OsMalloc) (ucnamespace ucname : Option CString)
    (indata : Option Buffer) (flash : Flash) : List Nat :=
  match ucnamespace, ucname, indata with
  | some ns, some name, some data =>
    if ns = chipFactory then []
    else
      match changeNamespaceToBeken ns (some (some name)) with
      | some (ns, some name) =>
        let npBaseAddr := getMatterFlashBaseAddr table ns
        match getNamespaceAddr table malloc ns npBaseAddr flash with
        | some (dwOffsetAddr, dwOffBlock) =>
          setNameDataSums table malloc ns name npBaseAddr data dwOffsetAddr dwOffBlock flash
        | none =>
          match bkSetNamespace table malloc ns npBaseAddr flash with
          | (some (dwOffsetAddr, dwOffBlock), flash) =>
            setNameDataSums table malloc ns name npBaseAddr data dwOffsetAddr dwOffBlock flash
          | (none, _) => []
      | _ => []
  | _, _, _ => []

def InWord (sums : List Nat) : Prop := ∀ sum ∈ sums, sum < 2 ^ 32

/-! ## Long values -/

/-- As much of a value as can matter to a fit test. -/
def Buffer.brief (indata : Buffer) : Buffer where
  bytes := indata.bytes.take flashSectorSize
  bound := Nat.lt_of_le_of_lt (List.length_take_le' _ _) indata.bound

theorem Buffer.brief_length (indata : Buffer) :
    indata.brief.bytes.length = min flashSectorSize indata.bytes.length := List.length_take

theorem Buffer.brief_sane (indata : Buffer) : indata.brief.bytes.length + flashSectorSize ≤ 2 ^ 32 := by
  rw [indata.brief_length]
  simp only [flashSectorSize]
  omega

theorem Buffer.brief_of_short {indata : Buffer} (short : indata.bytes.length < flashSectorSize) :
    indata.brief = indata := by
  cases indata
  simp only [Buffer.brief, List.take_of_length_le (Nat.le_of_lt short)]

section
variable {table : BkPartitions} {malloc : OsMalloc} {flash : Flash} {indata : Buffer} {ns name : CString}

/-- A sum in 32 bits of a long value exceeds the sector, and so does that of its brief. -/
theorem sums_exceed {offset : Nat} (long : flashSectorSize ≤ indata.bytes.length)
    (word : offset + indata.bytes.length < 2 ^ 32) :
    (offset + indata.bytes.length) % 2 ^ 32 ≥ flashSectorSize ∧
      (offset + indata.brief.bytes.length) % 2 ^ 32 ≥ flashSectorSize := by
  rw [indata.brief_length, Nat.min_eq_left long, Nat.mod_eq_of_lt word, Nat.mod_eq_of_lt (by omega)]
  omega

theorem reorganize_brief {nBaseAddr dataSectorAddr : Nat} {nameTemp : List NameFlash} {databuf ucName : List UInt8}
    (long : flashSectorSize ≤ indata.bytes.length)
    (word : InWord (reorganizeSums nBaseAddr nameTemp databuf dataSectorAddr indata.bytes.length flash)) :
    bkReorganizeNameData nBaseAddr nameTemp databuf dataSectorAddr indata ucName flash =
      bkReorganizeNameData nBaseAddr nameTemp databuf dataSectorAddr indata.brief ucName flash := by
  unfold bkReorganizeNameData
  unfold reorganizeSums at word
  simp only
  generalize rewriteUsed databuf nameTemp dataSectorAddr nBaseAddr 0
    ((flash.eraseSector nBaseAddr).eraseSector dataSectorAddr) = copied at *
  cases copied with
  | undefined => rfl
  | done cursors flash =>
    obtain ⟨exceeds, briefExceeds⟩ := sums_exceed long (word _ List.mem_cons_self)
    simp only
    rw [if_pos exceeds, if_pos briefExceeds]

theorem newAddr_brief {dataSectorAddr baseAddr : Nat} {ucName : List UInt8}
    (long : flashSectorSize ≤ indata.bytes.length)
    (word : InWord (newAddrSums malloc dataSectorAddr baseAddr indata.bytes.length flash)) :
    bkSetNameDataNewAddr malloc dataSectorAddr baseAddr indata ucName flash =
      bkSetNameDataNewAddr malloc dataSectorAddr baseAddr indata.brief ucName flash := by
  unfold bkSetNameDataNewAddr
  unfold newAddrSums at word
  split
  next buffers =>
    rw [if_pos buffers] at word
    simp only at word ⊢
    split
    next slot offset scan =>
      rw [scan] at word
      obtain ⟨exceeds, briefExceeds⟩ := sums_exceed long (word _ List.mem_cons_self)
      rw [if_pos exceeds, if_pos briefExceeds]
      refine reorganize_brief long fun sum member => word sum (List.mem_cons_of_mem _ ?_)
      rw [if_pos exceeds]
      exact member
    next masks scan =>
      rw [scan] at word
      simp only at word
      split
      next some =>
        rw [if_pos some] at word
        exact reorganize_brief long word
      · rfl
  · rfl

theorem setNameData_brief {npBaseAddr dwNOffsetAddr dwOffsetBlock : Nat} (long : flashSectorSize ≤ indata.bytes.length)
    (word : InWord (setNameDataSums table malloc ns name npBaseAddr indata dwNOffsetAddr dwOffsetBlock flash)) :
    bkSetNameData table malloc ns name npBaseAddr indata dwNOffsetAddr dwOffsetBlock flash =
      bkSetNameData table malloc ns name npBaseAddr indata.brief dwNOffsetAddr dwOffsetBlock flash := by
  have briefLong : flashSectorSize ≤ indata.brief.bytes.length := by
    rw [indata.brief_length, Nat.min_eq_left long]
  unfold bkSetNameData
  unfold setNameDataSums at word
  simp only at word ⊢
  split
  next offset dataOffset found =>
    rw [found] at word
    simp only at word
    split
    · rfl
    next fits =>
      -- an old value that fits the staging buffer differs from a long one
      have staged : ∀ data : Buffer, flashSectorSize ≤ data.bytes.length →
          (NameFlash.ofBytes (flash.ddevRead perNameFlashSize (npBaseAddr + dwNOffsetAddr + offset))).dwlength ≠
            data.bytes.length := by
        intro data exceeds
        simp only [dataBufSize, flashSectorSize] at fits exceeds
        omega
      rw [if_neg fits, if_pos (.inl (staged indata long))] at word
      rw [if_pos (.inl (staged indata long)), if_pos (.inl (staged indata.brief briefLong))]
      exact newAddr_brief long word
  next absent =>
    rw [absent] at word
    exact newAddr_brief long word

/-- A call whose sums do not wrap does with any value what it does with the brief one. -/
theorem bkWriteData_brief
    (word : InWord (writeDataSums table malloc (some ns) (some name) (some indata) flash)) :
    bkWriteData table malloc (some ns) (some name) (some indata) flash =
      bkWriteData table malloc (some ns) (some name) (some indata.brief) flash := by
  by_cases short : indata.bytes.length < flashSectorSize
  · rw [Buffer.brief_of_short short]
  · have long := Nat.le_of_not_lt short
    unfold bkWriteData
    unfold writeDataSums at word
    simp only at word ⊢
    split
    · rfl
    next guard =>
      rw [if_neg guard] at word
      split
      next ns' name' translation =>
        rw [translation] at word
        simp only at word
        split
        next found =>
          rw [found] at word
          exact setNameData_brief long word
        next missing =>
          rw [missing] at word
          simp only at word
          split
          next claimed =>
            rw [claimed] at word
            exact setNameData_brief long word
          · rfl
      · rfl

end

/-! ## The sums of a log -/

namespace NameLog
variable {malloc : OsMalloc} {log : NameLog} {len : Nat}

/-- The log an append works on: the record it replaces is masked. -/
def masked (malloc : OsMalloc) (log : NameLog) (key : CString) : NameLog :=
  match log.lookupWith malloc key with
  | some _ => log.bury key
  | none => log

theorem masked_sizes (malloc : OsMalloc) (log : NameLog) (key : CString) :
    (log.masked malloc key).records.length = log.records.length ∧
      valueBytes (log.masked malloc key).records = valueBytes log.records := by
  unfold masked
  split
  · exact ⟨Log.bury_length _ _, Log.size_bury _ _ _⟩
  · exact ⟨rfl, rfl⟩

def appendSums (malloc : OsMalloc) (log : NameLog) (len : Nat) : List Nat :=
  if malloc .nameTemp && malloc .dataBuff then
    if log.records.length < flashNameMaxArray then
      (valueBytes log.records + len) ::
        if (valueBytes log.records + len) % 2 ^ 32 ≥ flashSectorSize then
          [valueBytes (Log.compact log.records) + len]
        else []
    else if log.hasDead then [valueBytes (Log.compact log.records) + len] else []
  else []

/-- An append gets to a fit test. -/
def Tests (malloc : OsMalloc) (log : NameLog) : Prop :=
  (malloc .nameTemp && malloc .dataBuff) = true ∧ (Log.compact log.records).length < flashNameMaxArray

/-- Where the first fit test of an append starts. -/
def testOffset (log : NameLog) : Nat :=
  if log.records.length < flashNameMaxArray then valueBytes log.records else valueBytes (Log.compact log.records)

theorem appendSums_bound : ∀ sum ∈ log.appendSums malloc len, sum < flashSectorSize + len := by
  have whole := log.short
  have compacted : valueBytes (Log.compact log.records) < flashSectorSize := log.compact.short
  intro sum member
  unfold appendSums at member
  grind

/-- The first sum of an append is its greatest. -/
theorem appendSums_inWord : InWord (log.appendSums malloc len) ↔ (log.Tests malloc → log.testOffset + len < 2 ^ 32) := by
  have less : valueBytes (Log.compact log.records) ≤ valueBytes log.records := Log.size_compact_le _ _
  unfold InWord appendSums Tests testOffset
  cases malloc .nameTemp && malloc .dataBuff with
  | false => simp
  | true =>
    simp only [if_true, true_and]
    by_cases slot : log.records.length < flashNameMaxArray
    · have tests : (Log.compact log.records).length < flashNameMaxArray :=
        Nat.lt_of_le_of_lt (Log.length_compact_le _) slot
      rw [if_pos slot, if_pos slot]
      constructor
      · exact fun word _ => word _ List.mem_cons_self
      · intro word sum member
        have first := word tests
        grind
    · rw [if_neg slot, if_neg slot]
      cases dead : log.hasDead with
      | true =>
        have tests := Nat.lt_of_lt_of_le (compact_length_lt_of_dead dead) log.few
        simp [tests]
      | false =>
        have whole : Log.compact log.records = log.records := compact_of_clean (by simp [dead])
        simp [whole, slot]

end NameLog

section
variable {table : BkPartitions} {malloc : OsMalloc} {flash : Flash} {indata : Buffer} {ns name : CString}
  {pair : SectorPair} {log : NameLog} {part : BkLogicPartition} {dir : Directory}

theorem reorganizeSums_spec (held : HoldsLog pair flash.cells log) (len : Nat) :
    reorganizeSums pair.nameAddr (flash.readNames pair.nameAddr flashNameMaxArray)
      (flash.ddevRead flashSectorSize pair.dataAddr) pair.dataAddr len flash =
        [valueBytes (Log.compact log.records) + len] := by
  obtain ⟨copied, run, -⟩ := rewriteUsed_sector held
  rw [reorganizeSums, run]

theorem newAddrSums_spec (held : HoldsLog pair flash.cells log) (len : Nat) :
    newAddrSums malloc pair.dataAddr pair.nameAddr len flash = log.appendSums malloc len := by
  unfold newAddrSums NameLog.appendSums
  cases malloc .nameTemp && malloc .dataBuff with
  | false => rfl
  | true =>
    have scan := scanFree_sector log
    rw [← readNames_sector held.names] at scan
    simp only [if_true, scan, reorganizeSums_spec held]
    by_cases free : log.records.length < flashNameMaxArray
    · rw [if_pos free, if_pos free]
    · rw [if_neg free, if_neg free]
      simp only [hasDead_iff]

theorem setNameDataSums_spec {npBaseAddr dwNOffsetAddr dwOffsetBlock : Nat} (held : HoldsLog pair flash.cells log)
    (nameHere : npBaseAddr + dwNOffsetAddr = pair.nameAddr)
    (dataHere : npBaseAddr + dwOffsetBlock * flashSectorSize +
      nameFlashDataBaseAddr (getFalshNameSpaceMaxArray table ns) = pair.dataAddr)
    (staged : ∀ old, log.lookupWith malloc name = some old → old.length ≤ dataBufSize) :
    setNameDataSums table malloc ns name npBaseAddr indata dwNOffsetAddr dwOffsetBlock flash =
      if log.lookupWith malloc name = some indata.bytes then []
      else (log.masked malloc name).appendSums malloc indata.bytes.length := by
  unfold setNameDataSums NameLog.masked
  simp only [nameHere, dataHere]
  rcases sector_spec malloc held name with ⟨absent, missing⟩ | ⟨before, record, after, located, stored, index⟩
  · rw [missing, absent, if_neg (by simp)]
    exact newAddrSums_spec held _
  · rw [stored, index]
    have fits := staged _ stored
    have length : (record.toFlash (valueBytes before)).dwlength = record.value.length := rfl
    simp only [located.record_eq held, length]
    rw [if_neg (Nat.not_lt.mpr fits), located.value_eq held (Nat.le_refl _), List.take_length]
    by_cases same : record.value = indata.bytes
    · rw [if_neg (by simp [same]), if_pos (by rw [same])]
    · rw [if_pos (.inr same), if_neg fun all => same (Option.some.inj all)]
      obtain ⟨holding, -, -⟩ := located.mask_record held
      exact newAddrSums_spec holding _

/-! ## The sums of a directory -/

namespace Directory

/-- A write finds or claims a slot. -/
def Slotted (malloc : OsMalloc) (dir : Directory) (ns : CString) : Prop :=
  dir.findWith malloc ns ≠ none ∨ malloc .setNamespace = true ∧ dir.firstFree ≠ none

/-- The log a write sees; in a claimed slot it is empty. -/
def seenLog (malloc : OsMalloc) (dir : Directory) (ns : CString) : NameLog :=
  ((dir.findWith malloc ns).map dir.logAt).getD .empty

theorem seenLog_found {slot : Nat} (found : dir.findWith malloc ns = some slot) :
    dir.seenLog malloc ns = dir.logAt slot := by
  rw [seenLog, found]
  rfl

theorem seenLog_missing (missing : dir.findWith malloc ns = none) : dir.seenLog malloc ns = .empty := by
  rw [seenLog, missing]
  rfl

theorem slotted_missing (missing : dir.findWith malloc ns = none) :
    dir.Slotted malloc ns ↔ dir.allocate malloc ns ≠ none := by
  unfold Slotted allocate
  rw [missing]
  split
  next granted => simp [granted]
  next refused => simp [refused]

end Directory

/-- The sums of a write are those of the append to the log it sees. -/
theorem writeDataSums_spec {ns' name' : CString} (rep : Represents table.matterFlash flash.cells dir)
    (fits : table.matterFlash.Fits) (ordinary : ns ≠ chipFactory)
    (translation : changeNamespaceToBeken ns (some (some name)) = some (ns', some name'))
    (staged : ∀ old, (dir.seenLog malloc ns').lookupWith malloc name' = some old → old.length ≤ dataBufSize) :
    ∀ sums, sums = writeDataSums table malloc (some ns) (some name) (some indata) flash →
      (dir.Slotted malloc ns' → sums =
        if (dir.seenLog malloc ns').lookupWith malloc name' = some indata.bytes then []
        else ((dir.seenLog malloc ns').masked malloc name').appendSums malloc indata.bytes.length) ∧
      (¬ dir.Slotted malloc ns' → sums = []) := by
  intro sums same
  have here : table.ofNamespace ns' = table.matterFlash := by
    rw [ofNamespace_eq, changeNamespaceToBeken_partition translation, partitionOf_matter ordinary]
    rfl
  have dataHere : ∀ {slot : Nat} (inside : slot < table.matterFlash.slots),
      table.matterFlash.partitionStartAddr + (slotAddr slot).2 * flashSectorSize +
        nameFlashDataBaseAddr (getFalshNameSpaceMaxArray table ns') = (table.matterFlash.pair inside).dataAddr := by
    intro slot inside
    rw [getFalshNameSpaceMaxArray, here]
    exact (table.matterFlash.pair_dataAddr inside).symm
  simp only [writeDataSums, if_neg ordinary, translation, getMatterFlashBaseAddr, here,
    getNamespaceAddr_spec rep fits.few here] at same
  subst same
  cases found : dir.findWith malloc ns' with
  | some slot =>
    have inside := rep.find_inside (findWith_some found).2
    rw [Directory.seenLog_found found] at staged ⊢
    refine ⟨fun _ => ?_, fun unslotted => absurd (.inl (by simp [found])) unslotted⟩
    exact setNameDataSums_spec (rep.logs slot inside) (table.matterFlash.pair_nameAddr inside).symm (dataHere inside)
      staged
  | none =>
    rw [Directory.slotted_missing found, Directory.seenLog_missing found]
    rw [Directory.seenLog_missing found] at staged
    have claim := bkSetNamespace_spec malloc rep fits.few here
    cases allocated : dir.allocate malloc ns' with
    | none =>
      rw [allocated] at claim
      simp only [Option.map_none, claim]
      exact ⟨fun slotted => absurd rfl slotted, fun _ => trivial⟩
    | some result =>
      obtain ⟨slot, fresh⟩ := result
      rw [allocated] at claim
      obtain ⟨after, run, free, rep', -⟩ := claim
      obtain ⟨-, rfl⟩ := Directory.allocate_some allocated
      have insideDir := (List.getElem?_eq_some_iff.mp free).1
      have inside : slot < table.matterFlash.slots := rep.size ▸ insideDir
      have held := rep'.logs slot inside
      rw [Directory.logAt_set insideDir, if_pos rfl] at held
      simp only [Option.map_none, run]
      refine ⟨fun _ => ?_, fun unslotted => absurd (by simp) unslotted⟩
      exact setNameDataSums_spec held (table.matterFlash.pair_nameAddr inside).symm (dataHere inside) staged

end

end BekenSdk.KeyValue
