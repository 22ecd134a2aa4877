import Mathlib.Data.List.Nodup
import BekenSdk.Sdp.Extract

/-! When the function keeps to its arrays and answers with NULL or a whole database. A descriptor is taken once for each
characteristic whose scan comes to it: not at all before the first characteristic, and twice where two characteristics
follow one another, since the scan steps over the second one.
-/

set_option autoImplicit false

namespace BekenSdk.Sdp

/-! ## The result -/

/-- The descriptors of a list whose first entry has the index. -/
def descsOf (startHdl : UInt16) (index : Nat) (atts : List GattSvcAtt) : List BkPrfDescDef :=
  ((atts.zipIdx index).filter fun entry => entry.1.isDesc).map fun entry => descDef startHdl entry.2 entry.1

/-- NULL with nothing left in memory, or each characteristic and each descriptor once. -/
def Extracted (pAtts : List GattSvcAtt) (outcome : Outcome) : Prop :=
  outcome.outside = false ∧
    match outcome.db with
    | none => outcome.memory = []
    | some db =>
      db.chars = (pAtts.filter GattSvcAtt.isChar).map (some ∘ charDef) ∧ db.charsNb.toNat = db.chars.length ∧
        db.descs = (descsOf db.svc.startHdl 0 pAtts).map some ∧ db.descsNb.toNat = db.descs.length

/-- The entries up to the next characteristic. -/
def group (atts : List GattSvcAtt) : List GattSvcAtt := atts.takeWhile fun att => !att.isChar

/-- The number of descriptors before the first characteristic. -/
def early (atts : List GattSvcAtt) : Nat := (group atts).countP GattSvcAtt.isDesc

/-- The number of descriptors after two characteristics that follow one another. -/
def doubled : List GattSvcAtt → Nat
  | first :: second :: rest => (if first.isChar && second.isChar then early rest else 0) + doubled (second :: rest)
  | _ => 0

/-- The start handle of the service so far. -/
def startHdlOf (startHdl : UInt16) (atts : List GattSvcAtt) : UInt16 :=
  atts.foldl (fun startHdl att => if att.isPrimarySvc then att.svcStartHdl else startHdl) startHdl

/-- At each characteristic with descriptors, the start handle is the last one already. -/
def steady (last : UInt16) : UInt16 → List GattSvcAtt → Bool
  | _, [] => true
  | startHdl, att :: rest =>
    if att.isPrimarySvc then steady last att.svcStartHdl rest
    else if att.isChar then (early rest == 0 || startHdl == last) && steady last startHdl rest
    else steady last startHdl rest

/-- There is no memory; or fewer descriptors are taken than counted; or each is taken once. -/
def Regular (kernel : Kernel) (pAtts : List GattSvcAtt) : Prop :=
  kernel.kernelCheckMalloc (mallocSize pAtts) = false ∨ doubled pAtts < early pAtts ∨
    early pAtts = 0 ∧ doubled pAtts = 0 ∧ steady (startHdlOf 0 pAtts) 0 pAtts = true

/-- When so much is free, blocks of so much together are given. -/
def Kernel.Reserving (kernel : Kernel) : Prop :=
  ∀ (size : Nat) (given : List Nat) (asked : Nat), kernel.kernelCheckMalloc size = true →
    given.sum + asked ≤ size → kernel.kernelMalloc given asked = true

/-! ## Columns -/

namespace Column
variable {α : Type}

def pushAll (column : Column α) (values : List α) : Column α := values.foldl push column

theorem pushAll_append (column : Column α) (first second : List α) :
    column.pushAll (first ++ second) = (column.pushAll first).pushAll second := List.foldl_append

theorem push_outside {column : Column α} (outside : column.outside = true) (value : α) :
    (column.push value).outside = true := by
  rw [push]
  split
  · exact outside
  · rfl

theorem pushAll_outside {column : Column α} (outside : column.outside = true) (values : List α) :
    (column.pushAll values).outside = true := by
  induction values generalizing column with
  | nil => exact outside
  | cons value values ih => exact ih (push_outside outside value)

theorem push_next (column : Column α) (value : α) : (column.push value).next = column.next + 1 := by
  rw [push]
  split <;> rfl

theorem pushAll_next (column : Column α) (values : List α) :
    (column.pushAll values).next = column.next + UInt8.ofNat values.length := by
  induction values generalizing column with
  | nil => exact (UInt8.add_zero _).symm
  | cons value values ih =>
    refine (ih (column.push value)).trans ?_
    rw [push_next, List.length_cons, Nat.add_comm, UInt8.ofNat_add, UInt8.add_assoc]
    rfl

/-- The first cells written, the others not yet. -/
def upTo (size : Nat) (values : List α) : Column α :=
  ⟨values.map some ++ List.replicate (size - values.length) none, UInt8.ofNat values.length, false⟩

theorem push_upTo {size : Nat} (small : size ≤ 255) {values : List α} (room : values.length < size) (value : α) :
    (upTo size values).push value = upTo size (values ++ [value]) := by
  have index : (UInt8.ofNat values.length).toNat = values.length := UInt8.toNat_ofNat_of_lt' (by
    rw [show UInt8.size = 256 from rfl]
    omega)
  have length : (values.map some ++ List.replicate (size - values.length) (none : Option α)).length = size := by
    rw [List.length_append, List.length_map, List.length_replicate]
    omega
  obtain ⟨spare, spared⟩ : ∃ spare, size - values.length = spare + 1 := ⟨size - values.length - 1, by omega⟩
  rw [push, upTo]
  dsimp only
  rw [index, length, if_pos room, upTo, spared, List.replicate_succ]
  congr 1
  · rw [List.set_append_right _ _ (by rw [List.length_map]), List.length_map, Nat.sub_self, List.set_cons_zero,
      List.map_append, List.append_assoc, List.length_append, show size - (values.length + [value].length) = spare by
        simp only [List.length_singleton]
        omega]
    rfl
  · rw [List.length_append, List.length_singleton, UInt8.ofNat_add]
    rfl

theorem upTo_nil (size : Nat) : upTo size ([] : List α) = alloc α size := rfl

theorem pushAll_upTo {size : Nat} (small : size ≤ 255) {before values : List α}
    (room : before.length + values.length ≤ size) : (upTo size before).pushAll values = upTo size (before ++ values) := by
  induction values generalizing before with
  | nil => rw [List.append_nil]; rfl
  | cons value values ih =>
    rw [List.length_cons] at room
    show ((upTo size before).push value).pushAll values = _
    rw [push_upTo small (by omega), ih (by rw [List.length_append, List.length_singleton]; omega), List.append_assoc]
    rfl

theorem pushAll_alloc {size : Nat} (small : size ≤ 255) {values : List α} (room : values.length ≤ size) :
    (alloc α size).pushAll values = upTo size values := by
  rw [← upTo_nil, pushAll_upTo small (by rw [List.length_nil]; omega), List.nil_append]

theorem upTo_full (values : List α) : upTo values.length values = ⟨values.map some, UInt8.ofNat values.length, false⟩ := by
  rw [upTo, Nat.sub_self, List.replicate_zero, List.append_nil]

/-- One value more than there are cells goes outside. -/
theorem pushAll_alloc_outside {size : Nat} (small : size ≤ 255) {values : List α} (more : size < values.length) :
    ((alloc α size).pushAll values).outside = true := by
  obtain ⟨value, rest, split⟩ : ∃ value rest, values = values.take size ++ value :: rest :=
    ⟨values[size], values.drop (size + 1), by rw [List.getElem_cons_drop, List.take_append_drop]⟩
  have length : (values.take size).length = size := List.length_take_of_le (Nat.le_of_lt more)
  rw [split, pushAll_append, pushAll_alloc small (Nat.le_of_eq length)]
  refine pushAll_outside ?_ rest
  have index : (UInt8.ofNat size).toNat = size := UInt8.toNat_ofNat_of_lt' (by
    rw [show UInt8.size = 256 from rfl]
    omega)
  rw [upTo, length, Nat.sub_self, List.replicate_zero, List.append_nil, push]
  dsimp only
  rw [index, List.length_map, length, if_neg (Nat.lt_irrefl size)]

end Column

/-! ## What is taken -/

/-- The descriptors that a scan takes. -/
def scanned (startHdl : UInt16) (gd : Nat) : List GattSvcAtt → List BkPrfDescDef
  | [] => []
  | att :: rest => (if att.isDesc then [descDef startHdl gd att] else []) ++ descsOf startHdl (gd + 1) (group rest)

/-- The descriptors that all scans take. -/
def taken (startHdl : UInt16) (index : Nat) : List GattSvcAtt → List BkPrfDescDef
  | [] => []
  | att :: rest =>
    if att.isPrimarySvc then taken att.svcStartHdl (index + 1) rest
    else if att.isChar then scanned startHdl (index + 1) rest ++ taken startHdl (index + 1) rest
    else taken startHdl (index + 1) rest

theorem descsOf_cons (startHdl : UInt16) (index : Nat) (att : GattSvcAtt) (rest : List GattSvcAtt) :
    descsOf startHdl index (att :: rest) =
      (if att.isDesc then [descDef startHdl index att] else []) ++ descsOf startHdl (index + 1) rest := by
  rw [descsOf, List.zipIdx_cons, List.filter_cons]
  dsimp only
  split <;> rfl

theorem group_cons (att : GattSvcAtt) (rest : List GattSvcAtt) :
    group (att :: rest) = if att.isChar then [] else att :: group rest := by
  rw [group, List.takeWhile_cons]
  cases att.isChar <;> rfl

theorem findDescs_eq (gd : Nat) (atts : List GattSvcAtt) (filling : Filling) :
    findDescs gd atts filling =
      { filling with descs := filling.descs.pushAll (scanned filling.svc.startHdl gd atts) } := by
  induction atts generalizing gd filling with
  | nil => rfl
  | cons att rest ih =>
    have first : (if att.isDesc then
        { filling with descs := filling.descs.push (descDef filling.svc.startHdl gd att) } else filling) =
        { filling with
          descs := filling.descs.pushAll (if att.isDesc then [descDef filling.svc.startHdl gd att] else []) } := by
      split <;> rfl
    rw [findDescs.eq_def, scanned, Column.pushAll_append]
    dsimp only
    rw [first]
    cases rest with
    | nil => rfl
    | cons next rest =>
      dsimp only
      rw [group_cons]
      split
      · rfl
      · rw [ih, scanned, descsOf_cons]

theorem fill_eq (index : Nat) (atts : List GattSvcAtt) (filling : Filling) :
    (fill index atts filling).svc.startHdl = startHdlOf filling.svc.startHdl atts ∧
      (fill index atts filling).chars = filling.chars.pushAll ((atts.filter GattSvcAtt.isChar).map charDef) ∧
      (fill index atts filling).descs = filling.descs.pushAll (taken filling.svc.startHdl index atts) := by
  induction atts generalizing index filling with
  | nil => exact ⟨rfl, rfl, rfl⟩
  | cons att rest ih =>
    rw [fill]
    obtain ⟨start, chars, descs⟩ := ih (index + 1) (if att.isPrimarySvc then
        { filling with svc := ⟨att.uuidType, att.uuid, att.svcStartHdl, att.svcEndHdl⟩ }
      else if att.isChar then findDescs (index + 1) rest { filling with chars := filling.chars.push (charDef att) }
      else filling)
    rw [start, chars, descs, startHdlOf, startHdlOf, List.foldl_cons, List.filter_cons, taken]
    cases primary : att.isPrimarySvc with
    | true =>
      have : att.isChar = false := by
        have type : att.attType = .primarySvc := eq_of_beq primary
        rw [GattSvcAtt.isChar, type]
        rfl
      rw [this]
      exact ⟨rfl, rfl, rfl⟩
    | false =>
      cases char : att.isChar with
      | false => exact ⟨rfl, rfl, rfl⟩
      | true =>
        simp only [Bool.false_eq_true, if_false, if_true]
        rw [findDescs_eq]
        exact ⟨rfl, rfl, (Column.pushAll_append _ _ _).symm⟩

/-! ## How many -/

theorem length_descsOf (startHdl : UInt16) (index : Nat) (atts : List GattSvcAtt) :
    (descsOf startHdl index atts).length = atts.countP GattSvcAtt.isDesc := by
  induction atts generalizing index with
  | nil => rfl
  | cons att rest ih =>
    rw [descsOf_cons, List.length_append, ih, List.countP_cons, Nat.add_comm]
    congr 1
    split <;> rfl

theorem isDesc_of_isChar {att : GattSvcAtt} (char : att.isChar = true) : att.isDesc = false := by
  have type : att.attType = .char := eq_of_beq char
  rw [GattSvcAtt.isDesc, type]
  rfl

theorem isPrimarySvc_of_isChar {att : GattSvcAtt} (char : att.isChar = true) : att.isPrimarySvc = false := by
  have type : att.attType = .char := eq_of_beq char
  rw [GattSvcAtt.isPrimarySvc, type]
  rfl

theorem early_cons (att : GattSvcAtt) (rest : List GattSvcAtt) :
    early (att :: rest) = if att.isChar then 0 else early rest + if att.isDesc then 1 else 0 := by
  rw [early, group_cons]
  split
  · rfl
  · exact List.countP_cons

/-- What a scan takes after a characteristic: the descriptors of its group, or of the next one's that follows at once. -/
theorem length_scanned (startHdl : UInt16) (gd : Nat) (char : GattSvcAtt) (isChar : char.isChar = true)
    (rest : List GattSvcAtt) :
    (scanned startHdl gd rest).length + doubled rest = early rest + doubled (char :: rest) := by
  cases rest with
  | nil => rfl
  | cons next rest =>
    rw [scanned, List.length_append, length_descsOf, early_cons, doubled, isChar]
    cases nextChar : next.isChar with
    | true =>
      rw [isDesc_of_isChar nextChar]
      simp only [Bool.false_eq_true, if_false, if_true, List.length_nil, Nat.zero_add, Bool.and_self]
      rfl
    | false =>
      simp only [Bool.and_false, Bool.false_eq_true, if_false, Nat.zero_add]
      rw [Nat.add_right_cancel_iff, Nat.add_comm]
      congr 1
      split <;> rfl

theorem doubled_cons_of_not_isChar {att : GattSvcAtt} (notChar : att.isChar = false) (rest : List GattSvcAtt) :
    doubled (att :: rest) = doubled rest := by
  cases rest with
  | nil => rfl
  | cons next rest =>
    rw [doubled, notChar]
    exact Nat.zero_add _

/-- All scans together miss the early descriptors and take some twice. -/
theorem length_taken (startHdl : UInt16) (index : Nat) (atts : List GattSvcAtt) :
    (taken startHdl index atts).length + early atts = atts.countP GattSvcAtt.isDesc + doubled atts := by
  induction atts generalizing startHdl index with
  | nil => rfl
  | cons att rest ih =>
    rw [taken, early_cons, List.countP_cons]
    cases char : att.isChar with
    | true =>
      have scan := length_scanned startHdl (index + 1) att char rest
      have others := ih startHdl (index + 1)
      rw [isPrimarySvc_of_isChar char, isDesc_of_isChar char]
      simp only [Bool.false_eq_true, if_false, if_true, List.length_append]
      omega
    | false =>
      rw [doubled_cons_of_not_isChar char]
      simp only [Bool.false_eq_true, if_false]
      split
      · have := ih att.svcStartHdl (index + 1)
        omega
      · have := ih startHdl (index + 1)
        omega

/-! ## Which -/

theorem descDef_eq_iff {first second : UInt16} {gd : Nat} {att : GattSvcAtt} :
    descDef first gd att = descDef second gd att ↔ first = second := by
  rw [descDef, descDef, BkPrfDescDef.mk.injEq]
  simp only [true_and, and_true]
  exact UInt16.add_left_inj _

theorem descsOf_eq_iff {first second : UInt16} {index : Nat} {atts : List GattSvcAtt} :
    descsOf first index atts = descsOf second index atts ↔ atts.countP GattSvcAtt.isDesc = 0 ∨ first = second := by
  constructor
  · intro same
    by_contra differ
    obtain ⟨some_, differ⟩ := not_or.mp differ
    obtain ⟨att, member, desc⟩ := List.countP_pos_iff.mp (Nat.pos_of_ne_zero some_)
    obtain ⟨k, small, rfl⟩ := List.mem_iff_getElem.mp member
    have entry : (atts[k], index + k) ∈ (atts.zipIdx index).filter fun entry => entry.1.isDesc :=
      List.mem_filter.mpr ⟨List.mk_mem_zipIdx_iff_le_and_getElem?_sub.mpr
        ⟨Nat.le_add_right _ _, by rw [Nat.add_sub_cancel_left, List.getElem?_eq_getElem small]⟩, desc⟩
    have := List.map_inj_left.mp same _ entry
    exact differ (descDef_eq_iff.mp this)
  · rintro (empty | rfl)
    · rw [← length_descsOf first index] at empty
      have other : (descsOf second index atts).length = 0 := by rw [length_descsOf, ← length_descsOf first index, empty]
      rw [List.length_eq_zero_iff.mp empty, List.length_eq_zero_iff.mp other]
    · rfl

theorem descsOf_append (startHdl : UInt16) (index : Nat) (first second : List GattSvcAtt) :
    descsOf startHdl index (first ++ second) =
      descsOf startHdl index first ++ descsOf startHdl (index + first.length) second := by
  rw [descsOf, List.zipIdx_append, List.filter_append, List.map_append]
  rfl

/-- The descriptors of a list are those of its first group and the others. -/
theorem descsOf_group (startHdl : UInt16) (index : Nat) (atts : List GattSvcAtt) :
    descsOf startHdl index atts =
      descsOf startHdl index (group atts) ++ (descsOf startHdl index atts).drop (early atts) := by
  have split : atts = group atts ++ atts.dropWhile fun att => !att.isChar := List.takeWhile_append_dropWhile.symm
  have parts : descsOf startHdl index atts = _ := (congrArg (descsOf startHdl index) split).trans (descsOf_append _ _ _ _)
  have length : early atts = (descsOf startHdl index (group atts)).length := (length_descsOf _ _ _).symm
  rw [parts, length, List.drop_left]

theorem scanned_of_not_isChar {startHdl : UInt16} {gd : Nat} {next : GattSvcAtt} (notChar : next.isChar = false)
    (rest : List GattSvcAtt) :
    scanned startHdl gd (next :: rest) = descsOf startHdl gd (group (next :: rest)) := by
  rw [scanned, group_cons, notChar]
  exact (descsOf_cons _ _ _ _).symm

/-- As long as nothing is taken twice, the scans take the descriptors after the early ones, with the start handle that
they see. -/
theorem taken_eq_iff {last startHdl : UInt16} {index : Nat} {atts : List GattSvcAtt} (single : doubled atts = 0) :
    taken startHdl index atts = (descsOf last index atts).drop (early atts) ↔ steady last startHdl atts = true := by
  induction atts generalizing startHdl index with
  | nil => exact iff_of_true rfl rfl
  | cons att rest ih =>
    rw [taken, steady, early_cons, descsOf_cons]
    cases char : att.isChar with
    | true =>
      rw [isPrimarySvc_of_isChar char, isDesc_of_isChar char]
      simp only [Bool.false_eq_true, if_false, if_true, List.drop_zero, List.nil_append, Bool.and_eq_true,
        Bool.or_eq_true, beq_iff_eq]
      have scan := length_scanned startHdl (index + 1) att char rest
      have singleRest : doubled rest = 0 := by
        cases rest with
        | nil => rfl
        | cons next rest =>
          rw [doubled] at single
          omega
      have scan : scanned startHdl (index + 1) rest = descsOf startHdl (index + 1) (group rest) := by
        cases rest with
        | nil => rfl
        | cons next rest =>
          cases nextChar : next.isChar with
          | true =>
            rw [early_cons, nextChar, single, singleRest] at scan
            rw [group_cons, nextChar]
            exact List.length_eq_zero_iff.mp scan
          | false => exact scanned_of_not_isChar nextChar rest
      rw [descsOf_group last, scan, ← ih singleRest]
      have lengths : (descsOf startHdl (index + 1) (group rest)).length =
          (descsOf last (index + 1) (group rest)).length := by rw [length_descsOf, length_descsOf]
      have parts := @descsOf_eq_iff startHdl last (index + 1) (group rest)
      constructor
      · intro same
        obtain ⟨scans, others⟩ := List.append_inj same lengths
        exact ⟨parts.mp scans, others⟩
      · rintro ⟨scans, others⟩
        rw [parts.mpr scans, others]
    | false =>
      rw [doubled_cons_of_not_isChar char] at single
      simp only [Bool.false_eq_true, if_false]
      cases desc : att.isDesc <;> cases primary : att.isPrimarySvc <;>
        simp only [Bool.false_eq_true, if_false, if_true, Nat.add_zero, List.nil_append, List.singleton_append,
          List.drop_succ_cons] <;>
        exact ih single

theorem nodup_descsOf {startHdl : UInt16} {index : Nat} {atts : List GattSvcAtt}
    (small : index + atts.length ≤ 65536) : ((descsOf startHdl index atts).map BkPrfDescDef.descHdl).Nodup := by
  have handles : (descsOf startHdl index atts).map BkPrfDescDef.descHdl =
      (((atts.zipIdx index).filter fun entry => entry.1.isDesc).map Prod.snd).map fun gd => startHdl + UInt16.ofNat gd := by
    rw [descsOf, List.map_map, List.map_map]
    rfl
  have indices : (((atts.zipIdx index).filter fun entry => entry.1.isDesc).map Prod.snd).Sublist
      (List.range' index atts.length) := by
    rw [← List.zipIdx_map_snd]
    exact List.filter_sublist.map _
  rw [handles]
  refine List.Nodup.map_on ?_ (indices.nodup List.nodup_range')
  intro first firstIn second secondIn same
  obtain ⟨-, firstSmall⟩ := List.mem_range'_1.mp (indices.subset firstIn)
  obtain ⟨-, secondSmall⟩ := List.mem_range'_1.mp (indices.subset secondIn)
  have same := congrArg UInt16.toNat ((UInt16.add_right_inj _).mp same)
  rw [UInt16.toNat_ofNat', UInt16.toNat_ofNat'] at same
  omega

/-- What is taken twice makes a handle occur twice. -/
theorem not_nodup_of_doubled {startHdl : UInt16} {index : Nat} {atts : List GattSvcAtt} (twice : 0 < doubled atts) :
    ¬((taken startHdl index atts).map BkPrfDescDef.descHdl).Nodup := by
  induction atts generalizing startHdl index with
  | nil => exact absurd twice (Nat.lt_irrefl 0)
  | cons first rest ih =>
    rw [taken]
    intro nodup
    cases char : first.isChar with
    | false =>
      rw [doubled_cons_of_not_isChar char] at twice
      rw [char] at nodup
      split at nodup
      · exact ih twice nodup
      · exact ih twice nodup
    | true =>
      rw [isPrimarySvc_of_isChar char, char] at nodup
      simp only [Bool.false_eq_true, if_false, if_true, List.map_append] at nodup
      cases rest with
      | nil => exact absurd twice (Nat.lt_irrefl 0)
      | cons second rest =>
        rcases Nat.eq_zero_or_pos (doubled (second :: rest)) with none_ | later
        · rw [doubled, none_, char, Bool.true_and] at twice
          split at twice
          next secondChar =>
            have again : scanned startHdl (index + 1 + 1) rest = descsOf startHdl (index + 1 + 1) (group rest) := by
              cases rest with
              | nil => rfl
              | cons third rest =>
                cases thirdChar : third.isChar with
                | true =>
                  rw [early_cons, thirdChar] at twice
                  exact absurd twice (Nat.lt_irrefl 0)
                | false => exact scanned_of_not_isChar thirdChar rest
            rw [scanned, taken, isDesc_of_isChar secondChar, isPrimarySvc_of_isChar secondChar, secondChar] at nodup
            simp only [Bool.false_eq_true, if_false, if_true, List.nil_append, List.map_append, again] at nodup
            obtain ⟨desc, found⟩ : ∃ desc, desc ∈ descsOf startHdl (index + 1 + 1) (group rest) :=
              List.exists_mem_of_length_pos (by rw [length_descsOf]; exact twice)
            have handle := @List.mem_map_of_mem _ _ _ _ BkPrfDescDef.descHdl found
            exact List.disjoint_of_nodup_append nodup handle (List.mem_append_left _ handle)
          · exact absurd twice (Nat.lt_irrefl 0)
        · exact ih later nodup.of_append_right

/-! ## The function -/

theorem foldl_countAtts {count : UInt8 × UInt8 → GattSvcAtt → UInt8 × UInt8}
    (counts : ∀ charsNb descsNb att, count (charsNb, descsNb) att =
      if att.isChar then (charsNb + 1, descsNb) else if att.isDesc then (charsNb, descsNb + 1) else (charsNb, descsNb))
    (pAtts : List GattSvcAtt) (charsNb descsNb : Nat) :
    pAtts.foldl count (UInt8.ofNat charsNb, UInt8.ofNat descsNb) =
      (UInt8.ofNat (charsNb + pAtts.countP GattSvcAtt.isChar), UInt8.ofNat (descsNb + pAtts.countP GattSvcAtt.isDesc)) := by
  induction pAtts generalizing charsNb descsNb with
  | nil => rfl
  | cons att rest ih =>
    have next : ∀ nb : Nat, UInt8.ofNat nb + 1 = UInt8.ofNat (nb + 1) := fun nb => (UInt8.ofNat_add nb 1).symm
    rw [List.foldl_cons, counts, List.countP_cons, List.countP_cons]
    cases char : att.isChar with
    | true =>
      rw [isDesc_of_isChar char]
      simp only [if_true, Bool.false_eq_true, if_false, Nat.add_zero, next, ih]
      rw [Nat.add_right_comm, Nat.add_assoc]
    | false =>
      cases desc : att.isDesc with
      | true =>
        simp only [if_true, Bool.false_eq_true, if_false, Nat.add_zero, next, ih]
        rw [Nat.add_right_comm, Nat.add_assoc descsNb]
      | false => simp only [Bool.false_eq_true, if_false, Nat.add_zero, ih]

theorem countAtts_eq (pAtts : List GattSvcAtt) :
    countAtts pAtts = (UInt8.ofNat (pAtts.countP GattSvcAtt.isChar), UInt8.ofNat (pAtts.countP GattSvcAtt.isDesc)) := by
  rw [← Nat.zero_add (pAtts.countP GattSvcAtt.isChar), ← Nat.zero_add (pAtts.countP GattSvcAtt.isDesc)]
  exact foldl_countAtts (fun _ _ _ => rfl) pAtts 0 0

theorem array_eq {kernel : Kernel} {α : Type} {block : Block} {nb : UInt8} {size : Nat} {memory : Memory}
    (given : kernel.kernelMalloc (memory.map Prod.snd) (size * nb.toNat) = true) :
    kernel.array α block nb size memory =
      (.alloc α nb.toNat, if nb = 0 then memory else (block, size * nb.toNat) :: memory) := by
  rw [Kernel.array, Kernel.malloc, if_pos given]
  split
  next none_ =>
    rw [none_]
    rfl
  · rfl

theorem toNat_count {p : GattSvcAtt → Bool} {pAtts : List GattSvcAtt} (bound : pAtts.length ≤ 255) :
    (UInt8.ofNat (pAtts.countP p)).toNat = pAtts.countP p := by
  have : pAtts.countP p ≤ pAtts.length := List.countP_le_length
  exact UInt8.toNat_ofNat_of_lt' (by
    rw [show UInt8.size = 256 from rfl]
    omega)

/-- The database with the arrays as they are filled. -/
def database (pAtts : List GattSvcAtt) : SdpDb :=
  ⟨(fill 0 pAtts ⟨.zero, .alloc _ (pAtts.countP GattSvcAtt.isChar), .alloc _ (pAtts.countP GattSvcAtt.isDesc)⟩).svc,
    UInt8.ofNat (pAtts.countP GattSvcAtt.isChar), (pAtts.filter GattSvcAtt.isChar).map (some ∘ charDef),
    UInt8.ofNat (pAtts.countP GattSvcAtt.isDesc),
    ((Column.alloc _ (pAtts.countP GattSvcAtt.isDesc)).pushAll (taken 0 0 pAtts)).cells⟩

/-- With enough memory, the descriptors that are taken decide. -/
theorem sdpExtractSvcInfo_eq {kernel : Kernel} {pAtts : List GattSvcAtt} (bound : pAtts.length ≤ 255)
    (reserving : kernel.Reserving) (free : kernel.kernelCheckMalloc (mallocSize pAtts) = true) :
    ∃ memory, sdpExtractSvcInfo kernel pAtts =
      if UInt8.ofNat (pAtts.countP GattSvcAtt.isDesc) = UInt8.ofNat (taken 0 0 pAtts).length then
        ⟨some (database pAtts), memory,
          ((Column.alloc _ (pAtts.countP GattSvcAtt.isDesc)).pushAll (taken 0 0 pAtts)).outside⟩
      else ⟨none, [], ((Column.alloc _ (pAtts.countP GattSvcAtt.isDesc)).pushAll (taken 0 0 pAtts)).outside⟩ := by
  have charCount := @toNat_count GattSvcAtt.isChar _ bound
  have descCount := @toNat_count GattSvcAtt.isDesc _ bound
  have size : mallocSize pAtts = sizeofCharDef * pAtts.countP GattSvcAtt.isChar +
      sizeofDescDef * pAtts.countP GattSvcAtt.isDesc + sizeofSdpDb := by
    rw [mallocSize, countAtts_eq, charCount, descCount]
  obtain ⟨start, chars, descs⟩ := fill_eq 0 pAtts
    ⟨.zero, .alloc _ (pAtts.countP GattSvcAtt.isChar), .alloc _ (pAtts.countP GattSvcAtt.isDesc)⟩
  have whole : ((pAtts.filter GattSvcAtt.isChar).map charDef).length = pAtts.countP GattSvcAtt.isChar := by
    rw [List.length_map, List.countP_eq_length_filter]
  have charsFull : (Column.alloc BkPrfCharDef (pAtts.countP GattSvcAtt.isChar)).pushAll
      ((pAtts.filter GattSvcAtt.isChar).map charDef) = ⟨((pAtts.filter GattSvcAtt.isChar).map charDef).map some,
        UInt8.ofNat (pAtts.countP GattSvcAtt.isChar), false⟩ := by
    rw [← whole, Column.pushAll_alloc (by rw [whole]; exact List.countP_le_length.trans bound) (Nat.le_refl _),
      Column.upTo_full]
  have first : kernel.malloc .db sizeofSdpDb [] = (true, [(.db, sizeofSdpDb)]) := by
    rw [Kernel.malloc, if_pos (reserving _ _ _ free (by rw [size]; exact Nat.le_add_left _ _))]
  have second : kernel.kernelMalloc [sizeofSdpDb] (sizeofCharDef * pAtts.countP GattSvcAtt.isChar) = true :=
    reserving _ _ _ free (by rw [size, List.sum_singleton]; omega)
  have charsArray := @array_eq kernel BkPrfCharDef .chars (UInt8.ofNat (pAtts.countP GattSvcAtt.isChar)) sizeofCharDef
    [(.db, sizeofSdpDb)] (by rw [charCount]; exact second)
  have third : kernel.kernelMalloc ((if UInt8.ofNat (pAtts.countP GattSvcAtt.isChar) = 0 then [(Block.db, sizeofSdpDb)]
      else [(Block.chars, sizeofCharDef * pAtts.countP GattSvcAtt.isChar), (.db, sizeofSdpDb)]).map Prod.snd)
      (sizeofDescDef * pAtts.countP GattSvcAtt.isDesc) = true := by
    refine reserving _ _ _ free ?_
    rw [size]
    split
    · rw [List.map_singleton, List.sum_singleton]
      omega
    · rw [List.map_cons, List.map_singleton, List.sum_cons, List.sum_singleton]
      omega
  rw [charCount] at charsArray
  have descsArray := @array_eq kernel BkPrfDescDef .descs (UInt8.ofNat (pAtts.countP GattSvcAtt.isDesc)) sizeofDescDef
    _ (by rw [descCount]; exact third)
  rw [descCount] at descsArray
  simp only [sdpExtractSvcInfo, countAtts_eq, if_pos free, first, charsArray, descsArray, chars, descs, charsFull,
    Column.pushAll_next, bne_self_eq_false, Bool.false_or, Bool.not_true]
  have next : (Column.alloc BkPrfDescDef (pAtts.countP GattSvcAtt.isDesc)).next +
      UInt8.ofNat (taken BkPrfSvc.zero.startHdl 0 pAtts).length = UInt8.ofNat (taken 0 0 pAtts).length :=
    UInt8.zero_add _
  rw [next]
  by_cases same : UInt8.ofNat (pAtts.countP GattSvcAtt.isDesc) = UInt8.ofNat (taken 0 0 pAtts).length
  · simp only [if_pos same]
    rw [if_neg (by rw [bne_iff_ne, not_not]; exact same), database, List.map_map]
    exact ⟨_, rfl⟩
  · simp only [if_neg same]
    rw [if_pos (bne_iff_ne.mpr same)]
    refine ⟨[], ?_⟩
    congr 1
    split <;> split <;> rfl

theorem startHdl_database (pAtts : List GattSvcAtt) : (database pAtts).svc.startHdl = startHdlOf 0 pAtts :=
  (fill_eq _ _ _).1

/-- A database is whole when the descriptors that are taken are those of the list. -/
theorem extracted_database {pAtts : List GattSvcAtt} (bound : pAtts.length ≤ 255)
    (full : (taken 0 0 pAtts).length = pAtts.countP GattSvcAtt.isDesc) (memory : Memory) (outside : Bool)
    (inside : outside = false) :
    Extracted pAtts ⟨some (database pAtts), memory, outside⟩ ↔
      taken 0 0 pAtts = descsOf (startHdlOf 0 pAtts) 0 pAtts := by
  have cells : (database pAtts).descs = (taken 0 0 pAtts).map some := by
    rw [database, ← full, Column.pushAll_alloc (by rw [full]; exact List.countP_le_length.trans bound) (Nat.le_refl _),
      Column.upTo_full]
  have charsNb : (database pAtts).charsNb.toNat = (database pAtts).chars.length := by
    rw [database, toNat_count bound, List.length_map, List.countP_eq_length_filter]
  have descsNb : (database pAtts).descsNb.toNat = (database pAtts).descs.length := by
    rw [cells, List.length_map, full]
    exact toNat_count bound
  rw [Extracted]
  dsimp only
  rw [startHdl_database, cells]
  constructor
  · rintro ⟨-, -, -, same, -⟩
    exact List.map_injective_iff.mpr (Option.some_injective _) same
  · intro same
    exact ⟨inside, rfl, charsNb, congrArg (List.map some) same, cells ▸ descsNb⟩

/-- For every list of entries, in every order, and with every answer to whether there is memory. -/
theorem extracted_iff {kernel : Kernel} {pAtts : List GattSvcAtt} (bound : pAtts.length ≤ 255)
    (reserving : kernel.Reserving) : Extracted pAtts (sdpExtractSvcInfo kernel pAtts) ↔ Regular kernel pAtts := by
  rw [Regular]
  cases free : kernel.kernelCheckMalloc (mallocSize pAtts) with
  | false =>
    refine iff_of_true ?_ (Or.inl rfl)
    rw [sdpExtractSvcInfo, free]
    exact ⟨rfl, rfl⟩
  | true =>
    obtain ⟨memory, outcome⟩ := sdpExtractSvcInfo_eq bound reserving free
    have small : pAtts.countP GattSvcAtt.isDesc ≤ 255 := List.countP_le_length.trans bound
    have lengths := length_taken 0 0 pAtts
    rw [outcome]
    simp only [Bool.true_eq_false, false_or]
    rcases Nat.lt_trichotomy (taken 0 0 pAtts).length (pAtts.countP GattSvcAtt.isDesc) with fewer | same | more
    · have differ : ¬UInt8.ofNat (pAtts.countP GattSvcAtt.isDesc) = UInt8.ofNat (taken 0 0 pAtts).length := by
        intro same
        have same := congrArg UInt8.toNat same
        rw [toNat_count bound, UInt8.toNat_ofNat_of_lt' (show _ < 256 by omega)] at same
        omega
      rw [if_neg differ, Column.pushAll_alloc small (Nat.le_of_lt fewer)]
      exact iff_of_true ⟨rfl, rfl⟩ (Or.inl (by omega))
    · rw [if_pos (by rw [same]), extracted_database bound same]
      · have equal : doubled pAtts = early pAtts := by omega
        constructor
        · intro whole
          have single : doubled pAtts = 0 := by
            by_contra twice
            refine not_nodup_of_doubled (Nat.pos_of_ne_zero twice) (?_ : ((taken 0 0 pAtts).map _).Nodup)
            rw [whole]
            exact nodup_descsOf (by omega)
          refine Or.inr ⟨by omega, single, (taken_eq_iff single).mp (?_ : taken 0 0 pAtts = _)⟩
          rw [← equal, single]
          exact whole
        · rintro (fewer | ⟨none_, single, start⟩)
          · omega
          · have whole : taken 0 0 pAtts = _ := (taken_eq_iff single).mpr start
            rw [none_] at whole
            exact whole
      · rw [← same, Column.pushAll_alloc (by omega) (Nat.le_refl _)]
        rfl
    · have outside := Column.pushAll_alloc_outside small more
      rw [outside]
      refine iff_of_false ?_ (by omega)
      split
      · exact fun extracted => Bool.noConfusion extracted.1
      · exact fun extracted => Bool.noConfusion extracted.1

/-- 2000 bytes. -/
def sampleKernel : Kernel := ⟨fun size => decide (size ≤ 2000), fun given asked => decide (given.sum + asked ≤ 2000)⟩

theorem sampleKernel_reserving : sampleKernel.Reserving := fun _ _ _ free fits =>
  decide_eq_true (fits.trans (of_decide_eq_true free))

def sampleAtt (attType : GattAttType) (info0 info1 : UInt16) : GattSvcAtt :=
  ⟨attType, 0, Vector.replicate 16 0, info0, info1⟩

/-- A service from handle 16 on, with two characteristics, the second one with a descriptor. -/
def sampleAtts : List GattSvcAtt :=
  [sampleAtt .primarySvc 16 21, sampleAtt .char 18 2, sampleAtt .val 0 0, sampleAtt .char 20 16, sampleAtt .val 0 0,
    sampleAtt .desc 0 0]

theorem sample_extracted : Extracted sampleAtts (sdpExtractSvcInfo sampleKernel sampleAtts) :=
  (extracted_iff (by decide) sampleKernel_reserving).mpr (Or.inr (Or.inr (by decide)))

/-- Two characteristics that follow one another: the descriptor is written twice, to an array of one. -/
def adjacentAtts : List GattSvcAtt :=
  [sampleAtt .primarySvc 16 19, sampleAtt .char 18 2, sampleAtt .char 19 16, sampleAtt .desc 0 0]

theorem adjacent_outside : ¬Extracted adjacentAtts (sdpExtractSvcInfo sampleKernel adjacentAtts) := fun extracted =>
  absurd extracted.1 (by decide)

end BekenSdk.Sdp
