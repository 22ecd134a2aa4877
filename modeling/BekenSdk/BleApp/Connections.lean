import BekenSdk.BleApp.ConnTable

/-! The table of connections over whole runs: which indications keep it right. -/

set_option autoImplicit false

namespace BekenSdk.BleApp
open Base

section Table
variable {P : Type} {config : ConnConfig}

/-- What the searches find. -/
theorem ConnTable.find_cases (config : ConnConfig) (table : ConnTable P) (conhdl : UInt16) :
    (table.appBleFindConnIdxHandle config conhdl < config.connectionMax ∧
        (table.slots (table.appBleFindConnIdxHandle config conhdl)).conhdl = conhdl) ∨
      table.appBleFindConnIdxHandle config conhdl = config.connectionMax ∧
        ∀ slot < config.connectionMax, (table.slots slot).conhdl ≠ conhdl := by
  cases found : (List.range config.connectionMax).find? fun connIdx => (table.slots connIdx).conhdl = conhdl with
  | some connIdx =>
    have holds := List.find?_some found
    have member := List.mem_of_find?_eq_some found
    simp only [decide_eq_true_eq, List.mem_range] at holds member
    exact .inl (by simp [ConnTable.appBleFindConnIdxHandle, found, holds, member])
  | none =>
    rw [List.find?_eq_none] at found
    simp only [List.mem_range, decide_eq_true_eq] at found
    refine .inr ⟨?_, found⟩
    rw [ConnTable.appBleFindConnIdxHandle, List.find?_eq_none.mpr]
    · rfl
    · simpa using found

theorem ConnTable.initingSlot_le (dest : UInt8) : ConnTable.initingSlot config dest ≤ config.connectionMax := by
  unfold ConnTable.initingSlot ConnConfig.appIdxMax
  split <;> omega

theorem isHandle_of_lt (conidx : UInt8) (held : conidx.toNat < config.connectionMax) : IsHandle conidx.toUInt16 := by
  have few := config.few
  unfold ConnConfig.connectionMax at held
  constructor
  · intro same
    have number := congrArg UInt16.toNat same
    simp [unknowConnHdl] at number
    omega
  · intro same
    have number := congrArg UInt16.toNat same
    simp [usedConnHdl] at number
    omega

theorem toUInt16_inj (first second : UInt8) (same : first.toUInt16 = second.toUInt16) : first = second := by
  apply UInt8.toNat_inj.mp
  simpa using congrArg UInt16.toNat same

end Table

/-! ## The live connections -/

/-- Taking out the connection with a handle takes one off the count of its kind. -/
theorem countP_without (kind : LiveConn → Bool) (live : List LiveConn) (once : (live.map LiveConn.conhdl).Nodup)
    (conn : LiveConn) (member : conn ∈ live) :
    live.countP kind = (live.filter (·.conhdl ≠ conn.conhdl)).countP kind + if kind conn then 1 else 0 := by
  induction live with
  | nil => cases member
  | cons head rest ih =>
    rw [List.map_cons, List.nodup_cons] at once
    cases member with
    | head =>
      have apart : rest.filter (·.conhdl ≠ conn.conhdl) = rest := by
        rw [List.filter_eq_self]
        intro other otherMember
        simp only [ne_eq, decide_not, Bool.not_eq_eq_eq_not, Bool.not_true, decide_eq_false_iff_not]
        intro same
        exact once.1 (same ▸ List.mem_map_of_mem otherMember)
      rw [List.filter_cons_of_neg (by simp), apart, List.countP_cons]
    | tail _ later =>
      have differs : head.conhdl ≠ conn.conhdl := by
        intro same
        exact once.1 (same ▸ List.mem_map_of_mem later)
      rw [List.filter_cons_of_pos (by simpa using differs), List.countP_cons, List.countP_cons, ih once.2 later]
      omega

theorem filter_absent (live : List LiveConn) (conidx : UInt8) (absent : ∀ conn ∈ live, conn.conhdl ≠ conidx) :
    live.filter (·.conhdl ≠ conidx) = live := by
  rw [List.filter_eq_self]
  intro conn member
  simpa using absent conn member

namespace ConnState
variable {P : Type} {config : ConnConfig} {state : ConnState P}

/-- A right state whose live handles are ones the stack can hold. -/
structure Sound (config : ConnConfig) (state : ConnState P) : Prop where
  right : state.Right config
  held : ∀ conn ∈ state.live, conn.conhdl.toNat < config.connectionMax

/-- The events that keep the table right: a slave is announced below the configured number, a connection's handle is in no
other slot, no slot with another connection is taken, and an update is requested by a connection in the table. -/
def Fine (config : ConnConfig) (table : ConnTable P) : ConnEvent P → Prop
  | .connectionReq conidx dest role _ =>
    conidx = gapInvalidConidx ∨
      (role ≠ appBleMasterRole ∧ table.connActv.toNat < config.connNum ∧
        ((∀ slot < config.connectionMax, (table.slots slot).conhdl ≠ unknowConnHdl) ∨
          ∀ slot < config.connectionMax, (table.slots slot).conhdl ≠ conidx.toUInt16)) ∨
      (role = appBleMasterRole ∧
        (ConnTable.initingSlot config dest = config.connectionMax ∨
          (∀ slot < config.connectionMax, slot ≠ ConnTable.initingSlot config dest →
            (table.slots slot).conhdl ≠ conidx.toUInt16) ∧
          (IsHandle (table.slots (ConnTable.initingSlot config dest)).conhdl →
            (table.slots (ConnTable.initingSlot config dest)).conhdl = conidx.toUInt16 ∧
              (table.slots (ConnTable.initingSlot config dest)).role = appBleMasterRole)))
  | .paramUpdateReq conidx => ∃ slot < config.connectionMax, (table.slots slot).conhdl = conidx.toUInt16
  | .paramUpdated _ | .disconnect _ => True
  | .initiating connIdx => connIdx < config.connectionMax → ¬ IsHandle (table.slots connIdx).conhdl

theorem start_sound (param : P) : (start param).Sound config := by
  constructor
  · constructor
    · intro i member
      cases member
    · exact List.nodup_nil
    · intro conn member
      cases member
    · intro slot inside handle
      exact absurd rfl handle.1
    · rfl
  · intro conn member
    cases member

/-- A live connection's handle stands in a slot as one. -/
theorem Sound.isHandle (sound : state.Sound config) (conn : LiveConn) (member : conn ∈ state.live) :
    IsHandle conn.conhdl.toUInt16 := isHandle_of_lt conn.conhdl (sound.held conn member)

theorem Sound.holds (sound : state.Sound config) (conn : LiveConn) (member : conn ∈ state.live) :
    (state.table.slots conn.slot).conhdl = conn.conhdl.toUInt16 :=
  ((sound.right.stored conn member).2.2 conn.slot (sound.right.stored conn member).1).2 rfl

/-- A handle in a slot is the one of a live connection, which has its role. -/
theorem Sound.of_slot (sound : state.Sound config) (slot : Nat) (inside : slot < config.connectionMax) (conidx : UInt8)
    (held : conidx.toNat < config.connectionMax) (there : (state.table.slots slot).conhdl = conidx.toUInt16) :
    ⟨conidx, (state.table.slots slot).role, slot⟩ ∈ state.live := by
  obtain ⟨conn, member, rfl⟩ := sound.right.used slot inside (there ▸ isHandle_of_lt conidx held)
  have same := toUInt16_inj _ _ ((sound.holds conn member).symm.trans there)
  rw [(sound.right.stored conn member).2.1, ← same]
  exact member

/-- No live connection has a handle that is in no slot. -/
theorem Sound.absent (sound : state.Sound config) (conidx : UInt8)
    (nowhere : ∀ slot < config.connectionMax, (state.table.slots slot).conhdl ≠ conidx.toUInt16) :
    ∀ conn ∈ state.live, conn.conhdl ≠ conidx := by
  rintro conn member rfl
  exact nowhere conn.slot (sound.right.stored conn member).1 (sound.holds conn member)

/-! ## What the handlers do to it -/

/-- A connection is put into a slot that has none, or has the same one as a master. -/
theorem Sound.store (sound : state.Sound config) (conidx role : UInt8) (held : conidx.toNat < config.connectionMax)
    (slot : Nat)
    (inside : slot < config.connectionMax)
    (elsewhere : ∀ other < config.connectionMax, other ≠ slot → (state.table.slots other).conhdl ≠ conidx.toUInt16)
    (free : IsHandle (state.table.slots slot).conhdl →
      (state.table.slots slot).conhdl = conidx.toUInt16 ∧ (state.table.slots slot).role = appBleMasterRole)
    (table : ConnTable P) (filled : ConnSlot P) (slots : table.slots = Function.update state.table.slots slot filled)
    (handle : filled.conhdl = conidx.toUInt16) (itsRole : filled.role = role)
    (counted : table.connActv.toNat = state.table.connActv.toNat + if role ≠ appBleMasterRole then 1 else 0) :
    Sound config ⟨table, ⟨conidx, role, slot⟩ :: state.live.filter (·.conhdl ≠ conidx), slot :: state.indexed⟩ := by
  have others : ∀ conn ∈ state.live, conn.conhdl ≠ conidx → conn.slot ≠ slot := by
    rintro conn member differs rfl
    have same := (free (sound.holds conn member ▸ sound.isHandle conn member)).1
    exact differs (toUInt16_inj _ _ ((sound.holds conn member).symm.trans same))
  have kept : ∀ conn, conn ∈ state.live.filter (·.conhdl ≠ conidx) ↔ conn ∈ state.live ∧ conn.conhdl ≠ conidx := by
    simp [List.mem_filter]
  refine ⟨⟨?_, ?_, ?_, ?_, ?_⟩, ?_⟩
  · intro i member
    cases member with
    | head => exact inside
    | tail _ earlier => exact sound.right.inside i earlier
  · rw [List.map_cons, List.nodup_cons]
    constructor
    · intro member
      obtain ⟨conn, there, same⟩ := List.mem_map.1 member
      exact ((kept conn).1 there).2 same
    · exact sound.right.once.sublist ((List.filter_sublist).map _)
  · intro conn member
    rw [List.mem_cons] at member
    obtain rfl | member := member
    · refine ⟨inside, ?_, ?_⟩
      · simp only [slots, Function.update_self, itsRole]
      · intro other otherInside
        by_cases same : other = slot
        · simp [same, slots, handle]
        · simp only [slots, Function.update_of_ne same, same, iff_false]
          exact elsewhere other otherInside same
    · obtain ⟨old, differs⟩ := (kept conn).1 member
      obtain ⟨connInside, connRole, connStored⟩ := sound.right.stored conn old
      have apart := others conn old differs
      refine ⟨connInside, ?_, ?_⟩
      · rw [slots, Function.update_of_ne apart]
        exact connRole
      · intro other otherInside
        by_cases same : other = slot
        · subst same
          rw [slots, Function.update_self, handle]
          exact ⟨fun clash => absurd (toUInt16_inj _ _ clash).symm differs, fun here => absurd here.symm apart⟩
        · rw [slots, Function.update_of_ne same]
          exact connStored other otherInside
  · intro other otherInside stands
    by_cases same : other = slot
    · exact ⟨_, List.mem_cons_self, same.symm⟩
    · rw [slots, Function.update_of_ne same] at stands
      obtain ⟨conn, member, there⟩ := sound.right.used other otherInside stands
      refine ⟨conn, List.mem_cons_of_mem _ ((kept conn).2 ⟨member, ?_⟩), there⟩
      rintro rfl
      exact elsewhere other otherInside same (there ▸ sound.holds conn member)
  · have before := sound.right.counted
    have others : state.live.countP (·.role ≠ appBleMasterRole) =
        (state.live.filter (·.conhdl ≠ conidx)).countP (·.role ≠ appBleMasterRole) := by
      by_cases live : ∃ conn ∈ state.live, conn.conhdl = conidx
      · obtain ⟨conn, member, rfl⟩ := live
        have here : conn.slot = slot := by
          by_contra away
          exact elsewhere conn.slot (sound.right.stored conn member).1 away (sound.holds conn member)
        have master : conn.role = appBleMasterRole := by
          rw [← (sound.right.stored conn member).2.1, here]
          exact (free (here ▸ sound.holds conn member ▸ sound.isHandle conn member)).2
        rw [countP_without _ state.live sound.right.once conn member]
        simp [master]
      · rw [filter_absent state.live conidx fun conn member same => live ⟨conn, member, same⟩]
    rw [counted, before, others, List.countP_cons]
    simp
  · intro conn member
    rw [List.mem_cons] at member
    obtain rfl | member := member
    · exact held
    · exact sound.held conn ((kept conn).1 member).1

/-- Indices inside the table are all that is new. -/
theorem Sound.look (sound : state.Sound config) (indexed : List Nat)
    (inside : ∀ i ∈ indexed, i < config.connectionMax) :
    Sound config ⟨state.table, state.live, indexed ++ state.indexed⟩ := by
  refine ⟨⟨?_, sound.right.once, sound.right.stored, sound.right.used, sound.right.counted⟩, sound.held⟩
  intro i member
  cases List.mem_append.1 member with
  | inl new => exact inside i new
  | inr earlier => exact sound.right.inside i earlier

/-- The slot of a live connection is freed. -/
theorem Sound.free (sound : state.Sound config) (conn : LiveConn) (member : conn ∈ state.live) (table : ConnTable P)
    (emptied : ConnSlot P) (slots : table.slots = Function.update state.table.slots conn.slot emptied)
    (handle : emptied.conhdl = unknowConnHdl)
    (counted : table.connActv.toNat + (if conn.role ≠ appBleMasterRole then 1 else 0) = state.table.connActv.toNat) :
    Sound config ⟨table, state.live.filter (·.conhdl ≠ conn.conhdl), conn.slot :: state.indexed⟩ := by
  have kept : ∀ other, other ∈ state.live.filter (·.conhdl ≠ conn.conhdl) ↔ other ∈ state.live ∧
    other.conhdl ≠ conn.conhdl := by
    simp [List.mem_filter]
  obtain ⟨inside, -, stored⟩ := sound.right.stored conn member
  have others : ∀ other ∈ state.live, other.conhdl ≠ conn.conhdl → other.slot ≠ conn.slot := by
    intro other otherMember differs same
    have there := sound.holds other otherMember
    rw [same, sound.holds conn member] at there
    exact differs (toUInt16_inj _ _ there).symm
  refine ⟨⟨?_, ?_, ?_, ?_, ?_⟩, ?_⟩
  · intro i there
    cases there with
    | head => exact inside
    | tail _ earlier => exact sound.right.inside i earlier
  · exact sound.right.once.sublist ((List.filter_sublist).map _)
  · intro other there
    obtain ⟨old, differs⟩ := (kept other).1 there
    obtain ⟨otherInside, otherRole, otherStored⟩ := sound.right.stored other old
    have apart := others other old differs
    refine ⟨otherInside, ?_, ?_⟩
    · rw [slots, Function.update_of_ne apart]
      exact otherRole
    · intro slot slotInside
      by_cases same : slot = conn.slot
      · subst same
        rw [slots, Function.update_self, handle]
        exact ⟨fun clash => absurd clash.symm (sound.isHandle other old).1, fun here => absurd here.symm apart⟩
      · rw [slots, Function.update_of_ne same]
        exact otherStored slot slotInside
  · intro slot slotInside stands
    by_cases same : slot = conn.slot
    · rw [same, slots, Function.update_self, handle] at stands
      exact absurd rfl stands.1
    · rw [slots, Function.update_of_ne same] at stands
      obtain ⟨other, otherMember, there⟩ := sound.right.used slot slotInside stands
      refine ⟨other, (kept other).2 ⟨otherMember, ?_⟩, there⟩
      intro clash
      have here := (stored slot slotInside).1 (by rw [← there, sound.holds other otherMember, clash])
      exact same here
  · have before := sound.right.counted
    rw [countP_without _ state.live sound.right.once conn member] at before
    simp only [decide_eq_true_eq] at before
    show table.connActv.toNat = (state.live.filter (·.conhdl ≠ conn.conhdl)).countP (·.role ≠ appBleMasterRole)
    omega
  · intro other there
    exact sound.held other ((kept other).1 there).1

/-- A slot without a connection is reserved. -/
theorem Sound.reserve (sound : state.Sound config) (slot : Nat) (inside : slot < config.connectionMax)
    (free : ¬ IsHandle (state.table.slots slot).conhdl) (reserved : ConnSlot P)
    (handle : reserved.conhdl = usedConnHdl) :
    Sound config ⟨state.table.setSlot slot reserved, state.live, slot :: state.indexed⟩ := by
  have others : ∀ conn ∈ state.live, conn.slot ≠ slot := by
    rintro conn member rfl
    exact free (sound.holds conn member ▸ sound.isHandle conn member)
  refine ⟨⟨?_, sound.right.once, ?_, ?_, sound.right.counted⟩, sound.held⟩
  · intro i there
    cases there with
    | head => exact inside
    | tail _ earlier => exact sound.right.inside i earlier
  · intro conn member
    obtain ⟨connInside, connRole, connStored⟩ := sound.right.stored conn member
    have apart := others conn member
    refine ⟨connInside, ?_, ?_⟩
    · simp only [ConnTable.setSlot, Function.update_of_ne apart, connRole]
    · intro other otherInside
      by_cases same : other = slot
      · subst same
        simp only [ConnTable.setSlot, Function.update_self, handle]
        exact ⟨fun clash => absurd clash.symm (sound.isHandle conn member).2, fun here => absurd here.symm apart⟩
      · simp only [ConnTable.setSlot, Function.update_of_ne same]
        exact connStored other otherInside
  · intro other otherInside stands
    by_cases same : other = slot
    · subst same
      simp only [ConnTable.setSlot, Function.update_self, handle] at stands
      exact absurd rfl stands.2
    · simp only [ConnTable.setSlot, Function.update_of_ne same] at stands
      exact sound.right.used other otherInside stands

/-! ## One event -/

theorem slave_counted (connActv : UInt8) (below : connActv.toNat < config.connNum) :
    (connActv + 1).toNat = connActv.toNat + 1 := by
  have few := config.few
  rw [UInt8.toNat_add]
  simp
  omega

theorem Sound.connectionReq (sound : state.Sound config) (conidx dest role : UInt8) (param : P)
    (held : (ConnEvent.connectionReq conidx dest role param).Held config)
    (fine : Fine config state.table (.connectionReq conidx dest role param)) (next : ConnState P)
    (taken : step config (.connectionReq conidx dest role param) state = some next) : next.Sound config := by
  obtain rfl := Option.some.inj taken
  simp only [ConnEvent.handle, ConnTable.gapcConnectionReqInd]
  by_cases invalid : conidx = gapInvalidConidx
  · rw [if_pos invalid]
    exact sound
  rw [if_neg invalid]
  have inTable : conidx.toNat < config.connectionMax := held.resolve_left invalid
  cases fine.resolve_left invalid with
  | inl slave =>
    obtain ⟨slave, below, room⟩ := slave
    have search : state.table.appBleGetIdleConnIdxHandle config .conn =
        state.table.appBleFindConnIdxHandle config unknowConnHdl := by
      rw [ConnTable.appBleGetIdleConnIdxHandle, if_neg (by omega)]
    simp only [slave, ne_eq, not_false_eq_true, if_true, if_false, search]
    rcases ConnTable.find_cases config state.table unknowConnHdl with ⟨inside, idle⟩ | ⟨full, -⟩
    · rw [if_neg (by omega)]
      have elsewhere := room.resolve_left fun none => none _ inside idle
      refine sound.store conidx role inTable _ inside (fun other otherInside _ => elsewhere other otherInside) ?_ _ _ rfl rfl
        rfl ?_
      · intro stands
        exact absurd idle stands.1
      · simp only [ConnTable.setSlot, slave, ne_eq, not_false_eq_true, if_true]
        exact slave_counted _ below
    · rw [full, if_pos rfl]
      exact sound
  | inr master =>
    obtain ⟨rfl, place⟩ := master
    simp only [ne_eq, not_true_eq_false, if_false, if_true]
    by_cases outside : config.connectionMax = ConnTable.initingSlot config dest
    · rw [if_pos outside]
      exact sound
    · rw [if_neg outside]
      obtain ⟨elsewhere, free⟩ := place.resolve_left fun none => outside none.symm
      have inside : ConnTable.initingSlot config dest < config.connectionMax :=
        lt_of_le_of_ne (ConnTable.initingSlot_le dest) fun same => outside same.symm
      exact sound.store conidx _ inTable _ inside elsewhere free _ _ rfl rfl rfl rfl

theorem Sound.disconnect (sound : state.Sound config) (conidx : UInt8) (held : conidx.toNat < config.connectionMax)
    (next : ConnState P) (taken : step config (.disconnect conidx) state = some next) : next.Sound config := by
  obtain rfl := Option.some.inj taken
  simp only [ConnEvent.handle, ConnTable.gapcDisconnectInd, liveAfter]
  rcases ConnTable.find_cases config state.table conidx.toUInt16 with ⟨inside, there⟩ | ⟨absent, nowhere⟩
  · rw [if_neg (by omega)]
    have member := sound.of_slot _ inside conidx held there
    refine sound.free _ member _
      { state.table.slots (state.table.appBleFindConnIdxHandle config conidx.toUInt16) with conhdl := unknowConnHdl, sdpEnd := 0 }
      ?_ rfl ?_
    · split <;> rfl
    · have counted := sound.right.counted
      rw [countP_without _ state.live sound.right.once _ member] at counted
      by_cases master : (state.table.slots (state.table.appBleFindConnIdxHandle config conidx.toUInt16)).role =
        appBleMasterRole
      · simp [master, ConnTable.setSlot]
      · simp only [ne_eq, master, not_false_eq_true, decide_true, if_true, ConnTable.setSlot, if_false] at counted ⊢
        rw [UInt8.toNat_sub_of_le]
        · simp
          omega
        · rw [UInt8.le_iff_toNat_le]
          simp
          omega
  · rw [absent, if_pos rfl]
    have none := sound.absent conidx nowhere
    rw [filter_absent state.live conidx none]
    exact sound

theorem step_keeps (sound : state.Sound config) (event : ConnEvent P) (held : event.Held config)
    (fine : Fine config state.table event) (next : ConnState P) (taken : step config event state = some next) :
    next.Sound config := by
  cases event with
  | connectionReq conidx dest role param => exact sound.connectionReq conidx dest role param held fine next taken
  | paramUpdateReq conidx =>
    obtain rfl := Option.some.inj taken
    refine sound.look _ ?_
    intro i member
    obtain rfl := List.mem_singleton.1 member
    obtain ⟨slot, inside, there⟩ := fine
    rcases ConnTable.find_cases config state.table conidx.toUInt16 with ⟨found, -⟩ | ⟨-, nowhere⟩
    · exact found
    · exact absurd there (nowhere slot inside)
  | paramUpdated conidx =>
    obtain rfl := Option.some.inj taken
    exact sound
  | disconnect conidx => exact sound.disconnect conidx held next taken
  | initiating connIdx =>
    obtain rfl := Option.some.inj taken
    simp only [ConnEvent.handle, ConnTable.reserve]
    by_cases outside : connIdx ≥ config.connectionMax
    · rw [if_pos outside]
      exact sound
    · rw [if_neg outside]
      exact sound.reserve connIdx (by omega) (fine (by omega)) _ rfl

/-- A connection that is put into a slot is wrong there when another slot has its handle, when the slot has another
connection, or when it changes the role of its own. -/
theorem not_right_of_clash (conidx role : UInt8) (slot : Nat) (table : ConnTable P) (filled : ConnSlot P)
    (indexed : List Nat) (slots : table.slots = Function.update state.table.slots slot filled)
    (handle : filled.conhdl = conidx.toUInt16)
    (clash : (∃ other < config.connectionMax, other ≠ slot ∧ (state.table.slots other).conhdl = conidx.toUInt16) ∨
      ∃ conn ∈ state.live, conn.slot = slot ∧ conn.conhdl ≠ conidx) :
    ¬ Right config ⟨table, ⟨conidx, role, slot⟩ :: state.live.filter (·.conhdl ≠ conidx), indexed⟩ := by
  intro right
  cases clash with
  | inl twice =>
    obtain ⟨other, inside, apart, there⟩ := twice
    have only := (right.stored _ List.mem_cons_self).2.2 other inside
    simp only [slots, Function.update_of_ne apart, there, true_iff] at only
    exact apart only
  | inr taken =>
    obtain ⟨conn, member, here, differs⟩ := taken
    have still : conn ∈ state.live.filter (·.conhdl ≠ conidx) := by simp [List.mem_filter, member, differs]
    obtain ⟨inside, -, stored⟩ := right.stored conn (List.mem_cons_of_mem _ still)
    have kept := (stored conn.slot inside).2 rfl
    simp only [slots, here, Function.update_self, handle] at kept
    exact differs (toUInt16_inj _ _ kept).symm

theorem Sound.connectionReq_spoils (sound : state.Sound config) (conidx dest role : UInt8) (param : P)
    (held : (ConnEvent.connectionReq conidx dest role param).Held config)
    (bad : ¬ Fine config state.table (.connectionReq conidx dest role param)) (next : ConnState P)
    (taken : step config (.connectionReq conidx dest role param) state = some next) : ¬ next.Right config := by
  obtain rfl := Option.some.inj taken
  have few := config.few
  simp only [Fine, not_or] at bad
  obtain ⟨invalid, slaveBad, masterBad⟩ := bad
  have inTable : conidx.toNat < config.connectionMax := held.resolve_left invalid
  simp only [ConnEvent.handle, ConnTable.gapcConnectionReqInd, if_neg invalid]
  by_cases master : role = appBleMasterRole
  · subst master
    simp only [true_and, not_or] at masterBad
    obtain ⟨outside, clash⟩ := masterBad
    simp only [ne_eq, not_true_eq_false, if_false, if_true, if_neg fun same => outside (Eq.symm same)]
    have inside : ConnTable.initingSlot config dest < config.connectionMax :=
      lt_of_le_of_ne (ConnTable.initingSlot_le dest) outside
    by_cases elsewhere : ∃ other < config.connectionMax, other ≠ ConnTable.initingSlot config dest ∧
        (state.table.slots other).conhdl = conidx.toUInt16
    · exact not_right_of_clash conidx _ _ _ _ _ rfl rfl (.inl elsewhere)
    · have wrong : IsHandle (state.table.slots (ConnTable.initingSlot config dest)).conhdl ∧
          ¬ ((state.table.slots (ConnTable.initingSlot config dest)).conhdl = conidx.toUInt16 ∧
            (state.table.slots (ConnTable.initingSlot config dest)).role = appBleMasterRole) := by
        by_contra fits
        exact clash ⟨fun other otherInside apart there => elsewhere ⟨other, otherInside, apart, there⟩,
          fun stands => by_contra fun differs => fits ⟨stands, differs⟩⟩
      obtain ⟨conn, member, here⟩ := sound.right.used _ inside wrong.1
      by_cases same : conn.conhdl = conidx
      · intro right
        -- the connection was a slave's, and the counter still has it
        have counted : state.table.connActv.toNat =
            (⟨conidx, appBleMasterRole, ConnTable.initingSlot config dest⟩ ::
              state.live.filter (·.conhdl ≠ conidx)).countP (·.role ≠ appBleMasterRole) := right.counted
        have before := sound.right.counted
        have slave : conn.role ≠ appBleMasterRole := by
          intro master
          refine wrong.2 ⟨?_, ?_⟩
          · rw [← here, sound.holds conn member, same]
          · rw [← here, (sound.right.stored conn member).2.1, master]
        rw [countP_without _ state.live sound.right.once conn member] at before
        rw [List.countP_cons, ← same] at counted
        simp only [slave, ne_eq, not_false_eq_true, decide_true, if_true, not_true_eq_false, decide_false,
          Bool.false_eq_true,
          if_false] at counted before
        omega
      · exact not_right_of_clash conidx _ _ _ _ _ rfl rfl (.inr ⟨conn, member, here, same⟩)
  · simp only [master, ne_eq, not_false_eq_true, if_true, if_false]
    by_cases below : state.table.connActv.toNat < config.connNum
    · have search : state.table.appBleGetIdleConnIdxHandle config .conn =
          state.table.appBleFindConnIdxHandle config unknowConnHdl := by
        rw [ConnTable.appBleGetIdleConnIdxHandle, if_neg (by omega)]
      have twice : (∃ slot < config.connectionMax, (state.table.slots slot).conhdl = unknowConnHdl) ∧
          ∃ slot < config.connectionMax, (state.table.slots slot).conhdl = conidx.toUInt16 := by
        by_contra fits
        refine slaveBad ⟨master, below, ?_⟩
        by_contra both
        simp only [not_or, not_forall, not_not] at both
        obtain ⟨⟨idle, idleInside, isIdle⟩, other, otherInside, there⟩ := both
        exact fits ⟨⟨idle, idleInside, isIdle⟩, other, otherInside, there⟩
      obtain ⟨⟨idle, idleInside, isIdle⟩, other, otherInside, there⟩ := twice
      simp only [search]
      rcases ConnTable.find_cases config state.table unknowConnHdl with ⟨inside, found⟩ | ⟨-, full⟩
      · rw [if_neg (by omega)]
        refine not_right_of_clash conidx _ _ _ _ _ rfl rfl (.inl ⟨other, otherInside, ?_, there⟩)
        rintro rfl
        exact (isHandle_of_lt conidx inTable).1 (there.symm.trans found)
      · exact absurd isIdle (full idle idleInside)
    · intro right
      have search : state.table.appBleGetIdleConnIdxHandle config .conn = 0xFF := by
        rw [ConnTable.appBleGetIdleConnIdxHandle, if_pos (by omega)]
      have apart : config.connectionMax ≠ 0xFF := by
        unfold ConnConfig.connectionMax
        omega
      simp only [search, if_neg apart] at right
      have inside := right.inside 0xFF List.mem_cons_self
      unfold ConnConfig.connectionMax at inside
      omega

theorem step_spoils (sound : state.Sound config) (event : ConnEvent P) (held : event.Held config)
    (bad : ¬ Fine config state.table event) (next : ConnState P) (taken : step config event state = some next) :
    ¬ next.Right config := by
  cases event with
  | connectionReq conidx dest role param => exact sound.connectionReq_spoils conidx dest role param held bad next taken
  | paramUpdateReq conidx =>
    obtain rfl := Option.some.inj taken
    intro right
    have inside := right.inside _ (List.mem_append_left _ List.mem_cons_self)
    rcases ConnTable.find_cases config state.table conidx.toUInt16 with ⟨found, there⟩ | ⟨absent, -⟩
    · exact bad ⟨_, found, there⟩
    · omega
  | paramUpdated conidx => exact absurd trivial bad
  | disconnect conidx => exact absurd trivial bad
  | initiating connIdx =>
    obtain rfl := Option.some.inj taken
    simp only [Fine, Classical.not_imp, not_not] at bad
    obtain ⟨inside, stands⟩ := bad
    obtain ⟨conn, member, rfl⟩ := sound.right.used connIdx inside stands
    intro right
    simp only [ConnEvent.handle, ConnTable.reserve, if_neg (show ¬ conn.slot ≥ config.connectionMax by omega)] at right
    have kept := ((right.stored conn member).2.2 conn.slot inside).2 rfl
    simp only [ConnTable.setSlot, Function.update_self] at kept
    exact (sound.isHandle conn member).2 kept.symm

/-! ## Results -/

/-- The table is right throughout a run if and only if each event finds what it takes for granted. -/
theorem connections_right_iff {param : P} {moments : List (Moment (ConnState P) (ConnEvent P))} {final : ConnState P}
    (run : Run (Machine.Step (step config)) (start param) moments final)
    (held : ∀ moment ∈ moments, moment.event.Held config) :
    Machine.Always (Right config) moments final ↔ ∀ moment ∈ moments, Fine config moment.before.table moment.event :=
  @Machine.always_iff_of_invariant _ _ _ _ _ _ (Sound config) (Right config) (fun _ event => event.Held config)
    (fun state => Fine config state.table) run (start_sound param) (fun _ sound => sound.right)
    (fun sound held fine taken => step_keeps sound _ held fine _ taken)
    (fun sound held bad taken => step_spoils sound _ held bad _ taken) held

instance (table : ConnTable P) (event : ConnEvent P) : Decidable (Fine config table event) := by
  cases event <;> unfold Fine <;> infer_instance

/-- One slave and one master. -/
def oneEach : ConnConfig := ⟨1, 1, 2, by decide, by decide, by decide⟩

/-- A master and a slave connect, the slave's parameters change, and both disconnect. -/
def comeAndGo : List (ConnEvent Unit) :=
  [.disconnect 0, .disconnect 1, .paramUpdated 1, .paramUpdateReq 1, .connectionReq 1 0 1 (), .connectionReq 0 4 0 (),
    .initiating 0]

theorem connections_right_sample :
    ∃ moments final, Run (Machine.Step (step oneEach)) (start ()) moments final ∧ moments.map Moment.event = comeAndGo ∧
      Machine.Always (Right oneEach) moments final := by
  obtain ⟨moments, final, run, events, fine, -⟩ := @Machine.run_of_fine _ _ (step oneEach) (start ())
    (fun state => Fine oneEach state.table) _ comeAndGo (fun state => state.live = [] ∧
      state.table.connActv = 0) (by decide)
  have held : ∀ moment ∈ moments, moment.event.Held oneEach := by
    intro moment member
    have event : moment.event ∈ comeAndGo := events ▸ List.mem_map_of_mem member
    revert event
    generalize moment.event = event
    simp only [comeAndGo, List.mem_cons, List.not_mem_nil, or_false]
    rintro (rfl | rfl | rfl | rfl | rfl | rfl | rfl) <;> simp [ConnEvent.Held, oneEach, ConnConfig.connectionMax]
  exact ⟨moments, final, run, events, (connections_right_iff run held).2 fine⟩

/-- A second slave is given the slot 255. -/
theorem second_slave_outside :
    ∃ moments final, Run (Machine.Step (step oneEach)) (start ()) moments final ∧
      moments.map Moment.event = [.connectionReq 1 0 1 (), .connectionReq 0 0 1 ()] ∧
      ¬ Machine.Always (Right oneEach) moments final := by
  obtain ⟨moments, final, run, events, shown⟩ := @Machine.run_of_any _ _ (step oneEach) (start ())
    [.connectionReq 1 0 1 (), .connectionReq 0 0 1 ()] (fun state => state.indexed = [255, 0]) (by decide)
  refine ⟨moments, final, run, events, ?_⟩
  intro always
  have inside := always.2.inside 255 (by rw [of_decide_eq_true shown]; exact List.mem_cons_self)
  revert inside
  decide

end ConnState

end BekenSdk.BleApp
