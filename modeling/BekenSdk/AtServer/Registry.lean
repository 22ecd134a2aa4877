import BekenSdk.AtServer.Input
import BekenSdk.Base.Machine
import Mathlib.Data.List.Basic

/-! The table of the commands of the AT server. Registering appends at the counter; unregistering leaves a hole, which the
lookup reads.
-/

set_option autoImplicit false

namespace BekenSdk.AtServer
open Base

/-! ## The table -/

def atsvrMaxCommands : Nat := 64
def atsvrOk : Int := 0
def atsvrError : Int := -1

/-- The constant structures that pointers to `struct _atsvr_command` point to. -/
structure Structs (P F : Type) where
  name : P → Option CString
  function : P → Option F

/-- `commands` and `num_commands` of `_atsvr_env_t`. -/
structure AtsvrEnv (P : Type) where
  commands : List (Option P)
  sized : commands.length = atsvrMaxCommands
  numCommands : Nat

def AtsvrEnv.store {P : Type} (env : AtsvrEnv P) (i : Nat) (slot : Option P) : AtsvrEnv P :=
  { env with
    commands := env.commands.set i slot
    sized := List.length_set.trans env.sized }

/-- After `_atsvr_def_config`. -/
def AtsvrEnv.empty {P : Type} : AtsvrEnv P := ⟨List.replicate atsvrMaxCommands none, List.length_replicate, 0⟩

/-- A loop over commands that ends with the first failure. -/
def each {P S : Type} (call : P → S → Int × S) : List P → S → Int × S
  | [], s => (atsvrOk, s)
  | command :: rest, s => if (call command s).1 ≠ atsvrOk then call command s else each call rest (call command s).2

inductive Found (P : Type) where
  | found (command : P)
  | null
  /-- An empty slot is dereferenced. -/
  | fault
  deriving DecidableEq

section
variable {P F : Type} [DecidableEq P] (structs : Structs P F)

/-- The structure has a name and a handler. -/
def Structs.Whole (command : P) : Prop := (structs.name command).isSome ∧ (structs.function command).isSome

instance (command : P) : Decidable (structs.Whole command) := inferInstanceAs (Decidable (_ ∧ _))

def atsvrRegisterCommand (command : P) (env : AtsvrEnv P) : Int × AtsvrEnv P :=
  if ¬structs.Whole command then (atsvrGeneral, env)
  else if env.numCommands < atsvrMaxCommands then
    if some command ∈ env.commands.take env.numCommands then (atsvrGeneral, env)
    else (atsvrOk, { env.store env.numCommands (some command) with numCommands := env.numCommands + 1 })
  else (atsvrError, env)

def atsvrUnregisterCommand (command : P) (env : AtsvrEnv P) : Int × AtsvrEnv P :=
  if ¬structs.Whole command then (atsvrGeneral, env)
  else if env.numCommands < atsvrMaxCommands then
    match (env.commands.take env.numCommands).idxOf? (some command) with
    | some i => (atsvrOk, env.store i none)
    | none => (atsvrOk, env)
  else (atsvrOk, env)

def atsvrRegisterCommands : List P → AtsvrEnv P → Int × AtsvrEnv P := each (atsvrRegisterCommand structs)

def atsvrUnregisterCommands : List P → AtsvrEnv P → Int × AtsvrEnv P := each (atsvrUnregisterCommand structs)

/-- The test of a slot's name; `len` is the length of a part that has to match, or zero. -/
def nameMatches (commandName name : CString) (len : Nat) : Bool :=
  if len ≠ 0 then decide (len ≤ commandName.strlen) && strncmpEq commandName name len
  else decide (commandName.strlen = name.strlen) && decide (commandName = name)

/-- The slots from `i` on; `n` is the second index, which names that are `NULL` do not move. -/
def lookupLoop (num : Nat) (name : CString) (len : Nat) : List (Option P) → Nat → Found P
  | [], _ => .null
  | slot :: rest, n =>
    if n < num then
      match slot with
      | none => .fault
      | some command =>
        match structs.name command with
        | none => lookupLoop num name len rest n
        | some commandName => if nameMatches commandName name len then .found command
          else lookupLoop num name len rest (n + 1)
    else .null

/-- `_atsvr_lookup_at_command` over the slots. -/
def lookupSlots (name : CString) (len : Nat) (env : AtsvrEnv P) : Found P :=
  lookupLoop structs env.numCommands name len env.commands 0

/-- A lookup among the registered commands, by the whole name. -/
def Right (current : List P) (name : CString) : Found P → Prop
  | .found command => command ∈ current ∧ structs.name command = some name
  | .null => ∀ command ∈ current, structs.name command ≠ some name
  | .fault => False

/-! ## Calls -/

/-- The table, with the commands that were registered with success and not unregistered since. -/
structure Registry (P : Type) where
  env : AtsvrEnv P
  current : List P

def Registry.start : Registry P := ⟨.empty, []⟩

namespace Registry

def register (command : P) (s : Registry P) : Int × Registry P :=
  let called := atsvrRegisterCommand structs command s.env
  (called.1, ⟨called.2, if called.1 = atsvrOk then s.current ++ [command] else s.current⟩)

def unregister (command : P) (s : Registry P) : Int × Registry P :=
  let called := atsvrUnregisterCommand structs command s.env
  (called.1, ⟨called.2, s.current.filter (· ≠ command)⟩)

inductive Call (P : Type) where
  | register (command : P)
  | registerAll (commands : List P)
  | unregister (command : P)
  | unregisterAll (commands : List P)
  deriving DecidableEq

def step (call : Call P) (s : Registry P) : Option (Registry P) :=
  match call with
  | .register command => some (s.register structs command).2
  | .registerAll commands => some (each (register structs) commands s).2
  | .unregister command => some (s.unregister structs command).2
  | .unregisterAll commands => some (each (unregister structs) commands s).2

/-- What is looked up is what is registered, and a slot is free while fewer commands are registered than there are slots. -/
structure Serves (s : Registry P) : Prop where
  lookup : ∀ name, Right structs s.current name (lookupSlots structs name 0 s.env)
  room : ∀ command, structs.Whole command → command ∉ s.current → s.current.length < atsvrMaxCommands →
    (atsvrRegisterCommand structs command s.env).1 = atsvrOk

/-- No registered command is unregistered. -/
def Keeps (s : Registry P) : Call P → Prop
  | .unregister command => command ∉ s.current
  | .unregisterAll commands => ∀ command ∈ commands.takeWhile (structs.Whole ·), command ∉ s.current
  | _ => True

/-! ## Tables without holes -/

/-- The slots hold the registered commands, and nothing behind them. -/
structure Clean (s : Registry P) : Prop where
  commands : s.env.commands = s.current.map some ++ List.replicate (atsvrMaxCommands - s.current.length) none
  count : s.env.numCommands = s.current.length
  whole : ∀ command ∈ s.current, structs.Whole command

end Registry

end

variable {P F : Type} [DecidableEq P] {structs : Structs P F} {command : P} {name : CString} {num n : Nat}

theorem nameMatches_zero (commandName name : CString) : nameMatches commandName name 0 = decide (commandName = name) := by
  rw [nameMatches, if_neg (fun never => never rfl), ← Bool.decide_and, decide_eq_decide]
  exact ⟨And.right, fun same => ⟨congrArg CString.strlen same, same⟩⟩

omit [DecidableEq P] in
theorem lookupLoop_right (current : List P) (free : Nat) (whole : ∀ command ∈ current, structs.Whole command)
    (count : num = n + current.length) :
    Right structs current name
      (lookupLoop structs num name 0 (current.map some ++ List.replicate free none) n) := by
  induction current generalizing n with
  | nil =>
    have stop : ¬n < num := by
      rw [count]
      exact Nat.lt_irrefl n
    cases free with
    | zero => exact fun _ member => absurd member List.not_mem_nil
    | succ free =>
      rw [List.map_nil, List.nil_append, List.replicate_succ, lookupLoop, if_neg stop]
      exact fun _ member => absurd member List.not_mem_nil
  | cons command current ih =>
    have go : n < num := by
      rw [count, List.length_cons]
      omega
    obtain ⟨commandName, named⟩ := Option.isSome_iff_exists.mp (whole command List.mem_cons_self).1
    have later := @ih (n + 1) (fun other member => whole other (List.mem_cons_of_mem _ member))
      (by rw [count, List.length_cons]; omega)
    rw [List.map_cons, List.cons_append, lookupLoop, if_pos go, named]
    dsimp only
    rw [nameMatches_zero]
    by_cases same : commandName = name
    · rw [if_pos (decide_eq_true same)]
      exact ⟨List.mem_cons_self, named.trans (congrArg some same)⟩
    · rw [if_neg (by rw [decide_eq_false same]; exact Bool.false_ne_true)]
      generalize lookupLoop structs num name 0 (current.map some ++ List.replicate free none) (n + 1) = found at later
      cases found with
      | found other => exact ⟨List.mem_cons_of_mem _ later.1, later.2⟩
      | fault => exact later
      | null =>
        rw [Right, List.forall_mem_cons]
        refine ⟨?_, later⟩
        rw [named]
        exact fun equal => same (Option.some.inj equal)

namespace Registry
variable {s t : Registry P}

omit [DecidableEq P] in
theorem clean_start : Clean structs (start : Registry P) :=
  ⟨rfl, rfl, fun _ member => absurd member List.not_mem_nil⟩

omit [DecidableEq P] in
theorem Clean.length_le (clean : Clean structs s) : s.current.length ≤ atsvrMaxCommands := by
  have sized := s.env.sized
  rw [clean.commands, List.length_append, List.length_map, List.length_replicate] at sized
  omega

omit [DecidableEq P] in
theorem Clean.taken (clean : Clean structs s) : s.env.commands.take s.env.numCommands = s.current.map some := by
  rw [clean.commands, clean.count, List.take_left' (List.length_map _)]

omit [DecidableEq P] in
theorem Clean.mem_taken (clean : Clean structs s) :
    some command ∈ s.env.commands.take s.env.numCommands ↔ command ∈ s.current := by
  rw [clean.taken]
  exact List.mem_map_of_injective (Option.some_injective P)

theorem Clean.serves (clean : Clean structs s) : Serves structs s where
  lookup name := by
    rw [lookupSlots, clean.commands, clean.count]
    exact lookupLoop_right s.current _ clean.whole (Nat.zero_add _).symm
  room command whole fresh room := by
    rw [atsvrRegisterCommand, if_neg (not_not_intro whole), if_pos (clean.count.trans_lt room),
      if_neg (mt clean.mem_taken.mp fresh)]

/-- A new command takes the slot behind the others. -/
theorem Clean.register (clean : Clean structs s) (command : P) : Clean structs (s.register structs command).2 := by
  have same : (atsvrRegisterCommand structs command s.env).1 ≠ atsvrOk →
      (atsvrRegisterCommand structs command s.env).2 = s.env := by
    rw [atsvrRegisterCommand]
    split
    · exact fun _ => rfl
    split
    · split
      · exact fun _ => rfl
      · exact fun never => absurd rfl never
    · exact fun _ => rfl
  by_cases ok : (atsvrRegisterCommand structs command s.env).1 = atsvrOk
  · have called := ok
    rw [atsvrRegisterCommand] at called
    split at called
    · cases called
    next whole =>
    split at called
    next room =>
      split at called
      · cases called
      next fresh =>
        have after : (s.register structs command).2 = ⟨{ s.env.store s.env.numCommands (some command) with
            numCommands := s.env.numCommands + 1 }, s.current ++ [command]⟩ := by
          rw [Registry.register]
          dsimp only
          rw [if_pos ok, atsvrRegisterCommand, if_neg whole, if_pos room, if_neg fresh]
        rw [clean.count] at room
        rw [after]
        refine ⟨?_, ?_, ?_⟩
        · change s.env.commands.set s.env.numCommands (some command) = _
          obtain ⟨free, more⟩ := Nat.exists_eq_succ_of_ne_zero (Nat.sub_ne_zero_of_lt room)
          have fewer : atsvrMaxCommands - (s.current ++ [command]).length = free := by
            rw [List.length_append, List.length_singleton]
            omega
          rw [fewer, clean.commands, clean.count, more, List.set_append_right _ _ (List.length_map _).le, List.length_map,
            Nat.sub_self, List.map_append, List.append_assoc]
          rfl
        · rw [List.length_append, List.length_singleton, ← clean.count]
        · exact List.forall_mem_append.mpr ⟨clean.whole, List.forall_mem_singleton.mpr (not_not.mp whole)⟩
    · cases called
  · have after : (s.register structs command).2 = s := by
      rw [Registry.register]
      dsimp only
      rw [if_neg ok, same ok]
    rw [after]
    exact clean

theorem Clean.unregister (clean : Clean structs s) (absent : command ∉ s.current) :
    (s.unregister structs command).2 = s := by
  have slots : (s.env.commands.take s.env.numCommands).idxOf? (some command) = none :=
    List.idxOf?_eq_none_iff.mpr (mt clean.mem_taken.mp absent)
  have kept : s.current.filter (· ≠ command) = s.current :=
    List.filter_eq_self.mpr fun other member => decide_eq_true fun same => absent (same ▸ member)
  have env : (atsvrUnregisterCommand structs command s.env).2 = s.env := by
    rw [atsvrUnregisterCommand, slots]
    split
    · rfl
    split <;> rfl
  rw [Registry.unregister]
  dsimp only
  rw [env, kept]

theorem unregister_code (whole : structs.Whole command) : (s.unregister structs command).1 = atsvrOk := by
  rw [Registry.unregister, atsvrUnregisterCommand, if_neg (not_not_intro whole)]
  dsimp only
  split
  · split <;> rfl
  · rfl

theorem unregister_general (broken : ¬structs.Whole command) :
    (s.unregister structs command).1 = atsvrGeneral ∧ (s.unregister structs command).2.env = s.env := by
  rw [Registry.unregister, atsvrUnregisterCommand, if_pos broken]
  exact ⟨rfl, rfl⟩

/-! ## Loops -/

omit [DecidableEq P] in
theorem each_preserved {S : Type} {call : P → S → Int × S} {kept : S → Prop} (preserved : ∀ command s, kept s → kept (call command s).2)
    (commands : List P) {s : S} (before : kept s) : kept (each call commands s).2 := by
  induction commands generalizing s with
  | nil => exact before
  | cons command rest ih =>
    rw [each]
    split
    · exact preserved command s before
    · exact ih (preserved command s before)

theorem Clean.unregisterAll (clean : Clean structs s) (commands : List P)
    (absent : ∀ command ∈ commands.takeWhile (structs.Whole ·), command ∉ s.current) :
    (each (Registry.unregister structs) commands s).2 = s := by
  induction commands with
  | nil => rfl
  | cons command rest ih =>
    rw [each]
    by_cases whole : structs.Whole command
    · have more : (command :: rest).takeWhile (structs.Whole ·) = command :: rest.takeWhile (structs.Whole ·) :=
        List.takeWhile_cons_of_pos (decide_eq_true whole)
      rw [more, List.forall_mem_cons] at absent
      rw [if_neg (not_not_intro (unregister_code whole)), clean.unregister absent.1]
      exact ih absent.2
    · have stop : (s.unregister structs command).1 ≠ atsvrOk := by
        rw [(unregister_general whole).1]
        decide
      rw [if_pos stop]
      exact clean.unregister fun member => whole (clean.whole command member)

/-! ## Holes -/

/-- A hole among the counted slots, or a full table although a command could be registered. -/
inductive Broken (structs : Structs P F) (s : Registry P) : Prop where
  | hole (i : Nat) (inside : i < s.env.numCommands) (empty : s.env.commands[i]? = some none)
      (whole : ∀ command, some command ∈ s.env.commands.take s.env.numCommands → structs.Whole command)
  | full (count : s.env.numCommands = atsvrMaxCommands) (fresh : P) (whole : structs.Whole fresh)
      (absent : fresh ∉ s.current) (room : s.current.length < atsvrMaxCommands)

omit [DecidableEq P] in
/-- A lookup that finds nothing before a hole dereferences it. -/
theorem lookupLoop_fault {slots : List (Option P)} {i : Nat} (empty : slots[i]? = some none) (inside : n + i < num)
    (other : ∀ command, some command ∈ slots.take i → ∃ commandName, structs.name command = some commandName ∧
      commandName ≠ name) :
    lookupLoop structs num name 0 slots n = .fault := by
  induction slots generalizing i n with
  | nil => cases empty
  | cons slot rest ih =>
    have go : n < num := Nat.lt_of_le_of_lt (Nat.le_add_right n i) inside
    cases slot with
    | none =>
      rw [lookupLoop, if_pos go]
    | some command =>
      rw [lookupLoop, if_pos go]
      cases i with
      | zero => cases empty
      | succ i =>
        obtain ⟨commandName, named, differs⟩ := other command List.mem_cons_self
        rw [named]
        dsimp only
        rw [nameMatches_zero, if_neg (by rw [decide_eq_false differs]; exact Bool.false_ne_true)]
        exact ih empty (by omega) fun c member => other c (List.mem_cons_of_mem _ member)

theorem exists_longer (names : List CString) : ∃ size, ∀ name ∈ names, name.strlen < size := by
  induction names with
  | nil => exact ⟨0, fun _ member => absurd member List.not_mem_nil⟩
  | cons first rest ih =>
    obtain ⟨size, longer⟩ := ih
    refine ⟨max (first.strlen + 1) size, List.forall_mem_cons.mpr ⟨?_, fun name member => ?_⟩⟩
    · exact Nat.lt_of_lt_of_le (Nat.lt_succ_self _) (Nat.le_max_left _ _)
    · exact Nat.lt_of_lt_of_le (longer name member) (Nat.le_max_right _ _)

/-- There is always a name that nothing has. -/
theorem exists_unused (names : List CString) : ∃ name, name ∉ names := by
  obtain ⟨size, longer⟩ := exists_longer names
  have plain : (0 : UInt8) ∉ List.replicate size 65 := fun member => absurd (List.eq_of_mem_replicate member) (by decide)
  refine ⟨⟨List.replicate size 65, plain⟩, fun member => ?_⟩
  have short := longer _ member
  rw [CString.strlen, List.length_replicate] at short
  exact Nat.lt_irrefl _ short

theorem Broken.not_serves (broken : Broken structs s) : ¬Serves structs s := by
  intro serves
  cases broken with
  | hole i inside empty whole =>
    obtain ⟨name, unused⟩ := exists_unused ((s.env.commands.take s.env.numCommands).filterMap fun slot =>
      slot.bind structs.name)
    have fault : lookupSlots structs name 0 s.env = .fault := by
      apply lookupLoop_fault empty (by rwa [Nat.zero_add])
      intro command member
      have counted : some command ∈ s.env.commands.take s.env.numCommands :=
        (List.take_subset_take_left _ inside.le) member
      obtain ⟨commandName, named⟩ := Option.isSome_iff_exists.mp (whole command counted).1
      refine ⟨commandName, named, ?_⟩
      rintro rfl
      exact unused (List.mem_filterMap.mpr ⟨some command, counted, named⟩)
    have right := serves.lookup name
    rw [fault] at right
    exact right
  | full count fresh whole absent room =>
    have ok := serves.room fresh whole absent room
    rw [atsvrRegisterCommand, if_neg (not_not_intro whole), if_neg (by rw [count]; exact Nat.lt_irrefl _)] at ok
    change atsvrError = atsvrOk at ok
    exact absurd ok (by decide)

/-- Unregistering fills no hole, and frees no slot of a full table. -/
theorem Broken.unregister (broken : Broken structs s) (command : P) :
    Broken structs (s.unregister structs command).2 := by
  have shorter : (s.current.filter (· ≠ command)).length ≤ s.current.length := List.length_filter_le _ _
  cases broken with
  | full count fresh whole absent room =>
    have env : (atsvrUnregisterCommand structs command s.env).2 = s.env := by
      rw [atsvrUnregisterCommand]
      split
      · rfl
      · rw [if_neg (by rw [count]; exact Nat.lt_irrefl _)]
    refine .full ?_ fresh whole (fun member => absent (List.mem_of_mem_filter member)) (Nat.lt_of_le_of_lt shorter room)
    exact (congrArg AtsvrEnv.numCommands env).trans count
  | hole i inside empty whole =>
    have either : (atsvrUnregisterCommand structs command s.env).2 = s.env ∨
        ∃ j, (atsvrUnregisterCommand structs command s.env).2 = s.env.store j none := by
      rw [atsvrUnregisterCommand]
      split
      · exact Or.inl rfl
      split
      · split
        · exact Or.inr ⟨_, rfl⟩
        · exact Or.inl rfl
      · exact Or.inl rfl
    have env : (s.unregister structs command).2.env = (atsvrUnregisterCommand structs command s.env).2 := rfl
    rcases either with same | ⟨j, stored⟩
    · rw [same] at env
      exact .hole i (by rw [env]; exact inside) (by rw [env]; exact empty) (by rw [env]; exact whole)
    · rw [stored] at env
      refine .hole i (by rw [env]; exact inside) ?_ ?_
      · rw [env, AtsvrEnv.store, List.getElem?_set]
        split
        · split
          · rfl
          next same beyond =>
            rw [same] at beyond
            rw [List.getElem?_eq_none (Nat.le_of_not_lt beyond)] at empty
            cases empty
        · exact empty
      · rw [env, AtsvrEnv.store]
        intro c member
        rw [List.take_set] at member
        exact whole c ((List.mem_or_eq_of_mem_set member).resolve_right fun never => nomatch never)

/-- Unregistering a registered command leaves a hole, or nothing happens. -/
theorem Clean.breaks (clean : Clean structs s) (present : command ∈ s.current) :
    Broken structs (s.unregister structs command).2 := by
  have whole := clean.whole command present
  have left : ∀ c ∈ s.current.filter (· ≠ command), c ≠ command := fun c member =>
    of_decide_eq_true (List.mem_filter.mp member).2
  have fewer : (s.current.filter (· ≠ command)).length < s.current.length :=
    List.length_filter_lt_length_iff_exists.mpr ⟨command, present, by simp⟩
  by_cases room : s.env.numCommands < atsvrMaxCommands
  · obtain ⟨i, slot⟩ := Option.isSome_iff_exists.mp (List.isSome_idxOf?.mpr (clean.mem_taken.mpr present))
    have env : (s.unregister structs command).2.env = s.env.store i none := by
      rw [Registry.unregister, atsvrUnregisterCommand, if_neg (not_not_intro whole), if_pos room, slot]
    obtain ⟨inside, -⟩ := List.idxOf?_eq_some_iff.mp slot
    rw [List.length_take, Nat.lt_min] at inside
    refine .hole i (by rw [env]; exact inside.1) ?_ ?_
    · rw [env, AtsvrEnv.store, List.getElem?_set_self inside.2]
    · rw [env, AtsvrEnv.store]
      intro c member
      rw [List.take_set] at member
      have counted := (List.mem_or_eq_of_mem_set member).resolve_right fun never => nomatch never
      exact clean.whole c (clean.mem_taken.mp counted)
  · have count : s.env.numCommands = atsvrMaxCommands := by
      have small := clean.length_le
      rw [← clean.count] at small
      exact Nat.le_antisymm small (Nat.le_of_not_lt room)
    have env : (s.unregister structs command).2.env = s.env := by
      rw [Registry.unregister, atsvrUnregisterCommand, if_neg (not_not_intro whole), if_neg room]
    refine .full (by rw [env]; exact count) command whole (fun member => left command member rfl) ?_
    exact Nat.lt_of_lt_of_le fewer clean.length_le

theorem Clean.breaksAll (clean : Clean structs s) (commands : List P)
    (present : ∃ command ∈ commands.takeWhile (structs.Whole ·), command ∈ s.current) :
    Broken structs (each (Registry.unregister structs) commands s).2 := by
  induction commands with
  | nil =>
    obtain ⟨command, member, -⟩ := present
    exact absurd member List.not_mem_nil
  | cons command rest ih =>
    by_cases whole : structs.Whole command
    · have more : (command :: rest).takeWhile (structs.Whole ·) = command :: rest.takeWhile (structs.Whole ·) :=
        List.takeWhile_cons_of_pos (decide_eq_true whole)
      rw [each, if_neg (not_not_intro (unregister_code whole))]
      by_cases first : command ∈ s.current
      · exact each_preserved (fun c s broken => broken.unregister c) rest (clean.breaks first)
      · rw [clean.unregister first]
        rw [more] at present
        obtain ⟨other, member, current⟩ := present
        refine ih ⟨other, (List.mem_cons.mp member).resolve_left ?_, current⟩
        rintro rfl
        exact first current
    · have none : (command :: rest).takeWhile (structs.Whole ·) = [] :=
        List.takeWhile_cons_of_neg (by rw [decide_eq_false whole]; exact Bool.false_ne_true)
      rw [none] at present
      obtain ⟨other, member, -⟩ := present
      exact absurd member List.not_mem_nil

/-! ## Results -/

theorem Clean.step {call : Call P} (clean : Clean structs s) (keeps : Keeps structs s call)
    (taken : step structs call s = some t) : Clean structs t := by
  cases call with
  | register command => exact Option.some.inj taken ▸ clean.register command
  | registerAll commands =>
    exact Option.some.inj taken ▸ each_preserved (fun command s clean => clean.register command) commands clean
  | unregister command =>
    rw [← Option.some.inj taken, clean.unregister keeps]
    exact clean
  | unregisterAll commands =>
    rw [← Option.some.inj taken, clean.unregisterAll commands keeps]
    exact clean

theorem Clean.spoiled {call : Call P} (clean : Clean structs s) (bad : ¬Keeps structs s call)
    (taken : Registry.step structs call s = some t) : ¬Serves structs t := by
  cases call with
  | register command => exact absurd trivial bad
  | registerAll commands => exact absurd trivial bad
  | unregister command =>
    rw [← Option.some.inj taken]
    exact (clean.breaks (not_not.mp bad)).not_serves
  | unregisterAll commands =>
    rw [← Option.some.inj taken]
    rw [Keeps] at bad
    push Not at bad
    exact (clean.breaksAll commands bad).not_serves

instance (s : Registry P) (call : Call P) : Decidable (Keeps structs s call) := by
  cases call <;> unfold Keeps <;> infer_instance

/-- The commands `A`, `B` and `C`. -/
def letters : Structs Nat Unit where
  name
    | 0 => some ⟨[65], by decide⟩
    | 1 => some ⟨[66], by decide⟩
    | 2 => some ⟨[67], by decide⟩
    | _ => none
  function _ := some ()

end Registry

end BekenSdk.AtServer
