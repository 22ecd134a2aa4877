import BekenSdk.AtServer.Arguments

/-! What the splitter touches. It stays within the line, but it counts no arguments: the table overflows when a line begins
more of them than it has entries.
-/

set_option autoImplicit false

namespace BekenSdk.AtServer
open Base

variable {F : Type} {commands : List (AtsvrCommand F)} {offsets : List Nat} {words : List (List UInt8)}
  {buffer line : List UInt8} {limit : Nat} {r after : Reader} {escape : Bool} {char : UInt8}

/-! ## Counting arguments -/

/-- The arguments that a line begins, up to where its reading stops. -/
def begun (line : List UInt8) : Nat := (Reader.read false Reader.start line).1.arguments.length

theorem add_arguments (r : Reader) (char : UInt8) : (r.add char).arguments.length = r.arguments.length := by
  cases current : r.current <;> simp [Reader.add, Reader.arguments, current]

theorem unescape_arguments (r : Reader) (char : UInt8) : (r.unescape char).arguments.length = r.arguments.length := by
  cases current : r.current <;> simp [Reader.unescape, Reader.arguments, current]

theorem close_arguments (r : Reader) : r.close.arguments.length = r.arguments.length := by
  rw [Reader.arguments, Reader.close, Option.toList_none, List.append_nil]

theorem begin_arguments (r : Reader) (word : List UInt8) (inQuote : Bool) :
    r.arguments.length ≤ (r.begin_ word inQuote).arguments.length := by
  cases current : r.current <;> simp [Reader.begin_, Reader.arguments, current]

/-- No argument is given up. -/
theorem next_arguments (next : r.next escape char = .ok after) : r.arguments.length ≤ after.arguments.length := by
  rw [Reader.next] at next
  split at next
  · rw [Reader.onEquals] at next
    split at next
    · exact Except.ok.inj next ▸ (close_arguments r).ge
    split at next
    · cases next
    · exact Except.ok.inj next ▸ (add_arguments r _).ge
  split at next
  · rw [Reader.onQuote] at next
    split at next
    · exact Except.ok.inj next ▸ (unescape_arguments r _).ge
    split at next
    · exact Except.ok.inj next ▸ (add_arguments r _).ge
    · cases next
    · exact Except.ok.inj next ▸ begin_arguments r _ _
    · exact Except.ok.inj next ▸ (close_arguments r).ge
  split at next
  · rw [Reader.onSpace] at next
    split at next
    · exact Except.ok.inj next ▸ (unescape_arguments r _).ge
    split at next
    · exact Except.ok.inj next ▸ (close_arguments r).ge
    · exact Except.ok.inj next ▸ (add_arguments r _).ge
  split at next
  · rw [Reader.onComma] at next
    split at next
    · cases next
    split at next
    · exact Except.ok.inj next ▸ (close_arguments r).ge
    · exact Except.ok.inj next ▸ (add_arguments r _).ge
  · rw [Reader.onOther] at next
    split at next
    · exact Except.ok.inj next ▸ begin_arguments r _ _
    · exact Except.ok.inj next ▸ (add_arguments r _).ge

theorem read_arguments_le (escape : Bool) (r : Reader) (line : List UInt8) :
    r.arguments.length ≤ (Reader.read escape r line).1.arguments.length := by
  induction line generalizing escape r with
  | nil => exact Nat.le_refl _
  | cons char rest ih =>
    rw [Reader.read]
    cases next : r.next escape char with
    | error code => exact Nat.le_refl _
    | ok after => exact (next_arguments next).trans (ih _ after)

/-- Nothing but separators. -/
def Blank (line : List UInt8) : Prop := ∀ char ∈ line, char = spaceChar ∨ char = commaChar

instance (line : List UInt8) : Decidable (Blank line) := inferInstanceAs (Decidable (∀ _ ∈ _, _))

theorem next_separator (escape : Bool) (separator : char = spaceChar ∨ char = commaChar) :
    Reader.start.next escape char = .ok Reader.start := by
  cases separator with
  | inl space =>
    subst space
    cases escape <;> rfl
  | inr comma =>
    subst comma
    rfl

theorem read_blank (escape : Bool) (blank : Blank line) : Reader.read escape Reader.start line = (Reader.start, none) := by
  induction line generalizing escape with
  | nil => rfl
  | cons char rest ih =>
    rw [Reader.read, next_separator escape (blank char List.mem_cons_self)]
    exact ih _ fun other member => blank other (List.mem_cons_of_mem _ member)

/-- A line that is not blank has an argument, or is rejected. -/
theorem argument_of_read (escape : Bool) (blank : ¬Blank line)
    (accepted : (Reader.read escape Reader.start line).2 = none) :
    0 < (Reader.read escape Reader.start line).1.arguments.length := by
  induction line generalizing escape with
  | nil => exact absurd (fun _ member => absurd member List.not_mem_nil) blank
  | cons char rest ih =>
    rw [Reader.read] at accepted ⊢
    by_cases separator : char = spaceChar ∨ char = commaChar
    · rw [next_separator escape separator] at accepted ⊢
      exact ih _ (fun all => blank (List.forall_mem_cons.mpr ⟨separator, all⟩)) accepted
    rw [not_or] at separator
    by_cases equals : char = equalsChar
    · subst equals
      exact absurd accepted (by cases escape <;> rintro ⟨⟩)
    have opened : ∃ word inQuote, Reader.start.next escape char = .ok (Reader.start.begin_ word inQuote) := by
      rw [Reader.next, if_neg equals, if_neg separator.1, if_neg separator.2]
      split
      · exact ⟨[], true, by cases escape <;> rfl⟩
      · exact ⟨[char], false, rfl⟩
    obtain ⟨word, inQuote, next⟩ := opened
    rw [next]
    exact Nat.lt_of_lt_of_le Nat.zero_lt_one (read_arguments_le _ (Reader.start.begin_ word inQuote) rest)

theorem next_code {code : Int} (next : r.next escape char = .error code) : code ≠ 0 := by
  rw [Reader.next] at next
  split at next
  · rw [Reader.onEquals] at next
    split at next
    · cases next
    split at next
    · exact Except.error.inj next ▸ by decide
    · cases next
  split at next
  · rw [Reader.onQuote] at next
    split at next
    · cases next
    split at next
    · cases next
    · exact Except.error.inj next ▸ by decide
    · cases next
    · cases next
  split at next
  · rw [Reader.onSpace] at next
    split at next
    · cases next
    split at next <;> cases next
  split at next
  · rw [Reader.onComma] at next
    split at next
    · exact Except.error.inj next ▸ by decide
    split at next <;> cases next
  · cases next

/-- A line is rejected with an error code. -/
theorem read_code {code : Int} (escape : Bool) (r : Reader) (rejected : (Reader.read escape r line).2 = some code) :
    code ≠ 0 := by
  induction line generalizing escape r with
  | nil =>
    rw [Reader.read] at rejected
    dsimp only at rejected
    split at rejected
    · exact Option.some.inj rejected ▸ by decide
    · cases rejected
  | cons char rest ih =>
    rw [Reader.read] at rejected
    cases next : r.next escape char with
    | error other =>
      rw [next] at rejected
      exact Option.some.inj rejected ▸ next_code next
    | ok after =>
      rw [next] at rejected
      exact ih _ after rejected

/-! ## What is touched -/

/-- The entries of the table are the arguments, and all bytes are bytes of the line or its NUL. Either an error is returned,
or the dispatcher is called with the number of the entries that are not `NULL`. -/
structure Safe (line : List UInt8) (handled : Handled F) : Prop where
  few : handled.stores.length ≤ atsvrMaxArg
  stores : ∀ k ∈ handled.stores, k < atsvrMaxArg
  accesses : ∀ access ∈ handled.accesses, access.Within line.length
  outcome : (∃ code, handled.result = .returned code ∧ code ≠ 0) ∨
    ∃ call, handled.dispatch = some call ∧
      call.argc.toNat = ((List.range atsvrMaxArg).filter fun k => (call.argv k).isSome).length

theorem Laid.name_inside {name : List UInt8} {args : List (List UInt8)} (laid : Laid offsets (name :: args) buffer) :
    ∃ first others, offsets = first :: others ∧ first + name.length + 1 ≤ buffer.length := by
  generalize same : name :: args = words at laid
  induction laid generalizing args with
  | none => cases same
  | word laid gap word more plain ih =>
    rename_i offsets words front
    simp only [List.length_append, List.length_cons]
    cases words with
    | nil =>
      cases List.length_eq_zero_iff.mp laid.length
      cases same
      exact ⟨_, [], rfl, by omega⟩
    | cons head tail =>
      cases same
      obtain ⟨first, others, offsets, inside⟩ := ih rfl
      exact ⟨first, others ++ [_], by rw [offsets]; rfl, by omega⟩

theorem filter_offsets (offsets : List Nat) (size : Nat) (few : offsets.length ≤ size) :
    ((List.range size).filter fun k => (offsets[k]?).isSome).length = offsets.length := by
  have all : ∀ size, ((List.range size).filter fun k => (offsets[k]?).isSome).length = min size offsets.length := by
    intro size
    induction size with
    | zero => rw [Nat.zero_min]; rfl
    | succ size ih =>
      rw [List.range_succ, List.filter_append, List.length_append, ih]
      by_cases inside : size < offsets.length
      · rw [List.filter_cons_of_pos (by rw [List.getElem?_eq_getElem inside]; rfl), List.filter_nil,
          List.length_singleton]
        omega
      · rw [List.filter_cons_of_neg (by rw [List.getElem?_eq_none (Nat.le_of_not_lt inside)]; exact Bool.false_ne_true),
          List.filter_nil, List.length_nil]
        omega
  rw [all, Nat.min_eq_right few]

variable {call : Call}

theorem Passed.entries (passed : Passed limit call words) (few : words.length ≤ atsvrMaxArg) :
    call.argc.toNat = ((List.range atsvrMaxArg).filter fun k => (call.argv k).isSome).length := by
  obtain ⟨offsets, used, junk, laid, -, -, argv⟩ := passed.laid
  rw [passed.argc, argv, ← laid.length]
  exact (filter_offsets offsets _ (laid.length.trans_le few)).symm

/-- The first reads of the dispatcher, and those of `sscanf`. -/
theorem Passed.command_accesses {name : List UInt8} {args : List (List UInt8)}
    (passed : Passed limit call (name :: args)) :
    ∀ access ∈ (atsvcCommandHandle commands call).accesses, access.Within limit := by
  have reads : ∀ access ∈ stringReads (call.offset 0) name, access.Within limit := by
    obtain ⟨offsets, used, junk, laid, room, -, argv⟩ := passed.laid
    obtain ⟨first, others, same, inside⟩ := laid.name_inside
    have place : call.offset 0 = first := by
      rw [Call.offset, argv, same]
      rfl
    rw [place]
    exact stringReads_within (by omega)
  rw [atsvcCommandHandle, passed.name]
  dsimp only
  split
  · exact reads
  · exact List.forall_mem_append.mpr ⟨reads, passed.rescanned.2⟩

theorem command_dispatch : (atsvcCommandHandle commands call).dispatch = some call := by
  rw [atsvcCommandHandle]
  dsimp only
  split <;> rfl

/-- `env` is stored only within the table. -/
theorem command_stores (commands : List (AtsvrCommand F)) (call : Call) :
    (atsvcCommandHandle commands call).stores = [] ∨
      call.argc.toNat < atsvrMaxArg ∧ (atsvcCommandHandle commands call).stores = [call.argc.toNat] := by
  rw [atsvcCommandHandle]
  dsimp only
  split
  · exact Or.inl rfl
  · by_cases room : call.argc.toNat < atsvrMaxArg
    · exact Or.inr ⟨room, by rw [if_pos room]; rfl⟩
    · exact Or.inl (by rw [if_neg room]; rfl)

/-- The entries that the splitter stores come first. -/
theorem finish_stores {t : Splitter} {verdict : Option Int} (ended : Ended limit t r verdict) :
    ∃ extra, (t.finish commands).stores = List.range r.arguments.length ++ extra := by
  cases verdict with
  | some code =>
    have stopped : Stopped limit t r code := ended
    refine ⟨[], ?_⟩
    rw [Splitter.finish, stopped.returned, List.append_nil]
    exact stopped.stores
  | none =>
    have finished : Finished limit t r := ended
    rw [Splitter.finish, finished.returned]
    dsimp only
    split
    · exact ⟨[], by rw [List.append_nil]; exact finished.stores⟩
    split
    · exact ⟨[], by rw [List.append_nil]; exact finished.stores⟩
    · exact ⟨_, by rw [← finished.stores]⟩

/-- A line that is read to its end, with arguments for the table, is passed on safely. -/
theorem Finished.safe {t : Splitter} (finished : Finished line.length t r) (some_ : 0 < r.arguments.length)
    (few : r.arguments.length ≤ atsvrMaxArg) : Safe line (t.finish commands) := by
  have passed := finished.passed (Nat.lt_of_le_of_lt few (by decide))
  have entries := passed.entries few
  have argc := passed.argc
  obtain ⟨name, args, words⟩ := List.exists_cons_of_length_pos some_
  have accesses : ∀ access ∈ (atsvcCommandHandle commands ⟨UInt8.ofNat t.argc, t.argv, t.inbuf, none⟩).accesses,
      access.Within line.length := by
    rw [words] at passed
    exact passed.command_accesses
  have many : ¬t.argc < 1 := by
    rw [finished.argc]
    omega
  generalize call_eq : (⟨UInt8.ofNat t.argc, t.argv, t.inbuf, none⟩ : Call) = call at *
  rw [Splitter.finish, finished.returned]
  dsimp only
  rw [finished.inQuote, if_neg Bool.false_ne_true, if_neg many, call_eq, finished.stores]
  have stores := command_stores commands call
  refine ⟨?_, ?_, List.forall_mem_append.mpr ⟨finished.accesses, accesses⟩, Or.inr ⟨call, command_dispatch, entries⟩⟩
  · rw [List.length_append, List.length_range]
    rcases stores with none | ⟨room, one⟩
    · rw [none]
      exact few
    · rw [one, List.length_singleton]
      omega
  · have inside : ∀ k ∈ List.range r.arguments.length, k < atsvrMaxArg := fun k member =>
      Nat.lt_of_lt_of_le (List.mem_range.mp member) few
    refine List.forall_mem_append.mpr ⟨inside, ?_⟩
    rcases stores with none | ⟨room, one⟩
    · rw [none]
      exact fun _ member => absurd member List.not_mem_nil
    · rw [one]
      exact List.forall_mem_singleton.mpr room

/-! ## Results -/

/-- With fuel for the line, the handling ends, and it is safe exactly when the line is not blank, and does not begin more
arguments than the table has entries. -/
theorem handle_input_safe_iff (commands : List (AtsvrCommand F)) {line : List UInt8} (junk : List UInt8) {fuel : Nat}
    (plain : 0 ∉ line) (fits : line.length < atsvrInputBuffMaxSize) (enough : line.length < fuel) :
    (∃ handled, atsvrHandleInput commands fuel (line ++ 0 :: junk) = some handled ∧ Safe line handled) ↔
      ¬Blank line ∧ begun line ≤ atsvrMaxArg := by
  obtain ⟨t, scan, ended⟩ := scan_line junk plain fits enough
  have handles : atsvrHandleInput commands fuel (line ++ 0 :: junk) = some (t.finish commands) := by
    rw [atsvrHandleInput, scan, Option.map_some]
  have one : (∃ handled, atsvrHandleInput commands fuel (line ++ 0 :: junk) = some handled ∧ Safe line handled) ↔
      Safe line (t.finish commands) := by
    rw [handles]
    refine ⟨?_, fun safe => ⟨_, rfl, safe⟩⟩
    rintro ⟨handled, same, safe⟩
    exact Option.some.inj same ▸ safe
  rw [one, begun]
  constructor
  · intro safe
    constructor
    · intro blank
      rw [read_blank false blank] at ended
      have finished : Finished line.length t Reader.start := ended
      have returned : t.finish commands = ⟨.returned 0, none, t.accesses, t.stores⟩ := by
        rw [Splitter.finish, finished.returned]
        dsimp only
        rw [finished.inQuote, if_neg Bool.false_ne_true, finished.argc]
        rfl
      rw [returned] at safe
      rcases safe.outcome with ⟨code, same, other⟩ | ⟨call, never, -⟩
      · exact other (Result.returned.inj same).symm
      · cases never
    · by_contra many
      obtain ⟨extra, stores⟩ := @finish_stores F commands _ _ _ _ ended
      have beyond : atsvrMaxArg ∈ (t.finish commands).stores := by
        rw [stores]
        exact List.mem_append_left _ (List.mem_range.mpr (Nat.lt_of_not_le many))
      exact Nat.lt_irrefl _ (safe.stores _ beyond)
  · rintro ⟨blank, few⟩
    cases verdict : (Reader.read false Reader.start line).2 with
    | some code =>
      rw [verdict] at ended
      have stopped : Stopped line.length t _ code := ended
      rw [Splitter.finish, stopped.returned]
      refine ⟨?_, ?_, stopped.accesses, Or.inl ⟨code, rfl, read_code false _ verdict⟩⟩
      · dsimp only
        rw [stopped.stores, List.length_range]
        exact few
      · dsimp only
        rw [stopped.stores]
        exact fun k member => Nat.lt_of_lt_of_le (List.mem_range.mp member) few
    | none =>
      rw [verdict] at ended
      exact Finished.safe ended (argument_of_read false blank verdict) few

/-- `AT+E a,a` -/
def shortLine : List UInt8 := echoName ++ [spaceChar, 97, commaChar, 97]

theorem short_line_safe :
    ∃ handled, atsvrHandleInput [echoCommand] 20 (shortLine ++ 0 :: []) = some handled ∧ Safe shortLine handled :=
  (handle_input_safe_iff [echoCommand] [] (by decide) (by decide) (by decide)).mpr (by decide)

/-- The name and sixteen arguments. -/
def crowdedLine : List UInt8 := echoName ++ (List.replicate 16 [spaceChar, 97]).flatten

/-- The last argument is stored behind the table. -/
theorem crowded_line_overflows :
    (atsvrHandleInput [echoCommand] 40 (crowdedLine ++ 0 :: [])).any (fun handled => decide (16 ∈ handled.stores)) ∧
      ¬∃ handled, atsvrHandleInput [echoCommand] 40 (crowdedLine ++ 0 :: []) = some handled ∧ Safe crowdedLine handled := by
  have stored : (atsvrHandleInput [echoCommand] 40 (crowdedLine ++ 0 :: [])).any
      (fun handled => decide (16 ∈ handled.stores)) := by decide
  refine ⟨stored, ?_⟩
  rintro ⟨handled, same, safe⟩
  rw [same] at stored
  exact Nat.lt_irrefl _ (safe.stores 16 (of_decide_eq_true stored))

end BekenSdk.AtServer
