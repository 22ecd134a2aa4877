import BekenSdk.AtServer.Reader

/-! Arguments in quotes. The splitter gives back every argument of a rendered line, and the dispatcher hands it on unless
it begins like a string in quotes: then the second reading takes the quote away.
-/

set_option autoImplicit false

namespace BekenSdk.AtServer
open Base

variable {F : Type} {commands : List (AtsvrCommand F)} {offsets : List Nat} {words : List (List UInt8)}
  {buffer word text : List UInt8} {limit : Nat}

/-! ## The second reading -/

/-- What the second reading makes of an argument. -/
def rescanned (text : List UInt8) : List UInt8 := (scanned text).getD text

/-- A quote with another character behind it. -/
def Requoted (text : List UInt8) : Prop := ∃ char rest, text = quoteChar :: char :: rest ∧ char ≠ quoteChar

theorem scanned_shorter (found : scanned text = some word) : word.length + 1 ≤ text.length ∧ ∀ char ∈ word, char ∈ text := by
  cases text with
  | nil => cases found
  | cons char rest =>
    rw [scanned] at found
    split at found
    · obtain rfl := Option.some.inj found
      have sublist : (rest.takeWhile (· ≠ quoteChar)).Sublist rest := List.takeWhile_sublist _
      exact ⟨Nat.succ_le_succ sublist.length_le, fun byte member => List.mem_cons_of_mem _ (sublist.mem member)⟩
    · cases found

theorem scanned_none_iff : scanned text = none ↔ ¬Requoted text := by
  rw [← not_iff_not, Classical.not_not]
  cases text with
  | nil => exact iff_of_false (fun never => never rfl) fun ⟨_, _, never, _⟩ => nomatch never
  | cons first rest =>
    rw [scanned]
    cases rest with
    | nil =>
      rw [List.takeWhile_nil, if_neg fun both => both.2 rfl]
      exact iff_of_false (fun never => never rfl) fun ⟨_, _, never, _⟩ => nomatch never
    | cons second rest =>
      by_cases quote : second = quoteChar
      · rw [List.takeWhile_cons_of_neg (by rw [quote]; decide), if_neg fun both => both.2 rfl]
        refine iff_of_false (fun never => never rfl) ?_
        rintro ⟨char, tail, same, other⟩
        cases same
        exact other quote
      · have more : (second :: rest).takeWhile (· ≠ quoteChar) = second :: rest.takeWhile (· ≠ quoteChar) :=
          List.takeWhile_cons_of_pos (decide_eq_true quote)
        rw [more]
        by_cases begins : first = quoteChar
        · rw [if_pos ⟨begins, List.cons_ne_nil _ _⟩]
          exact iff_of_true (fun never => nomatch never) ⟨second, rest, by rw [begins], quote⟩
        · rw [if_neg fun both => begins both.1]
          refine iff_of_false (fun never => never rfl) ?_
          rintro ⟨char, tail, same, other⟩
          cases same
          exact begins rfl

instance (text : List UInt8) : Decidable (Requoted text) :=
  decidable_of_iff (¬scanned text = none) (by rw [scanned_none_iff, Classical.not_not])

theorem rescanned_eq_iff : rescanned text = text ↔ ¬Requoted text := by
  rw [← scanned_none_iff, rescanned]
  cases found : scanned text with
  | none => exact iff_of_true rfl rfl
  | some word =>
    have shorter := (scanned_shorter found).1
    refine iff_of_false ?_ (fun never => nomatch never)
    intro same
    rw [Option.getD_some] at same
    rw [same] at shorter
    exact Nat.not_succ_le_self _ shorter

/-! ## Strings in the buffer -/

theorem stringAt_append (front more : List UInt8) (plain : 0 ∉ word) :
    stringAt (front ++ (word ++ 0 :: more)) front.length = word := by
  rw [stringAt, List.drop_left, List.takeWhile_append_of_pos, List.takeWhile_cons_of_neg (by decide), List.append_nil]
  intro byte member
  exact decide_eq_true fun zero => plain (zero ▸ member)

theorem Laid.strings (laid : Laid offsets words buffer) (more : List UInt8) :
    offsets.map (stringAt (buffer ++ more)) = words := by
  induction laid generalizing more with
  | none => rfl
  | word laid gap word rest plain ih =>
    rename_i offsets words front
    have whole : front ++ gap ++ word ++ 0 :: rest ++ more = (front ++ gap) ++ (word ++ 0 :: (rest ++ more)) := by
      simp only [List.append_assoc, List.cons_append]
    rw [List.map_append, List.map_singleton, whole, ← List.length_append, stringAt_append _ _ plain, List.append_assoc,
      ih]

theorem map_offsets {A : Type} (f : Nat → A) {argv : Nat → Option Nat} (same : argv = fun k => offsets[k]?) :
    (List.range offsets.length).map (fun k => f ((argv k).getD 0)) = offsets.map f := by
  apply List.ext_getElem
  · rw [List.length_map, List.length_map, List.length_range]
  · intro k inside _
    rw [List.length_map, List.length_range] at inside
    rw [List.getElem_map, List.getElem_map, List.getElem_range, same]
    dsimp only
    rw [List.getElem?_eq_getElem inside, Option.getD_some]

/-- One reading changes a word within its place. -/
theorem sscanf_word (word : List UInt8) (plain : 0 ∉ word) :
    ∃ pad : List UInt8, 0 ∉ rescanned word ∧ (rescanned word).length + pad.length = word.length ∧
      ∀ front more, (sscanf (front ++ (word ++ 0 :: more)) front.length).1 =
        front ++ (rescanned word ++ 0 :: (pad ++ more)) := by
  cases found : scanned word with
  | none =>
    have same : rescanned word = word := by rw [rescanned, found, Option.getD_none]
    rw [same]
    refine ⟨[], plain, Nat.add_zero _, fun front more => ?_⟩
    rw [sscanf, stringAt_append _ _ plain, found]
    rfl
  | some new =>
    have same : rescanned word = new := by rw [rescanned, found, Option.getD_some]
    obtain ⟨short, inside⟩ := scanned_shorter found
    rw [same]
    refine ⟨word.drop (new.length + 1) ++ [0], fun zero => plain (inside 0 zero), ?_, fun front more => ?_⟩
    · simp only [List.length_append, List.length_cons, List.length_nil, List.length_drop]
      omega
    · have left : (front ++ (word ++ 0 :: more)).drop (front.length + (new.length + 1)) =
          word.drop (new.length + 1) ++ 0 :: more := by
        rw [List.drop_append, List.drop_of_length_le (Nat.le_add_right _ _), Nat.add_sub_cancel_left, List.nil_append,
          List.drop_append_of_le_length short]
      rw [sscanf, stringAt_append _ _ plain, found]
      dsimp only
      rw [List.take_left, left]
      simp only [List.append_assoc, List.cons_append, List.nil_append]

theorem stringReads_within {offset : Nat} (room : offset + text.length ≤ limit) :
    ∀ access ∈ stringReads offset text, access.Within limit := by
  intro access member
  obtain ⟨k, inside, rfl⟩ := List.mem_map.mp member
  rw [List.mem_range] at inside
  exact ⟨by dsimp only [Access.index]; omega, by dsimp only [Access.index]; omega⟩

theorem stringWrites_within {offset : Nat} (room : offset + text.length ≤ limit) :
    ∀ access ∈ stringWrites offset text, access.Within limit := by
  intro access member
  obtain ⟨k, inside, rfl⟩ := List.mem_map.mp member
  rw [List.mem_range] at inside
  exact ⟨by dsimp only [Access.index]; omega, by dsimp only [Access.index]; omega⟩

theorem sscanf_within (front more : List UInt8) (plain : 0 ∉ word) (room : front.length + word.length ≤ limit) :
    ∀ access ∈ (sscanf (front ++ (word ++ 0 :: more)) front.length).2, access.Within limit := by
  rw [sscanf, stringAt_append _ _ plain]
  cases found : scanned word with
  | none => exact stringReads_within room
  | some new =>
    have short := (scanned_shorter found).1
    exact List.forall_mem_append.mpr ⟨stringReads_within room, stringWrites_within (by omega)⟩

/-- One more reading, with its accesses. -/
def sscanfNext (done : List UInt8 × List Access) (offset : Nat) : List UInt8 × List Access :=
  ((sscanf done.1 offset).1, done.2 ++ (sscanf done.1 offset).2)

/-- The readings of all words, each within its place. -/
theorem Laid.rescans (laid : Laid offsets words buffer) (room : buffer.length ≤ limit + 1) :
    ∃ after : List UInt8, after.length = buffer.length ∧ Laid offsets (words.map rescanned) after ∧
      ∀ more, (offsets.foldl sscanfNext (buffer ++ more, [])).1 = after ++ more ∧
        ∀ access ∈ (offsets.foldl sscanfNext (buffer ++ more, [])).2, access.Within limit := by
  induction laid with
  | none buffer => exact ⟨buffer, rfl, .none buffer, fun more => ⟨rfl, fun _ member => absurd member List.not_mem_nil⟩⟩
  | word laid gap word rest plain ih =>
    rename_i offsets words front
    simp only [List.length_append, List.length_cons] at room
    obtain ⟨after, size, laid_after, done⟩ := ih (by omega)
    obtain ⟨pad, clean, total, scan⟩ := sscanf_word word plain
    refine ⟨after ++ gap ++ rescanned word ++ 0 :: (pad ++ rest), ?_, ?_, fun more => ?_⟩
    · simp only [List.length_append, List.length_cons]
      omega
    · rw [List.map_append, List.map_singleton, ← size]
      exact .word laid_after gap (rescanned word) (pad ++ rest) clean
    · have whole : front ++ gap ++ word ++ 0 :: rest ++ more = front ++ (gap ++ word ++ 0 :: rest ++ more) := by
        simp only [List.append_assoc, List.cons_append]
      have next : after ++ (gap ++ word ++ 0 :: rest ++ more) = (after ++ gap) ++ (word ++ 0 :: (rest ++ more)) := by
        simp only [List.append_assoc, List.cons_append]
      have place : front.length + gap.length = (after ++ gap).length := by rw [List.length_append, size]
      obtain ⟨first, within⟩ := done (gap ++ word ++ 0 :: rest ++ more)
      rw [whole, List.foldl_append, List.foldl_cons, List.foldl_nil, sscanfNext, first, next, place]
      refine ⟨?_, List.forall_mem_append.mpr ⟨within, sscanf_within _ _ plain ?_⟩⟩
      · rw [scan]
        simp only [List.append_assoc, List.cons_append]
      · rw [List.length_append]
        omega

/-! ## The dispatcher -/

/-- The words are passed on, in the part of the buffer that the line had. -/
structure Passed (limit : Nat) (call : Call) (words : List (List UInt8)) : Prop where
  argc : call.argc.toNat = words.length
  laid : ∃ offsets used junk, Laid offsets words used ∧ used.length ≤ limit + 1 ∧ call.inbuf = used ++ junk ∧
    call.argv = fun k => offsets[k]?

variable {call : Call}

theorem Passed.arguments (passed : Passed limit call words) : call.arguments = words := by
  obtain ⟨offsets, used, junk, laid, -, inbuf, argv⟩ := passed.laid
  rw [Call.arguments, passed.argc, ← laid.length, inbuf]
  exact (map_offsets (stringAt (used ++ junk)) argv).trans (laid.strings junk)

/-- All the words are read once more. -/
theorem Passed.rescanned (passed : Passed limit call words) :
    (∀ env, Call.arguments { call with inbuf := (sscanfAll call).1, env := env } = words.map rescanned) ∧
      ∀ access ∈ (sscanfAll call).2, access.Within limit := by
  obtain ⟨offsets, used, junk, laid, room, inbuf, argv⟩ := passed.laid
  obtain ⟨after, size, laid_after, done⟩ := laid.rescans room
  have count : call.argc.toNat = offsets.length := passed.argc.trans laid.length.symm
  have all : sscanfAll call = offsets.foldl sscanfNext (used ++ junk, []) := by
    have each : offsets = (List.range offsets.length).map call.offset := by
      have same := map_offsets (fun offset => offset) argv
      rw [List.map_id'] at same
      exact same.symm
    rw [sscanfAll, count, inbuf]
    conv_rhs => rw [each, List.foldl_map]
    rfl
  rw [all]
  refine ⟨fun env => ?_, (done junk).2⟩
  have again : Passed limit { call with inbuf := (offsets.foldl sscanfNext (used ++ junk, [])).1, env := env }
      (words.map BekenSdk.AtServer.rescanned) := by
    refine ⟨passed.argc.trans (List.length_map _).symm, offsets, after, junk, laid_after, ?_, (done junk).1, argv⟩
    rw [size]
    exact room
  exact again.arguments

/-- The words that were read are passed on. -/
theorem Finished.passed {s : Splitter} {r : Reader} (finished : Finished limit s r) (few : r.arguments.length < 256) :
    Passed limit ⟨UInt8.ofNat s.argc, s.argv, s.inbuf, none⟩ r.arguments := by
  refine ⟨?_, finished.laid⟩
  rw [finished.argc, UInt8.toNat_ofNat', Nat.mod_eq_of_lt few]

theorem Passed.name {name : List UInt8} {args : List (List UInt8)} (passed : Passed limit call (name :: args)) :
    stringAt call.inbuf (call.offset 0) = name := by
  have all := passed.arguments
  rw [Call.arguments, passed.argc, List.length_cons, List.range_succ_eq_map, List.map_cons] at all
  exact (List.cons.inj all).1

theorem lookup_full (name : List UInt8) :
    atsvrLookupAtCommand commands name 0 = commands.find? (fun command => command.name = name) := by
  rw [atsvrLookupAtCommand]
  congr 1
  funext command
  rw [if_neg (fun never => never rfl), decide_eq_decide]
  exact ⟨And.right, fun same => ⟨congrArg List.length same, same⟩⟩

/-! ## Rendered lines -/

/-- Every quote gets a backslash. -/
def escapeQuotes (text : List UInt8) : List UInt8 :=
  text.flatMap fun char => if char = quoteChar then [backslashChar, char] else [char]

def quoted (text : List UInt8) : List UInt8 := quoteChar :: (escapeQuotes text ++ [quoteChar])

/-- `name="a1","a2",...` -/
def rendering (name : List UInt8) (args : List (List UInt8)) : List UInt8 :=
  name ++ equalsChar :: [commaChar].intercalate (args.map quoted)

/-- Outside of an argument, after an equals sign. -/
def Reader.between (closed : List (List UInt8)) (isD : Nat) : Reader := ⟨closed, none, false, isD, false⟩

def Reader.inside (closed : List (List UInt8)) (word : List UInt8) : Reader := ⟨closed, some word, true, 2, false⟩

/-- The name is read to the equals sign. -/
theorem read_name (escape : Bool) (word name rest : List UInt8)
    (plain : ∀ char ∈ name, char ≠ equalsChar ∧ char ≠ quoteChar ∧ char ≠ spaceChar ∧ char ≠ commaChar) :
    Reader.read escape ⟨[], some word, false, 0, false⟩ (name ++ equalsChar :: rest) =
      Reader.read false (Reader.between [word ++ name] 1) rest := by
  induction name generalizing escape word with
  | nil =>
    rw [List.nil_append, List.append_nil]
    rfl
  | cons char name ih =>
    obtain ⟨equals, quote, space, comma⟩ := plain char List.mem_cons_self
    rw [List.cons_append, Reader.read, Reader.next, if_neg equals, if_neg quote, if_neg space, if_neg comma]
    have later := ih (decide (char = backslashChar)) (word ++ [char]) fun c member => plain c (List.mem_cons_of_mem _ member)
    rw [List.append_assoc] at later
    exact later

/-- An argument is read to its closing quote. -/
theorem read_argument (closed : List (List UInt8)) (some_ : closed ≠ []) (word text rest : List UInt8)
    (plain : backslashChar ∉ text) :
    Reader.read false (Reader.inside closed word) (escapeQuotes text ++ quoteChar :: rest) =
      Reader.read false (Reader.between (closed ++ [word ++ text]) 2) rest := by
  have many (word : List UInt8) : (Reader.inside closed word).arguments.length ≠ 1 ∧
      (Reader.inside closed word).arguments.length ≠ 0 := by
    have positive := List.length_pos_iff.mpr some_
    simp only [Reader.arguments, Reader.inside, Option.toList_some, List.length_append, List.length_singleton]
    omega
  induction text generalizing word with
  | nil =>
    rw [List.append_nil]
    rfl
  | cons char text ih =>
    have other : char ≠ backslashChar := (List.ne_of_not_mem_cons plain).symm
    have later := ih (word ++ [char]) (List.not_mem_of_not_mem_cons plain)
    rw [List.append_assoc, List.singleton_append] at later
    rw [escapeQuotes, List.flatMap_cons, ← escapeQuotes, ← later]
    by_cases quote : char = quoteChar
    · have pair : (word ++ [backslashChar]).dropLast ++ [char] = word ++ [char] := by rw [List.dropLast_concat]
      subst quote
      rw [if_pos rfl, ← pair]
      rfl
    rw [if_neg quote, List.cons_append, List.nil_append, List.cons_append, Reader.read]
    by_cases equals : char = equalsChar
    · subst equals
      have next : (Reader.inside closed word).next false equalsChar = .ok (Reader.inside closed (word ++ [equalsChar])) :=
        (if_neg (many word).1).trans (if_neg (many word).2)
      rw [next]
      rfl
    by_cases space : char = spaceChar
    · subst space
      rfl
    by_cases comma : char = commaChar
    · subst comma
      rfl
    rw [Reader.next, if_neg equals, if_neg quote, if_neg space, if_neg comma, decide_eq_false other]
    rfl

theorem read_quoted (closed : List (List UInt8)) (some_ : closed ≠ []) {isD : Nat} (either : isD = 1 ∨ isD = 2)
    {text : List UInt8} (rest : List UInt8) (plain : backslashChar ∉ text) :
    Reader.read false (Reader.between closed isD) (quoted text ++ rest) =
      Reader.read false (Reader.between (closed ++ [text]) 2) rest := by
  have opened : (Reader.between closed isD).next false quoteChar = .ok (Reader.inside closed []) := by
    cases either with
    | inl one => rw [one]; rfl
    | inr two => rw [two]; rfl
  have whole : quoted text ++ rest = quoteChar :: (escapeQuotes text ++ quoteChar :: rest) := by
    rw [quoted, List.cons_append, List.append_assoc]
    rfl
  rw [whole, Reader.read, opened]
  exact read_argument closed some_ [] text rest plain

theorem read_arguments (closed args : List (List UInt8)) (some_ : closed ≠ []) {isD : Nat} (either : isD = 1 ∨ isD = 2)
    (given : args ≠ []) (plain : ∀ text ∈ args, backslashChar ∉ text) :
    Reader.read false (Reader.between closed isD) ([commaChar].intercalate (args.map quoted)) =
      (Reader.between (closed ++ args) 2, none) := by
  induction args generalizing closed isD with
  | nil => exact absurd rfl given
  | cons text args ih =>
    have first := plain text List.mem_cons_self
    cases args with
    | nil =>
      have single : [commaChar].intercalate ([text].map quoted) = quoted text ++ [] := by
        rw [List.append_nil]
        exact List.append_nil _
      rw [single, read_quoted closed some_ either [] first]
      rfl
    | cons second args =>
      have more : [commaChar].intercalate ((text :: second :: args).map quoted) =
          quoted text ++ commaChar :: [commaChar].intercalate ((second :: args).map quoted) := rfl
      have later := @ih (closed ++ [text]) (List.append_ne_nil_of_right_ne_nil _ (List.cons_ne_nil _ _)) 2 (Or.inr rfl)
        (List.cons_ne_nil _ _) fun other member => plain other (List.mem_cons_of_mem _ member)
      rw [List.append_assoc, List.singleton_append] at later
      rw [more, read_quoted closed some_ either _ first, ← later]
      rfl

/-- A rendered line is read as the name and the arguments. -/
theorem read_rendering {name : List UInt8} {args : List (List UInt8)} (named : name ≠ []) (given : args ≠ [])
    (plainName : ∀ char ∈ name, char ≠ equalsChar ∧ char ≠ quoteChar ∧ char ≠ spaceChar ∧ char ≠ commaChar)
    (plainArgs : ∀ text ∈ args, backslashChar ∉ text) :
    Reader.read false Reader.start (rendering name args) = (Reader.between (name :: args) 2, none) := by
  obtain ⟨char, name, rfl⟩ := List.exists_cons_of_ne_nil named
  obtain ⟨equals, quote, space, comma⟩ := plainName char List.mem_cons_self
  rw [rendering, List.cons_append, Reader.read, Reader.next, if_neg equals, if_neg quote, if_neg space, if_neg comma]
  refine (read_name _ [char] name _ fun c member => plainName c (List.mem_cons_of_mem _ member)).trans ?_
  exact read_arguments _ args (List.cons_ne_nil _ _) (Or.inl rfl) given plainArgs

theorem plain_rendering {name : List UInt8} {args : List (List UInt8)} (plainName : 0 ∉ name)
    (plainArgs : ∀ text ∈ args, 0 ∉ text) : 0 ∉ rendering name args := by
  have plainQuoted : ∀ text ∈ args.map quoted, 0 ∉ text := by
    intro text member zero
    obtain ⟨arg, given, rfl⟩ := List.mem_map.mp member
    simp only [quoted, escapeQuotes, List.mem_cons, List.mem_append, List.mem_flatMap, List.not_mem_nil, or_false] at zero
    rcases zero with never | ⟨char, inside, zero⟩ | never
    · exact absurd never (by decide)
    · split at zero
      · rw [List.mem_pair] at zero
        exact zero.elim (fun never => absurd never (by decide)) fun same => plainArgs arg given (same ▸ inside)
      · rw [List.mem_singleton] at zero
        exact plainArgs arg given (zero ▸ inside)
    · exact absurd never (by decide)
  rw [rendering, List.mem_append, List.mem_cons]
  rintro (zero | never | zero)
  · exact plainName zero
  · exact absurd never (by decide)
  · generalize args.map quoted = texts at plainQuoted zero
    induction texts with
    | nil => cases zero
    | cons text texts ih =>
      cases texts with
      | nil => exact plainQuoted text List.mem_cons_self (by simpa [List.intercalate] using zero)
      | cons second texts =>
        have more : [commaChar].intercalate (text :: second :: texts) =
            text ++ commaChar :: [commaChar].intercalate (second :: texts) := rfl
        rw [more, List.mem_append, List.mem_cons] at zero
        rcases zero with zero | never | zero
        · exact plainQuoted text List.mem_cons_self zero
        · exact absurd never (by decide)
        · exact ih (fun other member => plainQuoted other (List.mem_cons_of_mem _ member)) zero

/-- What the dispatcher does with the words of a line when there is a handler. -/
theorem Passed.handed {name : List UInt8} {args : List (List UInt8)} {function : F}
    (passed : Passed limit call (name :: args))
    (found : (atsvrLookupAtCommand commands name (dotPosition name)).bind AtsvrCommand.function = some function) :
    (atsvcCommandHandle commands call).handed = some (function, (name :: args).map BekenSdk.AtServer.rescanned) := by
  rw [atsvcCommandHandle]
  dsimp only
  rw [passed.name, found]
  dsimp only [Handled.handed]
  rw [passed.rescanned.1]

/-- The handler of the command is called with the name, and the arguments as they are read again. -/
theorem handed_rescanned {command : AtsvrCommand F} {function : F} {name : List UInt8} {args : List (List UInt8)}
    (junk : List UInt8) {fuel : Nat} (named : name ≠ [])
    (plainName : ∀ char ∈ name, char ≠ 0 ∧ char ≠ dotChar ∧ char ≠ quoteChar ∧ char ≠ spaceChar ∧ char ≠ commaChar ∧
      char ≠ equalsChar)
    (count : 1 ≤ args.length ∧ args.length ≤ 15) (plainArgs : ∀ text ∈ args, 0 ∉ text ∧ backslashChar ∉ text)
    (fits : (rendering name args).length < atsvrInputBuffMaxSize)
    (registered : commands.find? (fun command => command.name = name) = some command)
    (handler : command.function = some function) (enough : (rendering name args).length < fuel) :
    (atsvrHandleInput commands fuel (rendering name args ++ 0 :: junk)).bind Handled.handed =
      some (function, name :: args.map rescanned) := by
  have plain := plain_rendering (fun zero => (plainName 0 zero).1 rfl) fun text member => (plainArgs text member).1
  obtain ⟨t, scan, ended⟩ := scan_line junk plain fits enough
  have given : args ≠ [] := List.length_pos_iff.mp count.1
  rw [read_rendering named given (fun char member => by
    obtain ⟨-, -, quote, space, comma, equals⟩ := plainName char member
    exact ⟨equals, quote, space, comma⟩) fun text member => (plainArgs text member).2] at ended
  have words : (Reader.between (name :: args) 2).arguments = name :: args := List.append_nil _
  have passed := ended.passed (by rw [words, List.length_cons]; omega)
  rw [words] at passed
  have undotted : dotPosition name = 0 := if_neg fun member => (plainName _ member).2.1 rfl
  have found : (atsvrLookupAtCommand commands name (dotPosition name)).bind AtsvrCommand.function = some function := by
    rw [undotted, lookup_full, registered]
    exact handler
  have kept : rescanned name = name := by
    rw [rescanned_eq_iff]
    rintro ⟨char, rest, same, -⟩
    exact (plainName quoteChar (same ▸ List.mem_cons_self)).2.2.1 rfl
  have many : ¬t.argc < 1 := by
    rw [ended.argc, words, List.length_cons]
    omega
  have handed := passed.handed found
  rw [List.map_cons, kept] at handed
  rw [atsvrHandleInput, scan, Option.map_some, Option.bind_some, Splitter.finish, ended.returned]
  dsimp only
  rw [ended.inQuote, if_neg (by decide), if_neg many]
  exact handed

/-! ## Results -/

/-- The handler gets the name and the arguments of a rendered line exactly when there is a name, and no argument begins with
a quote and another character. -/
theorem handed_over_iff {command : AtsvrCommand F} {function : F} {name : List UInt8} {args : List (List UInt8)}
    (junk : List UInt8) {fuel : Nat}
    (plainName : ∀ char ∈ name, char ≠ 0 ∧ char ≠ dotChar ∧ char ≠ quoteChar ∧ char ≠ spaceChar ∧ char ≠ commaChar ∧
      char ≠ equalsChar)
    (count : 1 ≤ args.length ∧ args.length ≤ 15) (plainArgs : ∀ text ∈ args, 0 ∉ text ∧ backslashChar ∉ text)
    (fits : (rendering name args).length < atsvrInputBuffMaxSize)
    (registered : commands.find? (fun command => command.name = name) = some command)
    (handler : command.function = some function) (enough : (rendering name args).length < fuel) :
    (atsvrHandleInput commands fuel (rendering name args ++ 0 :: junk)).bind Handled.handed =
        some (function, name :: args) ↔
      name ≠ [] ∧ ∀ text ∈ args, ¬Requoted text := by
  by_cases named : name = []
  · refine iff_of_false ?_ fun both => both.1 named
    subst named
    have plain := plain_rendering (fun zero => (plainName 0 zero).1 rfl) fun text member => (plainArgs text member).1
    obtain ⟨t, scan, ended⟩ := scan_line junk plain fits enough
    have stopped : Stopped _ t Reader.start 4 := ended
    rw [atsvrHandleInput, scan, Option.map_some, Option.bind_some, Splitter.finish, stopped.returned]
    exact fun never => nomatch never
  · rw [handed_rescanned junk named plainName count plainArgs fits registered handler enough]
    have same : some (function, name :: args.map rescanned) = some (function, name :: args) ↔
        args.map rescanned = args := by
      constructor
      · exact fun both => (List.cons.inj (Prod.mk.inj (Option.some.inj both)).2).2
      · exact fun all => by rw [all]
    rw [same, and_iff_right named]
    conv_lhs => rw [← List.map_id args, List.map_map]
    rw [List.map_inj_left]
    exact forall₂_congr fun text _ => rescanned_eq_iff

/-- `AT+E` -/
def echoName : List UInt8 := [65, 84, 43, 69]

def echoCommand : AtsvrCommand Nat := ⟨echoName, some 0⟩

/-- A comma, an equals sign and an escaped quote within an argument, and an empty argument. -/
def oddArguments : List (List UInt8) := [[97, commaChar, equalsChar], [98, quoteChar, spaceChar, 99], []]

theorem odd_arguments_handed_over :
    (atsvrHandleInput [echoCommand] 30 (rendering echoName oddArguments ++ 0 :: [])).bind Handled.handed =
      some (0, echoName :: oddArguments) :=
  (handed_over_iff [] (by decide +kernel) (by decide) (by decide) (by decide) rfl rfl (by decide)).mpr (by decide)

/-- The argument `"x` arrives as `x`. -/
theorem quote_taken_away :
    (atsvrHandleInput [echoCommand] 30 (rendering echoName [[quoteChar, 120]] ++ 0 :: [])).bind Handled.handed =
        some (0, [echoName, [120]]) ∧
      (atsvrHandleInput [echoCommand] 30 (rendering echoName [[quoteChar, 120]] ++ 0 :: [])).bind Handled.handed ≠
        some (0, [echoName, [quoteChar, 120]]) := by
  decide

end BekenSdk.AtServer
