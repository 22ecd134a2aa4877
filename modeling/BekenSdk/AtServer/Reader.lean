import BekenSdk.AtServer.Input
import Mathlib.Data.List.GetD

/-! How a line falls into arguments, without the buffer: the arguments that are closed, and the one that is being read. The
splitter does the same in place.
-/

set_option autoImplicit false

namespace BekenSdk.AtServer
open Base

/-! ## Reading a line -/

structure Reader where
  closed : List (List UInt8)
  current : Option (List UInt8)
  inQuote : Bool
  isD : Nat
  limQ : Bool

namespace Reader
variable (r : Reader)

def start : Reader := ⟨[], none, false, 0, false⟩

def arguments : List (List UInt8) := r.closed ++ r.current.toList

/-- Outside of an argument a character is skipped. -/
def add (char : UInt8) : Reader := { r with current := r.current.map (· ++ [char]) }

/-- The character takes the place of its backslash. -/
def unescape (char : UInt8) : Reader := { r with current := r.current.map (fun word => word.dropLast ++ [char]) }

def close : Reader := { r with closed := r.arguments, current := none }

def begin_ (word : List UInt8) (inQuote : Bool) : Reader :=
  { r with current := some word, inQuote := inQuote, limQ := false, isD := if r.isD = 1 then 2 else r.isD }

def onEquals : Except Int Reader :=
  if r.arguments.length = 1 then .ok { r.close with isD := 1 }
  else if r.arguments.length = 0 then .error 4
  else .ok (r.add equalsChar)

/-- `escape` tells that the character before is a backslash. -/
def onQuote (escape : Bool) : Except Int Reader :=
  if escape && r.current.isSome then .ok (r.unescape quoteChar)
  else
    match r.inQuote, r.current.isSome with
    | false, true => .ok (r.add quoteChar)
    | true, false => .error 2
    | false, false => .ok (r.begin_ [] true)
    | true, true => .ok { r.close with inQuote := false }

def onSpace (escape : Bool) : Except Int Reader :=
  if escape && r.current.isSome then .ok (r.unescape spaceChar)
  else if ¬r.inQuote ∧ r.current.isSome then .ok r.close
  else .ok (r.add spaceChar)

def onComma : Except Int Reader :=
  if r.isD = 1 ∧ r.arguments.length = 1 then .error 5
  else if r.current.isSome ∧ ¬r.inQuote then .ok { r.close with limQ := true }
  else .ok (r.add commaChar)

def onOther (char : UInt8) : Reader := if ¬r.current.isSome then r.begin_ [char] r.inQuote else r.add char

def next (escape : Bool) (char : UInt8) : Except Int Reader :=
  if char = equalsChar then r.onEquals
  else if char = quoteChar then r.onQuote escape
  else if char = spaceChar then r.onSpace escape
  else if char = commaChar then r.onComma
  else .ok (r.onOther char)

/-- The end of the line, or the character at which the reading stops, with the code. -/
def read (escape : Bool) (r : Reader) : List UInt8 → Reader × Option Int
  | [] => (r, if r.inQuote ∨ r.limQ ∨ r.isD = 1 then some 2 else none)
  | char :: rest =>
    match r.next escape char with
    | .error code => (r, some code)
    | .ok after => read (decide (char = backslashChar)) after rest

end Reader

/-! ## Arguments in a buffer -/

/-- Words with NUL behind each of them, and the offsets where they begin. -/
inductive Laid : List Nat → List (List UInt8) → List UInt8 → Prop where
  | none (buffer : List UInt8) : Laid [] [] buffer
  | word {offsets : List Nat} {words : List (List UInt8)} {front : List UInt8} (laid : Laid offsets words front)
      (gap word more : List UInt8) (plain : 0 ∉ word) :
      Laid (offsets ++ [front.length + gap.length]) (words ++ [word]) (front ++ gap ++ word ++ 0 :: more)

variable {offsets : List Nat} {words : List (List UInt8)} {front rest buffer : List UInt8} {char : UInt8}

theorem Laid.append (laid : Laid offsets words buffer) (more : List UInt8) : Laid offsets words (buffer ++ more) := by
  cases laid with
  | none => exact .none _
  | word laid gap word rest plain =>
    rw [List.append_assoc, List.cons_append]
    exact .word laid gap word (rest ++ more) plain

theorem Laid.length (laid : Laid offsets words buffer) : offsets.length = words.length := by
  induction laid with
  | none => rfl
  | word laid gap word more plain ih => rw [List.length_append, List.length_append, ih]; rfl

/-- The entries of `argv` are the offsets of the arguments. The one that is being read ends where the reading is; it is
empty only after its quote. -/
def Placed (argv : Nat → Option Nat) (r : Reader) (front : List UInt8) : Prop :=
  match r.current with
  | none => ∃ offsets, Laid offsets r.closed front ∧ argv = fun k => offsets[k]?
  | some word => ∃ offsets before, Laid offsets r.closed before ∧ front = before ++ word ∧ 0 ∉ word ∧
      (word = [] → before.getLast? ≠ some backslashChar) ∧ argv = fun k => (offsets ++ [before.length])[k]?

def Access.Within (limit : Nat) (access : Access) : Prop := 0 ≤ access.index ∧ access.index ≤ limit

/-- The splitter has read what is in front, and has the rest of the line before it. -/
structure Mirrors (limit : Nat) (s : Splitter) (r : Reader) (front rest : List UInt8) : Prop where
  inbuf : ∃ junk, s.inbuf = front ++ (rest ++ 0 :: junk)
  i : s.i = front.length
  room : front.length + rest.length ≤ limit
  stat : s.stat = ⟨r.current.isSome, r.inQuote, false, r.isD, r.limQ⟩
  returned : s.returned = none
  argc : s.argc = r.arguments.length
  placed : Placed s.argv r front
  accesses : ∀ access ∈ s.accesses, access.Within limit
  stores : s.stores = List.range s.argc

variable {limit : Nat} {s : Splitter} {r : Reader}

/-- Stopped with a code, after the arguments of the reader were begun. -/
structure Stopped (limit : Nat) (s : Splitter) (r : Reader) (code : Int) : Prop where
  returned : s.returned = some code
  accesses : ∀ access ∈ s.accesses, access.Within limit
  stores : s.stores = List.range r.arguments.length

/-- What a turn of the splitter on a character is for the reader. -/
def Follows (limit : Nat) (t : Splitter) (r : Reader) (char : UInt8) (rest : List UInt8) : Except Int Reader → Prop
  | .error code => Stopped limit t r code
  | .ok after => ∃ front, Mirrors limit { t with i := t.i + 1 } after front rest ∧
      (front.getLast? = some backslashChar ↔ char = backslashChar)

/-! ## What a turn does -/

theorem getLast?_snoc (front : List UInt8) (char : UInt8) :
    (front ++ [char]).getLast? = some backslashChar ↔ char = backslashChar := by
  rw [List.getLast?_append, List.getLast?_singleton, Option.some_or, Option.some.injEq]

theorem Mirrors.char_eq (m : Mirrors limit s r front (char :: rest)) : s.char = char := by
  obtain ⟨junk, inbuf⟩ := m.inbuf
  rw [Splitter.char, inbuf, m.i, List.getD_append_right _ _ _ _ (Nat.le_refl _), Nat.sub_self]
  rfl

theorem Mirrors.inside (m : Mirrors limit s r front rest) : Access.Within limit (.read s.i) := by
  have room := m.room
  rw [← m.i] at room
  exact ⟨Int.natCast_nonneg _, Int.ofNat_le.mpr (by omega)⟩

theorem Mirrors.touch (m : Mirrors limit s r front rest) {accesses : List Access}
    (within : ∀ access ∈ accesses, access.Within limit) : Mirrors limit (s.touch accesses) r front rest :=
  { m with accesses := List.forall_mem_append.mpr ⟨m.accesses, within⟩ }

theorem Mirrors.lookBack (m : Mirrors limit s r front rest) : Mirrors limit s.lookBack r front rest := by
  rw [Splitter.lookBack]
  split
  next more =>
    apply m.touch
    have here := m.inside
    rw [List.forall_mem_singleton]
    exact ⟨by dsimp only [Access.index]; omega, le_trans (by dsimp only [Access.index]; omega) here.2⟩
  next => exact m

theorem Mirrors.return_ (m : Mirrors limit s r front rest) (code : Int) : Stopped limit (s.return_ code) r code :=
  ⟨rfl, m.accesses, m.argc ▸ m.stores⟩

theorem Mirrors.room_next (m : Mirrors limit s r front (char :: rest)) (last : UInt8) :
    (front ++ [last]).length + rest.length ≤ limit := by
  have room := m.room
  rw [List.length_cons] at room
  rw [List.length_append, List.length_singleton]
  omega

/-- The character stays where it is. -/
theorem Mirrors.add (m : Mirrors limit s r front (char :: rest)) (plain : char ≠ 0) :
    Mirrors limit { s with i := s.i + 1 } (r.add char) (front ++ [char]) rest := by
  obtain ⟨junk, inbuf⟩ := m.inbuf
  have same : (r.add char).arguments.length = r.arguments.length := by
    cases current : r.current <;> simp [Reader.add, Reader.arguments, current]
  refine ⟨⟨junk, ?_⟩, ?_, m.room_next char, ?_, m.returned, m.argc.trans same.symm, ?_, m.accesses, m.stores⟩
  · rw [List.append_assoc]
    exact inbuf
  · rw [List.length_append, ← m.i]
    rfl
  · rw [Reader.add, Option.isSome_map]
    exact m.stat
  · have placed := m.placed
    rw [Placed] at placed ⊢
    cases current : r.current with
    | none =>
      rw [current] at placed
      obtain ⟨offsets, laid, argv⟩ := placed
      have none : (r.add char).current = none := by rw [Reader.add, current]; rfl
      rw [none]
      exact ⟨offsets, laid.append _, argv⟩
    | some word =>
      rw [current] at placed
      obtain ⟨offsets, before, laid, split, clean, -, argv⟩ := placed
      have some_ : (r.add char).current = some (word ++ [char]) := by rw [Reader.add, current]; rfl
      rw [some_]
      refine ⟨offsets, before, laid, ?_, ?_, ?_, argv⟩
      · rw [split, List.append_assoc]
      · rw [List.mem_append, List.mem_singleton]
        exact fun member => member.elim clean (fun same => plain same.symm)
      · exact fun empty => absurd empty (List.append_ne_nil_of_right_ne_nil _ (List.cons_ne_nil _ _))

theorem placed_close {argv : Nat → Option Nat} {after : Reader} (placed : Placed argv r front)
    (closed : after.closed = r.arguments) (current : after.current = none) : Placed argv after (front ++ [0]) := by
  rw [Placed] at placed ⊢
  rw [current, closed, Reader.arguments]
  cases reading : r.current with
  | none =>
    rw [reading] at placed
    obtain ⟨offsets, laid, same⟩ := placed
    rw [Option.toList_none, List.append_nil]
    exact ⟨offsets, laid.append _, same⟩
  | some word =>
    rw [reading] at placed
    obtain ⟨offsets, before, laid, split, clean, -, same⟩ := placed
    rw [Option.toList_some, split]
    refine ⟨offsets ++ [before.length], ?_, same⟩
    have next := Laid.word laid [] word [] clean
    rwa [List.append_nil] at next

/-- The character becomes NUL, which closes the argument if there is one. -/
theorem Mirrors.cut (m : Mirrors limit s r front (char :: rest)) {stat : Stat} {after : Reader}
    (closed : after.closed = r.arguments) (current : after.current = none)
    (same : stat = ⟨false, after.inQuote, false, after.isD, after.limQ⟩) :
    Mirrors limit { s.cut with stat := stat, i := s.i + 1 } after (front ++ [0]) rest := by
  obtain ⟨junk, inbuf⟩ := m.inbuf
  have count : after.arguments.length = r.arguments.length := by
    rw [Reader.arguments, closed, current, Option.toList_none, List.append_nil]
  refine ⟨⟨junk, ?_⟩, ?_, m.room_next 0, ?_, m.returned, m.argc.trans count.symm, ?_, ?_, m.stores⟩
  · change s.inbuf.set s.i 0 = _
    rw [inbuf, m.i, List.set_append_right _ _ (Nat.le_refl _), Nat.sub_self, List.append_assoc]
    rfl
  · rw [List.length_append, ← m.i]
    rfl
  · rw [current]
    exact same
  · exact placed_close m.placed closed current
  · have here := m.inside
    exact List.forall_mem_append.mpr ⟨m.accesses, List.forall_mem_singleton.mpr here⟩

theorem update_offsets (offsets : List Nat) (offset : Nat) :
    Function.update (fun k => offsets[k]?) offsets.length (some offset) = fun k => (offsets ++ [offset])[k]? := by
  funext k
  rw [Function.update_apply]
  split
  next last => rw [last, List.getElem?_concat_length]
  next other =>
    by_cases inside : k < offsets.length
    · rw [List.getElem?_append_left inside]
    · rw [List.getElem?_eq_none (by omega), List.getElem?_eq_none]
      rw [List.length_append, List.length_singleton]
      omega

/-- An argument begins behind what leads it in. -/
theorem placed_begin {argv : Nat → Option Nat} {lead word : List UInt8} {inQuote : Bool} (placed : Placed argv r front)
    (outside : r.current = none) (plain : 0 ∉ word)
    (marked : word = [] → (front ++ lead).getLast? ≠ some backslashChar) :
    Placed (Function.update argv r.arguments.length (some (front.length + lead.length))) (r.begin_ word inQuote)
      (front ++ (lead ++ word)) := by
  rw [Placed, outside] at placed
  obtain ⟨offsets, laid, same⟩ := placed
  have count : r.arguments.length = offsets.length := by
    rw [Reader.arguments, outside, Option.toList_none, List.append_nil, laid.length]
  rw [count, same, update_offsets, ← List.length_append]
  exact ⟨offsets, front ++ lead, laid.append lead, (List.append_assoc _ _ _).symm, plain, marked, rfl⟩

theorem Mirrors.argument (m : Mirrors limit s r front (char :: rest)) (outside : r.current = none)
    {lead word : List UInt8} {inQuote : Bool} (whole : lead ++ word = [char]) (plain : char ≠ 0)
    (marked : word = [] → char ≠ backslashChar) :
    Mirrors limit { s.argument (s.i + lead.length) inQuote with i := s.i + 1 } (r.begin_ word inQuote) (front ++ [char])
      rest := by
  obtain ⟨junk, inbuf⟩ := m.inbuf
  have count : (r.begin_ word inQuote).arguments.length = r.arguments.length + 1 := by
    rw [Reader.arguments, Reader.arguments, outside, List.length_append, List.length_append]
    rfl
  refine ⟨⟨junk, ?_⟩, ?_, m.room_next char, ?_, m.returned, ?_, ?_, m.accesses, ?_⟩
  · rw [List.append_assoc]
    exact inbuf
  · rw [List.length_append, ← m.i]
    rfl
  · change (s.argument (s.i + lead.length) inQuote).stat = _
    rw [Splitter.argument, m.stat]
    rfl
  · rw [count, ← m.argc]
    rfl
  · change Placed (Function.update s.argv s.argc _) _ _
    rw [m.argc, m.i, ← whole]
    apply placed_begin m.placed outside
    · intro member
      have inside : (0 : UInt8) ∈ lead ++ word := List.mem_append_right _ member
      rw [whole, List.mem_singleton] at inside
      exact plain inside.symm
    · intro empty
      rw [empty, List.append_nil] at whole
      rw [whole, Ne, getLast?_snoc]
      exact marked empty
  · change s.stores ++ [s.argc] = List.range (s.argc + 1)
    rw [List.range_succ, m.stores]

/-- What `memmove` leaves when the rest of a line moves down by a byte. -/
theorem memmove_down (front tail junk : List UInt8) (last : UInt8) :
    memmove (front ++ last :: (tail ++ 0 :: junk)) front.length (front.length + 1) (tail.length + 1) =
      front ++ (tail ++ 0 :: 0 :: junk) := by
  have line : front ++ last :: (tail ++ 0 :: junk) = (front ++ [last]) ++ (tail ++ 0 :: junk) := by
    rw [List.append_assoc]
    rfl
  have moved : front ++ last :: (tail ++ 0 :: junk) = (front ++ last :: tail) ++ 0 :: junk := by
    rw [List.append_assoc]
    rfl
  have kept : tail ++ 0 :: junk = (tail ++ [0]) ++ junk := by
    rw [List.append_assoc]
    rfl
  rw [memmove, List.take_left, line, List.drop_left' (by rw [List.length_append]; rfl), ← line, moved,
    List.drop_left' (by rw [List.length_append, List.length_cons]), kept,
    List.take_left' (by rw [List.length_append]; rfl), List.append_assoc, List.append_assoc]
  rfl

theorem strlenAt_line {tail junk : List UInt8} (plain : 0 ∉ tail) : strlenAt (tail ++ 0 :: junk) = tail.length := by
  rw [strlenAt, List.takeWhile_append_of_pos, List.takeWhile_cons_of_neg (by decide), List.append_nil]
  intro byte member
  exact decide_eq_true fun zero => plain (zero ▸ member)

theorem placed_unescape {argv : Nat → Option Nat} (placed : Placed argv r (front ++ [backslashChar]))
    {word : List UInt8} (current : r.current = some word) (plain : char ≠ 0) :
    Placed argv (r.unescape char) (front ++ [char]) := by
  rw [Placed, current] at placed
  obtain ⟨offsets, before, laid, split, clean, marked, same⟩ := placed
  have after : (r.unescape char).current = some (word.dropLast ++ [char]) := by
    rw [Reader.unescape, current]
    rfl
  rw [Placed, after]
  cases List.eq_nil_or_concat word with
  | inl empty =>
    rw [empty, List.append_nil] at split
    have last := marked empty
    rw [← split, List.getLast?_concat] at last
    exact absurd rfl last
  | inr snoc =>
    obtain ⟨initial, last, rfl⟩ := snoc
    rw [List.concat_eq_append, ← List.append_assoc] at split
    have both := List.append_inj' split rfl
    rw [List.concat_eq_append] at clean
    rw [List.concat_eq_append, List.dropLast_concat]
    refine ⟨offsets, before, laid, ?_, ?_, ?_, same⟩
    · rw [both.1, List.append_assoc]
    · rw [List.mem_append, List.mem_singleton]
      exact fun member => member.elim (fun inside => clean (List.mem_append_left _ inside)) fun zero => plain zero.symm
    · exact fun empty => absurd empty (List.append_ne_nil_of_right_ne_nil _ (List.cons_ne_nil _ _))

theorem Mirrors.shift (m : Mirrors limit s r (front ++ [backslashChar]) (char :: rest)) {word : List UInt8}
    (current : r.current = some word) (plain : 0 ∉ char :: rest) :
    Mirrors limit { s.shift with i := s.shift.i + 1 } (r.unescape char) (front ++ [char]) rest := by
  obtain ⟨junk, inbuf⟩ := m.inbuf
  have place : s.i = front.length + 1 := by
    rw [m.i, List.length_append]
    rfl
  have line : s.inbuf = front ++ backslashChar :: (char :: rest ++ 0 :: junk) := by
    rw [inbuf, List.append_assoc]
    rfl
  have count : strlenAt (s.inbuf.drop s.i) = (char :: rest).length := by
    rw [inbuf, List.drop_left' m.i.symm, strlenAt_line plain]
  have same : (r.unescape char).arguments.length = r.arguments.length := by
    simp [Reader.unescape, Reader.arguments, current]
  have room := m.room
  rw [List.length_append, List.length_singleton] at room
  refine ⟨⟨0 :: junk, ?_⟩, ?_, ?_, ?_, m.returned, m.argc.trans same.symm, ?_, ?_, m.stores⟩
  · change memmove s.inbuf (s.i - 1) s.i (strlenAt (s.inbuf.drop s.i) + 1) = _
    rw [count, place, Nat.add_sub_cancel, line, memmove_down, List.append_assoc]
    rfl
  · change s.i - 1 + 1 = _
    rw [place, List.length_append]
    rfl
  · rw [List.length_cons] at room
    rw [List.length_append, List.length_singleton]
    omega
  · rw [Reader.unescape, Option.isSome_map]
    exact m.stat
  · exact placed_unescape m.placed current (List.ne_of_not_mem_cons plain).symm
  · change ∀ access ∈ s.accesses ++ (List.map _ (List.range (strlenAt (s.inbuf.drop s.i) + 1)) ++ List.map _ _), _
    rw [count, place]
    refine List.forall_mem_append.mpr ⟨m.accesses, List.forall_mem_append.mpr ⟨?_, ?_⟩⟩
    · intro access member
      obtain ⟨k, inside, rfl⟩ := List.mem_map.mp member
      rw [List.mem_range] at inside
      exact ⟨by dsimp only [Access.index]; omega, by dsimp only [Access.index]; omega⟩
    · intro access member
      obtain ⟨k, inside, rfl⟩ := List.mem_map.mp member
      rw [List.mem_range] at inside
      exact ⟨by dsimp only [Access.index]; omega, by dsimp only [Access.index]; omega⟩

theorem Mirrors.follows_add (m : Mirrors limit s r front (char :: rest)) (plain : char ≠ 0) :
    Follows limit s r char rest (.ok (r.add char)) :=
  ⟨_, m.add plain, getLast?_snoc _ _⟩

theorem Mirrors.follows_cut (m : Mirrors limit s r front (char :: rest)) (other : char ≠ backslashChar) {stat : Stat}
    {after : Reader} (closed : after.closed = r.arguments) (current : after.current = none)
    (same : stat = ⟨false, after.inQuote, false, after.isD, after.limQ⟩) :
    Follows limit { s.cut with stat := stat } r char rest (.ok after) := by
  refine ⟨_, m.cut closed current same, ?_⟩
  rw [getLast?_snoc]
  exact iff_of_false (by decide) other

theorem Mirrors.escaped_eq (m : Mirrors limit s r front rest) :
    s.escaped = (decide (front.getLast? = some backslashChar) && r.current.isSome) := by
  obtain ⟨junk, inbuf⟩ := m.inbuf
  rw [Splitter.escaped, m.stat, m.i]
  dsimp only
  congr 1
  rw [decide_eq_decide, inbuf]
  cases List.eq_nil_or_concat front with
  | inl empty => simp [empty]
  | inr snoc =>
    obtain ⟨initial, last, rfl⟩ := snoc
    have inside : initial.length < (initial ++ [last]).length := by
      rw [List.length_append]
      exact Nat.lt_succ_self _
    rw [List.concat_eq_append, List.getLast?_concat, List.length_append, List.length_singleton, Nat.add_sub_cancel,
      List.getD_append _ _ _ _ inside, List.getD_append_right _ _ _ _ (Nat.le_refl _), Nat.sub_self, Option.some.injEq]
    exact and_iff_right (Nat.succ_pos _)

theorem Mirrors.follows_shift (m : Mirrors limit s r front (char :: rest)) (plain : 0 ∉ char :: rest)
    (escape : (decide (front.getLast? = some backslashChar) && r.current.isSome) = true) :
    Follows limit s.shift r char rest (.ok (r.unescape char)) := by
  rw [Bool.and_eq_true, decide_eq_true_iff] at escape
  obtain ⟨word, current⟩ := Option.isSome_iff_exists.mp escape.2
  obtain ⟨initial, rfl⟩ := List.getLast?_eq_some_iff.mp escape.1
  exact ⟨_, m.shift current plain, getLast?_snoc _ _⟩

theorem Mirrors.onEquals (m : Mirrors limit s r front (equalsChar :: rest)) :
    Follows limit s.onEquals r equalsChar rest r.onEquals := by
  rw [Splitter.onEquals, Reader.onEquals, m.argc]
  split
  · refine m.follows_cut (by decide) rfl rfl ?_
    rw [m.stat]
    rfl
  split
  · exact m.return_ 4
  · exact m.follows_add (by decide)

theorem Mirrors.onQuote (m : Mirrors limit s r front (quoteChar :: rest)) (plain : 0 ∉ quoteChar :: rest) :
    Follows limit s.onQuote r quoteChar rest (r.onQuote (decide (front.getLast? = some backslashChar))) := by
  have looked := m.lookBack
  rw [Splitter.onQuote, Reader.onQuote, m.escaped_eq]
  split
  next escape => exact looked.follows_shift plain escape
  dsimp only
  rw [looked.stat]
  dsimp only
  cases inQuote : r.inQuote <;> cases inArg : r.current.isSome
  · have outside := Option.isSome_eq_false_iff.mp inArg
    rw [Option.isNone_iff_eq_none] at outside
    have begun := @Mirrors.argument _ _ _ _ _ _ looked outside [quoteChar] [] true rfl (by decide) fun _ => by decide
    exact ⟨_, begun, getLast?_snoc _ _⟩
  · exact looked.follows_add (by decide)
  · exact looked.return_ 2
  · exact looked.follows_cut (by decide) rfl rfl rfl

theorem Mirrors.onSpace (m : Mirrors limit s r front (spaceChar :: rest)) (plain : 0 ∉ spaceChar :: rest) :
    Follows limit s.onSpace r spaceChar rest (r.onSpace (decide (front.getLast? = some backslashChar))) := by
  have looked := m.lookBack
  rw [Splitter.onSpace, Reader.onSpace, m.escaped_eq]
  split
  next escape => exact looked.follows_shift plain escape
  dsimp only
  rw [looked.stat]
  dsimp only
  split
  · exact looked.follows_cut (by decide) rfl rfl rfl
  · exact looked.follows_add (by decide)

theorem Mirrors.onComma (m : Mirrors limit s r front (commaChar :: rest)) :
    Follows limit s.onComma r commaChar rest r.onComma := by
  rw [Splitter.onComma, Reader.onComma, m.stat, m.argc]
  split
  · exact m.return_ 5
  split
  · exact m.follows_cut (by decide) rfl rfl rfl
  · exact m.follows_add (by decide)

theorem Mirrors.onOther (m : Mirrors limit s r front (char :: rest)) (plain : char ≠ 0) :
    Follows limit s.onOther r char rest (.ok (r.onOther char)) := by
  rw [Splitter.onOther, Reader.onOther, m.stat]
  dsimp only
  cases inArg : r.current.isSome with
  | true => exact m.follows_add plain
  | false =>
    have outside := Option.isSome_eq_false_iff.mp inArg
    rw [Option.isNone_iff_eq_none] at outside
    have begun := @Mirrors.argument _ _ _ _ _ _ m outside [] [char] r.inQuote rfl plain fun empty => by cases empty
    exact ⟨_, begun, getLast?_snoc _ _⟩

/-- A turn on a character of the line. -/
theorem Mirrors.turn (m : Mirrors limit s r front (char :: rest)) (plain : 0 ∉ char :: rest) :
    Follows limit s.turn r char rest (r.next (decide (front.getLast? = some backslashChar)) char) := by
  have known := m.char_eq
  have seen := @Mirrors.touch _ _ _ _ _ m [.read s.i] (List.forall_mem_singleton.mpr m.inside)
  have other : char ≠ 0 := (List.ne_of_not_mem_cons plain).symm
  rw [Splitter.turn, Reader.next]
  change Follows limit (if s.char = 0 then _ else if s.char = equalsChar then _ else if s.char = quoteChar then _
    else if s.char = spaceChar then _ else if s.char = commaChar then _ else _) _ _ _ _
  rw [known, if_neg other]
  by_cases equals : char = equalsChar
  · subst equals
    exact seen.onEquals
  by_cases quote : char = quoteChar
  · subst quote
    exact seen.onQuote plain
  by_cases space : char = spaceChar
  · subst space
    exact seen.onSpace plain
  by_cases comma : char = commaChar
  · subst comma
    exact seen.onComma
  rw [if_neg equals, if_neg quote, if_neg space, if_neg comma, if_neg equals, if_neg quote, if_neg space, if_neg comma]
  exact seen.onOther other

/-! ## The whole line -/

/-- The whole line was read; its arguments lie in the part of the buffer that the line had. -/
structure Finished (limit : Nat) (s : Splitter) (r : Reader) : Prop where
  returned : s.returned = none
  inQuote : s.stat.inQuote = false
  argc : s.argc = r.arguments.length
  accesses : ∀ access ∈ s.accesses, access.Within limit
  stores : s.stores = List.range r.arguments.length
  laid : ∃ offsets used junk, Laid offsets r.arguments used ∧ used.length ≤ limit + 1 ∧ s.inbuf = used ++ junk ∧
    s.argv = fun k => offsets[k]?

/-- What the splitter has come to when the reader stops. -/
def Ended (limit : Nat) (s : Splitter) (r : Reader) : Option Int → Prop
  | some code => Stopped limit s r code
  | none => Finished limit s r

theorem laid_end {argv : Nat → Option Nat} (placed : Placed argv r front) :
    ∃ offsets, Laid offsets r.arguments (front ++ [0]) ∧ argv = fun k => offsets[k]? := by
  have closed := @placed_close _ r _ r.close placed rfl rfl
  exact closed

theorem Mirrors.turn_end (m : Mirrors limit s r front []) :
    Ended limit s.turn r (if r.inQuote ∨ r.limQ ∨ r.isD = 1 then some 2 else none) ∧
      (s.turn.returned.isSome ∨ s.turn.stat.done) := by
  obtain ⟨junk, inbuf⟩ := m.inbuf
  have known : s.char = 0 := by
    rw [Splitter.char, inbuf, m.i, List.getD_append_right _ _ _ _ (Nat.le_refl _), Nat.sub_self]
    rfl
  have seen := @Mirrors.touch _ _ _ _ _ m [.read s.i] (List.forall_mem_singleton.mpr m.inside)
  have last : s.turn = (s.touch [.read s.i]).onNul := if_pos known
  rw [last, Splitter.onNul, seen.stat]
  split
  next bad => exact ⟨seen.return_ 2, Or.inl rfl⟩
  next ok =>
    refine ⟨⟨seen.returned, ?_, seen.argc, seen.accesses, ?_, ?_⟩, Or.inr rfl⟩
    · cases inQuote : r.inQuote with
      | false => rfl
      | true => exact absurd (Or.inl inQuote) ok
    · rw [← seen.argc]
      exact seen.stores
    · obtain ⟨offsets, laid, same⟩ := laid_end seen.placed
      refine ⟨offsets, front ++ [0], junk, laid, ?_, ?_, same⟩
      · have room := m.room
        rw [List.length_nil] at room
        rw [List.length_append, List.length_singleton]
        omega
      · rw [List.append_assoc]
        exact inbuf

/-- With fuel for the whole line the splitter ends as the reader does. -/
theorem Mirrors.scan (m : Mirrors limit s r front rest) (plain : 0 ∉ rest) (fits : limit < atsvrInputBuffMaxSize)
    {fuel : Nat} (enough : rest.length < fuel) :
    ∃ t, s.scan fuel = some t ∧
      Ended limit t (Reader.read (decide (front.getLast? = some backslashChar)) r rest).1
        (Reader.read (decide (front.getLast? = some backslashChar)) r rest).2 := by
  induction rest generalizing s r front fuel with
  | nil =>
    obtain ⟨fuel, rfl⟩ := Nat.exists_eq_succ_of_ne_zero (Nat.ne_of_gt (Nat.zero_lt_of_lt enough))
    obtain ⟨ended, stop⟩ := m.turn_end
    refine ⟨s.turn, ?_, ended⟩
    rw [Splitter.scan]
    exact if_pos stop
  | cons char rest ih =>
    obtain ⟨fuel, rfl⟩ := Nat.exists_eq_succ_of_ne_zero (Nat.ne_of_gt (Nat.zero_lt_of_lt enough))
    have follows := m.turn plain
    rw [Reader.read]
    cases next : r.next (decide (front.getLast? = some backslashChar)) char with
    | error code =>
      rw [next] at follows
      have stop : s.turn.returned.isSome ∨ s.turn.stat.done := Or.inl (by rw [follows.returned]; rfl)
      refine ⟨s.turn, ?_, follows⟩
      rw [Splitter.scan]
      exact if_pos stop
    | ok after =>
      rw [next] at follows
      obtain ⟨later, mirrors, escape⟩ := follows
      have go : ¬(s.turn.returned.isSome ∨ s.turn.stat.done) := by
        have returned : s.turn.returned = none := mirrors.returned
        have stat : s.turn.stat = _ := mirrors.stat
        rw [returned, stat]
        exact fun either => either.elim (fun never => nomatch never) fun never => nomatch never
      have inside : s.turn.i + 1 < atsvrInputBuffMaxSize := by
        have place : s.turn.i + 1 = later.length := mirrors.i
        have room := mirrors.room
        omega
      obtain ⟨t, scanned, ended⟩ := ih mirrors (List.not_mem_of_not_mem_cons plain) (Nat.lt_of_succ_lt_succ enough)
      refine ⟨t, ?_, ?_⟩
      · rw [Splitter.scan]
        exact (if_neg go).trans ((if_pos inside).trans scanned)
      · rwa [decide_eq_decide.mpr escape] at ended

theorem scan_line {line : List UInt8} (junk : List UInt8) (plain : 0 ∉ line) (fits : line.length < atsvrInputBuffMaxSize)
    {fuel : Nat} (enough : line.length < fuel) :
    ∃ t, (Splitter.start (line ++ 0 :: junk)).scan fuel = some t ∧
      Ended line.length t (Reader.read false Reader.start line).1 (Reader.read false Reader.start line).2 := by
  have mirrors : Mirrors line.length (Splitter.start (line ++ 0 :: junk)) Reader.start [] line :=
    { inbuf := ⟨junk, rfl⟩
      i := rfl
      room := by rw [List.length_nil, Nat.zero_add]
      stat := rfl
      returned := rfl
      argc := rfl
      placed := ⟨[], .none [], rfl⟩
      accesses := fun _ member => absurd member List.not_mem_nil
      stores := rfl }
  exact mirrors.scan plain fits enough

end BekenSdk.AtServer
