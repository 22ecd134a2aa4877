import BekenSdk.PingPong.Buffer

/-! The frames go from the writer to the reader in order, each once. Frame `n` goes through slot `n % 2`; at any time at most two are
waiting, and a slot in which none waits is the writer's.
-/

set_option autoImplicit false

namespace BekenSdk.PingPong
open Base

/-- A frame waits in the slot. -/
structure Waits (frame : Frame) (buf : BuffStr) : Prop where
  readEnable : buf.readEnable = true
  writeEnable : buf.writeEnable = false
  stored : Stored frame buf

structure SameFlags (old new : BuffStr) : Prop where
  readEnable : new.readEnable = old.readEnable
  writeEnable : new.writeEnable = old.writeEnable

structure SameFrame (old new : BuffStr) : Prop where
  bytes : new.bytes = old.bytes
  actual : new.actual = old.actual

theorem Waits.kept {frame : Frame} {old new : BuffStr} (waits : Waits frame old) (flags : SameFlags old new)
    (same : SameFrame old new) : Waits frame new where
  readEnable := flags.readEnable.trans waits.readEnable
  writeEnable := flags.writeEnable.trans waits.writeEnable
  stored := ⟨same.bytes ▸ waits.stored.bytes, same.actual ▸ waits.stored.actual⟩

/-- Where the reader is, with how many frames are read and written. -/
def ReaderSound (read written : Nat) (buf : BuffStr) : Reader → Prop
  | .idle => True
  | .testing count => bufLen ≤ count.toNat
  | .copying len got => read < written ∧ len = bufLen ∧ got.length ≤ bufLen ∧ got = readBytes buf.bytes 0 got.length
  | .finishing got actual => read < written ∧ got = readBytes buf.bytes 0 bufLen ∧ actual = buf.actual

def WriterSound (read written : Nat) (buf : BuffStr) : Writer → Prop
  | .copying frame done => written < read + 2 ∧ ∀ k < done, buf.bytes k = frame.bufUser k
  | .finishing frame => written < read + 2 ∧ Stored frame buf
  | _ => True

theorem ReaderSound.mono {read written more : Nat} {buf after : BuffStr} {reader : Reader}
    (sound : ReaderSound read written buf reader) (later : written ≤ more) (same : SameFrame buf after) :
    ReaderSound read more after reader := by
  cases reader with
  | idle => trivial
  | testing count => exact sound
  | copying len got =>
    rw [ReaderSound, same.bytes]
    exact ⟨Nat.lt_of_lt_of_le sound.1 later, sound.2⟩
  | finishing got value =>
    rw [ReaderSound, same.bytes, same.actual]
    exact ⟨Nat.lt_of_lt_of_le sound.1 later, sound.2⟩

theorem WriterSound.mono {read more written : Nat} {buf after : BuffStr} {writer : Writer}
    (sound : WriterSound read written buf writer) (later : read ≤ more) (same : SameFrame buf after) :
    WriterSound more written after writer := by
  cases writer with
  | idle => trivial
  | testing frame => trivial
  | copying frame done =>
    rw [WriterSound, same.bytes]
    exact ⟨Nat.lt_of_lt_of_le sound.1 (Nat.add_le_add_right later 2), sound.2⟩
  | finishing frame =>
    refine ⟨Nat.lt_of_lt_of_le sound.1 (Nat.add_le_add_right later 2), ?_, ?_⟩
    · rw [same.bytes]
      exact sound.2.bytes
    · rw [same.actual]
      exact sound.2.actual

/-- The numbers of frames, the slots and the two parties. -/
structure Inv (s : PingpongBuffer) : Prop where
  few : s.delivered.length ≤ s.accepted.length ∧ s.accepted.length ≤ s.delivered.length + 2
  readAt : (if s.readSwitch then !s.currentRead else s.currentRead) = slotOf s.delivered.length
  writeAt : (if s.writeSwitch then !s.currentWrite else s.currentWrite) = slotOf s.accepted.length
  readSwitched : s.reader ≠ .idle → s.readSwitch = false
  writeSwitched : s.writer ≠ .idle → s.writeSwitch = false
  waiting : ∀ n frame, s.delivered.length ≤ n → s.accepted[n]? = some frame → Waits frame (s.buf (slotOf n))
  free : ∀ slot, (∀ n, s.delivered.length ≤ n → n < s.accepted.length → slotOf n ≠ slot) →
    (s.buf slot).readEnable = false ∧ (s.buf slot).writeEnable = true
  length : ∀ slot, (s.buf slot).length = bufLen
  offset : ∀ slot, (∀ got actual, s.reader ≠ .finishing got actual) ∨ slot ≠ s.currentRead → (s.buf slot).offset = 0
  reading : ReaderSound s.delivered.length s.accepted.length (s.buf s.currentRead) s.reader
  writing : WriterSound s.delivered.length s.accepted.length (s.buf s.currentWrite) s.writer
  inOrder : List.Forall₂ Agrees s.delivered (s.accepted.take s.delivered.length)

/-! ## Slots -/

theorem slotOf_succ (n : Nat) : slotOf (n + 1) = !slotOf n := Nat.bodd_succ n

theorem slotOf_succ_ne (n : Nat) : slotOf n ≠ slotOf (n + 1) := by
  rw [slotOf_succ]
  exact Bool.self_ne_not _

/-- What waits behind the first frame is in the other slot. -/
theorem slotOf_ne {n m : Nat} (less : n < m) (near : m < n + 2) : slotOf n ≠ slotOf m := by
  obtain rfl : m = n + 1 := by omega
  exact slotOf_succ_ne n

section
variable {s t : PingpongBuffer} {slot other : Bool} {changed : BuffStr → BuffStr}

theorem change_self : (s.change slot changed).buf slot = changed (s.buf slot) := Function.update_self _ _ _

theorem change_ne (apart : other ≠ slot) : (s.change slot changed).buf other = s.buf other := Function.update_of_ne apart _ _

/-- What holds of a slot with itself and with the changed one. -/
theorem change_each (related : BuffStr → BuffStr → Prop) (same : ∀ buf, related buf buf)
    (new : related (s.buf slot) (changed (s.buf slot))) : related (s.buf other) ((s.change slot changed).buf other) := by
  by_cases here : other = slot
  · rw [here, change_self]
    exact new
  · rw [change_ne here]
    exact same _

namespace Inv

theorem currentRead (inv : Inv s) (busy : s.reader ≠ .idle) : s.currentRead = slotOf s.delivered.length := by
  have at' := inv.readAt
  rw [inv.readSwitched busy] at at'
  exact at'

theorem currentWrite (inv : Inv s) (busy : s.writer ≠ .idle) : s.currentWrite = slotOf s.accepted.length := by
  have at' := inv.writeAt
  rw [inv.writeSwitched busy] at at'
  exact at'

/-- The first frame that waits, if one does. -/
theorem first (inv : Inv s) (more : s.delivered.length < s.accepted.length) :
    ∃ frame, s.accepted[s.delivered.length]? = some frame ∧ Waits frame (s.buf (slotOf s.delivered.length)) :=
  ⟨_, List.getElem?_eq_getElem more, inv.waiting _ _ (Nat.le_refl _) (List.getElem?_eq_getElem more)⟩

theorem handed (inv : Inv s) : Handed s where
  inOrder := inv.inOrder
  kept n frame behind found := ⟨(inv.waiting n frame behind found).readEnable, (inv.waiting n frame behind found).stored⟩
  served count testing more := by
    obtain ⟨frame, _, waits⟩ := inv.first more
    rw [inv.currentRead (by rw [testing]; simp)]
    exact waits.readEnable
  exclusive reads writes := by
    have readerBusy : s.reader ≠ .idle := by
      intro idle
      rw [idle] at reads
      exact reads
    have writerBusy : s.writer ≠ .idle := by
      intro idle
      rw [idle] at writes
      exact writes
    have more : s.delivered.length < s.accepted.length := by
      have reading := inv.reading
      cases shape : s.reader <;> rw [shape] at reading reads
      case copying => exact reading.1
      case finishing => exact reading.1
      all_goals cases reads
    have room : s.accepted.length < s.delivered.length + 2 := by
      have writing := inv.writing
      cases shape : s.writer <;> rw [shape] at writing writes
      case copying => exact writing.1
      case finishing => exact writing.1
      all_goals cases writes
    rw [inv.currentRead readerBusy, inv.currentWrite writerBusy]
    exact slotOf_ne more room

/-! ## The reader -/

theorem read (inv : Inv s) (idle : s.reader = .idle) {count : UInt32} (whole : bufLen ≤ count.toNat) :
    Inv { s with
      currentRead := if s.readSwitch then !s.currentRead else s.currentRead
      readSwitch := false
      reader := .testing count } :=
  { inv with
    readAt := inv.readAt
    readSwitched := fun _ => rfl
    offset := fun slot _ => inv.offset slot (Or.inl fun got actual finishing => by rw [idle] at finishing; cases finishing)
    reading := whole }

theorem readRefused (inv : Inv s) {count : UInt32} (testing : s.reader = .testing count) : Inv { s with reader := .idle } :=
  { inv with
    readSwitched := fun busy => absurd rfl busy
    offset := fun slot _ => inv.offset slot (Or.inl fun got actual finishing => by rw [testing] at finishing; cases finishing)
    reading := trivial }

theorem readStarts (inv : Inv s) {count : UInt32} (testing : s.reader = .testing count)
    (enabled : (s.buf s.currentRead).readEnable ≠ false) :
    Inv { s with
      reader := .copying (min count.toNat ((s.buf s.currentRead).length - (s.buf s.currentRead).offset)) [] } := by
  have busy : s.reader ≠ .idle := by rw [testing]; simp
  have zero : ∀ slot, (s.buf slot).offset = 0 :=
    fun slot => inv.offset slot (Or.inl fun got actual finishing => by rw [testing] at finishing; cases finishing)
  have whole : bufLen ≤ count.toNat := by
    have reading := inv.reading
    rw [testing] at reading
    exact reading
  have more : s.delivered.length < s.accepted.length := by
    by_contra none
    refine enabled (inv.free s.currentRead fun n behind before => ?_).1
    exact absurd (Nat.lt_of_le_of_lt behind before) none
  refine { inv with
    readSwitched := fun _ => inv.readSwitched busy
    offset := fun slot _ => zero slot
    reading := ⟨more, ?_, Nat.zero_le _, rfl⟩ }
  rw [inv.length, zero, Nat.sub_zero]
  exact Nat.min_eq_right whole

theorem readCopies (inv : Inv s) {len : Nat} {got : List UInt8} (copying : s.reader = .copying len got) (left : got.length < len) :
    Inv { s with reader := .copying len (got ++ [(s.buf s.currentRead).bytes got.length]) } := by
  have busy : s.reader ≠ .idle := by rw [copying]; simp
  have reading := inv.reading
  rw [copying] at reading
  obtain ⟨more, rfl, _, same⟩ := reading
  refine { inv with
    readSwitched := fun _ => inv.readSwitched busy
    offset := fun slot _ => inv.offset slot (Or.inl fun got actual finishing => by rw [copying] at finishing; cases finishing)
    reading := ⟨more, rfl, ?_, ?_⟩ }
  · rw [List.length_append]
    exact left
  · rw [List.length_append, List.length_singleton, readBytes_add, ← same, Nat.zero_add]
    rfl

theorem readEnds (inv : Inv s) {len : Nat} {got : List UInt8} (copying : s.reader = .copying len got) (none : ¬got.length < len) :
    Inv { s.change s.currentRead (BuffStr.advance len) with
      reader := .finishing got (s.buf s.currentRead).actual } := by
  have busy : s.reader ≠ .idle := by rw [copying]; simp
  have reading := inv.reading
  rw [copying] at reading
  obtain ⟨more, rfl, few, same⟩ := reading
  have all : got.length = bufLen := Nat.le_antisymm few (Nat.not_lt.1 none)
  have flags (slot : Bool) : SameFlags (s.buf slot) ((s.change s.currentRead (BuffStr.advance bufLen)).buf slot) :=
    change_each SameFlags (fun _ => ⟨rfl, rfl⟩) ⟨rfl, rfl⟩
  have frames (slot : Bool) : SameFrame (s.buf slot) ((s.change s.currentRead (BuffStr.advance bufLen)).buf slot) :=
    change_each SameFrame (fun _ => ⟨rfl, rfl⟩) ⟨rfl, rfl⟩
  refine { inv with
    readSwitched := fun _ => inv.readSwitched busy
    waiting := fun n frame behind found => ?_
    free := fun slot apart => ?_
    length := fun slot => ?_
    offset := fun slot either => ?_
    reading := ⟨more, ?_, ?_⟩
    writing := ?_ }
  · exact (inv.waiting n frame behind found).kept (flags _) (frames _)
  · have old := inv.free slot apart
    exact ⟨(flags slot).readEnable.trans old.1, (flags slot).writeEnable.trans old.2⟩
  · exact (change_each (fun old new => new.length = old.length) (fun _ => rfl) rfl).trans (inv.length slot)
  · have apart : slot ≠ s.currentRead := either.resolve_left fun never => never _ _ rfl
    exact (congrArg BuffStr.offset (change_ne apart)).trans (inv.offset slot (Or.inr apart))
  · have whole : got = readBytes (s.buf s.currentRead).bytes 0 bufLen := by
      rw [← all]
      exact same
    exact whole.trans (congrArg (readBytes · 0 bufLen) (frames _).bytes.symm)
  · exact (frames _).actual.symm
  · exact inv.writing.mono (Nat.le_refl _) (frames _)

/-- The read returns the frame that waits first. -/
theorem agrees (inv : Inv s) {got : List UInt8} {actual : UInt32} (finishing : s.reader = .finishing got actual) :
    ∃ frame, s.accepted[s.delivered.length]? = some frame ∧ Agrees ⟨got, actual⟩ frame := by
  have busy : s.reader ≠ .idle := by rw [finishing]; simp
  have reading := inv.reading
  rw [finishing] at reading
  obtain ⟨more, rfl, rfl⟩ := reading
  obtain ⟨frame, found, waits⟩ := inv.first more
  rw [← inv.currentRead busy] at waits
  refine ⟨frame, found, readBytes_length _ _ _, fun k less => ?_, waits.stored.actual⟩
  have inside : k < bufLen := Nat.lt_of_lt_of_le less (Nat.min_le_left _ _)
  rw [← waits.stored.bytes k less]
  exact (readBytes_getElem? _ _ inside).trans (by rw [Nat.zero_add])

theorem readFinishes (inv : Inv s) {got : List UInt8} {actual : UInt32} (finishing : s.reader = .finishing got actual) :
    Inv { s.change s.currentRead BuffStr.release with
      readSwitch := true
      reader := .idle
      delivered := s.delivered ++ [⟨got, actual⟩] } := by
  have busy : s.reader ≠ .idle := by rw [finishing]; simp
  have place := inv.currentRead busy
  have more : s.delivered.length < s.accepted.length := by
    have reading := inv.reading
    rw [finishing] at reading
    exact reading.1
  have near := inv.few.2
  have length : (s.delivered ++ [Delivery.mk got actual]).length = s.delivered.length + 1 := List.length_append
  refine
    { few := ?_, readAt := ?_, writeAt := inv.writeAt, readSwitched := fun busy => absurd rfl busy
      writeSwitched := inv.writeSwitched, waiting := fun n frame behind found => ?_, free := fun slot apart => ?_
      length := fun slot => ?_, offset := fun slot _ => ?_, reading := trivial, writing := ?_, inOrder := ?_ }
  · rw [length]
    exact ⟨more, Nat.le_trans near (Nat.le_succ _)⟩
  · rw [length, slotOf_succ, ← place]
    rfl
  · rw [length] at behind
    have inside : n < s.accepted.length := (List.getElem?_eq_some_iff.1 found).1
    have apart : slotOf n ≠ s.currentRead := place ▸ (slotOf_ne behind (by omega)).symm
    have waits := inv.waiting n frame (Nat.le_of_succ_le behind) found
    exact (change_ne apart).symm ▸ waits
  · by_cases here : slot = s.currentRead
    · rw [here, change_self]
      exact ⟨rfl, rfl⟩
    · rw [change_ne here]
      refine inv.free slot fun n behind before => ?_
      rcases Nat.eq_or_lt_of_le behind with rfl | later
      · exact fun same => here (same.symm.trans place.symm)
      · exact apart n (by rw [length]; exact later) before
  · exact (change_each (fun old new => new.length = old.length) (fun _ => rfl) rfl).trans (inv.length slot)
  · by_cases here : slot = s.currentRead
    · rw [here, change_self]
      rfl
    · exact (congrArg BuffStr.offset (change_ne here)).trans (inv.offset slot (Or.inr here))
  · rw [length]
    exact inv.writing.mono (Nat.le_succ _) (change_each SameFrame (fun _ => ⟨rfl, rfl⟩) ⟨rfl, rfl⟩)
  · obtain ⟨frame, found, agrees⟩ := inv.agrees finishing
    rw [length]
    change List.Forall₂ Agrees (s.delivered ++ [⟨got, actual⟩]) (s.accepted.take (s.delivered.length + 1))
    rw [List.take_add_one, found]
    exact List.rel_append inv.inOrder (List.Forall₂.cons agrees List.Forall₂.nil)

/-! ## The writer -/

theorem write (inv : Inv s) (frame : Frame) :
    Inv { s with
      currentWrite := if s.writeSwitch then !s.currentWrite else s.currentWrite
      writeSwitch := false
      writer := .testing frame } :=
  { inv with
    writeAt := inv.writeAt
    writeSwitched := fun _ => rfl
    writing := trivial }

theorem writeRefused (inv : Inv s) : Inv { s with writer := .idle } :=
  { inv with
    writeSwitched := fun busy => absurd rfl busy
    writing := trivial }

theorem writeStarts (inv : Inv s) {frame : Frame} (testing : s.writer = .testing frame)
    (enabled : (s.buf s.currentWrite).writeEnable ≠ false) : Inv { s with writer := .copying frame 0 } := by
  have busy : s.writer ≠ .idle := by rw [testing]; simp
  refine { inv with
    writeSwitched := fun _ => inv.writeSwitched busy
    writing := ⟨?_, fun k less => absurd less (Nat.not_lt_zero k)⟩ }
  -- with two frames waiting, the older one is in the writer's slot
  by_contra full
  have two : s.accepted.length = s.delivered.length + 2 := Nat.le_antisymm inv.few.2 (Nat.not_lt.1 full)
  obtain ⟨_, _, waits⟩ := inv.first (by omega)
  have place : s.currentWrite = slotOf s.delivered.length := by
    rw [inv.currentWrite busy, two, slotOf_succ, slotOf_succ, Bool.not_not]
  rw [place] at enabled
  exact enabled waits.writeEnable

/-- The writer's slot is not the reader's, if that one has something to read. -/
theorem writerApart (inv : Inv s) (busy : s.writer ≠ .idle) (room : s.accepted.length < s.delivered.length + 2) {n : Nat}
    (behind : s.delivered.length ≤ n) (before : n < s.accepted.length) : slotOf n ≠ s.currentWrite := by
  rw [inv.currentWrite busy]
  exact slotOf_ne before (by omega)

theorem readingKept (inv : Inv s) (busy : s.writer ≠ .idle) (room : s.accepted.length < s.delivered.length + 2) :
    ReaderSound s.delivered.length s.accepted.length ((s.change s.currentWrite changed).buf s.currentRead) s.reader := by
  have reading := inv.reading
  cases shape : s.reader with
  | idle => trivial
  | testing count =>
    rw [shape] at reading
    exact reading
  | copying len got =>
    rw [shape] at reading
    have apart := inv.writerApart busy room (Nat.le_refl _) reading.1
    rw [← inv.currentRead (by rw [shape]; simp)] at apart
    rw [change_ne apart]
    exact reading
  | finishing got actual =>
    rw [shape] at reading
    have apart := inv.writerApart busy room (Nat.le_refl _) reading.1
    rw [← inv.currentRead (by rw [shape]; simp)] at apart
    rw [change_ne apart]
    exact reading

/-- The writer works on its slot, and its flags stay. -/
theorem writes (inv : Inv s) (busy : s.writer ≠ .idle) (room : s.accepted.length < s.delivered.length + 2) {writer : Writer}
    (flags : ∀ buf, SameFlags buf (changed buf)) (shape : ∀ buf, (changed buf).length = buf.length ∧ (changed buf).offset = buf.offset)
    (writing : WriterSound s.delivered.length s.accepted.length (changed (s.buf s.currentWrite)) writer) :
    Inv { s.change s.currentWrite changed with writer := writer } :=
  { inv with
    writeSwitched := fun _ => inv.writeSwitched busy
    waiting := fun n frame behind found => by
      have before := (List.getElem?_eq_some_iff.1 found).1
      have waits := inv.waiting n frame behind found
      exact (change_ne (inv.writerApart busy room behind before)).symm ▸ waits
    free := fun slot apart => by
      have old := inv.free slot apart
      have same : SameFlags (s.buf slot) ((s.change s.currentWrite changed).buf slot) :=
        change_each SameFlags (fun _ => ⟨rfl, rfl⟩) (flags _)
      exact ⟨same.readEnable.trans old.1, same.writeEnable.trans old.2⟩
    length := fun slot =>
      (change_each (fun old new => new.length = old.length) (fun _ => rfl) (shape _).1).trans (inv.length slot)
    offset := fun slot either =>
      (change_each (fun old new => new.offset = old.offset) (fun _ => rfl) (shape _).2).trans (inv.offset slot either)
    reading := inv.readingKept busy room
    writing := by
      change WriterSound _ _ ((s.change s.currentWrite changed).buf s.currentWrite) writer
      rw [change_self]
      exact writing }

theorem writeFinishes (inv : Inv s) {frame : Frame} (finishing : s.writer = .finishing frame) :
    Inv { s.change s.currentWrite BuffStr.provide with
      writeSwitch := true
      writer := .idle
      accepted := s.accepted ++ [frame] } := by
  have busy : s.writer ≠ .idle := by rw [finishing]; simp
  have place := inv.currentWrite busy
  obtain ⟨room, stored⟩ : s.accepted.length < s.delivered.length + 2 ∧ Stored frame (s.buf s.currentWrite) := by
    have writing := inv.writing
    rw [finishing] at writing
    exact writing
  have few := inv.few.1
  have length : (s.accepted ++ [frame]).length = s.accepted.length + 1 := List.length_append
  refine
    { few := ?_, readAt := inv.readAt, writeAt := ?_, readSwitched := inv.readSwitched
      writeSwitched := fun busy => absurd rfl busy, waiting := fun n other behind found => ?_, free := fun slot apart => ?_
      length := fun slot => ?_, offset := fun slot either => ?_, reading := ?_, writing := trivial, inOrder := ?_ }
  · rw [length]
    exact ⟨Nat.le_succ_of_le few, room⟩
  · rw [length, slotOf_succ, ← place]
    rfl
  · change (s.accepted ++ [frame])[n]? = some other at found
    change Waits other ((s.change s.currentWrite BuffStr.provide).buf (slotOf n))
    rcases Nat.lt_trichotomy n s.accepted.length with before | rfl | beyond
    · rw [List.getElem?_append_left before] at found
      rw [change_ne (inv.writerApart busy room behind before)]
      exact inv.waiting n other behind found
    · rw [List.getElem?_concat_length] at found
      cases found
      rw [← place, change_self]
      exact ⟨rfl, rfl, stored.bytes, stored.actual⟩
    · rw [List.getElem?_eq_none (by rw [length]; exact beyond)] at found
      cases found
  · have apart' : slot ≠ s.currentWrite := by
      rw [place]
      exact (apart s.accepted.length few (by rw [length]; exact Nat.lt_succ_self _)).symm
    rw [change_ne apart']
    exact inv.free slot fun n behind before => apart n behind (by rw [length]; exact Nat.lt_succ_of_lt before)
  · exact (change_each (fun old new => new.length = old.length) (fun _ => rfl) rfl).trans (inv.length slot)
  · exact (change_each (fun old new => new.offset = old.offset) (fun _ => rfl) rfl).trans (inv.offset slot either)
  · rw [length]
    exact inv.reading.mono (Nat.le_succ _) (change_each SameFrame (fun _ => ⟨rfl, rfl⟩) ⟨rfl, rfl⟩)
  · change List.Forall₂ Agrees s.delivered ((s.accepted ++ [frame]).take s.delivered.length)
    rw [List.take_append_of_le_length few]
    exact inv.inOrder

/-! ## Runs -/

theorem stepReader (inv : Inv s) (taken : s.stepReader = some t) : Inv t := by
  unfold PingpongBuffer.stepReader at taken
  cases shape : s.reader <;> simp only [shape] at taken
  case idle => cases taken
  case testing count =>
    by_cases disabled : (s.buf s.currentRead).readEnable = false
    · rw [if_pos disabled] at taken
      cases taken
      exact inv.readRefused shape
    · rw [if_neg disabled] at taken
      cases taken
      exact inv.readStarts shape disabled
  case copying len got =>
    by_cases left : got.length < len
    · rw [if_pos left] at taken
      cases taken
      exact inv.readCopies shape left
    · rw [if_neg left] at taken
      cases taken
      exact inv.readEnds shape left
  case finishing got actual =>
    cases taken
    exact inv.readFinishes shape

theorem stepWriter (inv : Inv s) (taken : s.stepWriter = some t) : Inv t := by
  have writing := inv.writing
  unfold PingpongBuffer.stepWriter at taken
  cases shape : s.writer <;> simp only [shape] at taken <;> rw [shape] at writing
  case idle => cases taken
  case testing frame =>
    by_cases disabled : (s.buf s.currentWrite).writeEnable = false
    · rw [if_pos disabled] at taken
      cases taken
      exact inv.writeRefused
    · rw [if_neg disabled] at taken
      cases taken
      exact inv.writeStarts shape disabled
  case copying frame done =>
    have busy : s.writer ≠ .idle := by rw [shape]; simp
    by_cases left : done < frame.len
    · rw [if_pos left] at taken
      cases taken
      refine inv.writes busy writing.1 (fun _ => ⟨rfl, rfl⟩) (fun _ => ⟨rfl, rfl⟩) ⟨writing.1, fun k less => ?_⟩
      change Function.update (s.buf s.currentWrite).bytes done (frame.bufUser done) k = frame.bufUser k
      rcases Nat.lt_or_eq_of_le (Nat.le_of_lt_succ less) with before | rfl
      · rw [Function.update_of_ne (Nat.ne_of_lt before)]
        exact writing.2 k before
      · exact Function.update_self _ _ _
    · rw [if_neg left] at taken
      cases taken
      refine inv.writes busy writing.1 (fun _ => ⟨rfl, rfl⟩) (fun _ => ⟨rfl, rfl⟩) ⟨writing.1, fun k less => ?_, rfl⟩
      exact writing.2 k (Nat.lt_of_lt_of_le less (Nat.not_lt.1 left))
  case finishing frame =>
    cases taken
    exact inv.writeFinishes shape

theorem step (inv : Inv s) {event : Event} (whole : WholeRead event) (taken : PingPong.step event s = some t) : Inv t := by
  unfold PingPong.step at taken
  split at taken
  case h_1 count idle =>
    cases taken
    exact inv.read idle whole
  case h_2 frame idle =>
    cases taken
    exact inv.write frame
  case h_3 => exact inv.stepReader taken
  case h_4 => exact inv.stepWriter taken
  case h_5 => cases taken

end Inv

end

theorem pingpongInit_inv (memory : Bool → Cells) (actual : Bool → UInt32) : Inv (pingpongInit memory actual) where
  few := ⟨Nat.le_refl _, Nat.zero_le _⟩
  readAt := Nat.bodd_zero.symm
  writeAt := Nat.bodd_zero.symm
  readSwitched _ := rfl
  writeSwitched _ := rfl
  waiting n frame _ found := by
    rw [pingpongInit, List.getElem?_nil] at found
    cases found
  free _ _ := ⟨rfl, rfl⟩
  length _ := rfl
  offset _ _ := rfl
  reading := trivial
  writing := trivial
  inOrder := List.Forall₂.nil

/-- In every run in which each read asks for a whole slot, the frames are handed over at every moment. -/
theorem always_handed {memory : Bool → Cells} {actual : Bool → UInt32} {moments : List (Moment PingpongBuffer Event)}
    {final : PingpongBuffer} (run : Run (Machine.Step step) (pingpongInit memory actual) moments final)
    (whole : ∀ moment ∈ moments, WholeRead moment.event) : Machine.Always Handed moments final :=
  (@Machine.always_of_invariant _ _ _ _ _ _ Inv (fun _ => WholeRead) run (pingpongInit_inv memory actual)
    (fun inv whole taken => inv.step whole taken) whole).mono fun _ inv => inv.handed

/-- A frame of two bytes is written and read. -/
theorem short_frame_handed : ∃ moments final,
    Run (Machine.Step step) (pingpongInit (fun _ _ => 0) fun _ => 0) moments final ∧
      (final.delivered.length = 1 ∧ Machine.Always Handed moments final) := by
  obtain ⟨moments, final, run, _, whole, read⟩ := @Machine.run_of_fine _ _ step (pingpongInit (fun _ _ => 0) fun _ => 0)
    (fun _ => WholeRead) _
    (List.replicate 27 .reader ++ .read 24 :: List.replicate 5 .writer ++ [.write ⟨fun _ => 7, 2, 90⟩])
    (fun final => decide (final.delivered.length = 1)) (by decide)
  exact ⟨moments, final, run, of_decide_eq_true read, always_handed run whole⟩

end BekenSdk.PingPong
