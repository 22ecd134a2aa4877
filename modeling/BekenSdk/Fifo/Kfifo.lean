import BekenSdk.Base.Circular
import BekenSdk.Base.Queue

/-! The byte queue of `fifo.h`. Its counters run freely and wrap at 2^32; a counter is cut to the
size, a power of two, where it tells a place in the buffer.
-/

set_option autoImplicit false

namespace BekenSdk.Fifo
open Base

structure Kfifo where
  in_ : UInt32
  out : UInt32
  mask : UInt32
  size : UInt32
  buffer : Cells

namespace Kfifo

/-- `_min` -/
def smaller (x y : UInt32) : UInt32 := if x < y then x else y

def kfifoInit (buffer : Cells) (size : UInt32) : Kfifo where
  in_ := 0
  out := 0
  mask := size - 1
  size := size
  buffer := buffer

/-- How much was put in, and the queue with it. -/
def kfifoPut (fifo : Kfifo) (source : Cells) (len : UInt32) : UInt32 × Kfifo :=
  let len := smaller len (fifo.size - fifo.in_ + fifo.out)
  let place := fifo.in_ &&& (fifo.size - 1)
  let l := smaller len (fifo.size - place)
  -- up to the end of the buffer, then the rest at its beginning
  let buffer := storeBytes fifo.buffer place.toNat (readBytes source 0 l.toNat)
  let buffer := storeBytes buffer 0 (readBytes source l.toNat (len - l).toNat)
  (len, { fifo with in_ := fifo.in_ + len, buffer })

/-- How much was got, the buffer of the caller, and the queue without it. -/
def kfifoGet (fifo : Kfifo) (target : Cells) (len : UInt32) : UInt32 × Cells × Kfifo :=
  let len := smaller len (fifo.in_ - fifo.out)
  let place := fifo.out &&& (fifo.size - 1)
  let l := smaller len (fifo.size - place)
  let target := storeBytes target 0 (readBytes fifo.buffer place.toNat l.toNat)
  let target := storeBytes target l.toNat (readBytes fifo.buffer 0 (len - l).toNat)
  (len, target, { fifo with out := fifo.out + len })

def kfifoDataSize (fifo : Kfifo) : UInt32 := fifo.in_ - fifo.out

def kfifoUnused (fifo : Kfifo) : UInt32 := fifo.mask + 1 - (fifo.in_ - fifo.out)

def kfifoCopyOut (fifo : Kfifo) (dst : Cells) (len off : UInt32) : Cells :=
  let size := fifo.mask + 1
  let off := off &&& fifo.mask
  let l := smaller len (size - off)
  let dst := storeBytes dst 0 (readBytes fifo.buffer off.toNat l.toNat)
  storeBytes dst l.toNat (readBytes fifo.buffer 0 (len - l).toNat)

def kfifoOutPeek (fifo : Kfifo) (target : Cells) (len : UInt32) : UInt32 × Cells :=
  let l := fifo.in_ - fifo.out
  let len := if len > l then l else len
  (len, kfifoCopyOut fifo target len fifo.out)

/-! ## Shape -/

/-- What every operation keeps. -/
structure Shaped (fifo : Kfifo) : Prop where
  power : ∃ k, fifo.size.toNat = 2 ^ k
  mask : fifo.mask = fifo.size - 1
  fits : fifo.kfifoDataSize.toNat ≤ fifo.size.toNat

/-- The bytes that wait, the oldest first. -/
def content (fifo : Kfifo) : List UInt8 :=
  readRing fifo.buffer fifo.size.toNat fifo.out.toNat fifo.kfifoDataSize.toNat

variable {fifo : Kfifo} {source target : Cells} {len x y : UInt32}

@[simp] theorem content_length : fifo.content.length = fifo.kfifoDataSize.toNat := readRing_length

theorem smaller_toNat : (smaller x y).toNat = min x.toNat y.toNat := by
  unfold smaller
  split
  next less => exact (Nat.min_eq_left (UInt32.lt_iff_toNat_lt.1 less).le).symm
  next more => exact (Nat.min_eq_right (Nat.not_lt.1 (mt UInt32.lt_iff_toNat_lt.2 more))).symm

theorem Shaped.positive (shaped : fifo.Shaped) : 0 < fifo.size.toNat := by
  obtain ⟨k, power⟩ := shaped.power
  rw [power]
  exact Nat.two_pow_pos k

theorem Shaped.divides (shaped : fifo.Shaped) : fifo.size.toNat ∣ 4294967296 := by
  obtain ⟨k, power⟩ := shaped.power
  have small := fifo.size.toNat_lt
  rw [power] at small ⊢
  exact Nat.pow_dvd_pow 2 ((Nat.pow_lt_pow_iff_right (Nat.lt_succ_self 1)).1 small).le

/-- A counter that wraps keeps its place. -/
theorem Shaped.add_modEq (shaped : fifo.Shaped) : (x + y).toNat ≡ x.toNat + y.toNat [MOD fifo.size.toNat] := by
  rw [UInt32.toNat_add]
  exact (Nat.mod_modEq _ 4294967296).of_dvd shaped.divides

theorem Shaped.last (shaped : fifo.Shaped) : (fifo.size - 1).toNat = fifo.size.toNat - 1 :=
  UInt32.toNat_sub_of_le _ _ (UInt32.le_iff_toNat_le.2 shaped.positive)

theorem Shaped.place (shaped : fifo.Shaped) : (x &&& (fifo.size - 1)).toNat = x.toNat % fifo.size.toNat := by
  obtain ⟨k, power⟩ := shaped.power
  rw [UInt32.toNat_and, shaped.last, power, Nat.and_two_pow_sub_one_eq_mod]

theorem Shaped.place_le (shaped : fifo.Shaped) : (x &&& (fifo.size - 1)).toNat ≤ fifo.size.toNat := by
  rw [shaped.place]
  exact (Nat.mod_lt _ shaped.positive).le

/-- The length of the first copy. -/
theorem Shaped.first_copy (shaped : fifo.Shaped) :
    (smaller len (fifo.size - (x &&& (fifo.size - 1)))).toNat =
      min len.toNat (fifo.size.toNat - (x &&& (fifo.size - 1)).toNat) := by
  rw [smaller_toNat, UInt32.toNat_sub_of_le _ _ (UInt32.le_iff_toNat_le.2 shaped.place_le)]

theorem second_copy : (len - smaller len x).toNat = len.toNat - (smaller len x).toNat := by
  apply UInt32.toNat_sub_of_le
  rw [UInt32.le_iff_toNat_le, smaller_toNat]
  exact Nat.min_le_left _ _

/-- The place of the first free byte is behind the ones that wait. -/
theorem Shaped.behind (shaped : fifo.Shaped) :
    fifo.out.toNat + fifo.kfifoDataSize.toNat ≡ (fifo.in_ &&& (fifo.size - 1)).toNat [MOD fifo.size.toNat] := by
  have sum : fifo.out + fifo.kfifoDataSize = fifo.in_ := by
    rw [kfifoDataSize, UInt32.add_comm, UInt32.sub_add_cancel]
  rw [shaped.place]
  have step := @Shaped.add_modEq fifo fifo.out fifo.kfifoDataSize shaped
  rw [sum] at step
  exact step.symm.trans (Nat.mod_modEq _ _).symm

theorem Shaped.free (shaped : fifo.Shaped) :
    (fifo.size - fifo.in_ + fifo.out).toNat = fifo.size.toNat - fifo.kfifoDataSize.toNat := by
  have regrouped : fifo.size - fifo.in_ + fifo.out = fifo.size - fifo.kfifoDataSize := by
    have low := fifo.out.toNat_lt
    have high := fifo.in_.toNat_lt
    rw [kfifoDataSize, ← UInt32.toNat_inj]
    simp only [UInt32.toNat_sub, UInt32.toNat_add]
    omega
  rw [regrouped, UInt32.toNat_sub_of_le _ _ (UInt32.le_iff_toNat_le.2 shaped.fits)]

theorem Shaped.unused (shaped : fifo.Shaped) :
    fifo.kfifoUnused.toNat = fifo.size.toNat - fifo.kfifoDataSize.toNat := by
  rw [kfifoUnused, shaped.mask, UInt32.sub_add_cancel]
  exact UInt32.toNat_sub_of_le _ _ (UInt32.le_iff_toNat_le.2 shaped.fits)

/-! ## Operations -/

theorem Shaped.put_taken (shaped : fifo.Shaped) :
    (fifo.kfifoPut source len).1.toNat = min len.toNat (fifo.size.toNat - fifo.kfifoDataSize.toNat) := by
  rw [← shaped.free]
  exact smaller_toNat

theorem Shaped.put_buffer (shaped : fifo.Shaped) :
    (fifo.kfifoPut source len).2.buffer = storeRing fifo.buffer fifo.size.toNat
      (fifo.in_ &&& (fifo.size - 1)).toNat (readBytes source 0 (fifo.kfifoPut source len).1.toNat) := by
  simp only [kfifoPut]
  rw [second_copy, shaped.first_copy, ← storeRing_readBytes, Nat.zero_add]

theorem Shaped.put_dataSize (shaped : fifo.Shaped) :
    (fifo.kfifoPut source len).2.kfifoDataSize.toNat =
      fifo.kfifoDataSize.toNat + (fifo.kfifoPut source len).1.toNat := by
  have taken := @Shaped.put_taken fifo source len shaped
  have fits := shaped.fits
  have small := fifo.size.toNat_lt
  have sum : (fifo.kfifoPut source len).2.kfifoDataSize = fifo.kfifoDataSize + (fifo.kfifoPut source len).1 := by
    simp only [kfifoPut, kfifoDataSize]
    rw [← UInt32.toNat_inj]
    simp only [UInt32.toNat_sub, UInt32.toNat_add]
    omega
  rw [sum, UInt32.toNat_add, Nat.mod_eq_of_lt (by omega)]

theorem Shaped.put (shaped : fifo.Shaped) : (fifo.kfifoPut source len).2.Shaped := by
  refine ⟨shaped.power, shaped.mask, ?_⟩
  have taken := @Shaped.put_taken fifo source len shaped
  have fits := shaped.fits
  rw [shaped.put_dataSize]
  change _ ≤ fifo.size.toNat
  omega

theorem Shaped.put_content (shaped : fifo.Shaped) :
    (fifo.kfifoPut source len).2.content =
      fifo.content ++ readBytes source 0 (fifo.kfifoPut source len).1.toNat := by
  have taken := @Shaped.put_taken fifo source len shaped
  have fits := shaped.fits
  have stored := @readRing_storeRing fifo.buffer fifo.size.toNat _ (readBytes source 0 (fifo.kfifoPut source len).1.toNat)
    fifo.out.toNat fifo.kfifoDataSize.toNat shaped.place_le shaped.behind (by rw [readBytes_length]; omega)
  rw [content, shaped.put_buffer, shaped.put_dataSize]
  rwa [readBytes_length] at stored

theorem get_given : (fifo.kfifoGet target len).1.toNat = min len.toNat fifo.kfifoDataSize.toNat := smaller_toNat

theorem Shaped.get_target (shaped : fifo.Shaped) :
    (fifo.kfifoGet target len).2.1 =
      storeBytes target 0 (fifo.content.take len.toNat) := by
  have fits := shaped.fits
  have given := @get_given fifo target len
  simp only [kfifoGet] at given ⊢
  rw [second_copy, shaped.first_copy, storeBytes_readRing shaped.place_le (by omega), content, readRing_take, given,
    shaped.place, readRing_modEq (Nat.mod_modEq _ _)]

theorem get_dataSize : (fifo.kfifoGet target len).2.2.kfifoDataSize.toNat =
    fifo.kfifoDataSize.toNat - (fifo.kfifoGet target len).1.toNat := by
  have given := @get_given fifo target len
  have difference : (fifo.kfifoGet target len).2.2.kfifoDataSize = fifo.kfifoDataSize - (fifo.kfifoGet target len).1 := by
    have low := fifo.out.toNat_lt
    have high := fifo.in_.toNat_lt
    have step := (fifo.kfifoGet target len).1.toNat_lt
    simp only [kfifoGet, kfifoDataSize] at step ⊢
    rw [← UInt32.toNat_inj]
    simp only [UInt32.toNat_sub, UInt32.toNat_add]
    omega
  rw [difference, UInt32.toNat_sub_of_le]
  rw [UInt32.le_iff_toNat_le, given]
  exact Nat.min_le_right _ _

theorem Shaped.get (shaped : fifo.Shaped) : (fifo.kfifoGet target len).2.2.Shaped :=
  ⟨shaped.power, shaped.mask, get_dataSize.trans_le ((Nat.sub_le _ _).trans shaped.fits)⟩

theorem Shaped.get_content (shaped : fifo.Shaped) :
    (fifo.kfifoGet target len).2.2.content = fifo.content.drop len.toNat := by
  have given := @get_given fifo target len
  rcases Nat.le_total len.toNat fifo.kfifoDataSize.toNat with some | all
  · rw [content, content, readRing_drop some, get_dataSize, given, Nat.min_eq_left some]
    apply readRing_modEq
    have step := @Shaped.add_modEq fifo fifo.out (fifo.kfifoGet target len).1 shaped
    rwa [given, Nat.min_eq_left some] at step
  · rw [List.drop_of_length_le (content_length.trans_le all), ← List.length_eq_zero_iff, content_length, get_dataSize,
      given, Nat.min_eq_right all, Nat.sub_self]

/-- A look gives what getting would give. -/
theorem Shaped.peek_eq_get (shaped : fifo.Shaped) :
    fifo.kfifoOutPeek target len = ((fifo.kfifoGet target len).1, (fifo.kfifoGet target len).2.1) := by
  have same : (if len > fifo.in_ - fifo.out then fifo.in_ - fifo.out else len) = smaller len (fifo.in_ - fifo.out) := by
    rw [← UInt32.toNat_inj, smaller_toNat]
    split
    next more => exact (Nat.min_eq_right (UInt32.lt_iff_toNat_lt.1 more).le).symm
    next less => exact (Nat.min_eq_left (Nat.not_lt.1 (mt UInt32.lt_iff_toNat_lt.2 less))).symm
  simp only [kfifoOutPeek, kfifoGet, kfifoCopyOut, same, shaped.mask, UInt32.sub_add_cancel]

end Kfifo

/-! ## Refinement

Runs of calls of the queue of `fifo.h`. Whatever its counters are at first, it does what a
queue does that has room for `size` bytes.
-/

namespace Kfifo
open Base

/-- A call with the bytes that it took, or left in the buffer of the caller. -/
inductive Called (fifo : Kfifo) : Queue.Call UInt8 → Kfifo → Prop where
  | put (source : Cells) (len : UInt32) :
    Called fifo (.put len.toNat (readBytes source 0 (fifo.kfifoPut source len).1.toNat)) (fifo.kfifoPut source len).2
  | get (target : Cells) (len : UInt32) :
    Called fifo (.get len.toNat (readBytes (fifo.kfifoGet target len).2.1 0 (fifo.kfifoGet target len).1.toNat))
      (fifo.kfifoGet target len).2.2
  | peek (target : Cells) (len : UInt32) :
    Called fifo (.peek len.toNat (readBytes (fifo.kfifoOutPeek target len).2 0 (fifo.kfifoOutPeek target len).1.toNat))
      fifo

/-- What a queue of that size takes of an offer. -/
def Room (size used offered taken : Nat) : Prop := taken = min offered (size - used)

variable {fifo start final next : Kfifo} {calls : List (Queue.Call UInt8)} {call : Queue.Call UInt8}
  {target : Cells} {len : UInt32}

theorem Shaped.get_bytes (shaped : fifo.Shaped) :
    readBytes (fifo.kfifoGet target len).2.1 0 (fifo.kfifoGet target len).1.toNat = fifo.content.take len.toNat := by
  rw [shaped.get_target]
  apply (holds_storeBytes _ _ _).read_of_length
  rw [List.length_take, content_length, get_given]

theorem Shaped.called (shaped : fifo.Shaped) (called : fifo.Called call next) :
    next.Shaped ∧ next.size = fifo.size ∧ Queue.Step (Room fifo.size.toNat) fifo.content call next.content := by
  cases called with
  | put source len =>
    refine ⟨shaped.put, rfl, ?_, shaped.put_content⟩
    rw [readBytes_length, shaped.put_taken, content_length, Room]
  | get target len => exact ⟨shaped.get, rfl, shaped.get_bytes, shaped.get_content⟩
  | peek target len =>
    refine ⟨shaped, rfl, ?_, rfl⟩
    rw [shaped.peek_eq_get]
    exact shaped.get_bytes

theorem Shaped.run (shaped : start.Shaped) (run : Run Called start calls final) :
    final.Shaped ∧ final.size = start.size ∧
      Run (Queue.Step (Room start.size.toNat)) start.content calls final.content := by
  induction run with
  | nil => exact ⟨shaped, rfl, .nil⟩
  | next _ last ih =>
    obtain ⟨before, size, refined⟩ := ih
    obtain ⟨after, same, step⟩ := before.called last
    rw [size] at step
    exact ⟨after, same.trans size, .next refined step⟩

/-! ## Results -/

/-- The calls are those of a bounded queue, and what was put in comes out in order. -/
theorem kfifo_refines_fifo (power : ∃ k, start.size.toNat = 2 ^ k) (mask : start.mask = start.size - 1)
    (empty : start.in_ = start.out) (run : Run Called start calls final) :
    Run (Queue.Step (Room start.size.toNat)) [] calls final.content ∧
      Queue.taken calls = Queue.given calls ++ final.content ∧
      final.kfifoDataSize.toNat = final.content.length ∧
      final.kfifoUnused.toNat = start.size.toNat - final.content.length ∧
      ∀ target len, final.kfifoOutPeek target len = ((final.kfifoGet target len).1, (final.kfifoGet target len).2.1) := by
  have nothing : start.kfifoDataSize.toNat = 0 := by
    rw [kfifoDataSize, empty, UInt32.sub_self]
    rfl
  have shaped : start.Shaped := ⟨power, mask, nothing.trans_le (Nat.zero_le _)⟩
  have start_content : start.content = [] := List.length_eq_zero_iff.1 (content_length.trans nothing)
  obtain ⟨after, size, refined⟩ := shaped.run run
  rw [start_content] at refined
  refine ⟨refined, (Queue.conserved refined), content_length.symm, ?_, fun target len => after.peek_eq_get⟩
  rw [after.unused, size, content_length]

/-- The counters of a queue for four bytes are about to wrap. -/
def aboutToWrap : Kfifo := { kfifoInit (fun _ => 0) 4 with in_ := 4294967294, out := 4294967294 }

theorem wrapping_refines :
    ∃ calls final, Run Called aboutToWrap calls final ∧ calls.length = 3 ∧ final.in_ = 1 ∧
      Run (Queue.Step (Room 4)) [] calls final.content := by
  have run : Run Called aboutToWrap _ _ :=
    .next (.next (.next .nil (.put (fun i => i.toUInt8) 3)) (.peek (fun _ => 0) 5)) (.get (fun _ => 0) 2)
  exact ⟨_, _, run, rfl, by decide, (kfifo_refines_fifo ⟨2, rfl⟩ rfl rfl run).1⟩

end Kfifo

end BekenSdk.Fifo
