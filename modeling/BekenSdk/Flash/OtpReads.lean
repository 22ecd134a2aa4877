import BekenSdk.Flash.Driver
import BekenSdk.Flash.Writes

/-! What flash_read_otp returns. Within 256 registers the read is that of the linear area, as far as it
goes; behind them the register numbers start again.
-/

set_option autoImplicit false

namespace BekenSdk.Flash
open Base

/-- The registers that a chip has. -/
structure OtpArea where
  first : Nat
  count : Nat

def otpArea (flashId : UInt32) : Option OtpArea :=
  if isPuya flashId then some ⟨1, 3⟩ else if isGd flashId then some ⟨0, 2⟩ else none

/-- The area with its registers one after the other. -/
def OtpArea.cells (area : OtpArea) (registers : Registers) : Cells := fun a => registers (area.first + a / 1024) (a % 1024)

/-- How much of a read lies in the area. -/
def OtpArea.clip (area : OtpArea) (address len : Nat) : Nat := min len (1024 * area.count - address)

/-- The read is refused, or the buffer gets the bytes of the area, as far as it goes. -/
def OtpExact (flashId : UInt32) (registers : Registers) (param : OtpParam) (memory : Cells) (result : UInt32 × Cells) : Prop :=
  result = (0, memory) ∨
    ∃ area, otpArea flashId = some area ∧
      result = (UInt32.ofNat (area.clip param.addr.toNat param.len.toNat),
        storeBytes memory param.buf (readBytes (area.cells registers) param.addr.toNat (area.clip param.addr.toNat param.len.toNat)))

section
variable {flashId : UInt32} {registers : Registers} {area : OtpArea} {memory : Cells} {buffer : Nat} {address len : UInt32}

/-! ## A register -/

theorem optRounds_eq {register : Cells} {addr address : UInt32} {buffer len : Nat} {memory : Cells}
    (start : addr.toNat = address.toNat / 32 * 32) (inside : address.toNat + len ≤ 1024) :
    optRounds register addr address buffer len memory = storeBytes memory buffer (readBytes register address.toNat len) := by
  induction size : len using Nat.strong_induction_on generalizing addr address buffer memory len with
  | _ len' ih =>
    subst size
    have offset : (address % 32).toNat = address.toNat % 32 := UInt32.toNat_mod address 32
    rw [optRounds]
    split
    next none_left =>
      rw [none_left]
      exact (storeBytes_nil _ _).symm
    next some_left =>
      dsimp only
      rw [offset]
      generalize n_eq : min len (32 - address.toNat % 32) = n
      have page : (addr &&& 0x3FF).toNat = addr.toNat := by
        rw [UInt32.toNat_and]
        exact (Nat.and_two_pow_sub_one_eq_mod addr.toNat 10).trans (Nat.mod_eq_of_lt (by omega))
      have here : addr.toNat + address.toNat % 32 = address.toNat := by omega
      have part : ((readBytes register addr.toNat 32).drop (address.toNat % 32)).take n = readBytes register address.toNat n := by
        rw [readBytes_window register addr.toNat (by omega), here]
      have moved : (address + UInt32.ofNat n).toNat = address.toNat + n := by
        rw [UInt32.toNat_add, UInt32.toNat_ofNat_of_lt' (by rw [show UInt32.size = 2 ^ 32 from rfl]; omega)]
        omega
      rw [page, part]
      by_cases more : n < len
      · have next : (addr + 32).toNat = (address + UInt32.ofNat n).toNat / 32 * 32 := by
          rw [moved, UInt32.toNat_add, show (32 : UInt32).toNat = 32 from rfl]
          omega
        have total : len = n + (len - n) := by omega
        rw [ih (len - n) (by omega) next (by rw [moved]; omega) rfl, moved]
        conv_rhs => rw [total, readBytes_add, storeBytes_append, readBytes_length]
      · have all : n = len := by omega
        rw [all, Nat.sub_self, optRounds, if_pos rfl]

/-- The numbers that the chip takes are those of its registers. -/
theorem flashReadOptData_eq (known : otpArea flashId = some area) {group : UInt8} (low : area.first ≤ group.toNat)
    (high : group.toNat < area.first + area.count) (there : buffer ≠ 0) (some_bytes : len ≠ 0) (inside : address.toNat + len.toNat ≤ 1024) :
    flashReadOptData flashId registers group buffer address len memory =
      ((len.toNat : Int), storeBytes memory buffer (readBytes (registers group.toNat) address.toNat len.toNat)) := by
  have positive : 0 < len.toNat := Nat.pos_of_ne_zero fun none => some_bytes (UInt32.toNat_inj.mp none)
  have short : ¬address ≥ 1024 := by
    rw [ge_iff_le, UInt32.le_iff_toNat_le, show (1024 : UInt32).toNat = 1024 from rfl]
    omega
  have whole : ¬address + len > 1024 := by
    rw [gt_iff_lt, UInt32.lt_iff_toNat_lt, UInt32.toNat_add, show (1024 : UInt32).toNat = 1024 from rfl]
    omega
  unfold flashReadOptData
  rw [if_neg some_bytes, if_neg short, if_neg there, if_neg whole]
  have read := @optRounds_eq (registers group.toNat) (pageOf address) address buffer len.toNat memory (pageOf_toNat address) inside
  unfold otpArea at known
  cases puya : isPuya flashId
  · cases gd : isGd flashId
    · rw [puya, gd] at known
      cases known
    · rw [puya, gd] at known
      obtain rfl := Option.some.inj known
      have most : ¬group > 1 := by
        rw [gt_iff_lt, UInt8.lt_iff_toNat_lt, show (1 : UInt8).toNat = 1 from rfl]
        dsimp only at high
        omega
      rw [if_neg fun both => Bool.false_ne_true both.1, if_neg fun all => most all.2.2, if_neg fun both => Bool.false_ne_true both.2.symm]
      exact Prod.ext rfl read
  · rw [puya] at known
    obtain rfl := Option.some.inj known
    have between : ¬(group < 1 ∨ group > 3) := by
      rw [gt_iff_lt, UInt8.lt_iff_toNat_lt, UInt8.lt_iff_toNat_lt, show (1 : UInt8).toNat = 1 from rfl, show (3 : UInt8).toNat = 3 from rfl]
      dsimp only at low high
      omega
    rw [if_neg fun both => between both.2, if_neg fun all => Bool.false_ne_true all.1.symm, if_neg fun both => Bool.false_ne_true both.1.symm]
    exact Prod.ext rfl read

/-! ## Registers -/

theorem readBytes_cells (registers : Registers) {x n : Nat} (inside : x % 1024 + n ≤ 1024) :
    readBytes (registers (area.first + x / 1024)) (x % 1024) n = readBytes (area.cells registers) x n := by
  induction n generalizing x with
  | zero => rfl
  | succ n ih =>
    rw [readBytes, readBytes]
    congr 1
    rcases Nat.eq_zero_or_pos n with rfl | more
    · rfl
    · have number : (x + 1) / 1024 = x / 1024 := by omega
      have offset : (x + 1) % 1024 = x % 1024 + 1 := by omega
      have later := ih (x := x + 1) (by omega)
      rw [number, offset] at later
      exact later

theorem area_small (known : otpArea flashId = some area) : area.first + area.count ≤ 4 := by
  unfold otpArea at known
  split at known
  · obtain rfl := Option.some.inj known
    exact Nat.le_refl 4
  · split at known
    · obtain rfl := Option.some.inj known
      exact Nat.le_succ_of_le (Nat.le_succ 2)
    · cases known

theorem readSlots_none (left : Nat) (slot : UInt8) (buf : Nat) (addr readLen : UInt32) :
    readSlots flashId registers left slot ⟨buf, addr, 0⟩ readLen memory = (readLen, memory) := by
  cases left with
  | zero => rfl
  | succ left => exact if_pos rfl

/-- From the register of this place in the area on. -/
theorem readSlots_eq (known : otpArea flashId = some area) {slot : UInt8} {param : OtpParam} {readLen : UInt32} {x left : Nat}
    (number : slot.toNat = area.first + x / 1024) (offset : param.addr.toNat % 1024 = x % 1024) (rounds : left = area.count - x / 1024)
    (there : param.buf ≠ 0) :
    readSlots flashId registers left slot param readLen memory =
      (readLen + UInt32.ofNat (area.clip x param.len.toNat),
        storeBytes memory param.buf (readBytes (area.cells registers) x (area.clip x param.len.toNat))) := by
  induction left generalizing slot param readLen x memory with
  | zero =>
    have none_left : area.clip x param.len.toNat = 0 := by
      unfold OtpArea.clip
      omega
    rw [none_left]
    unfold readSlots
    exact Prod.ext (UInt32.add_zero _).symm (storeBytes_nil _ _).symm
  | succ left ih =>
    unfold readSlots
    split
    next none_asked =>
      have none_left : area.clip x param.len.toNat = 0 := by
        rw [none_asked]
        exact Nat.zero_min _
      rw [none_left]
      exact Prod.ext (UInt32.add_zero _).symm (storeBytes_nil _ _).symm
    next some_asked =>
      dsimp only
      have few : area.first + area.count ≤ 4 := area_small known
      have page : (1024 : UInt32).toNat = 1024 := rfl
      have addr_eq : (param.addr % 1024).toNat = x % 1024 := (UInt32.toNat_mod _ _).trans offset
      have below : param.addr % 1024 ≤ 1024 := by
        rw [UInt32.le_iff_toNat_le, addr_eq, page]
        omega
      have slot_len : (1024 - param.addr % 1024).toNat = 1024 - x % 1024 := by
        rw [UInt32.toNat_sub_of_le _ _ below, addr_eq, page]
      obtain ⟨readSize, size_eq, size⟩ : ∃ readSize, (if param.len > 1024 - param.addr % 1024 then 1024 - param.addr % 1024 else param.len) = readSize ∧
          readSize.toNat = min param.len.toNat (1024 - x % 1024) := by
        refine ⟨_, rfl, ?_⟩
        split
        next more =>
          rw [gt_iff_lt, UInt32.lt_iff_toNat_lt, slot_len] at more
          rw [slot_len]
          omega
        next enough =>
          rw [gt_iff_lt, UInt32.lt_iff_toNat_lt, slot_len] at enough
          omega
      have asked : 0 < param.len.toNat := Nat.pos_of_ne_zero fun none => some_asked (UInt32.toNat_inj.mp none)
      have some_size : readSize ≠ 0 := by
        rintro rfl
        rw [show (0 : UInt32).toNat = 0 from rfl] at size
        omega
      have read := @flashReadOptData_eq flashId registers area memory param.buf (param.addr % 1024) readSize known slot (by omega) (by omega)
        there some_size (by omega)
      rw [size_eq, read, addr_eq, number, readBytes_cells registers (by omega)]
      dsimp only
      rw [if_pos (by omega)]
      by_cases more : 1024 - x % 1024 < param.len.toNat
      · have next_slot : (slot + 1).toNat = area.first + (x + readSize.toNat) / 1024 := by
          rw [UInt8.toNat_add, number, show (1 : UInt8).toNat = 1 from rfl]
          omega
        have next_addr : (param.addr + readSize).toNat % 1024 = (x + readSize.toNat) % 1024 := by
          rw [UInt32.toNat_add]
          omega
        have less : readSize ≤ param.len := by
          rw [UInt32.le_iff_toNat_le]
          omega
        have next_len : (param.len - readSize).toNat = param.len.toNat - readSize.toNat := UInt32.toNat_sub_of_le _ _ less
        have total : area.clip x param.len.toNat = readSize.toNat + area.clip (x + readSize.toNat) (param.len.toNat - readSize.toNat) := by
          unfold OtpArea.clip
          omega
        rw [ih next_slot next_addr (by omega) (by dsimp only; omega)]
        dsimp only
        rw [next_len, total, readBytes_add, storeBytes_append, readBytes_length, UInt32.ofNat_add, UInt32.ofNat_toNat, UInt32.add_assoc]
      · have all : readSize = param.len := by
          apply UInt32.toNat_inj.mp
          omega
        have total : area.clip x param.len.toNat = readSize.toNat := by
          unfold OtpArea.clip
          omega
        rw [total, all, UInt32.sub_self, readSlots_none, UInt32.ofNat_toNat]

/-! ## Result -/

/-- The address goes around the 256 registers to one that the chip has. -/
def Wraps (flashId : UInt32) (param : OtpParam) : Prop :=
  param.buf ≠ 0 ∧ param.len ≠ 0 ∧ 2 ^ 18 ≤ param.addr.toNat ∧
    ∃ area, otpArea flashId = some area ∧ param.addr.toNat / 1024 % 256 < area.count

/-- The number of the register, and how many are left, as they are first looked at. -/
theorem flashReadOtp_eq (known : otpArea flashId = some area) {param : OtpParam} (there : param.buf ≠ 0) :
    flashReadOtp flashId registers (some param) memory =
      if param.addr.toNat / 1024 % 256 < area.count then
        (UInt32.ofNat (area.clip (param.addr.toNat % 2 ^ 18) param.len.toNat),
          storeBytes memory param.buf
            (readBytes (area.cells registers) (param.addr.toNat % 2 ^ 18) (area.clip (param.addr.toNat % 2 ^ 18) param.len.toNat)))
      else (0, memory) := by
  have slot : (param.addr / 1024).toUInt8.toNat = param.addr.toNat / 1024 % 256 := by
    rw [UInt32.toNat_toUInt8, UInt32.toNat_div]
    rfl
  have quotient : param.addr.toNat % 2 ^ 18 / 1024 = param.addr.toNat / 1024 % 256 := by omega
  have offset : param.addr.toNat % 1024 = param.addr.toNat % 2 ^ 18 % 1024 := by omega
  have small := area_small known
  unfold flashReadOtp
  dsimp only
  rw [if_neg there]
  unfold otpArea at known
  cases puya : isPuya flashId
  · cases gd : isGd flashId
    · rw [puya, gd] at known
      cases known
    · have area_eq := known
      rw [puya, gd] at area_eq
      obtain rfl := Option.some.inj area_eq
      rw [if_neg Bool.false_ne_true, if_pos rfl]
      by_cases low : param.addr.toNat / 1024 % 256 < 2
      · rw [if_pos low, if_neg (by rw [gt_iff_lt, UInt8.lt_iff_toNat_lt, slot]; exact Nat.not_lt.mpr (Nat.le_of_lt_succ low)),
          readSlots_eq known (by rw [slot, quotient, Nat.zero_add]) offset (by rw [slot, quotient]) there, UInt32.zero_add]
      · rw [if_neg low, if_pos (by rw [gt_iff_lt, UInt8.lt_iff_toNat_lt, slot]; exact Nat.lt_of_succ_le (Nat.le_of_not_lt low))]
  · have area_eq := known
    rw [puya] at area_eq
    obtain rfl := Option.some.inj area_eq
    rw [if_pos rfl]
    by_cases low : param.addr.toNat / 1024 % 256 < 3
    · have next : ((param.addr / 1024).toUInt8 + 1).toNat = param.addr.toNat / 1024 % 256 + 1 := by
        rw [UInt8.toNat_add, slot, show (1 : UInt8).toNat = 1 from rfl]
        omega
      rw [if_pos low, if_neg (by rw [gt_iff_lt, UInt8.lt_iff_toNat_lt, slot]; exact Nat.not_lt.mpr (Nat.le_of_lt_succ low)),
        readSlots_eq known (by rw [next, quotient, Nat.add_comm]) offset (by rw [next, quotient]; dsimp only; omega) there, UInt32.zero_add]
    · rw [if_neg low, if_pos (by rw [gt_iff_lt, UInt8.lt_iff_toNat_lt, slot]; exact Nat.lt_of_succ_le (Nat.le_of_not_lt low))]

theorem refused {param : OtpParam} : OtpExact flashId registers param memory (0, memory) := .inl rfl

theorem otp_exact_iff (flashId : UInt32) (registers : Registers) (param : OtpParam) (memory : Cells) :
    OtpExact flashId registers param memory (flashReadOtp flashId registers (some param) memory) ↔ ¬Wraps flashId param := by
  by_cases there : param.buf = 0
  · have none_read : flashReadOtp flashId registers (some param) memory = (0, memory) := if_pos there
    rw [none_read]
    exact iff_of_true refused fun wraps => wraps.1 there
  rcases known : otpArea flashId with _ | area
  · have none_read : flashReadOtp flashId registers (some param) memory = (0, memory) := by
      unfold otpArea at known
      unfold flashReadOtp
      dsimp only
      rw [if_neg there]
      split at known
      · cases known
      next other =>
        rw [if_neg other]
        split at known
        · cases known
        next unknown => exact if_neg unknown
    rw [none_read]
    refine iff_of_true refused ?_
    rintro ⟨-, -, -, area, some_area, -⟩
    rw [known] at some_area
    cases some_area
  have few := area_small known
  rw [flashReadOtp_eq known there]
  by_cases low : param.addr.toNat / 1024 % 256 < area.count
  swap
  · rw [if_neg low]
    refine iff_of_true refused ?_
    rintro ⟨-, -, -, other, some_area, within⟩
    obtain rfl := Option.some.inj (known.symm.trans some_area)
    exact low within
  rw [if_pos low]
  by_cases near : param.addr.toNat < 2 ^ 18
  · rw [Nat.mod_eq_of_lt near]
    exact iff_of_true (.inr ⟨area, known, rfl⟩) fun wraps => absurd near (Nat.not_lt.mpr wraps.2.2.1)
  by_cases asked : param.len = 0
  · have none_left : area.clip (param.addr.toNat % 2 ^ 18) param.len.toNat = 0 := by
      rw [asked]
      exact Nat.zero_min _
    rw [none_left]
    have same : storeBytes memory param.buf (readBytes (area.cells registers) (param.addr.toNat % 2 ^ 18) 0) = memory := storeBytes_nil _ _
    rw [same]
    exact iff_of_true refused fun wraps => wraps.2.1 asked
  · have positive : 0 < param.len.toNat := Nat.pos_of_ne_zero fun none => asked (UInt32.toNat_inj.mp none)
    -- bytes of a register come for none of the area
    have some_read : UInt32.ofNat (area.clip (param.addr.toNat % 2 ^ 18) param.len.toNat) ≠ 0 := by
      intro none_read
      have number := congrArg UInt32.toNat none_read
      unfold OtpArea.clip at number
      rw [UInt32.toNat_ofNat_of_lt' (by rw [show UInt32.size = 2 ^ 32 from rfl]; omega), show (0 : UInt32).toNat = 0 from rfl] at number
      omega
    refine iff_of_false ?_ fun fine => fine ⟨there, asked, Nat.le_of_not_lt near, area, known, low⟩
    rintro (none_read | ⟨other, some_area, same⟩)
    · exact some_read (Prod.mk.inj none_read).1
    · obtain rfl := Option.some.inj (known.symm.trans some_area)
      have outside : area.clip param.addr.toNat param.len.toNat = 0 := by
        unfold OtpArea.clip
        omega
      rw [outside] at same
      exact some_read (Prod.mk.inj same).1

/-- The byte behind 256 registers is read from the first one. -/
theorem otp_wraps :
    ¬OtpExact 0xC86515 (fun group a => UInt8.ofNat (group + a)) ⟨0x1000, 0x40000, 1⟩ (fun _ => 0xEE)
      (flashReadOtp 0xC86515 (fun group a => UInt8.ofNat (group + a)) (some ⟨0x1000, 0x40000, 1⟩) (fun _ => 0xEE)) := by
  rw [@flashReadOtp_eq 0xC86515 _ ⟨0, 2⟩ _ rfl ⟨0x1000, 0x40000, 1⟩ (by decide)]
  rintro (none_read | ⟨area, some_area, same⟩)
  · exact absurd (Prod.mk.inj none_read).1 (by decide)
  · obtain rfl : (⟨0, 2⟩ : OtpArea) = area := Option.some.inj some_area
    exact absurd (Prod.mk.inj same).1 (by decide)

end

end BekenSdk.Flash
