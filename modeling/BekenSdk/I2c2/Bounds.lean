import BekenSdk.Base.Machine
import BekenSdk.I2c2.Interrupts

/-! I2C2 transfers stay in their buffer. -/

set_option autoImplicit false

namespace BekenSdk.I2c2

open BekenSdk.Base

/-! ## Bytes that are moved -/

namespace Transfer
variable {t : Transfer} {data : Nat → UInt8} {mode : WorkMode} {n : Nat}

/-- What is left of a transfer. -/
def rest (t : Transfer) : Nat := t.allDataNum.toNat - t.currentNum.toNat

theorem currentNum_succ (more : t.currentNum.toNat < t.allDataNum.toNat) :
    (t.currentNum + 1).toNat = t.currentNum.toNat + 1 := by
  have bound := t.allDataNum.toNat_lt
  rw [UInt32.toNat_add, UInt32.toNat_one]
  exact Nat.mod_eq_of_lt (by omega)

/-- The first byte of a burst goes to the current place. -/
theorem storeBurst_first : t.currentNum.toNat ∈ (t.storeBurst data (n + 1)).accessed := by
  induction n with
  | zero => exact List.mem_cons_self
  | succ n ih => exact List.mem_cons_of_mem _ ih

theorem storeBurst_kept : (t.storeBurst data n).allDataNum = t.allDataNum ∧ (t.storeBurst data n).completed = t.completed := by
  induction n with
  | zero => exact ⟨rfl, rfl⟩
  | succ n ih => exact ih

end Transfer

/-- A number of bytes that a work mode moves at once. -/
def Moves (mode : WorkMode) (n : Nat) : Prop := mode = .masterRead ∨ mode = .slaveRead ∨ n ≤ 1

/-- Bytes that fit are moved at the next places of the buffer, and a reader has what it received there. -/
structure Moved (mode : WorkMode) (n : Nat) (t after : Transfer) : Prop where
  allDataNum : after.allDataNum = t.allDataNum
  currentNum : after.currentNum.toNat = t.currentNum.toNat + n
  accessed : ∀ i ∈ after.accessed, i ∈ t.accessed ∨ i < t.currentNum.toNat + n
  completed : after.completed = t.completed
  posted : after.posted = t.posted
  received : mode = .masterRead ∨ mode = .slaveRead → t.received.reverse = (List.range t.currentNum.toNat).map t.pData →
    after.received.reverse = (List.range (t.currentNum.toNat + n)).map after.pData

theorem moved_zero {mode : WorkMode} {t : Transfer} : Moved mode 0 t t :=
  ⟨rfl, rfl, fun _ member => .inl member, rfl, rfl, fun _ stored => stored⟩

theorem storeBurst_moved {t : Transfer} {data : Nat → UInt8} {mode : WorkMode} {n : Nat}
    (fits : t.currentNum.toNat + n ≤ t.allDataNum.toNat) : Moved mode n t (t.storeBurst data n) := by
  induction n with
  | zero => exact moved_zero
  | succ n ih =>
    have before := ih (by omega)
    have place : ((t.storeBurst data n).currentNum + 1).toNat = (t.storeBurst data n).currentNum.toNat + 1 :=
      Transfer.currentNum_succ (by rw [before.allDataNum, before.currentNum]; omega)
    constructor
    · exact before.allDataNum
    · show ((t.storeBurst data n).currentNum + 1).toNat = _
      rw [place, before.currentNum, Nat.add_assoc]
    · intro i member
      obtain rfl | member := List.mem_cons.mp member
      · exact .inr (by rw [before.currentNum]; omega)
      · exact (before.accessed i member).imp_right fun below => by omega
    · exact before.completed
    · exact before.posted
    · intro reading stored
      show (data n :: (t.storeBurst data n).received).reverse = _
      rw [List.reverse_cons, before.received reading stored, ← Nat.add_assoc, List.range_succ, List.map_append]
      congr 1
      · apply List.map_congr_left
        intro i below
        rw [List.mem_range, ← before.currentNum] at below
        exact (if_neg (Nat.ne_of_lt below)).symm
      · rw [List.map_singleton]
        exact congrArg (fun byte => [byte]) (if_pos before.currentNum.symm).symm

theorem fetched_moved {t : Transfer} {mode : WorkMode} (fits : t.currentNum.toNat + 1 ≤ t.allDataNum.toNat)
    (writing : ¬(mode = .masterRead ∨ mode = .slaveRead)) : Moved mode 1 t t.fetched where
  allDataNum := rfl
  currentNum := Transfer.currentNum_succ fits
  accessed i member := by
    obtain rfl | member := List.mem_cons.mp member
    · exact .inr (Nat.lt_succ_self _)
    · exact .inl member
  completed := rfl
  posted := rfl
  received reading := absurd reading writing

theorem moveBytes_moved {t : Transfer} {data : Nat → UInt8} {mode : WorkMode} {n : Nat}
    (fits : t.currentNum.toNat + n ≤ t.allDataNum.toNat) (moves : Moves mode n) : Moved mode n t (moveBytes mode data n t) := by
  have single : ¬(mode = .masterRead ∨ mode = .slaveRead) → Moved mode n t (if n = 0 then t else t.fetched) := by
    intro writing
    split
    next none =>
      subst none
      exact moved_zero
    next some' =>
      obtain rfl : n = 1 := by
        have one := moves.resolve_left (fun same => writing (.inl same)) |>.resolve_left fun same => writing (.inr same)
        omega
      exact fetched_moved fits writing
  cases mode
  case masterRead => exact storeBurst_moved fits
  case slaveRead => exact storeBurst_moved fits
  case masterWrite => exact single (by decide)
  case slaveWrite => exact single (by decide)

/-- The first byte is at the current place. -/
theorem moveBytes_first {t : Transfer} {data : Nat → UInt8} {mode : WorkMode} {n : Nat} (some' : n ≠ 0) :
    t.currentNum.toNat ∈ (moveBytes mode data n t).accessed := by
  have stored : t.currentNum.toNat ∈ (t.storeBurst data n).accessed := by
    obtain ⟨n, rfl⟩ := Nat.exists_eq_succ_of_ne_zero some'
    exact Transfer.storeBurst_first
  have fetched : t.currentNum.toNat ∈ (if n = 0 then t else t.fetched).accessed := by
    rw [if_neg some']
    exact List.mem_cons_self
  cases mode
  case masterRead => exact stored
  case slaveRead => exact stored
  case masterWrite => exact fetched
  case slaveWrite => exact fetched

theorem moveBytes_kept {t : Transfer} {data : Nat → UInt8} {mode : WorkMode} {n : Nat} :
    (moveBytes mode data n t).allDataNum = t.allDataNum ∧ (moveBytes mode data n t).completed = t.completed := by
  have fetched : (if n = 0 then t else t.fetched).allDataNum = t.allDataNum ∧
      (if n = 0 then t else t.fetched).completed = t.completed := by
    split <;> exact ⟨rfl, rfl⟩
  cases mode
  case masterRead => exact Transfer.storeBurst_kept
  case slaveRead => exact Transfer.storeBurst_kept
  case masterWrite => exact fetched
  case slaveWrite => exact fetched

/-! ## The 16-bit rest -/

/-- The rest that the interrupt computes is the true one modulo 65536. -/
theorem remain_toNat {t : Transfer} {n : Nat} (bound : t.currentNum.toNat ≤ t.allDataNum.toNat) (fits : n ≤ t.rest)
    (small : n ≤ 12) : (t.remainDataCnt - UInt16.ofNat n).toNat = (t.rest - n) % 65536 := by
  have left : (t.allDataNum - t.currentNum).toNat = t.rest := UInt32.toNat_sub_of_le _ _ bound
  have num : (UInt16.ofNat n).toNat = n := UInt16.toNat_ofNat_of_lt' (Nat.lt_of_le_of_lt small (by decide))
  have size := t.allDataNum.toNat_lt
  rw [UInt16.toNat_sub, num, Transfer.remainDataCnt, UInt32.toNat_toUInt16, left]
  omega

/-! ## The invariant -/

def State.mode (s : State) : WorkMode := workMode s.msg.wkMode

def State.Reading (s : State) : Prop := s.mode = .masterRead ∨ s.mode = .slaveRead

/-- What the transfers of a call are to be: every access is in the buffer, the transfer is completed at most once, and when
a master's read is completed the buffer holds the bytes that were received first. -/
structure Confined (s : State) : Prop where
  inside : ∀ i ∈ s.transfer.accessed, i < s.transfer.allDataNum.toNat
  once : s.transfer.completed ≤ 1 ∧ s.transfer.posted ≤ 1
  stored : s.mode = .masterRead → 0 < s.transfer.completed →
    s.transfer.received.reverse.take s.transfer.allDataNum.toNat =
      (List.range s.transfer.allDataNum.toNat).map s.transfer.pData

structure Inv (s : State) : Prop where
  bound : s.transfer.currentNum.toNat ≤ s.transfer.allDataNum.toNat
  inside : ∀ i ∈ s.transfer.accessed, i < s.transfer.allDataNum.toNat
  once : s.transfer.completed ≤ 1
  posted : s.transfer.posted ≤ s.transfer.completed
  fits : s.Reading → 0 < s.transfer.rest → dataNum s.sta ≤ s.transfer.rest
  stored : s.Reading → s.transfer.received.reverse = (List.range s.transfer.currentNum.toNat).map s.transfer.pData
  done : s.mode = .masterRead → 0 < s.transfer.completed → s.transfer.rest = 0

theorem Inv.confined {s : State} (inv : Inv s) : Confined s where
  inside := inv.inside
  once := ⟨inv.once, Nat.le_trans inv.posted inv.once⟩
  stored reading completed := by
    have bound := inv.bound
    have full : s.transfer.currentNum.toNat = s.transfer.allDataNum.toNat := by
      have done := inv.done reading completed
      unfold Transfer.rest at done
      omega
    have length : ((List.range s.transfer.allDataNum.toNat).map s.transfer.pData).length = s.transfer.allDataNum.toNat := by
      rw [List.length_map, List.length_range]
    rw [inv.stored (.inl reading), full]
    exact List.take_of_length_le (Nat.le_of_eq length)

/-! ## One interrupt -/

/-- The bytes that an interrupt moves in the work mode of the call. -/
def State.moves (s : State) (e : Interrupt) : Nat := moved s (s.first e) (s.present e.again) s.mode

def State.Ends (s : State) (e : Interrupt) : Prop := ends s (s.first e) (s.present e.again) s.mode

/-- An interrupt that moves bytes comes while there are some left, one that ends the transfer when none has before, and
when the last bytes of a master's read are moved none are left beyond the 16 bits. -/
structure Timely (s : State) (e : Interrupt) : Prop where
  moves : s.moves e ≠ 0 → 0 < s.transfer.rest
  ends : s.Ends e → s.transfer.completed = 0
  whole : s.mode = .masterRead → lastBytes s (s.moves e) → s.transfer.rest < 65536

instance (s : State) (e : Interrupt) : Decidable (s.Ends e) := inferInstanceAs (Decidable (ends _ _ _ _))

instance (s : State) (e : Interrupt) : Decidable (Timely s e) :=
  decidable_of_iff ((s.moves e ≠ 0 → 0 < s.transfer.rest) ∧ (s.Ends e → s.transfer.completed = 0) ∧
    (s.mode = .masterRead → lastBytes s (s.moves e) → s.transfer.rest < 65536))
    ⟨fun all => ⟨all.1, all.2.1, all.2.2⟩, fun timely => ⟨timely.moves, timely.ends, timely.whole⟩⟩

theorem reading_moves {s : State} (e : Interrupt) (reading : s.Reading) : s.moves e = 0 ∨ s.moves e = dataNum s.sta := by
  have num : dataNum (s.first e) = dataNum s.sta := present_dataNum s e.status
  unfold State.moves
  obtain mode | mode := reading <;> rw [mode, moved, num] <;> split
  · exact .inr rfl
  · exact .inl rfl
  · exact .inr rfl
  · exact .inl rfl

theorem moves_one {s : State} (e : Interrupt) (writing : ¬s.Reading) : s.moves e ≤ 1 := by
  unfold State.moves
  cases mode : s.mode
  case masterRead => exact absurd (.inl mode) writing
  case slaveRead => exact absurd (.inr mode) writing
  case masterWrite =>
    rw [moved]
    split <;> decide
  case slaveWrite =>
    rw [moved]
    split <;> decide

theorem moves_allowed {s : State} (e : Interrupt) : Moves s.mode (s.moves e) := by
  by_cases reading : s.Reading
  · exact reading.elim .inl fun slave => .inr (.inl slave)
  · exact .inr (.inr (moves_one e reading))

theorem moves_small {s : State} (e : Interrupt) : s.moves e ≤ 12 := by
  by_cases reading : s.Reading
  · obtain none | some' := reading_moves e reading
    · omega
    · rw [some']
      exact dataNum_le s.sta
  · exact Nat.le_trans (moves_one e reading) (by decide)

theorem Inv.moves_fit {s : State} (inv : Inv s) (e : Interrupt) (more : s.moves e ≠ 0 → 0 < s.transfer.rest) :
    s.moves e ≤ s.transfer.rest := by
  by_cases none : s.moves e = 0
  · omega
  · have left := more none
    by_cases reading : s.Reading
    · have burst := (reading_moves e reading).resolve_left none
      have fits := inv.fits reading left
      omega
    · have one := moves_one e reading
      omega

/-- What is left after the bytes of an interrupt is enough for the next ones. -/
theorem nextNum_fits {s : State} (inv : Inv s) (e : Interrupt) (reading : s.Reading) (fits : s.moves e ≤ s.transfer.rest)
    (left : 0 < s.transfer.rest - s.moves e) : nextNum s (s.first e) (s.moves e) ≤ s.transfer.rest - s.moves e := by
  have num : dataNum (s.first e) = dataNum s.sta := present_dataNum s e.status
  have remain := remain_toNat inv.bound fits (moves_small e)
  have small := dataNum_le s.sta
  unfold nextNum
  split
  · exact left
  next enough =>
    rw [num]
    obtain none | burst := reading_moves e reading
    · have before := inv.fits reading (by omega)
      omega
    · by_cases zero : s.transfer.remainDataCnt - UInt16.ofNat (s.moves e) = 0
      · -- the 16 bits are at zero, so there are at least 65536 bytes left
        rw [zero] at remain
        have whole : 0 = (s.transfer.rest - s.moves e) % 65536 := remain
        omega
      · have some' : s.moves e ≠ 0 := by
          rw [burst]
          exact Nat.ne_of_gt (dataNum_pos s.sta)
        have many : ¬(s.transfer.remainDataCnt - UInt16.ofNat (s.moves e)).toNat < s.moves e :=
          fun less => enough ⟨some', zero, less⟩
        omega

/-- Two transfers with the same bytes, completed or not. -/
structure SameData (t after : Transfer) : Prop where
  allDataNum : after.allDataNum = t.allDataNum
  currentNum : after.currentNum = t.currentNum
  pData : after.pData = t.pData
  accessed : after.accessed = t.accessed
  received : after.received = t.received

theorem Moved.rest {mode : WorkMode} {n : Nat} {t after : Transfer} (bytes : Moved mode n t after) :
    after.rest = t.rest - n := by
  rw [Transfer.rest, bytes.allDataNum, bytes.currentNum, Transfer.rest]
  omega

/-- Bytes that fit keep the invariant; it is left to say how often the transfer is completed. -/
theorem Inv.of_moved {s after : State} {e : Interrupt} {u : Transfer} (inv : Inv s) (fits : s.moves e ≤ s.transfer.rest)
    (bytes : Moved s.mode (s.moves e) s.transfer u) (same : SameData u after.transfer) (mode : after.mode = s.mode)
    (num : s.Reading → dataNum after.sta = nextNum s (s.first e) (s.moves e))
    (once : after.transfer.completed ≤ 1) (posted : after.transfer.posted ≤ after.transfer.completed)
    (done : s.mode = .masterRead → 0 < after.transfer.completed → u.rest = 0) : Inv after := by
  have rest : after.transfer.rest = u.rest := by rw [Transfer.rest, same.allDataNum, same.currentNum, Transfer.rest]
  have bound := inv.bound
  have within : s.transfer.currentNum.toNat + s.moves e ≤ s.transfer.allDataNum.toNat := by
    unfold Transfer.rest at fits
    omega
  have reading : after.Reading ↔ s.Reading := by rw [State.Reading, mode, State.Reading]
  constructor
  · rw [same.currentNum, same.allDataNum, bytes.currentNum, bytes.allDataNum]
    exact within
  · intro i member
    rw [same.accessed] at member
    rw [same.allDataNum, bytes.allDataNum]
    obtain old | new := bytes.accessed i member
    · exact inv.inside i old
    · omega
  · exact once
  · exact posted
  · intro reads left
    rw [rest, bytes.rest] at left ⊢
    rw [num (reading.mp reads)]
    exact nextNum_fits inv e (reading.mp reads) fits left
  · intro reads
    rw [same.received, same.currentNum, same.pData, bytes.currentNum]
    exact bytes.received (reading.mp reads) (inv.stored (reading.mp reads))
  · intro reads completed
    rw [rest]
    exact done (mode.symm.trans reads) completed

theorem lastBytes_iff {s : State} (inv : Inv s) (e : Interrupt) (fits : s.moves e ≤ s.transfer.rest) :
    lastBytes s (s.moves e) ↔ s.moves e ≠ 0 ∧ (s.transfer.rest - s.moves e) % 65536 = 0 := by
  have remain := remain_toNat inv.bound fits (moves_small e)
  rw [lastBytes, ← UInt16.toNat_inj, remain]
  rfl

/-- A timely interrupt keeps the invariant. -/
theorem Inv.interrupt {s : State} {e : Interrupt} (inv : Inv s) (interrupt : s.first e &&& smbusSi ≠ 0) (timely : Timely s e) :
    Inv (i2c2Isr e s) := by
  have served := i2c2Isr_served interrupt
  have fits := inv.moves_fit e timely.moves
  have bound := inv.bound
  have within : s.transfer.currentNum.toNat + s.moves e ≤ s.transfer.allDataNum.toNat := by
    unfold Transfer.rest at fits
    omega
  have bytes : Moved s.mode (s.moves e) s.transfer (moveBytes s.mode e.data (s.moves e) s.transfer) :=
    moveBytes_moved within (moves_allowed e)
  have mode : (i2c2Isr e s).mode = s.mode := congrArg workMode served.wkMode
  have before : (moveBytes s.mode e.data (s.moves e) s.transfer).completed = s.transfer.completed := bytes.completed
  by_cases ended : s.Ends e
  · have last : (i2c2Isr e s).transfer = (moveBytes s.mode e.data (s.moves e) s.transfer).complete s.sema :=
      served.effect.completed ended
    have first := timely.ends ended
    have completed : (i2c2Isr e s).transfer.completed = 1 := by
      rw [last]
      show (moveBytes s.mode e.data (s.moves e) s.transfer).completed + 1 = 1
      rw [before, first]
    refine inv.of_moved fits bytes (by rw [last]; exact ⟨rfl, rfl, rfl, rfl, rfl⟩) mode served.num (Nat.le_of_eq completed)
      ?_ fun reads _ => ?_
    · have none := inv.posted
      rw [completed, last]
      show ite _ _ _ ≤ 1
      rw [bytes.posted]
      split <;> omega
    · have bytesLast : lastBytes s (s.moves e) := by
        refine ended.resolve_left fun halt => ?_
        rw [reads] at halt
        exact halt
      have whole := timely.whole reads bytesLast
      have zero := ((lastBytes_iff inv e fits).mp bytesLast).2
      rw [bytes.rest]
      omega
  · have going : (i2c2Isr e s).transfer = moveBytes s.mode e.data (s.moves e) s.transfer := served.effect.going ended
    refine inv.of_moved fits bytes (by rw [going]; exact ⟨rfl, rfl, rfl, rfl, rfl⟩) mode served.num ?_ ?_
      fun reads completed => ?_
    · rw [going, before]
      exact inv.once
    · rw [going, bytes.posted, before]
      exact inv.posted
    · rw [going, before] at completed
      rw [bytes.rest, inv.done reads completed, Nat.zero_sub]

/-- An interrupt that is not timely does what is not to be. -/
theorem Inv.spoiled {s : State} {e : Interrupt} (inv : Inv s) (interrupt : s.first e &&& smbusSi ≠ 0) (late : ¬Timely s e) :
    ¬Confined (i2c2Isr e s) := by
  intro confined
  have served := i2c2Isr_served interrupt
  have kept : (moveBytes s.mode e.data (s.moves e) s.transfer).allDataNum = s.transfer.allDataNum ∧
      (moveBytes s.mode e.data (s.moves e) s.transfer).completed = s.transfer.completed := moveBytes_kept
  -- what an access or a completion shows, whether the transfer is ended or not
  have same : SameData (moveBytes s.mode e.data (s.moves e) s.transfer) (i2c2Isr e s).transfer := by
    by_cases ended : s.Ends e
    · rw [served.effect.completed ended]
      exact ⟨rfl, rfl, rfl, rfl, rfl⟩
    · rw [served.effect.going ended]
      exact ⟨rfl, rfl, rfl, rfl, rfl⟩
  have completed : s.Ends e → (i2c2Isr e s).transfer.completed = s.transfer.completed + 1 := by
    intro ended
    rw [served.effect.completed ended]
    exact congrArg (· + 1) kept.2
  have left : s.moves e ≠ 0 → 0 < s.transfer.rest := by
    intro some'
    have member : s.transfer.currentNum.toNat ∈ (i2c2Isr e s).transfer.accessed := by
      rw [same.accessed]
      exact moveBytes_first some'
    have inside := confined.inside _ member
    rw [same.allDataNum, kept.1] at inside
    exact Nat.sub_pos_of_lt inside
  have first : s.Ends e → s.transfer.completed = 0 := by
    intro ended
    have once := confined.once.1
    rw [completed ended] at once
    omega
  refine late ⟨left, first, fun reads last => Nat.lt_of_not_le fun many => ?_⟩
  have fits := inv.moves_fit e left
  have bound := inv.bound
  have small := moves_small (s := s) e
  have bytes : Moved s.mode (s.moves e) s.transfer (moveBytes s.mode e.data (s.moves e) s.transfer) := by
    refine moveBytes_moved ?_ (moves_allowed e)
    unfold Transfer.rest at fits
    omega
  have mode : (i2c2Isr e s).mode = .masterRead := (congrArg workMode served.wkMode).trans reads
  have done : 0 < (i2c2Isr e s).transfer.completed := by
    rw [completed (.inr last)]
    exact Nat.succ_pos _
  -- the buffer has more places than bytes were received
  have lengths := congrArg List.length (confined.stored mode done)
  rw [same.received, same.allDataNum, bytes.received (.inl reads) (inv.stored (.inl reads)), bytes.allDataNum,
    List.length_take, List.length_map, List.length_map, List.length_range, List.length_range] at lengths
  unfold Transfer.rest at many
  omega

/-! ## The start of a call -/

theorem workMode_reading : ∀ n : Fin 256, workMode (UInt8.ofFin n) = .masterRead ∨ workMode (UInt8.ofFin n) = .slaveRead →
    UInt8.ofFin n &&& msgWorkModeRwBit ≠ 0 := by
  decide +kernel

theorem rwBit_of_reading {s : State} (reading : s.Reading) : s.msg.wkMode &&& msgWorkModeRwBit ≠ 0 :=
  workMode_reading s.msg.wkMode.toFin reading

/-- The mode 0x01 is for 8 bytes at most, whatever the register held. -/
theorem dataNum_or_one (stat : Word) : dataNum (stat ||| (0x01#32 <<< 6)) ≤ 8 := by
  unfold dataNum
  rw [BitVec.and_or_distrib_right]
  rcases mode_cases stat with same | same | same | same <;> rw [same] <;> decide

/-- The first burst is no longer than the transfer. -/
theorem intMode_fits {s : State} (reading : s.Reading) (stat : Word) (some' : 0 < s.transfer.allDataNum.toNat) :
    dataNum (stat ||| (intMode s <<< 6)) ≤ s.transfer.allDataNum.toNat := by
  have full : dataNum (stat ||| (0x03#32 <<< 6)) = 1 := dataNum_full stat rfl
  unfold intMode
  dsimp only
  rw [if_pos (rwBit_of_reading reading)]
  split
  next many =>
    have more : 12 < s.transfer.allDataNum.toNat := UInt32.lt_iff_toNat_lt.mp many
    have burst := dataNum_le (stat ||| ((0x00 : Word) <<< 6))
    omega
  · split
    next many =>
      have more : 8 < s.transfer.allDataNum.toNat := UInt32.lt_iff_toNat_lt.mp many
      exact Nat.le_trans (dataNum_or_one stat) (Nat.le_of_lt more)
    · split <;> exact Nat.le_trans (Nat.le_of_eq full) some'

theorem sendAddr_framed (s : State) : Framed s (sendAddr s) := by
  unfold sendAddr
  dsimp only
  split
  · split <;> split <;> exact ⟨rfl, rfl⟩
  · exact ⟨rfl, rfl⟩

theorem sendStart_framed (status : Word) (s : State) : Framed s (sendStart status s) := by
  unfold sendStart
  dsimp only
  split
  · exact ⟨rfl, rfl⟩
  · exact ⟨(sendAddr_framed s).transfer, (sendAddr_framed s).wkMode⟩

theorem sendStart_dataNum (status : Word) (s : State) : ∃ stat, dataNum (sendStart status s).sta =
    dataNum (stat ||| (intMode s <<< 6)) := by
  unfold sendStart
  dsimp only
  split
  · exact ⟨_, rfl⟩
  · exact ⟨_, dataNum_or _ rfl⟩

theorem Inv.start {call : Call} {s begun : State} (started : call.start s = some begun) : Inv begun := by
  unfold Call.start at started
  split at started
  · cases started
  · obtain rfl := Option.some.inj started
    generalize fresh : (State.mk _ _ s.sta s.config s.sent s.sema) = ready
    have framed := sendStart_framed call.status ready
    have transfer : ready.transfer = ⟨0, call.count, call.userBuf, 0, [], [], 0, 0⟩ := by rw [← fresh]
    have reading : (sendStart call.status ready).Reading ↔ ready.Reading := by
      rw [State.Reading, State.mode, framed.wkMode]
      rfl
    have whole := framed.transfer.trans transfer
    refine ⟨?_, ?_, ?_, Nat.le_of_eq (by rw [whole]), ?_, ?_, ?_⟩
    · rw [whole]
      exact Nat.zero_le _
    · rw [whole]
      exact fun i member => absurd member List.not_mem_nil
    · rw [whole]
      exact Nat.zero_le 1
    · intro reads some'
      obtain ⟨stat, num⟩ := sendStart_dataNum call.status ready
      have fits := intMode_fits (reading.mp reads) stat
      rw [transfer] at fits
      rw [whole] at some' ⊢
      rw [num]
      exact fits some'
    · intro _
      rw [whole]
      rfl
    · rw [whole]
      exact fun _ completed => absurd completed (Nat.lt_irrefl 0)

/-! ## A call -/

def Fine (s : State) : Event → Prop
  | .interrupt e => s.first e &&& smbusSi ≠ 0 → Timely s e
  | .leave _ _ => True

instance (s : State) : (event : Event) → Decidable (Fine s event)
  | .interrupt _ => inferInstanceAs (Decidable (_ → _))
  | .leave _ _ => inferInstanceAs (Decidable True)

theorem Inv.spurious {s : State} {e : Interrupt} (inv : Inv s) (spurious : s.first e &&& smbusSi = 0) : Inv (i2c2Isr e s) := by
  obtain ⟨wkMode, transfer, num⟩ := i2c2Isr_spurious spurious
  have mode : (i2c2Isr e s).mode = s.mode := congrArg workMode wkMode
  constructor
  all_goals rw [transfer]
  · exact inv.bound
  · exact inv.inside
  · exact inv.once
  · exact inv.posted
  · rw [State.Reading, mode, num]
    exact inv.fits
  · rw [State.Reading, mode]
    exact inv.stored
  · rw [mode]
    exact inv.done

theorem Inv.left {s after : State} {status : Word} {timeout : Bool} (inv : Inv s)
    (taken : step (.leave status timeout) s = some after) : Inv after := by
  rw [step] at taken
  split at taken
  · cases taken
  · obtain rfl := Option.some.inj taken
    dsimp only
    split <;> exact ⟨inv.bound, inv.inside, inv.once, inv.posted, inv.fits, inv.stored, inv.done⟩

theorem preserved {s after : State} {event : Event} (inv : Inv s) (fine : Fine s event) (taken : step event s = some after) :
    Inv after := by
  cases event with
  | interrupt e =>
    obtain rfl := Option.some.inj taken
    by_cases spurious : s.first e &&& smbusSi = 0
    · exact inv.spurious spurious
    · exact inv.interrupt spurious (fine spurious)
  | leave status timeout => exact inv.left taken

theorem spoiled {s after : State} {event : Event} (inv : Inv s) (bad : ¬Fine s event) (taken : step event s = some after) :
    ¬Confined after := by
  cases event with
  | interrupt e =>
    obtain rfl := Option.some.inj taken
    obtain ⟨interrupt, late⟩ := Classical.not_imp.mp bad
    exact inv.spoiled interrupt late
  | leave status timeout => exact absurd trivial bad

/-- In a call of any work mode and count, with any interrupts, the transfers stay confined if and only if every interrupt
is timely. -/
theorem always_confined_iff {call : Call} {s start final : State} {moments : List (Moment State Event)}
    (started : call.start s = some start) (run : Run (Machine.Step step) start moments final) :
    Machine.Always Confined moments final ↔ ∀ moment ∈ moments, Fine moment.before moment.event :=
  @Machine.always_iff_of_invariant _ _ _ _ _ _ Inv Confined (fun _ _ => True) Fine run (Inv.start started)
    (fun _ inv => inv.confined) (fun inv _ => preserved inv) (fun inv _ => spoiled inv) fun _ _ => trivial

/-! ## A byte too many, and an interrupt after the last byte -/

/-- A driver in a work mode that has no call going on. -/
def idle (wkMode : UInt8) : State where
  msg := ⟨wkMode, 0, 0, 0, 0, 0, 0⟩
  transfer := ⟨0, 0, fun _ => 0, 0, [], [], 0, 0⟩
  sta := 0
  config := 0
  sent := []
  sema := true

/-- A call for one byte. -/
def oneByte (reading : Bool) : Call := ⟨reading, fun _ => 0x5A, 1, 0, 0x21, 0, 0⟩

/-- An interrupt with the acknowledge bit. -/
def acknowledge : Event := .interrupt ⟨0x101, 0x100, fun _ => 0x11⟩

theorem one_byte_confined : ∃ start moments final, (oneByte true).start (idle 0x01) = some start ∧
    Run (Machine.Step step) start moments final ∧ moments.map Moment.event = [.leave 0 false, acknowledge] ∧
    final.transfer.received = [0x11] ∧ Machine.Always Confined moments final := by
  obtain ⟨moments, final, run, events, fine, shown⟩ := @Machine.run_of_fine _ _ step
    (((oneByte true).start (idle 0x01)).get rfl) Fine _ [.leave 0 false, acknowledge]
    (fun final => final.transfer.received = [0x11]) (by decide)
  exact ⟨_, moments, final, (Option.some_get _).symm, run, events, of_decide_eq_true shown,
    (always_confined_iff (Option.some_get _).symm run).mpr fine⟩

/-- A master sends a slave that reads one byte two, and the second goes past the buffer. A master that writes one byte
is done with it, and completes the write again at the interrupt at which it sends its stop. -/
theorem second_interrupt_spoils :
    (∃ start moments final, (oneByte true).start (idle 0x02) = some start ∧ Run (Machine.Step step) start moments final ∧
      moments.map Moment.event = [acknowledge, acknowledge] ∧ final.transfer.accessed = [1, 0] ∧
      ¬Machine.Always Confined moments final) ∧
    ∃ start moments final, (oneByte false).start (idle 0x00) = some start ∧ Run (Machine.Step step) start moments final ∧
      moments.map Moment.event = [acknowledge, acknowledge] ∧ final.transfer.completed = 2 ∧
      ¬Machine.Always Confined moments final := by
  constructor
  · obtain ⟨moments, final, run, events, shown⟩ := @Machine.run_of_any _ _ step
      (((oneByte true).start (idle 0x02)).get rfl) [acknowledge, acknowledge]
      (fun final => final.transfer.accessed = [1, 0] ∧ final.transfer.allDataNum = 1) (by decide)
    obtain ⟨accessed, all⟩ := of_decide_eq_true shown
    refine ⟨_, moments, final, (Option.some_get _).symm, run, events, accessed, fun always => ?_⟩
    have inside := always.2.inside 1 (by rw [accessed]; decide)
    rw [all] at inside
    exact absurd inside (by decide)
  · obtain ⟨moments, final, run, events, shown⟩ := @Machine.run_of_any _ _ step
      (((oneByte false).start (idle 0x00)).get rfl) [acknowledge, acknowledge]
      (fun final => final.transfer.completed = 2) (by decide)
    have completed := of_decide_eq_true shown
    refine ⟨_, moments, final, (Option.some_get _).symm, run, events, completed, fun always => ?_⟩
    have once := always.2.once.1
    rw [completed] at once
    exact absurd once (by decide)

end BekenSdk.I2c2
