import BekenSdk.SdioHost.Reads
import Mathlib.Data.List.Range

/-! Writes of blocks: which words find the FIFO ready, which waits get their semaphore, and what
sdio_host_cpu_write_fifo makes of it. The report of a read and that of a write are compared with what happened at the
end.
-/

set_option autoImplicit false

namespace BekenSdk.SdioHost
open Base

/-! ## What the card does -/

namespace TxEnv
variable (env : TxEnv)

/-- A write end with status 2 gives the semaphore of the wait. -/
def Given (n : Nat) : Prop := ∃ ended ∈ env.txEnds n, ended.wrStatus = 2

/-- `i` when the loop comes to a word. -/
def pollsBefore : Nat → UInt32
  | 0 => 0
  | word + 1 => (txPolls (env.txReady word) allPolls (pollsBefore word) 0).2

/-- Whether the FIFO is ready for a word before `i` comes to the limit. -/
def accepts (word : Nat) : Bool := (txPolls (env.txReady word) allPolls (env.pollsBefore word) 0).1

/-- Every block has its write end with status 2 before the wait of that number. -/
def Acknowledged (blocks waits : Nat) : Prop :=
  ∀ b < blocks, ∃ n < waits, ∃ ended ∈ env.txEnds n, ended.block = b ∧ ended.wrStatus = 2

end TxEnv

/-! ## One round -/

namespace TxState
variable {env : TxEnv} {bk7256xx : Bool} {writeData : Cells} {dataSize : UInt32} {s : TxState} {words blocks : Nat}

theorem ended_txSema (env : TxEnv) (empty : s.semas.txSema = 0) :
    let semas :=
      (env.txEnds s.waits).foldl (fun semas ended => sdioHostIsr writeEnded ended.wrStatus semas) s.semas
    semas.txSema ≤ 1 ∧ (semas.txSema = 0 ↔ ¬env.Given s.waits) := by
  obtain ⟨bounded, none⟩ := served_count Semas.txSema (fun ended => ended.wrStatus = 2)
    (fun semas (ended : TxEnd) => sdioHostIsr_writeEnded ended.wrStatus semas) (env.txEnds s.waits)
    (show s.semas.txSema ≤ 1 by omega)
  refine ⟨bounded, none.trans ⟨?_, fun missed => ⟨empty, ?_⟩⟩⟩
  · rintro ⟨-, nothing⟩ ⟨ended, member, acknowledged⟩
    exact nothing ended member acknowledged
  · exact fun ended member acknowledged => missed ⟨ended, member, acknowledged⟩

/-- The wait overwrites what was reported until then. -/
theorem waitWriteEnd_eq (env : TxEnv) (empty : s.semas.txSema = 0) :
    ∃ semas errorState isTxBlocked, semas.txSema = 0 ∧ (errorState = BkErr.ok ↔ env.Given s.waits) ∧
      s.waitWriteEnd env =
        { s with semas := semas, waits := s.waits + 1, errorState := errorState, isTxBlocked := isTxBlocked } := by
  obtain ⟨bounded, none⟩ := ended_txSema env empty
  by_cases given : env.Given s.waits
  · have gave := mt none.mp (not_not.mpr given)
    exact ⟨_, .ok, true, Nat.sub_eq_zero_of_le bounded, iff_of_true rfl given, by rw [waitWriteEnd, if_neg gave]⟩
  · have nothing := none.mpr given
    exact ⟨_, .timeout, false, nothing, iff_of_false nofun given, by rw [waitWriteEnd, if_pos nothing]⟩

/-- A word goes to the FIFO, ready or not, and the last one of a block is waited for. -/
theorem round_eq {polled : Bool × UInt32} (same : txPolls (env.txReady s.written.length) allPolls s.i 0 = polled) :
    s.round env bk7256xx writeData dataSize =
      if (s.index + 4) % sdioBlockSize = 0 ∨ s.index + 4 = dataSize then
        (s.writeFifo polled (wordAt bk7256xx writeData s.index.toNat)).waitWriteEnd env
      else s.writeFifo polled (wordAt bk7256xx writeData s.index.toNat) := by
  rw [round, same]
  rfl

/-- Where the write is after so many words. -/
structure Writing (env : TxEnv) (bk7256xx : Bool) (writeData : Cells) (words : Nat) (s : TxState) : Prop where
  empty : s.semas.txSema = 0
  index : s.index.toNat = 4 * words
  polls : s.i = env.pollsBefore words
  waits : s.waits = words / 128
  written : s.written = (List.range words).map fun word => wordAt bk7256xx writeData (4 * word)
  accepted : s.accepted = (List.range words).map env.accepts
  start : words = 0 → s.errorState = .ok
  ended : ∀ n, words = 128 * (n + 1) → (s.errorState = .ok ↔ env.Given n)

theorem writing_init : Writing env bk7256xx writeData 0 txInit :=
  ⟨rfl, rfl, rfl, rfl, rfl, rfl, fun _ => rfl, fun n never => absurd never (by omega)⟩

theorem writing_round (size : dataSize.toNat = 512 * blocks) (more : words < 128 * blocks)
    (writing : Writing env bk7256xx writeData words s) :
    Writing env bk7256xx writeData (words + 1) (s.round env bk7256xx writeData dataSize) := by
  obtain ⟨empty, index, polls, waits, written, accepted, start, ended⟩ := writing
  have below := dataSize.toNat_lt
  have count : s.written.length = words := by rw [written, List.length_map, List.length_range]
  have index' : (s.index + 4).toNat = 4 * (words + 1) := by
    rw [UInt32.toNat_add, index]
    exact Nat.mod_eq_of_lt (by show 4 * words + 4 < 2 ^ 32; omega)
  have boundary : (s.index + 4) % sdioBlockSize = 0 ∨ s.index + 4 = dataSize ↔ (words + 1) % 128 = 0 := by
    rw [← UInt32.toNat_inj, ← UInt32.toNat_inj, UInt32.toNat_mod, index', size]
    show 4 * (words + 1) % 512 = 0 ∨ _ ↔ _
    omega
  have written' : s.written ++ [wordAt bk7256xx writeData s.index.toNat] =
      (List.range (words + 1)).map fun word => wordAt bk7256xx writeData (4 * word) := by
    rw [List.range_succ, List.map_append, ← written, index, List.map_singleton]
  have polled : txPolls (env.txReady s.written.length) allPolls s.i 0 =
      (env.accepts words, env.pollsBefore (words + 1)) := by
    rw [count, polls, TxEnv.accepts, TxEnv.pollsBefore, Prod.mk.eta]
  have accepted' : s.accepted ++ [env.accepts words] = (List.range (words + 1)).map env.accepts := by
    rw [List.range_succ, List.map_append, ← accepted, List.map_singleton]
  rw [round_eq polled]
  generalize wrote : s.writeFifo _ _ = t
  have empty' : t.semas.txSema = 0 := wrote ▸ empty
  by_cases last : (words + 1) % 128 = 0
  · rw [if_pos (boundary.mpr last)]
    obtain ⟨semas, errorState, isTxBlocked, none, reported, waited⟩ := waitWriteEnd_eq env empty'
    rw [waited, ← wrote]
    refine ⟨none, index', rfl, ?_, written', accepted', nofun, fun n here => ?_⟩
    · show s.waits + 1 = (words + 1) / 128
      omega
    · have wait : s.waits = n := by omega
      rw [← wrote] at reported
      rw [← wait]
      exact reported
  · rw [if_neg (mt boundary.mp last), ← wrote]
    refine ⟨empty, index', rfl, ?_, written', accepted', nofun, fun n here => absurd here (by omega)⟩
    show s.waits = (words + 1) / 128
    omega

end TxState

/-! ## The report of a write -/

section
variable (env : TxEnv) (bk7256xx : Bool) (writeData : Cells) {dataSize : UInt32} {blocks : Nat}

/-- All words were accepted by a ready FIFO, and all blocks were acknowledged. -/
def WroteWhole (dataSize : UInt32) (blocks : Nat) : Prop :=
  ∃ rounds err final, sdioHostCpuWriteFifo env bk7256xx writeData dataSize rounds = some (err, final) ∧
    (∀ ready ∈ final.accepted, ready = true) ∧ env.Acknowledged blocks final.waits

def WriteReports (dataSize : UInt32) (blocks : Nat) : Prop :=
  (∃ rounds final, sdioHostCpuWriteFifo env bk7256xx writeData dataSize rounds = some (.ok, final)) ↔
    WroteWhole env bk7256xx writeData dataSize blocks

/-- The wait for the last block tells of all the words and blocks. -/
def TxEnv.LastTells (blocks : Nat) : Prop :=
  ∀ last, blocks = last + 1 → env.Given last →
    (∀ word < 128 * blocks, env.accepts word = true) ∧ env.Acknowledged blocks blocks

theorem writing_after (size : dataSize.toNat = 512 * blocks) {words : Nat} (most : words ≤ 128 * blocks) :
    TxState.Writing env bk7256xx writeData words ((·.round env bk7256xx writeData dataSize)^[words] txInit) := by
  induction words with
  | zero => exact TxState.writing_init
  | succ words ih =>
    rw [Function.iterate_succ_apply']
    exact TxState.writing_round size most (ih (Nat.le_of_succ_le most))

/-- A write comes to an end, and there is one end. -/
theorem write_returns (size : dataSize.toNat = 512 * blocks) :
    ∃ final, TxState.Writing env bk7256xx writeData (128 * blocks) final ∧
      ∀ err s, (∃ rounds, sdioHostCpuWriteFifo env bk7256xx writeData dataSize rounds = some (err, s)) ↔
        err = final.errorState ∧ s = final := by
  have writing := fun {words : Nat} (most : words ≤ 128 * blocks) =>
    writing_after env bk7256xx writeData size most
  have through : Rounds (·.index < dataSize) (·.round env bk7256xx writeData dataSize) txInit (128 * blocks) := by
    intro words early
    rw [UInt32.lt_iff_toNat_lt, (writing early.le).index, size]
    omega
  have ended : ¬((·.round env bk7256xx writeData dataSize)^[128 * blocks] txInit).index < dataSize := by
    rw [UInt32.lt_iff_toNat_lt, (writing le_rfl).index, size]
    omega
  have final := loop_of_rounds through ended
  refine ⟨_, writing le_rfl, fun err s => ⟨?_, ?_⟩⟩
  · rintro ⟨rounds, returned⟩
    obtain ⟨last, stopped, same⟩ := Option.map_eq_some_iff.mp returned
    cases returned_unique stopped final
    cases same
    exact ⟨rfl, rfl⟩
  · rintro ⟨rfl, rfl⟩
    exact ⟨_, congrArg (Option.map _) final⟩

variable {env} in
theorem TxEnv.Acknowledged.given {last : Nat} (acknowledged : env.Acknowledged (last + 1) (last + 1)) :
    env.Given last := by
  obtain ⟨n, before, ended, member, block, status⟩ := acknowledged last (Nat.lt_succ_self last)
  have after := env.causal n ended member
  have same : n = last := by omega
  exact ⟨ended, same ▸ member, status⟩

theorem wroteWhole_iff (size : dataSize.toNat = 512 * blocks) :
    WroteWhole env bk7256xx writeData dataSize blocks ↔
      (∀ word < 128 * blocks, env.accepts word = true) ∧ env.Acknowledged blocks blocks := by
  obtain ⟨final, writing, returns⟩ := write_returns env bk7256xx writeData size
  have waits : final.waits = blocks := by rw [writing.waits, Nat.mul_div_cancel_left blocks (by decide)]
  have accepted : (∀ ready ∈ final.accepted, ready = true) ↔ ∀ word < 128 * blocks, env.accepts word = true := by
    simp only [writing.accepted, List.forall_mem_map, List.mem_range]
  constructor
  · rintro ⟨rounds, err, s, returned, all, acknowledged⟩
    obtain ⟨-, rfl⟩ := (returns err s).mp ⟨rounds, returned⟩
    exact ⟨accepted.mp all, waits ▸ acknowledged⟩
  · rintro ⟨all, acknowledged⟩
    obtain ⟨rounds, returned⟩ := (returns _ _).mpr ⟨rfl, rfl⟩
    exact ⟨rounds, _, _, returned, accepted.mpr all, waits.symm ▸ acknowledged⟩

theorem writeReports_iff (size : dataSize.toNat = 512 * blocks) :
    WriteReports env bk7256xx writeData dataSize blocks ↔ env.LastTells blocks := by
  obtain ⟨final, writing, returns⟩ := write_returns env bk7256xx writeData size
  have ok : (∃ rounds s, sdioHostCpuWriteFifo env bk7256xx writeData dataSize rounds = some (.ok, s)) ↔
      final.errorState = .ok := by
    constructor
    · rintro ⟨rounds, s, returned⟩
      exact ((returns .ok s).mp ⟨rounds, returned⟩).1.symm
    · intro same
      obtain ⟨rounds, returned⟩ := (returns .ok final).mpr ⟨same.symm, rfl⟩
      exact ⟨rounds, final, returned⟩
  rw [WriteReports, ok, wroteWhole_iff env bk7256xx writeData size]
  cases blocks with
  | zero =>
    have nothing : (∀ word < 128 * 0, env.accepts word = true) ∧ env.Acknowledged 0 0 :=
      ⟨fun word never => absurd never (Nat.not_lt_zero word), fun b never => absurd never (Nat.not_lt_zero b)⟩
    exact iff_of_true (iff_of_true (writing.start rfl) nothing) fun last never => absurd never (Nat.succ_ne_zero last).symm
  | succ last =>
    rw [writing.ended last rfl]
    constructor
    · intro reports last' same given
      cases same
      exact reports.mp given
    · exact fun tells => ⟨tells last rfl, fun whole => whole.2.given⟩

end

/-! ## Both reports -/

/-- A read returns BK_OK whenever it returns, and a write returns what the wait for its last block did. Whatever the
card does, a read stores nothing behind the blocks. -/
theorem reports_iff (rx : RxEnv) (blkCnt : UInt32) (positive : 0 < blkCnt.toNat) (most : blkCnt.toNat < 2 ^ 23)
    (tx : TxEnv) (bk7256xx : Bool) (writeData : Cells) (dataSize : UInt32) (blocks : Nat)
    (size : dataSize.toNat = 512 * blocks) :
    ((ReadReports rx blkCnt ↔ rx.Delivers blkCnt.toNat ∨ rx.Endless blkCnt.toNat) ∧
      ((∃ rounds err final, sdioHostCpuReadBlksFifo rx blkCnt rounds = some (err, final)) ↔
        ¬rx.Endless blkCnt.toNat) ∧
      ∀ rounds, ∀ store ∈ (rxAfter rx blkCnt rounds).stores, store.1 < 512 * blkCnt.toNat) ∧
    (WriteReports tx bk7256xx writeData dataSize blocks ↔ tx.LastTells blocks) ∧
      ∃ rounds err final, sdioHostCpuWriteFifo tx bk7256xx writeData dataSize rounds = some (err, final) := by
  refine ⟨⟨readReports_iff positive most, ?_, stores_inside positive most⟩, writeReports_iff tx bk7256xx writeData size,
    ?_⟩
  · rw [← left_iff rx positive most]
    constructor
    · rintro ⟨rounds, err, final, returned⟩
      obtain ⟨-, k, left, -⟩ := returned_left returned
      exact ⟨k, left⟩
    · rintro ⟨k, left⟩
      obtain ⟨rounds, final, returned⟩ := returns_of_left left
      exact ⟨rounds, _, final, returned⟩
  · obtain ⟨final, -, returns⟩ := write_returns tx bk7256xx writeData size
    obtain ⟨rounds, returned⟩ := (returns _ _).mpr ⟨rfl, rfl⟩
    exact ⟨rounds, _, final, returned⟩

/-- Each receipt ends well, and each word comes at once. -/
def promptCard : RxEnv where
  rxEnds n := [(n, .crcOk)]
  rxReady _ _ := true
  word k := UInt32.ofNat k

def acknowledging : TxEnv where
  txEnds n := [⟨n, 2⟩]
  txReady _ _ := true
  causal _ _ member := (congrArg TxEnd.block (List.mem_singleton.mp member)).le

theorem oneBlock_reports : ReadReports promptCard 1 ∧ WriteReports acknowledging false (fun _ => 0) 512 1 := by
  have ready : ∀ attempt, promptCard.Ready attempt := fun _ => rfl
  obtain ⟨⟨reads, -⟩, writes, -⟩ := reports_iff promptCard 1 (by decide) (by decide) acknowledging false (fun _ => 0) 512 1
    rfl
  constructor
  · refine reads.mpr (.inl ⟨127, 1, ready 127, ?_, rfl, ?_, ?_⟩)
    · exact Nat.count_of_forall fun attempt _ => ready attempt
    · exact fun n _ => ⟨n, List.mem_singleton_self _⟩
    · exact fun b early => ⟨b, early, List.mem_singleton_self _⟩
  · refine writes.mpr fun last _ _ => ⟨fun word _ => ?_, ?_⟩
    · rw [TxEnv.accepts, txPolls_allPolls]
      rfl
    · exact fun b early => ⟨b, early, ⟨b, 2⟩, List.mem_singleton_self _, rfl, rfl⟩

/-- The receipt of every block times out. -/
def timingOut : RxEnv where
  rxEnds n := [(n, .timeout)]
  rxReady _ _ := false
  word _ := 0

/-- The first block ends with status 5, and the others with status 2. -/
def refusing : TxEnv where
  txEnds n := [⟨n, if n = 0 then 5 else 2⟩]
  txReady _ _ := true
  causal _ _ member := (congrArg TxEnd.block (List.mem_singleton.mp member)).le

/-- A read with nothing read and a write without its first block return BK_OK. -/
theorem failures_reported_ok :
    ((∃ final, sdioHostCpuReadBlksFifo timingOut 1 1 = some (.ok, final) ∧ final.taken = 0) ∧
      ¬ReadReports timingOut 1) ∧
    (∃ rounds final, sdioHostCpuWriteFifo refusing false (fun _ => 0) 1024 rounds = some (.ok, final)) ∧
      ¬refusing.Acknowledged 2 2 ∧ ¬WriteReports refusing false (fun _ => 0) 1024 2 := by
  have nothing : ¬timingOut.Given 0 := by
    rintro ⟨block, member⟩
    cases List.mem_singleton.mp member
  have refused : ¬refusing.Acknowledged 2 2 := by
    intro acknowledged
    obtain ⟨n, -, ended, member, block, status⟩ := acknowledged 0 (by decide)
    cases List.mem_singleton.mp member
    cases (block : n = 0)
    exact absurd status (by decide)
  have given : refusing.Given 1 := ⟨⟨1, 2⟩, List.mem_singleton_self _, rfl⟩
  have writes : ¬WriteReports refusing false (fun _ => 0) 1024 2 := fun reports =>
    refused ((writeReports_iff refusing false (fun _ => 0) rfl).mp reports 1 rfl given).2
  refine ⟨⟨⟨_, rfl, rfl⟩, fun reports => ?_⟩, ?_, refused, writes⟩
  · rcases (readReports_iff (by decide) (by decide)).mp reports with ⟨last, waits, -, count, waited, all, -⟩ | endless
    · have attempts := Nat.count_le timingOut.Ready (n := last + 1)
      have one : (1 : UInt32).toNat = 1 := rfl
      exact nothing (all 0 (by omega))
    · exact nothing (endless.1 0)
  · obtain ⟨final, writing, returns⟩ := write_returns refusing false (fun _ => 0)
      (show (1024 : UInt32).toNat = 512 * 2 from rfl)
    obtain ⟨rounds, returned⟩ := (returns .ok final).mpr ⟨((writing.ended 1 rfl).mpr given).symm, rfl⟩
    exact ⟨rounds, final, returned⟩

end BekenSdk.SdioHost
