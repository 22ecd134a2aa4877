import BekenSdk.Base.Circular
import BekenSdk.SdioHost.Driver
import Mathlib.Data.Nat.Count

/-! Reads of blocks: how far the loops of sdio_host_cpu_read_blks_fifo come, told from what the card does, and what is
in `data` then.
-/

set_option autoImplicit false

namespace BekenSdk.SdioHost
open Base

/-! ## What the card does -/

namespace RxEnv
variable (env : RxEnv)

/-- A receipt that ends well gives the semaphore of the wait. -/
def Given (n : Nat) : Prop := ∃ block, (block, RxEnd.crcOk) ∈ env.rxEnds n

def Ready (attempt : Nat) : Prop := rxPolls (env.rxReady attempt) sdioReadFifoTimeout 0 = true

instance : DecidablePred env.Ready := fun _ => inferInstanceAs (Decidable (_ = true))

/-- The bytes of the first words. -/
def bytes (words : Nat) : List UInt8 := (List.range words).flatMap fun k => wordBytes (env.word k)

/-- All blocks have arrived before the wait of that number. -/
def Arrived (blocks waits : Nat) : Prop := ∀ b < blocks, ∃ n < waits, (b, RxEnd.crcOk) ∈ env.rxEnds n

/-- Some attempt takes the last word. Each block and each attempt without a word is waited for before, and every one of
these waits gets the semaphore. -/
def Delivers (blocks : Nat) : Prop :=
  ∃ last waits, env.Ready last ∧ Nat.count env.Ready (last + 1) = 128 * blocks ∧
    waits + 128 * blocks = blocks + (last + 1) ∧ (∀ n < waits, env.Given n) ∧ env.Arrived blocks waits

/-- The waits get the semaphore for ever, and the words never come. -/
def Endless (blocks : Nat) : Prop := (∀ n, env.Given n) ∧ ∀ attempts, Nat.count env.Ready attempts < 128 * blocks

variable {env}

@[simp] theorem bytes_zero : env.bytes 0 = [] := rfl

theorem bytes_succ {words : Nat} : env.bytes (words + 1) = env.bytes words ++ wordBytes (env.word words) := by
  rw [bytes, List.range_succ, List.flatMap_append, List.flatMap_singleton]
  rfl

@[simp] theorem bytes_length {words : Nat} : (env.bytes words).length = 4 * words := by
  induction words with
  | zero => rfl
  | succ words ih =>
    rw [bytes_succ, List.length_append, ih, Nat.mul_succ]
    rfl

end RxEnv

/-! ## The semaphore -/

namespace RxState
variable {env : RxEnv} {s : RxState} {dataSize : UInt32} {blocks : Nat}

theorem received (env : RxEnv) (empty : s.semas.rxSema = 0) :
    let semas := (env.rxEnds s.waits).foldl (fun semas ended => sdioHostIsr ended.2.intStatus 0 semas) s.semas
    semas.rxSema ≤ 1 ∧ (semas.rxSema = 0 ↔ ¬env.Given s.waits) := by
  obtain ⟨bounded, none⟩ := served_count Semas.rxSema (fun ended => ended.2 = RxEnd.crcOk)
    (fun semas (ended : Nat × RxEnd) => sdioHostIsr_received ended.2 semas) (env.rxEnds s.waits)
    (show s.semas.rxSema ≤ 1 by omega)
  refine ⟨bounded, none.trans ⟨?_, fun missed => ⟨empty, ?_⟩⟩⟩
  · rintro ⟨-, nothing⟩ ⟨block, member⟩
    exact nothing _ member rfl
  · rintro ⟨block, how⟩ member rfl
    exact missed ⟨block, member⟩

theorem wait_given (empty : s.semas.rxSema = 0) (given : env.Given s.waits) :
    ∃ semas : Semas, semas.rxSema = 0 ∧
      s.bkSdioHostWaitReceiveData env = (.ok, { s with semas := semas, waits := s.waits + 1 }) := by
  obtain ⟨bounded, none⟩ := received env empty
  have gave := mt none.mp (not_not.mpr given)
  exact ⟨_, Nat.sub_eq_zero_of_le bounded, by rw [bkSdioHostWaitReceiveData, if_neg gave]⟩

theorem wait_missed (empty : s.semas.rxSema = 0) (missed : ¬env.Given s.waits) :
    ∃ semas : Semas, semas.rxSema = 0 ∧
      s.bkSdioHostWaitReceiveData env = (.timeout, { s with semas := semas, waits := s.waits + 1 }) := by
  have none := (received env empty).2.mpr missed
  exact ⟨_, none, by rw [bkSdioHostWaitReceiveData, if_pos none]⟩

/-! ## One round -/

theorem round_given (dataSize : UInt32) (place : s.place = .wait) (empty : s.semas.rxSema = 0) (given : env.Given s.waits) :
    ∃ semas : Semas, semas.rxSema = 0 ∧
      s.round env dataSize = { s with place := .word, semas := semas, waits := s.waits + 1 } := by
  obtain ⟨semas, none, waited⟩ := wait_given empty given
  exact ⟨semas, none, by simp only [round, place, waited]⟩

theorem round_missed (dataSize : UInt32) (place : s.place = .wait) (empty : s.semas.rxSema = 0) (missed : ¬env.Given s.waits) :
    ∃ semas : Semas, semas.rxSema = 0 ∧
      s.round env dataSize = { s with place := .left, semas := semas, waits := s.waits + 1 } := by
  obtain ⟨semas, none, waited⟩ := wait_missed empty missed
  exact ⟨semas, none, by simp only [round, place, waited]⟩

theorem round_left (place : s.place = .left) : s.round env dataSize = s := by
  simp only [round, place]

theorem next_of_le (enough : dataSize.toNat ≤ s.index.toNat) : s.next dataSize = { s with place := .left } :=
  if_pos (UInt32.le_iff_toNat_le.mpr enough)

theorem next_of_lt (more : s.index.toNat < dataSize.toNat) : s.next dataSize = { s with place := .wait } :=
  if_neg fun enough => Nat.not_le.mpr more (UInt32.le_iff_toNat_le.mp enough)

theorem store_index (index : s.index.toNat = 4 * s.taken) (fits : 4 * (s.taken + 1) < 2 ^ 32) (word : UInt32) :
    (s.store word).index.toNat = 4 * (s.taken + 1) := by
  show (s.index + 4).toNat = _
  rw [UInt32.toNat_add, index]
  exact Nat.mod_eq_of_lt fits

theorem store_stores (index : s.index.toNat = 4 * s.taken) (fits : 4 * (s.taken + 1) < 2 ^ 32) (word : UInt32) :
    (s.store word).stores = s.stores ++ (List.range' (4 * s.taken) 4).zip (wordBytes word) := by
  have place (k : UInt32) (near : k.toNat < 4) : (s.index + k).toNat = 4 * s.taken + k.toNat := by
    rw [UInt32.toNat_add, index]
    exact Nat.mod_eq_of_lt (by omega)
  have places : [s.index, s.index + 1, s.index + 2, s.index + 3].map UInt32.toNat = List.range' (4 * s.taken) 4 := by
    simp only [List.map_cons, List.map_nil, index, place 1 (by decide), place 2 (by decide), place 3 (by decide)]
    rfl
  rw [← places]
  rfl

/-- A word in the middle of a block, the last one of a block, and the last one of all. -/
theorem round_ready (place : s.place = .word) (index : s.index.toNat = 4 * s.taken)
    (size : dataSize.toNat = 512 * blocks) (more : s.taken < 128 * blocks) (ready : env.Ready s.attempts) :
    ∃ index : UInt32, index.toNat = 4 * (s.taken + 1) ∧ s.round env dataSize =
      { s with
        place := if (s.taken + 1) % 128 ≠ 0 then .word else if s.taken + 1 = 128 * blocks then .left else .wait
        index := index
        errorState := .ok
        attempts := s.attempts + 1
        taken := s.taken + 1
        stores := s.stores ++ (List.range' (4 * s.taken) 4).zip (wordBytes (env.word s.taken)) } := by
  have below := dataSize.toNat_lt
  have fits : 4 * (s.taken + 1) < 2 ^ 32 := by omega
  have there := store_index index fits (env.word s.taken)
  refine ⟨_, there, ?_⟩
  have polls : rxPolls (env.rxReady s.attempts) sdioReadFifoTimeout 0 = true := ready
  have boundary : (s.store (env.word s.taken)).index % sdioBlockSize ≠ 0 ↔ (s.taken + 1) % 128 ≠ 0 := by
    rw [Ne, ← UInt32.toNat_inj, UInt32.toNat_mod, there]
    show ¬4 * (s.taken + 1) % 512 = 0 ↔ _
    omega
  rw [← store_stores index fits]
  generalize stored : s.store (env.word s.taken) = t at there boundary ⊢
  have took : s.round env dataSize =
      let u : RxState := { s with
        index := t.index, stores := t.stores, errorState := .ok, attempts := s.attempts + 1, taken := s.taken + 1 }
      if u.index % sdioBlockSize ≠ 0 then u else u.next dataSize := by
    simp only [round, place, bkSdioHostReadFifo, if_pos polls, ← stored]
    rfl
  rw [took]
  by_cases inner : (s.taken + 1) % 128 ≠ 0
  · rw [if_pos inner]
    exact (if_pos (boundary.mpr inner)).trans (by rw [← place])
  · rw [if_neg inner]
    refine (if_neg (mt boundary.mp inner)).trans ?_
    by_cases all : s.taken + 1 = 128 * blocks
    · rw [if_pos all]
      exact next_of_le (by rw [size]; show _ ≤ t.index.toNat; omega)
    · rw [if_neg all]
      exact next_of_lt (by rw [size]; show t.index.toNat < _; omega)

theorem round_late (place : s.place = .word) (index : s.index.toNat = 4 * s.taken)
    (size : dataSize.toNat = 512 * blocks) (more : s.taken < 128 * blocks) (late : ¬env.Ready s.attempts) :
    s.round env dataSize = { s with place := .wait, errorState := .readDataFail, attempts := s.attempts + 1 } := by
  have polls : ¬rxPolls (env.rxReady s.attempts) sdioReadFifoTimeout 0 = true := late
  simp only [round, place, bkSdioHostReadFifo, if_neg polls]
  exact next_of_lt (by show s.index.toNat < _; omega)

/-! ## Runs -/

/-- The words taken, with the bytes in their places. -/
structure Reading (env : RxEnv) (s : RxState) : Prop where
  empty : s.semas.rxSema = 0
  index : s.index.toNat = 4 * s.taken
  count : Nat.count env.Ready s.attempts = s.taken
  stores : s.stores = (List.range' 0 (4 * s.taken)).zip (env.bytes s.taken)

/-- The waits until now, which depend on the place. -/
inductive Stands (env : RxEnv) (blocks : Nat) (s : RxState) : Prop
  | wait (place : s.place = .wait) (more : s.taken < 128 * blocks)
      (waited : s.waits + s.taken = s.taken / 128 + s.attempts) (given : ∀ n < s.waits, env.Given n)
  | word (place : s.place = .word) (more : s.taken < 128 * blocks)
      (waited : s.waits + s.taken = s.taken / 128 + s.attempts + 1) (given : ∀ n < s.waits, env.Given n)
  | finished (place : s.place = .left) (all : s.taken = 128 * blocks)
      (waited : s.waits + s.taken = blocks + s.attempts) (given : ∀ n < s.waits, env.Given n)
      (last : Nat) (attempts : s.attempts = last + 1) (ready : env.Ready last)
  | missed (place : s.place = .left) (more : s.taken < 128 * blocks) (n : Nat) (waits : s.waits = n + 1)
      (waited : n + s.taken = s.taken / 128 + s.attempts) (missed : ¬env.Given n)

theorem reading_init : Reading env rxInit := ⟨rfl, rfl, rfl, rfl⟩

theorem stands_init (positive : 0 < blocks) : Stands env blocks rxInit :=
  .wait rfl (Nat.mul_pos (by decide) positive) rfl fun n early => absurd early (Nat.not_lt_zero n)

theorem given_succ {waits : Nat} (given : ∀ n < waits, env.Given n) (more : env.Given waits) :
    ∀ n < waits + 1, env.Given n := by
  intro n early
  rcases Nat.lt_succ_iff_lt_or_eq.mp early with before | rfl
  · exact given n before
  · exact more

theorem reading_round (size : dataSize.toNat = 512 * blocks) (reading : Reading env s) (stands : Stands env blocks s) :
    Reading env (s.round env dataSize) := by
  obtain ⟨empty, index, count, stores⟩ := reading
  cases stands with
  | wait place more waited given =>
    by_cases next : env.Given s.waits
    · obtain ⟨semas, none, same⟩ := round_given dataSize place empty next
      rw [same]
      exact ⟨none, index, count, stores⟩
    · obtain ⟨semas, none, same⟩ := round_missed dataSize place empty next
      rw [same]
      exact ⟨none, index, count, stores⟩
  | word place more waited given =>
    by_cases ready : env.Ready s.attempts
    · obtain ⟨index', there, same⟩ := round_ready place index size more ready
      rw [same]
      refine ⟨empty, there, ?_, ?_⟩
      · rw [Nat.count_succ, if_pos ready, count]
      · show s.stores ++ _ = (List.range' 0 (4 * (s.taken + 1))).zip (env.bytes (s.taken + 1))
        rw [stores, RxEnv.bytes_succ, Nat.mul_succ, ← List.range'_append_1, Nat.zero_add, List.zip_append]
        rw [List.length_range', RxEnv.bytes_length]
    · rw [round_late place index size more ready]
      refine ⟨empty, index, ?_, stores⟩
      rw [Nat.count_succ, if_neg ready, count, Nat.add_zero]
  | finished place all waited given last attempts ready =>
    rw [round_left place]
    exact ⟨empty, index, count, stores⟩
  | missed place more n waits waited missed =>
    rw [round_left place]
    exact ⟨empty, index, count, stores⟩

theorem stands_round (size : dataSize.toNat = 512 * blocks) (reading : Reading env s) (stands : Stands env blocks s) :
    Stands env blocks (s.round env dataSize) := by
  cases stands with
  | wait place more waited given =>
    by_cases next : env.Given s.waits
    · obtain ⟨semas, none, same⟩ := round_given dataSize place reading.empty next
      rw [same]
      exact .word rfl more (by show s.waits + 1 + s.taken = s.taken / 128 + s.attempts + 1; omega) (given_succ given next)
    · obtain ⟨semas, none, same⟩ := round_missed dataSize place reading.empty next
      rw [same]
      exact .missed rfl more s.waits rfl waited next
  | word place more waited given =>
    by_cases ready : env.Ready s.attempts
    · obtain ⟨index, there, same⟩ := round_ready place reading.index size more ready
      rw [same]
      by_cases inner : (s.taken + 1) % 128 ≠ 0
      · refine .word (if_pos inner) ?_ ?_ given
        · show s.taken + 1 < _
          omega
        · show s.waits + (s.taken + 1) = (s.taken + 1) / 128 + (s.attempts + 1) + 1
          omega
      · by_cases all : s.taken + 1 = 128 * blocks
        · refine .finished ((if_neg inner).trans (if_pos all)) all ?_ given s.attempts rfl ready
          show s.waits + (s.taken + 1) = blocks + (s.attempts + 1)
          omega
        · refine .wait ((if_neg inner).trans (if_neg all)) ?_ ?_ given
          · show s.taken + 1 < _
            omega
          · show s.waits + (s.taken + 1) = (s.taken + 1) / 128 + (s.attempts + 1)
            omega
    · rw [round_late place reading.index size more ready]
      exact .wait rfl more waited given
  | finished place all waited given last attempts ready =>
    rw [round_left place]
    exact .finished place all waited given last attempts ready
  | missed place more n waits waited missed =>
    rw [round_left place]
    exact .missed place more n waits waited missed

/-- Each round but the last makes one wait or one attempt. -/
theorem round_counts (size : dataSize.toNat = 512 * blocks) (reading : Reading env s) (stands : Stands env blocks s)
    (on : s.place ≠ .left) :
    (s.round env dataSize).waits + (s.round env dataSize).attempts = s.waits + s.attempts + 1 := by
  cases stands with
  | wait place more waited given =>
    by_cases next : env.Given s.waits
    · obtain ⟨semas, none, same⟩ := round_given dataSize place reading.empty next
      rw [same]
      exact Nat.add_right_comm s.waits 1 s.attempts
    · obtain ⟨semas, none, same⟩ := round_missed dataSize place reading.empty next
      rw [same]
      exact Nat.add_right_comm s.waits 1 s.attempts
  | word place more waited given =>
    by_cases ready : env.Ready s.attempts
    · obtain ⟨index, there, same⟩ := round_ready place reading.index size more ready
      rw [same]
      rfl
    · rw [round_late place reading.index size more ready]
      rfl
  | finished place all waited given last attempts ready => exact absurd place on
  | missed place more n waits waited missed => exact absurd place on

end RxState

/-- The state after so many rounds. -/
def rxAfter (env : RxEnv) (blkCnt : UInt32) (rounds : Nat) : RxState := (·.round env (blkCnt * 512))^[rounds] rxInit

section
variable {env : RxEnv} {blkCnt : UInt32} {rounds : Nat}

theorem dataSize_toNat (most : blkCnt.toNat < 2 ^ 23) : (blkCnt * 512).toNat = 512 * blkCnt.toNat := by
  rw [UInt32.toNat_mul, Nat.mul_comm]
  exact Nat.mod_eq_of_lt (by show 512 * blkCnt.toNat < 2 ^ 32; omega)

theorem rxAfter_succ : rxAfter env blkCnt (rounds + 1) = (rxAfter env blkCnt rounds).round env (blkCnt * 512) :=
  Function.iterate_succ_apply' _ _ _

theorem rxAfter_stands (env : RxEnv) (positive : 0 < blkCnt.toNat) (most : blkCnt.toNat < 2 ^ 23) (rounds : Nat) :
    RxState.Reading env (rxAfter env blkCnt rounds) ∧ RxState.Stands env blkCnt.toNat (rxAfter env blkCnt rounds) := by
  induction rounds with
  | zero => exact ⟨RxState.reading_init, RxState.stands_init positive⟩
  | succ rounds ih =>
    rw [rxAfter_succ]
    exact ⟨RxState.reading_round (dataSize_toNat most) ih.1 ih.2, RxState.stands_round (dataSize_toNat most) ih.1 ih.2⟩

/-- What the read returns, for any number of rounds that is enough. -/
theorem returned_left {err : BkErr} {final : RxState}
    (returned : sdioHostCpuReadBlksFifo env blkCnt rounds = some (err, final)) :
    err = .ok ∧ ∃ k, (rxAfter env blkCnt k).place = .left ∧ final.stores = (rxAfter env blkCnt k).stores := by
  obtain ⟨last, ended, same⟩ := Option.map_eq_some_iff.mp returned
  obtain ⟨k, -, left, rfl⟩ := loop_rounds ended
  cases same
  refine ⟨rfl, k, not_not.mp left, ?_⟩
  split
  · rfl
  · rfl

theorem returns_of_left {k : Nat} (left : (rxAfter env blkCnt k).place = .left) :
    ∃ rounds final, sdioHostCpuReadBlksFifo env blkCnt rounds = some (.ok, final) := by
  have first : ∃ k, (rxAfter env blkCnt k).place = .left := ⟨k, left⟩
  have ended : loop (·.place ≠ .left) (·.round env (blkCnt * 512)) (Nat.find first) rxInit =
      some (rxAfter env blkCnt (Nat.find first)) :=
    loop_of_rounds (fun j early => Nat.find_min first early) (not_not.mpr (Nat.find_spec first))
  exact ⟨Nat.find first, _, congrArg (Option.map _) ended⟩

/-! ## When a read returns -/

theorem rxAfter_counts (positive : 0 < blkCnt.toNat) (most : blkCnt.toNat < 2 ^ 23)
    (on : ∀ k, (rxAfter env blkCnt k).place ≠ .left) (rounds : Nat) :
    (rxAfter env blkCnt rounds).waits + (rxAfter env blkCnt rounds).attempts = rounds := by
  induction rounds with
  | zero => rfl
  | succ rounds ih =>
    obtain ⟨reading, stands⟩ := rxAfter_stands env positive most rounds
    rw [rxAfter_succ, RxState.round_counts (dataSize_toNat most) reading stands (on rounds), ih]

/-- As long as the read is on, every wait got the semaphore, and there are about as many waits as attempts. -/
theorem RxState.Stands.on {blocks : Nat} {s : RxState} (stands : Stands env blocks s) (on : s.place ≠ .left) :
    s.taken < 128 * blocks ∧ (∀ n < s.waits, env.Given n) ∧ s.waits ≤ s.attempts + 1 ∧
      s.attempts ≤ s.waits + 128 * blocks := by
  cases stands with
  | wait place more waited given => exact ⟨more, given, by omega, by omega⟩
  | word place more waited given => exact ⟨more, given, by omega, by omega⟩
  | finished place all waited given last attempts ready => exact absurd place on
  | missed place more n waits waited missed => exact absurd place on

theorem left_iff (env : RxEnv) (positive : 0 < blkCnt.toNat) (most : blkCnt.toNat < 2 ^ 23) :
    (∃ k, (rxAfter env blkCnt k).place = .left) ↔ ¬env.Endless blkCnt.toNat := by
  constructor
  · rintro ⟨k, left⟩ ⟨given, few⟩
    obtain ⟨reading, stands⟩ := rxAfter_stands env positive most k
    cases stands with
    | wait place => rw [place] at left; cases left
    | word place => rw [place] at left; cases left
    | finished place all =>
      have fewer := few (rxAfter env blkCnt k).attempts
      rw [reading.count] at fewer
      omega
    | missed place more n waits waited missed => exact missed (given n)
  · intro ends
    by_contra never
    have on : ∀ k, (rxAfter env blkCnt k).place ≠ .left := fun k left => never ⟨k, left⟩
    refine ends ⟨fun n => ?_, fun attempts => ?_⟩
    · have counts := rxAfter_counts positive most on (2 * n + 128 * blkCnt.toNat + 2)
      obtain ⟨-, given, -, close⟩ := (rxAfter_stands env positive most _).2.on (on (2 * n + 128 * blkCnt.toNat + 2))
      exact given n (by omega)
    · have counts := rxAfter_counts positive most on (2 * attempts + 2)
      obtain ⟨reading, stands⟩ := rxAfter_stands env positive most (2 * attempts + 2)
      obtain ⟨more, -, close, -⟩ := stands.on (on (2 * attempts + 2))
      rw [← reading.count] at more
      exact Nat.lt_of_le_of_lt (Nat.count_monotone _ (by omega)) more

/-! ## What has been read then -/

/-- Attempts without a word only become more. -/
theorem count_late {p : Nat → Prop} [DecidablePred p] {m n : Nat} (before : m ≤ n) :
    m + Nat.count p n ≤ n + Nat.count p m := by
  obtain ⟨more, rfl⟩ := Nat.exists_eq_add_of_le before
  have most : Nat.count (fun k => p (m + k)) more ≤ more := Nat.count_le _
  rw [Nat.count_add]
  omega

theorem RxEnv.Delivers.finished {blocks : Nat} {s : RxState} (delivers : env.Delivers blocks)
    (reading : s.Reading env) (stands : s.Stands env blocks) (left : s.place = .left) :
    s.taken = 128 * blocks ∧ env.Arrived blocks s.waits := by
  obtain ⟨last, waits, ready, count, waited, given, arrived⟩ := delivers
  have counted := reading.count
  cases stands with
  | wait place => rw [place] at left; cases left
  | word place => rw [place] at left; cases left
  | finished place all waited' given' last' attempts ready' =>
    have same : last' = last := by
      apply Nat.count_injective ready' ready
      rw [Nat.count_succ, if_pos ready] at count
      rw [attempts, Nat.count_succ, if_pos ready'] at counted
      omega
    have waits_eq : s.waits = waits := by omega
    exact ⟨all, waits_eq ▸ arrived⟩
  | missed place more n waits' waited' missed =>
    have early : s.attempts ≤ last + 1 := by
      by_contra late
      have monotone := Nat.count_monotone env.Ready (Nat.le_of_not_le late)
      omega
    have fewer := count_late (p := env.Ready) early
    exact absurd (given n (by omega)) missed

/-- All blocks have arrived and all their words have been read. -/
def ReadWhole (env : RxEnv) (blkCnt : UInt32) : Prop :=
  ∃ rounds, (rxAfter env blkCnt rounds).taken = 128 * blkCnt.toNat ∧
    env.Arrived blkCnt.toNat (rxAfter env blkCnt rounds).waits

theorem RxEnv.Delivers.ends {blocks : Nat} (delivers : env.Delivers blocks) : ¬env.Endless blocks := by
  obtain ⟨last, waits, ready, count, -⟩ := delivers
  exact fun endless => absurd count (endless.2 (last + 1)).ne

theorem readWhole_iff (positive : 0 < blkCnt.toNat) (most : blkCnt.toNat < 2 ^ 23) :
    ReadWhole env blkCnt ↔ env.Delivers blkCnt.toNat := by
  constructor
  · rintro ⟨rounds, all, arrived⟩
    obtain ⟨reading, stands⟩ := rxAfter_stands env positive most rounds
    cases stands with
    | wait place more => exact absurd all more.ne
    | word place more => exact absurd all more.ne
    | finished place _ waited given last attempts ready =>
      refine ⟨last, _, ready, ?_, ?_, given, arrived⟩
      · rw [← attempts, reading.count, all]
      · rw [← attempts, ← waited, all]
    | missed place more => exact absurd all more.ne
  · intro delivers
    obtain ⟨k, left⟩ := (left_iff env positive most).mpr delivers.ends
    obtain ⟨reading, stands⟩ := rxAfter_stands env positive most k
    exact ⟨k, delivers.finished reading stands left⟩

/-! ## The report of a read -/

/-- BK_OK tells that all was read, and what `data` holds. -/
def ReadReports (env : RxEnv) (blkCnt : UInt32) : Prop :=
  ((∃ rounds final, sdioHostCpuReadBlksFifo env blkCnt rounds = some (.ok, final)) ↔ ReadWhole env blkCnt) ∧
    ∀ rounds final, sdioHostCpuReadBlksFifo env blkCnt rounds = some (.ok, final) →
      ∀ data, readBytes (storeEach data final.stores) 0 (512 * blkCnt.toNat) = env.bytes (128 * blkCnt.toNat)

theorem RxState.Reading.data {s : RxState} (reading : s.Reading env) (data : Cells) :
    readBytes (storeEach data s.stores) 0 (4 * s.taken) = env.bytes s.taken := by
  have stored : storeEach data s.stores = storeBytes data 0 (env.bytes s.taken) := by
    rw [reading.stores, ← storeEach_range', RxEnv.bytes_length]
  rw [stored]
  exact (holds_storeBytes data 0 _).read_of_length RxEnv.bytes_length

theorem RxState.Reading.inside {s : RxState} (reading : s.Reading env) : ∀ store ∈ s.stores, store.1 < 4 * s.taken := by
  intro store member
  rw [reading.stores] at member
  have place := (List.of_mem_zip (a := store.1) (b := store.2) member).1
  have range := List.mem_range'_1.mp place
  omega

theorem readReports_iff (positive : 0 < blkCnt.toNat) (most : blkCnt.toNat < 2 ^ 23) :
    ReadReports env blkCnt ↔ env.Delivers blkCnt.toNat ∨ env.Endless blkCnt.toNat := by
  constructor
  · rintro ⟨reports, -⟩
    by_cases endless : env.Endless blkCnt.toNat
    · exact .inr endless
    · obtain ⟨k, left⟩ := (left_iff env positive most).mpr endless
      exact .inl ((readWhole_iff positive most).mp (reports.mp (returns_of_left left)))
  · rintro (delivers | endless)
    · obtain ⟨k, left⟩ := (left_iff env positive most).mpr delivers.ends
      refine ⟨iff_of_true (returns_of_left left) ((readWhole_iff positive most).mpr delivers), ?_⟩
      intro rounds final returned data
      obtain ⟨-, k, left, same⟩ := returned_left returned
      obtain ⟨reading, stands⟩ := rxAfter_stands env positive most k
      have all := (delivers.finished reading stands left).1
      have held := reading.data data
      rw [all] at held
      rw [same, ← held]
      congr 1
      omega
    · have never : ∀ k, (rxAfter env blkCnt k).place ≠ .left := fun k left =>
        (left_iff env positive most).mp ⟨k, left⟩ endless
      refine ⟨iff_of_false ?_ ?_, ?_⟩
      · rintro ⟨rounds, final, returned⟩
        obtain ⟨-, k, left, -⟩ := returned_left returned
        exact never k left
      · exact fun whole => ((readWhole_iff positive most).mp whole).ends endless
      · intro rounds final returned
        obtain ⟨-, k, left, -⟩ := returned_left returned
        exact absurd left (never k)

/-- Nothing is stored behind the blocks, whatever the card does. -/
theorem stores_inside (positive : 0 < blkCnt.toNat) (most : blkCnt.toNat < 2 ^ 23) (rounds : Nat) :
    ∀ store ∈ (rxAfter env blkCnt rounds).stores, store.1 < 512 * blkCnt.toNat := by
  intro store member
  obtain ⟨reading, stands⟩ := rxAfter_stands env positive most rounds
  have low := reading.inside store member
  cases stands with
  | wait place more => omega
  | word place more => omega
  | finished place all => omega
  | missed place more => omega

end

end BekenSdk.SdioHost
