import Mathlib.Algebra.BigOperators.Group.Finset.Piecewise
import Mathlib.Algebra.BigOperators.Fin
import Mathlib.Tactic.Abel
import BekenSdk.Base.Machine
import BekenSdk.SdioNodes.Driver

/-! The count of busy peripherals (mcu_ps.c) in the calls of the SDIO driver. Each call adds one when it comes and is
to take it off before it returns; the exits for bad arguments jump past that.
-/

set_option autoImplicit false

namespace BekenSdk.SdioNodes
open Base

namespace Busy

/-- The count, as the bits of an `int`, and the lists of nodes. -/
structure Board where
  periBusyCount : UInt32
  sdio : Sdio

def periBusyCountAdd (b : Board) : Board := { b with periBusyCount := b.periBusyCount + 1 }
def periBusyCountDec (b : Board) : Board := { b with periBusyCount := b.periBusyCount - 1 }

/-- `ps_may_sleep`. -/
def psMaySleep (mcuPsOn mcuPrevent : UInt32) (b : Board) : Bool :=
  mcuPsOn == 1 && b.periBusyCount == 0 && mcuPrevent == 0

/-- What a call still has to do: between two of these others may run. -/
inductive Prog
  | ret
  | add (rest : Prog)
  | dec (rest : Prog)
  | act (change : Sdio → Sdio) (rest : Sdio → Prog)

/-! ## The calls -/

/-- What a command does to the nodes. `param` is the node or, in SDIO_CMD_GET_FREE_NODE, what the pointer points to. The
other commands count nodes or set the callback. -/
def ctrlNodes (cmd param : UInt32) (memory : Bool) (s : Sdio) : Sdio :=
  if cmd = sdioCmdPushFreeNode then s.sdioFreeValidNode param.toNat
  else if cmd = sdioCmdGetFreeNode then (s.sdioAllocValidNode param memory).2
  else if cmd = sdioCmdClearTxValid then { s with txValid := false }
  else if cmd = sdioCmdSetTxValid then { s with txValid := true }
  else s

/-- `sdio_ctrl`, with what its caller does next. -/
def sdioCtrl (cmd param : UInt32) (memory : Bool) (next : Prog) : Prog :=
  .add <| .act (ctrlNodes cmd param memory) fun _ => .dec next

def sdioRead (userBuf : Bool) (count opFlag : UInt32) : Prog :=
  .add <|
    if opFlag = s2hRdSync then
      if userBuf = false ∨ count = 0 then .ret else .act (fun s => s.readSync .txDat) fun _ => .dec .ret
    else if opFlag = h2sRdSync then
      if userBuf = false ∨ count = 0 then .ret else .act (fun s => s.readSync .rxDat) fun _ => .dec .ret
    else if opFlag = h2sRdSpecial then .act (fun s => (s.suPopNode .rxDat).2) fun _ => .dec .ret
    else .dec .ret

/-- `userBuf` is the caller's buffer or, in S2H_WR_SPECIAL, a node. -/
def sdioWrite (userBuf : Option Nat) (count opFlag : UInt32) (memory : Bool) : Prog :=
  .add <|
    if opFlag = s2hWrSync then
      if userBuf = none ∨ count = 0 then .ret
      else
        .act (fun s => s.writeSync .txDat count memory) fun s =>
          match (s.sdioAllocValidNode count memory).1 with
          | some _ => sdioCtrl sdioCmdSetTxValid 0 memory (.dec .ret)
          | none => .dec .ret
    else if opFlag = s2hWrSpecial then
      if userBuf = none ∨ count = 0 then .ret
      else
        .act (fun s => s.suPushNode .txDat (userBuf.getD 0)) fun _ => sdioCtrl sdioCmdSetTxValid 0 memory (.dec .ret)
    else if opFlag = h2sWrSync then
      if userBuf = none ∨ count = 0 then .ret
      else .act (fun s => s.writeSync .rxDat count memory) fun _ => .dec .ret
    else .dec .ret

inductive Call
  | read (userBuf : Bool) (count opFlag : UInt32)
  | write (userBuf : Option Nat) (count opFlag : UInt32) (memory : Bool)
  | ctrl (cmd param : UInt32) (memory : Bool)

def Call.prog : Call → Prog
  | .read userBuf count opFlag => sdioRead userBuf count opFlag
  | .write userBuf count opFlag memory => sdioWrite userBuf count opFlag memory
  | .ctrl cmd param memory => sdioCtrl cmd param memory .ret

/-- The calls without a buffer or with no bytes, in the operations that look at them. -/
def Call.Leaks : Call → Prop
  | .read userBuf count opFlag => (opFlag = s2hRdSync ∨ opFlag = h2sRdSync) ∧ (userBuf = false ∨ count = 0)
  | .write userBuf count opFlag _ =>
    (opFlag = s2hWrSync ∨ opFlag = s2hWrSpecial ∨ opFlag = h2sWrSync) ∧ (userBuf = none ∨ count = 0)
  | .ctrl _ _ _ => False

instance : DecidablePred Call.Leaks
  | .read userBuf count opFlag =>
    inferInstanceAs (Decidable ((opFlag = s2hRdSync ∨ opFlag = h2sRdSync) ∧ (userBuf = false ∨ count = 0)))
  | .write userBuf count opFlag _ =>
    inferInstanceAs (Decidable
      ((opFlag = s2hWrSync ∨ opFlag = s2hWrSpecial ∨ opFlag = h2sWrSync) ∧ (userBuf = none ∨ count = 0)))
  | .ctrl _ _ _ => inferInstanceAs (Decidable False)

/-! ## A call by itself -/

def Prog.run : Prog → Board → Board
  | .ret, b => b
  | .add rest, b => rest.run (periBusyCountAdd b)
  | .dec rest, b => rest.run (periBusyCountDec b)
  | .act change rest, b => (rest b.sdio).run { b with sdio := change b.sdio }

/-- What is left of a call changes the count by `z`, whatever the nodes are. -/
inductive Net : Prog → UInt32 → Prop
  | ret : Net .ret 0
  | add {rest : Prog} {z : UInt32} : Net rest z → Net (.add rest) (1 + z)
  | dec {rest : Prog} {z : UInt32} : Net rest z → Net (.dec rest) (-1 + z)
  | act {change : Sdio → Sdio} {rest : Sdio → Prog} {z : UInt32} : (∀ s, Net (rest s) z) → Net (.act change rest) z

theorem Net.run {p : Prog} {z : UInt32} (net : Net p z) (b : Board) :
    (p.run b).periBusyCount = b.periBusyCount + z := by
  induction net generalizing b with
  | ret => exact (add_zero _).symm
  | add _ ih =>
    rw [Prog.run, ih]
    exact add_assoc _ _ _
  | dec _ ih =>
    rw [Prog.run, ih, ← add_assoc, ← sub_eq_add_neg]
    rfl
  | act _ ih => exact ih _ _

theorem Net.dec_ret : Net (.dec .ret) (-1) := add_zero (-1 : UInt32) ▸ Net.dec .ret

theorem sdioCtrl_net {cmd param : UInt32} {memory : Bool} {next : Prog} {z : UInt32} (net : Net next z) :
    Net (sdioCtrl cmd param memory next) z := by
  have whole : Net (sdioCtrl cmd param memory next) (1 + (-1 + z)) := .add (.act fun _ => .dec net)
  rwa [← add_assoc, add_neg_cancel, zero_add] at whole

theorem Net.leaks {p : Prog} (net : Net p 0) : Net (.add p) 1 := add_zero (1 : UInt32) ▸ Net.add net

theorem Net.balances {p : Prog} (net : Net p (-1)) : Net (.add p) 0 := add_neg_cancel (1 : UInt32) ▸ Net.add net

/-- A call adds one when it leaks, and otherwise nothing. -/
theorem Call.net (c : Call) : Net c.prog (if c.Leaks then 1 else 0) := by
  cases c with
  | ctrl cmd param memory => exact sdioCtrl_net .ret
  | read userBuf count opFlag =>
    show Net (sdioRead userBuf count opFlag) _
    unfold sdioRead
    by_cases leaks : (Call.read userBuf count opFlag).Leaks
    · rw [if_pos leaks]
      obtain ⟨op, bad⟩ := leaks
      apply Net.leaks
      rw [if_pos bad, if_pos bad]
      rcases op with rfl | rfl
      · exact .ret
      · exact .ret
    · rw [if_neg leaks]
      apply Net.balances
      split
      next op =>
        rw [if_neg fun bad => leaks ⟨Or.inl op, bad⟩]
        exact .act fun _ => .dec_ret
      · split
        next op =>
          rw [if_neg fun bad => leaks ⟨Or.inr op, bad⟩]
          exact .act fun _ => .dec_ret
        · split
          · exact .act fun _ => .dec_ret
          · exact .dec_ret
  | write userBuf count opFlag memory =>
    show Net (sdioWrite userBuf count opFlag memory) _
    unfold sdioWrite
    by_cases leaks : (Call.write userBuf count opFlag memory).Leaks
    · rw [if_pos leaks]
      obtain ⟨op, bad⟩ := leaks
      apply Net.leaks
      rw [if_pos bad, if_pos bad, if_pos bad]
      rcases op with rfl | rfl | rfl
      · exact .ret
      · exact .ret
      · exact .ret
    · rw [if_neg leaks]
      apply Net.balances
      split
      next op =>
        rw [if_neg fun bad => leaks ⟨Or.inl op, bad⟩]
        refine .act fun s => ?_
        split
        · exact sdioCtrl_net .dec_ret
        · exact .dec_ret
      · split
        next op =>
          rw [if_neg fun bad => leaks ⟨Or.inr (Or.inl op), bad⟩]
          exact .act fun _ => sdioCtrl_net .dec_ret
        · split
          next op =>
            rw [if_neg fun bad => leaks ⟨Or.inr (Or.inr op), bad⟩]
            exact .act fun _ => .dec_ret
          · exact .dec_ret

/-! ## Calls of several tasks -/

/-- What each of `n` tasks has still to do. -/
structure System (n : Nat) where
  board : Board
  running : Fin n → Prog

inductive Event (n : Nat)
  | call (task : Fin n) (call : Call)
  | go (task : Fin n)
  /-- The host's commands and the callbacks have moved nodes. -/
  | lists (sdio : Sdio)

variable {n : Nat}

def System.resume (s : System n) (task : Fin n) (board : Board) (rest : Prog) : System n :=
  ⟨board, Function.update s.running task rest⟩

def step : Event n → System n → Option (System n)
  | .call task call, s =>
    match s.running task with
    | .ret => some (s.resume task s.board call.prog)
    | _ => none
  | .go task, s =>
    match s.running task with
    | .ret => none
    | .add rest => some (s.resume task (periBusyCountAdd s.board) rest)
    | .dec rest => some (s.resume task (periBusyCountDec s.board) rest)
    | .act change rest => some (s.resume task { s.board with sdio := change s.board.sdio } (rest s.board.sdio))
  | .lists sdio, s => some { s with board := { s.board with sdio := sdio } }

def Event.Leaks : Event n → Prop
  | .call _ made => made.Leaks
  | .go _ => False
  | .lists _ => False

instance : DecidablePred (@Event.Leaks n)
  | .call _ made => inferInstanceAs (Decidable made.Leaks)
  | .go _ => inferInstanceAs (Decidable False)
  | .lists _ => inferInstanceAs (Decidable False)

def System.Idle (s : System n) : Prop := ∀ task, s.running task = .ret

/-- The leaking calls of a run. -/
def leaked (moments : List (Moment (System n) (Event n))) : Nat := moments.countP fun moment => moment.event.Leaks

/-- The count, with what the calls that are under way will change it by. -/
def Owes (s : System n) (total : UInt32) : Prop :=
  ∃ nets : Fin n → UInt32, (∀ task, Net (s.running task) (nets task)) ∧ s.board.periBusyCount + ∑ task, nets task = total

theorem Owes.resume {s : System n} {task : Fin n} {board : Board} {rest : Prog} {z old : UInt32} {nets : Fin n → UInt32}
    (all : ∀ task, Net (s.running task) (nets task)) (net : Net rest z) (here : nets task = old) :
    Owes (s.resume task board rest) (board.periBusyCount + (z - old + ∑ task, nets task)) := by
  refine ⟨Function.update nets task z, fun other => ?_, ?_⟩
  · by_cases same : other = task
    · subst same
      simpa [System.resume] using net
    · simpa [System.resume, same] using all other
  · rw [Finset.sum_update_of_mem (Finset.mem_univ task), ← here, ← Finset.sum_sdiff (Finset.subset_univ {task}),
      Finset.sum_singleton]
    show board.periBusyCount + _ = _
    abel

theorem Net.ret_eq {z : UInt32} (net : Net .ret z) : z = 0 := by
  cases net
  rfl

/-- A step changes the total only when a leaking call comes. -/
theorem step_owes {s t : System n} {event : Event n} {total : UInt32} (owes : Owes s total)
    (taken : step event s = some t) : Owes t (total + if event.Leaks then 1 else 0) := by
  obtain ⟨nets, all, rfl⟩ := owes
  cases event with
  | call task call =>
    rw [step] at taken
    split at taken
    next idle =>
      obtain rfl := Option.some.inj taken
      have here : nets task = 0 := (idle ▸ all task : Net .ret (nets task)).ret_eq
      have owes := @Owes.resume _ _ _ s.board _ _ _ _ all call.net here
      rw [show (if (Event.call task call).Leaks then (1 : UInt32) else 0) = if call.Leaks then 1 else 0 from rfl]
      convert owes using 1
      abel
    · cases taken
  | go task =>
    rw [show (if (Event.go task).Leaks then (1 : UInt32) else 0) = 0 from rfl, add_zero]
    rw [step] at taken
    have net := all task
    split at taken
    · cases taken
    next rest same =>
      obtain rfl := Option.some.inj taken
      rw [same] at net
      generalize here : nets task = old at net
      cases net with
      | @add _ z net =>
        convert @Owes.resume _ _ _ (periBusyCountAdd s.board) _ _ _ _ all net here using 1
        show _ = s.board.periBusyCount + 1 + _
        abel
    next rest same =>
      obtain rfl := Option.some.inj taken
      rw [same] at net
      generalize here : nets task = old at net
      cases net with
      | @dec _ z net =>
        convert @Owes.resume _ _ _ (periBusyCountDec s.board) _ _ _ _ all net here using 1
        show _ = s.board.periBusyCount - 1 + _
        abel
    next change rest same =>
      obtain rfl := Option.some.inj taken
      rw [same] at net
      generalize here : nets task = old at net
      cases net with
      | @act _ _ z net =>
        convert @Owes.resume _ _ _ { s.board with sdio := change s.board.sdio } _ _ _ _ all (net s.board.sdio) here using 1
        show _ = s.board.periBusyCount + _
        abel
  | lists sdio =>
    obtain rfl := Option.some.inj taken
    exact ⟨nets, all, (add_zero _).symm⟩

theorem Owes.idle {s : System n} {total : UInt32} (idle : s.Idle) (owes : Owes s total) :
    s.board.periBusyCount = total := by
  obtain ⟨nets, all, rfl⟩ := owes
  rw [Finset.sum_eq_zero fun task _ => (idle task ▸ all task : Net .ret (nets task)).ret_eq, add_zero]

theorem System.Idle.owes {s : System n} (idle : s.Idle) : Owes s s.board.periBusyCount :=
  ⟨fun _ => 0, fun task => idle task ▸ .ret, by rw [Finset.sum_const_zero, add_zero]⟩

/-- Over a run the total grows by the leaking calls. -/
theorem run_owes {start final : System n} {moments : List (Moment (System n) (Event n))}
    (run : Run (Machine.Step step) start moments final) (idle : start.Idle) :
    Owes final (start.board.periBusyCount + UInt32.ofNat (leaked moments)) := by
  induction run with
  | nil => exact (add_zero start.board.periBusyCount).symm ▸ idle.owes
  | @next moments s t moment _ last ih =>
    obtain ⟨rfl, taken⟩ := last
    have grown : UInt32.ofNat (leaked (moment :: moments)) =
        UInt32.ofNat (leaked moments) + if moment.event.Leaks then 1 else 0 := by
      unfold leaked
      rw [List.countP_cons, UInt32.ofNat_add]
      by_cases leaks : moment.event.Leaks <;> simp [leaks]
    rw [grown, ← add_assoc]
    exact step_owes ih taken

theorem ofNat_zero_iff {k : Nat} : UInt32.ofNat k = 0 ↔ 2 ^ 32 ∣ k := by
  rw [← UInt32.toNat_inj, UInt32.toNat_ofNat', UInt32.toNat_zero]
  exact (Nat.dvd_iff_mod_eq_zero).symm

/-- A call by itself returns with the count that it found if and only if it does not leak; and when all calls of a run
have returned, the count is what it was if and only if none leaked, unless the `int` has come round. With no leak the
count does not keep the core from sleeping. -/
theorem count_balanced_iff {start final : System n} {moments : List (Moment (System n) (Event n))}
    (run : Run (Machine.Step step) start moments final) (idle : start.Idle) (returned : final.Idle) :
    (∀ (c : Call) (b : Board), (c.prog.run b).periBusyCount = b.periBusyCount ↔ ¬c.Leaks) ∧
      (final.board.periBusyCount = start.board.periBusyCount ↔ 2 ^ 32 ∣ leaked moments) ∧
      (leaked moments = 0 → start.board.periBusyCount = 0 →
        ∀ mcuPsOn mcuPrevent, psMaySleep mcuPsOn mcuPrevent final.board = (mcuPsOn == 1 && mcuPrevent == 0)) := by
  have total := (run_owes run idle).idle returned
  refine ⟨fun c b => ?_, ?_, fun none zero mcuPsOn mcuPrevent => ?_⟩
  · rw [c.net.run, add_eq_left]
    split
    next leaks => exact iff_of_false (by decide) (not_not.mpr leaks)
    next kept => exact iff_of_true rfl kept
  · rw [total, add_eq_left, ofNat_zero_iff]
  · rw [none, zero] at total
    rw [psMaySleep, total]
    cases mcuPsOn == 1 <;> rfl

/-! ## Samples -/

def sampleSystem : System 1 := ⟨⟨0, sdioInit⟩, fun _ => .ret⟩

theorem sampleSystem_idle : sampleSystem.Idle := fun _ => rfl

/-- A task that takes a received node, or finds none, and returns. -/
theorem read_balanced :
    ∃ (moments : List (Moment (System 1) (Event 1))) (final : System 1),
      moments.map Moment.event = [.go 0, .go 0, .go 0, .call 0 (.read false 0 h2sRdSpecial)] ∧
        final.board.periBusyCount = 0 := by
  let called := sampleSystem.resume 0 sampleSystem.board (Call.read false 0 h2sRdSpecial).prog
  let added := called.resume 0 (periBusyCountAdd called.board)
    (.act (fun s => (s.suPopNode .rxDat).2) fun _ => .dec .ret)
  let acted := added.resume 0 { added.board with sdio := (added.board.sdio.suPopNode .rxDat).2 } (.dec .ret)
  let returned := acted.resume 0 (periBusyCountDec acted.board) .ret
  let moments : List (Moment (System 1) (Event 1)) :=
    [⟨acted, .go 0⟩, ⟨added, .go 0⟩, ⟨called, .go 0⟩, ⟨sampleSystem, .call 0 (.read false 0 h2sRdSpecial)⟩]
  have run : Run (Machine.Step step) sampleSystem moments returned :=
    .next (.next (.next (.next .nil ⟨rfl, rfl⟩) ⟨rfl, rfl⟩) ⟨rfl, rfl⟩) ⟨rfl, rfl⟩
  have idle : returned.Idle := fun task => by
    rw [Subsingleton.elim task 0]
    exact Function.update_self (0 : Fin 1) Prog.ret acted.running
  exact ⟨moments, returned, rfl, (count_balanced_iff run sampleSystem_idle idle).2.1.mpr (by decide)⟩

/-- A read without a buffer leaves the count at one. -/
theorem read_without_buffer_leaks :
    ¬∀ (c : Call) (b : Board), (c.prog.run b).periBusyCount = b.periBusyCount := by
  intro claimed
  have same := claimed (.read false 4 s2hRdSync) ⟨0, sdioInit⟩
  exact absurd same (by decide)

end Busy

end BekenSdk.SdioNodes
