import BekenSdk.Irda.Keys

/-! Which messages the presses lead to. A press is told when the timer stops: by one message for a short or a long
press, by one or more for a held one. This holds as long as the leader and the frame of the next press come after the
timer has stopped; the handler and `irda_isr` share the counts, so that an earlier one spoils them.
-/

set_option autoImplicit false

namespace BekenSdk.Irda
open Base

def Press.Held (press : Press) (msg : UInt32) : Prop := msg = generateKey irKeyTypeHold press.key

/-- The messages that a press should lead to. -/
def Press.Whole (press : Press) (told : List UInt32) : Prop :=
  if press.repeats < 3 then told = [generateKey irKeyTypeShort press.key]
  else if press.repeats < 8 then told = [generateKey irKeyTypeLong press.key]
  else told ≠ [] ∧ ∀ msg ∈ told, press.Held msg

/-- The messages that it may have led to before the timer stops. -/
def Press.Partial (press : Press) (told : List UInt32) : Prop :=
  told = [] ∨ 8 ≤ press.repeats ∧ ∀ msg ∈ told, press.Held msg

/-- The messages are those of the presses, one press after the other. -/
inductive Told : List Press → List UInt32 → Prop where
  | nil : Told [] []
  | press {press : Press} {earlier : List Press} {told messages : List UInt32} (whole : press.Whole told)
      (before : Told earlier messages) : Told (press :: earlier) (told ++ messages)

/-- All presses are told but the pending one, whose messages so far are right. -/
inductive Accounted : Watched → Prop where
  | stopped {w : Watched} (done : w.pending = false) (stopped : w.state.timerRunning = false)
      (told : Told w.presses w.state.messages) : Accounted w
  | pending {w : Watched} {press : Press} {earlier : List Press} {told messages : List UInt32} (open_ : w.pending = true)
      (running : w.state.timerRunning = true) (presses : w.presses = press :: earlier)
      (split : w.state.messages = told ++ messages) (begun : press.Partial told) (before : Told earlier messages) :
      Accounted w

/-- No more than so many ticks, without an interrupt between them, stop the timer. -/
def StopsWithin : Nat → State → Prop
  | 0, s => s.timerRunning = false
  | ticks + 1, s => s.timerRunning = false ∨ StopsWithin ticks (irdaKeyTimerHdl s)

def Matched (w : Watched) : Prop := Accounted w ∧ StopsWithin 11 w.state

/-- While the timer runs, no leader takes repeats from the pending press, no frame of another press comes, and no repeat
is lost: to a frame that is invalid, or to the eight bits of the count. While it stands, a press has a leader of its
own. -/
def Fine (userCode : UInt16) (w : Watched) : Event → Prop
  | .tick => True
  | .interrupt int =>
    if w.state.timerRunning then
      (int.right → w.state.irKey.repeatCnt = 0) ∧ int.presses userCode = false ∧
        (int.repeated → w.state.irKey.repeatCnt ≠ 255 ∧ ¬(int.ended ∧ (int.right ∨ w.state.irKey.validFlag)))
    else int.presses userCode → int.right ∨ w.state.irKey.validFlag ∧ w.state.irKey.repeatCnt = 0

/-- The timer stands. -/
structure Idle (w : Watched) : Prop where
  done : w.pending = false
  stopped : w.state.timerRunning = false
  unheld : w.state.holdFlag = false
  told : Told w.presses w.state.messages

/-- The timer counts towards the repeats of the latest press. -/
structure Counting (press : Press) (earlier : List Press) (told messages : List UInt32) (w : Watched) : Prop where
  pending : w.pending = true
  running : w.state.timerRunning = true
  presses : w.presses = press :: earlier
  split : w.state.messages = told ++ messages
  before : Told earlier messages
  key : w.state.irKey.irKeyCode = press.key
  behind : w.state.irKey.timerCnt ≤ w.state.irKey.repeatCnt
  small : w.state.irKey.timerCnt.toNat ≤ 10

/-- Nothing is told of the press yet. -/
structure Unheld (press : Press) (told : List UInt32) (w : Watched) : Prop where
  unheld : w.state.holdFlag = false
  nothing : told = []
  repeats : w.state.irKey.repeatCnt.toNat = press.repeats

/-- The press is told to be held. -/
structure Held (press : Press) (told : List UInt32) (w : Watched) : Prop where
  held : w.state.holdFlag = true
  something : told ≠ []
  all : ∀ msg ∈ told, press.Held msg
  many : 8 ≤ w.state.irKey.repeatCnt.toNat
  repeats : 8 ≤ press.repeats

inductive Inv (w : Watched) : Prop where
  | idle (idle : Idle w)
  | unheld {press : Press} {earlier : List Press} {told messages : List UInt32}
      (counting : Counting press earlier told messages w) (unheld : Unheld press told w)
  | held {press : Press} {earlier : List Press} {told messages : List UInt32}
      (counting : Counting press earlier told messages w) (held : Held press told w)

theorem Inv.accounted {w : Watched} (inv : Inv w) : Accounted w := by
  cases inv with
  | idle idle => exact .stopped idle.done idle.stopped idle.told
  | unheld counting unheld =>
    exact .pending counting.pending counting.running counting.presses counting.split (Or.inl unheld.nothing)
      counting.before
  | held counting held =>
    exact .pending counting.pending counting.running counting.presses counting.split
      (Or.inr ⟨held.repeats, held.all⟩) counting.before

/-! A tick. -/

section
variable {s : State}

theorem timerCnt_next {count : UInt8} (small : count.toNat ≤ 10) : (count + 1).toNat = count.toNat + 1 := by
  rw [UInt8.toNat_add]
  exact Nat.mod_eq_of_lt (Nat.lt_of_le_of_lt (Nat.succ_le_succ small) (by decide))

/-- The count has come to the repeats: the timer stops. -/
theorem irdaKeyTimerHdl_expired (last : s.irKey.timerCnt = s.irKey.repeatCnt) (small : s.irKey.timerCnt.toNat ≤ 10) :
    (irdaKeyTimerHdl s).timerRunning = false ∧ (irdaKeyTimerHdl s).holdFlag = false ∧
      (irdaKeyTimerHdl s).messages =
        ((expiredKeyType s.irKey.repeatCnt s.holdFlag).map fun keyType =>
          generateKey keyType s.irKey.irKeyCode).toList ++ s.messages := by
  have past : s.irKey.timerCnt + 1 > s.irKey.repeatCnt := by
    rw [gt_iff_lt, UInt8.lt_iff_toNat_lt, timerCnt_next small, ← last]
    exact Nat.lt_succ_self _
  rw [irdaKeyTimerHdl]
  dsimp only
  rw [if_pos past]
  cases expiredKeyType s.irKey.repeatCnt s.holdFlag with
  | none => exact ⟨rfl, rfl, rfl⟩
  | some keyType => exact ⟨rfl, rfl, rfl⟩

theorem not_over (behind : s.irKey.timerCnt.toNat < s.irKey.repeatCnt.toNat) (small : s.irKey.timerCnt.toNat ≤ 10) :
    ¬s.irKey.timerCnt + 1 > s.irKey.repeatCnt := by
  rw [gt_iff_lt, UInt8.lt_iff_toNat_lt, timerCnt_next small]
  omega

theorem irdaKeyTimerHdl_hold (behind : s.irKey.timerCnt.toNat < s.irKey.repeatCnt.toNat)
    (small : s.irKey.timerCnt.toNat ≤ 10) (many : 11 ≤ s.irKey.repeatCnt.toNat) :
    irdaKeyTimerHdl s =
      { s with
        irKey := { s.irKey with repeatCnt := keyLongCnt, timerCnt := keyLongCnt }
        holdFlag := true
        messages := generateKey irKeyTypeHold s.irKey.irKeyCode :: s.messages } := by
  have hold : s.irKey.repeatCnt ≥ keyHoldCnt := UInt8.le_iff_toNat_le.mpr many
  simp only [irdaKeyTimerHdl, if_neg (not_over behind small), if_pos hold]
  rfl

theorem irdaKeyTimerHdl_wait (behind : s.irKey.timerCnt.toNat < s.irKey.repeatCnt.toNat)
    (few : s.irKey.repeatCnt.toNat ≤ 10) :
    irdaKeyTimerHdl s = { s with irKey := { s.irKey with timerCnt := s.irKey.timerCnt + 1 } } := by
  have unheld : ¬s.irKey.repeatCnt ≥ keyHoldCnt := by
    intro hold
    have : 11 ≤ s.irKey.repeatCnt.toNat := UInt8.le_iff_toNat_le.mp hold
    omega
  simp only [irdaKeyTimerHdl, if_neg (not_over behind (show s.irKey.timerCnt.toNat ≤ 10 by omega)), if_neg unheld]

end

theorem StopsWithin.mono {few many : Nat} {s : State} (stops : StopsWithin few s) (le : few ≤ many) :
    StopsWithin many s := by
  induction few generalizing many s with
  | zero =>
    cases many with
    | zero => exact stops
    | succ many => exact Or.inl stops
  | succ few ih =>
    obtain ⟨many, rfl⟩ : ∃ next, many = next + 1 := ⟨many - 1, by omega⟩
    exact stops.imp_right fun stops => ih stops (Nat.le_of_succ_le_succ le)

theorem stopsWithin_wait {ticks : Nat} {s : State} (behind : s.irKey.timerCnt.toNat + ticks = s.irKey.repeatCnt.toNat)
    (few : s.irKey.repeatCnt.toNat ≤ 10) : StopsWithin (ticks + 1) s := by
  induction ticks generalizing s with
  | zero =>
    have last : s.irKey.timerCnt = s.irKey.repeatCnt := UInt8.toNat_inj.mp behind
    exact Or.inr (irdaKeyTimerHdl_expired last (by omega)).1
  | succ ticks ih =>
    refine Or.inr ?_
    rw [irdaKeyTimerHdl_wait (by omega) few]
    refine ih ?_ few
    show (s.irKey.timerCnt + 1).toNat + ticks = s.irKey.repeatCnt.toNat
    rw [timerCnt_next (by omega)]
    omega

/-- However many repeats there are, the next tick leaves the count at 8, where another one ends it. -/
theorem stopsWithin_11 {s : State} (behind : s.irKey.timerCnt ≤ s.irKey.repeatCnt) (small : s.irKey.timerCnt.toNat ≤ 10) :
    StopsWithin 11 s := by
  have behind := UInt8.le_iff_toNat_le.mp behind
  rcases Nat.lt_or_ge s.irKey.repeatCnt.toNat 11 with few | many
  · obtain ⟨ticks, rest⟩ := Nat.exists_eq_add_of_le behind
    exact (stopsWithin_wait rest.symm (by omega)).mono (by omega)
  · refine @StopsWithin.mono 2 11 _ (Or.inr ?_) (by decide)
    rw [irdaKeyTimerHdl_hold (by omega) small many]
    exact @stopsWithin_wait 0 _ rfl (show (8 : Nat) ≤ 10 by decide)

theorem expiredKeyType_short {count : UInt8} {holdFlag : Bool} (few : count.toNat < 3) :
    expiredKeyType count holdFlag = some irKeyTypeShort := if_pos (UInt8.lt_iff_toNat_lt.mpr few)

theorem expiredKeyType_long {count : UInt8} {holdFlag : Bool} (short : 3 ≤ count.toNat) (few : count.toNat < 8) :
    expiredKeyType count holdFlag = some irKeyTypeLong := by
  have notShort : ¬count < keyShortCnt := fun few => absurd (UInt8.lt_iff_toNat_lt.mp few) (Nat.not_lt.mpr short)
  rw [expiredKeyType, if_neg notShort]
  exact if_pos (UInt8.lt_iff_toNat_lt.mpr few)

theorem expiredKeyType_hold {count : UInt8} {holdFlag : Bool} (many : 8 ≤ count.toNat) :
    expiredKeyType count holdFlag = if holdFlag then none else some irKeyTypeHold := by
  have notShort : ¬count < keyShortCnt := fun few =>
    absurd (UInt8.lt_iff_toNat_lt.mp few) (Nat.not_lt.mpr (Nat.le_trans (by decide) many))
  have notLong : ¬count < keyLongCnt := fun few => absurd (UInt8.lt_iff_toNat_lt.mp few) (Nat.not_lt.mpr many)
  rw [expiredKeyType, if_neg notShort, if_neg notLong]

section
variable {press : Press} {earlier : List Press} {told messages : List UInt32} {w : Watched}

/-- What the last tick tells of a press of which nothing is told yet. -/
theorem Unheld.whole (unheld : Unheld press told w) (key : w.state.irKey.irKeyCode = press.key) :
    press.Whole ((expiredKeyType w.state.irKey.repeatCnt w.state.holdFlag).map fun keyType =>
      generateKey keyType w.state.irKey.irKeyCode).toList := by
  rw [key, unheld.unheld]
  have same := unheld.repeats
  rcases Nat.lt_or_ge press.repeats 3 with short | notShort
  · rw [expiredKeyType_short (by omega), Press.Whole, if_pos short]
    rfl
  rcases Nat.lt_or_ge press.repeats 8 with long | hold
  · rw [expiredKeyType_long (by omega) (by omega), Press.Whole, if_neg (Nat.not_lt.mpr notShort), if_pos long]
    rfl
  · rw [expiredKeyType_hold (by omega), Press.Whole, if_neg (Nat.not_lt.mpr notShort), if_neg (Nat.not_lt.mpr hold)]
    refine ⟨List.cons_ne_nil _ _, fun msg member => ?_⟩
    rw [List.mem_singleton.mp member]
    rfl

theorem Held.whole (held : Held press told w) : press.Whole told := by
  have notShort : ¬press.repeats < 3 := by have := held.repeats; omega
  rw [Press.Whole, if_neg notShort, if_neg (Nat.not_lt.mpr held.repeats)]
  exact ⟨held.something, held.all⟩

/-- The last tick of a press, with its last messages. -/
theorem Counting.expired (counting : Counting press earlier told messages w)
    (last : w.state.irKey.timerCnt = w.state.irKey.repeatCnt)
    (whole : press.Whole (((expiredKeyType w.state.irKey.repeatCnt w.state.holdFlag).map fun keyType =>
      generateKey keyType w.state.irKey.irKeyCode).toList ++ told)) :
    Idle ⟨irdaKeyTimerHdl w.state, w.presses, w.pending && (irdaKeyTimerHdl w.state).timerRunning⟩ := by
  obtain ⟨stopped, unheld, sent⟩ := irdaKeyTimerHdl_expired last counting.small
  refine ⟨?_, stopped, unheld, ?_⟩
  · show (w.pending && (irdaKeyTimerHdl w.state).timerRunning) = false
    rw [stopped, Bool.and_false]
  · show Told w.presses (irdaKeyTimerHdl w.state).messages
    rw [sent, counting.presses, counting.split, ← List.append_assoc]
    exact .press whole counting.before

theorem Counting.tick (counting : Counting press earlier told messages w) (state : Unheld press told w ∨ Held press told w) :
    Inv ⟨irdaKeyTimerHdl w.state, w.presses, w.pending && (irdaKeyTimerHdl w.state).timerRunning⟩ := by
  have behind := UInt8.le_iff_toNat_le.mp counting.behind
  have small := counting.small
  rcases Nat.eq_or_lt_of_le behind with last | behind
  · have last := UInt8.toNat_inj.mp last
    refine .idle (counting.expired last ?_)
    rcases state with unheld | held
    · rw [unheld.nothing, List.append_nil]
      exact unheld.whole counting.key
    · rw [expiredKeyType_hold held.many, held.held]
      exact held.whole
  rcases Nat.lt_or_ge w.state.irKey.repeatCnt.toNat 11 with few | many
  · rw [irdaKeyTimerHdl_wait behind (by omega)]
    have next := timerCnt_next small
    have counted : Counting press earlier told messages
        ⟨{ w.state with irKey := { w.state.irKey with timerCnt := w.state.irKey.timerCnt + 1 } }, w.presses,
          w.pending && w.state.timerRunning⟩ := by
      refine { counting with
        pending := by rw [counting.pending, counting.running]; rfl
        behind := UInt8.le_iff_toNat_le.mpr ?_
        small := ?_ }
      · rw [next]
        exact behind
      · rw [next]
        omega
    rcases state with unheld | held
    · exact .unheld counted { unheld with }
    · exact .held counted { held with }
  · rw [irdaKeyTimerHdl_hold behind small many]
    have repeats : 8 ≤ press.repeats := by
      rcases state with unheld | held
      · have := unheld.repeats
        omega
      · exact held.repeats
    have all : ∀ msg ∈ told, press.Held msg := by
      rcases state with unheld | held
      · rw [unheld.nothing]
        exact fun _ member => absurd member List.not_mem_nil
      · exact held.all
    have counted : Counting press earlier (generateKey irKeyTypeHold press.key :: told) messages
        ⟨{ w.state with
            irKey := { w.state.irKey with repeatCnt := keyLongCnt, timerCnt := keyLongCnt }
            holdFlag := true
            messages := generateKey irKeyTypeHold w.state.irKey.irKeyCode :: w.state.messages }, w.presses,
          w.pending && w.state.timerRunning⟩ :=
      { counting with
        pending := by rw [counting.pending, counting.running]; rfl
        split := by rw [counting.key, counting.split]; rfl
        behind := UInt8.le_refl _
        small := show (8 : Nat) ≤ 10 by decide }
    exact .held counted ⟨rfl, List.cons_ne_nil _ _, List.forall_mem_cons.mpr ⟨rfl, all⟩,
      Nat.le_refl 8, repeats⟩

end

theorem Inv.counting {w : Watched} (inv : Inv w) (running : w.state.timerRunning = true) :
    ∃ press earlier told messages, Counting press earlier told messages w ∧
      (Unheld press told w ∨ Held press told w) := by
  cases inv with
  | idle idle => exact absurd (running.symm.trans idle.stopped) (by decide)
  | unheld counting unheld => exact ⟨_, _, _, _, counting, Or.inl unheld⟩
  | held counting held => exact ⟨_, _, _, _, counting, Or.inr held⟩

/-! An interrupt. -/

section
variable {userCode : UInt16} {int : Interrupt}

/-- The repeats after the leader and the repeat of an interrupt. -/
def counted (int : Interrupt) (taken : Bool) (count : UInt8) : UInt8 :=
  (if int.right then 0 else count) + if int.repeated && taken then 1 else 0

/-- An interrupt without the frame of a press leaves all but `valid_flag` and the count. -/
theorem irdaIsr_unpressed (unpressed : int.presses userCode = false) (s : State) :
    irdaIsr userCode int s =
      { s with irKey := { s.irKey with
          validFlag := (irdaIsr userCode int s).irKey.validFlag
          repeatCnt := counted int (!(int.ended && (int.right || s.irKey.validFlag))) s.irKey.repeatCnt } } := by
  obtain ⟨⟨valid, code, repeats, timer⟩, hold, running, messages⟩ := s
  obtain ⟨right, ended, repeated, dout⟩ := int
  have invalid : ended = true → irValueValid userCode dout = false := by
    rintro rfl
    exact unpressed
  cases ended with
  | false => cases right <;> cases repeated <;> simp [irdaIsr, takeRight, takeRepeat, counted]
  | true =>
    have invalid := invalid rfl
    cases right <;> cases repeated <;> cases valid <;>
      simp [irdaIsr, takeRight, takeEnd, takeRepeat, counted, invalid]

/-- The frame of a press, once its leader has come, starts the timer. -/
theorem irdaIsr_pressed (pressed : int.presses userCode = true) {s : State}
    (valid : int.right = true ∨ s.irKey.validFlag = true) :
    irdaIsr userCode int s =
      { s with
        irKey := ⟨true, keyCodeOf int.dout, counted int true s.irKey.repeatCnt, 0⟩
        timerRunning := true } := by
  obtain ⟨⟨flag, code, repeats, timer⟩, hold, running, messages⟩ := s
  obtain ⟨right, ended, repeated, dout⟩ := int
  obtain ⟨rfl, value⟩ := Bool.and_eq_true_iff.mp pressed
  rcases valid with rfl | rfl
  · cases repeated <;> simp [irdaIsr, takeRight, takeEnd, takeRepeat, counted, show irValueValid userCode dout = true from value]
  · cases right <;> cases repeated <;>
      simp [irdaIsr, takeRight, takeEnd, takeRepeat, counted, show irValueValid userCode dout = true from value]

variable {w : Watched}

def interrupted (userCode : UInt16) (int : Interrupt) (w : Watched) : Watched :=
  let watched := watchInterrupt userCode int w.presses w.pending
  ⟨irdaIsr userCode int w.state, watched.1, watched.2⟩

theorem Idle.unpressed (idle : Idle w) (unpressed : int.presses userCode = false) : Idle (interrupted userCode int w) := by
  have after := irdaIsr_unpressed unpressed w.state
  generalize (irdaIsr userCode int w.state).irKey.validFlag = flag at after
  have same : watchInterrupt userCode int w.presses w.pending = (w.presses, false) := by
    simp [watchInterrupt, unpressed, idle.done]
  rw [interrupted, after, same]
  exact ⟨rfl, idle.stopped, idle.unheld, idle.told⟩

theorem Idle.pressed (idle : Idle w) (pressed : int.presses userCode = true)
    (fresh : int.right = true ∨ w.state.irKey.validFlag = true ∧ w.state.irKey.repeatCnt = 0) :
    Inv (interrupted userCode int w) := by
  have after := irdaIsr_pressed pressed (fresh.imp_right And.left)
  have count : counted int true w.state.irKey.repeatCnt = if int.repeated then 1 else 0 := by
    rcases fresh with right | ⟨-, zero⟩
    · simp [counted, right]
    · simp [counted, zero]
  have watched : watchInterrupt userCode int w.presses w.pending =
      (⟨keyCodeOf int.dout, if int.repeated then 1 else 0⟩ :: w.presses, true) := by
    cases repeated : int.repeated <;> simp [watchInterrupt, pressed, repeated, addRepeat]
  rw [interrupted, after, watched, count]
  refine @Inv.unheld _ _ w.presses [] _ ⟨rfl, rfl, rfl, rfl, idle.told, rfl, UInt8.le_iff_toNat_le.mpr (Nat.zero_le _),
    show (0 : Nat) ≤ 10 by decide⟩ ⟨idle.unheld, rfl, ?_⟩
  cases int.repeated <;> rfl

variable {press : Press} {earlier : List Press} {told messages : List UInt32}

/-- While the timer runs, an interrupt that is fine adds its repeat to the count and to the press. -/
theorem Counting.interrupt (counting : Counting press earlier told messages w)
    (state : Unheld press told w ∨ Held press told w) (fine : Fine userCode w (.interrupt int)) :
    Inv (interrupted userCode int w) := by
  rw [Fine, if_pos counting.running] at fine
  obtain ⟨leader, unpressed, kept⟩ := fine
  have after := irdaIsr_unpressed unpressed w.state
  generalize (irdaIsr userCode int w.state).irKey.validFlag = flag at after
  have started : (if int.right then 0 else w.state.irKey.repeatCnt) = w.state.irKey.repeatCnt := by
    split
    next right => exact (leader right).symm
    · rfl
  cases repeated : int.repeated with
  | false =>
    have count : ∀ taken, counted int taken w.state.irKey.repeatCnt = w.state.irKey.repeatCnt := by
      intro taken
      rw [counted, started, repeated]
      exact UInt8.add_zero _
    have watched : watchInterrupt userCode int w.presses w.pending = (w.presses, w.pending) := by
      simp [watchInterrupt, unpressed, repeated]
    rw [interrupted, after, watched, count]
    rcases state with unheld | held
    · exact .unheld { counting with } { unheld with }
    · exact .held { counting with } { held with }
  | true =>
    obtain ⟨room, notLost⟩ := kept repeated
    have taken : (!(int.ended && (int.right || w.state.irKey.validFlag))) = true := by
      rw [Bool.not_eq_true', ← Bool.not_eq_true, Bool.and_eq_true, Bool.or_eq_true]
      exact notLost
    have count : counted int true w.state.irKey.repeatCnt = w.state.irKey.repeatCnt + 1 := by
      rw [counted, started, repeated]
      rfl
    have next : (w.state.irKey.repeatCnt + 1).toNat = w.state.irKey.repeatCnt.toNat + 1 := by
      have : w.state.irKey.repeatCnt.toNat ≠ 255 := fun full => room (UInt8.toNat_inj.mp full)
      have := w.state.irKey.repeatCnt.toNat_lt
      rw [UInt8.toNat_add]
      exact Nat.mod_eq_of_lt (show w.state.irKey.repeatCnt.toNat + 1 < 256 by omega)
    have watched : watchInterrupt userCode int w.presses w.pending =
        ({ press with repeats := press.repeats + 1 } :: earlier, true) := by
      simp [watchInterrupt, unpressed, repeated, counting.pending, counting.presses, addRepeat]
    rw [interrupted, after, watched, taken, count]
    have counting : Counting { press with repeats := press.repeats + 1 } earlier told messages
        ⟨{ w.state with irKey := { w.state.irKey with
            validFlag := flag
            repeatCnt := w.state.irKey.repeatCnt + 1 } },
          { press with repeats := press.repeats + 1 } :: earlier, true⟩ := by
      refine { counting with pending := rfl, presses := rfl, behind := UInt8.le_iff_toNat_le.mpr ?_ }
      have behind := UInt8.le_iff_toNat_le.mp counting.behind
      show w.state.irKey.timerCnt.toNat ≤ (w.state.irKey.repeatCnt + 1).toNat
      rw [next]
      exact Nat.le_succ_of_le behind
    rcases state with unheld | held
    · exact .unheld counting ⟨unheld.unheld, unheld.nothing, next.trans (congrArg (· + 1) unheld.repeats)⟩
    · refine .held counting { held with many := ?_, repeats := Nat.le_succ_of_le held.repeats }
      have := held.many
      rw [next]
      omega

theorem Inv.matched (inv : Inv w) : Matched w := by
  refine ⟨inv.accounted, ?_⟩
  cases inv with
  | idle idle => exact Or.inl idle.stopped
  | unheld counting _ => exact stopsWithin_11 counting.behind counting.small
  | held counting _ => exact stopsWithin_11 counting.behind counting.small

/-- A step that is fine keeps the invariant. -/
theorem Inv.step {event : Event} {after : Watched} (inv : Inv w) (fine : Fine userCode w event)
    (stepped : step userCode event w = some after) : Inv after := by
  cases event with
  | tick =>
    rw [Irda.step] at stepped
    split at stepped
    next running =>
      obtain rfl := Option.some.inj stepped
      obtain ⟨_, _, _, _, counting, state⟩ := inv.counting running
      exact counting.tick state
    · cases stepped
  | interrupt int =>
    obtain rfl := Option.some.inj stepped
    cases inv with
    | unheld counting unheld => exact counting.interrupt (Or.inl unheld) fine
    | held counting held => exact counting.interrupt (Or.inr held) fine
    | idle idle =>
      rw [Fine, if_neg (by simp [idle.stopped])] at fine
      cases pressed : int.presses userCode with
      | false => exact .idle (idle.unpressed pressed)
      | true => exact idle.pressed pressed (fine pressed)

theorem Inv.initial : Inv Watched.initial := .idle ⟨rfl, rfl, rfl, .nil⟩

end

/-- In a run where each press has its leader and its frame once the timer has stopped for the one before, and no repeat
is lost, the messages are those of the presses, and ticks alone stop the timer. -/
theorem presses_matched {userCode : UInt16} {moments : List (Moment Watched Event)} {final : Watched}
    (run : Run (Machine.Step (step userCode)) Watched.initial moments final)
    (fine : ∀ moment ∈ moments, Fine userCode moment.before moment.event) : Machine.Always Matched moments final :=
  (Machine.always_of_invariant run Inv.initial (fun inv fine stepped => Inv.step inv fine stepped) fine).mono
    fun _ inv => inv.matched

/-- A repeat comes between the frame of a press and the tick that stops the timer. -/
def RepeatsInTime (userCode : UInt16) (w : Watched) : Event → Prop
  | .tick => True
  | .interrupt int => int.repeated → w.pending ∨ int.presses userCode

instance (userCode : UInt16) (w : Watched) : (event : Event) → Decidable (Fine userCode w event)
  | .tick => inferInstanceAs (Decidable True)
  | .interrupt int => inferInstanceAs (Decidable (if w.state.timerRunning then
      (int.right → w.state.irKey.repeatCnt = 0) ∧ int.presses userCode = false ∧
        (int.repeated → w.state.irKey.repeatCnt ≠ 255 ∧ ¬(int.ended ∧ (int.right ∨ w.state.irKey.validFlag)))
    else int.presses userCode → int.right ∨ w.state.irKey.validFlag ∧ w.state.irKey.repeatCnt = 0))

instance (userCode : UInt16) (w : Watched) : (event : Event) → Decidable (RepeatsInTime userCode w event)
  | .tick => inferInstanceAs (Decidable True)
  | .interrupt int => inferInstanceAs (Decidable (int.repeated → w.pending ∨ int.presses userCode))

def leader : Interrupt := ⟨true, false, false, 0⟩
def repeatCode : Interrupt := ⟨false, false, true, 0⟩

/-- A frame with user code 0xFF00. -/
def frame (dout : UInt32) : Interrupt := ⟨false, true, false, dout⟩

/-- A key with two repeats, a frame with a wrong complement, and another key with three repeats. -/
def sampleEvents : List Event :=
  (List.replicate 4 .tick ++ List.replicate 3 (.interrupt repeatCode) ++
    [.interrupt (frame 0xee11ff00), .interrupt leader] ++
    [.interrupt (frame 0xaa11ff00), .interrupt leader] ++
    List.replicate 3 .tick ++ List.replicate 2 (.interrupt repeatCode) ++
    [.interrupt (frame 0xed12ff00), .interrupt leader])

def sampleShown (w : Watched) : Bool :=
  w.presses == [⟨0x11, 3⟩, ⟨0x12, 2⟩] && w.state.messages == [0x01000011, 0x00000012] && !w.state.timerRunning

theorem sample_matched : ∃ moments final, Run (Machine.Step (step 0xff00)) Watched.initial moments final ∧
    moments.map Moment.event = sampleEvents ∧ sampleShown final = true ∧
    Machine.Always Matched moments final := by
  have found : (Machine.replay (Machine.guarded (Fine 0xff00) (step 0xff00)) Watched.initial sampleEvents).any
      sampleShown = true := by decide
  obtain ⟨moments, final, run, events, fine, shown⟩ := Machine.run_of_fine found
  exact ⟨moments, final, run, events, shown, presses_matched run fine⟩

/-- A held key, and the leader and the frame of another before the timer has stopped. -/
def overtakenEvents : List Event :=
  [.tick, .interrupt (frame 0xee11ff00), .interrupt leader] ++ List.replicate 9 (.interrupt repeatCode) ++
    [.interrupt (frame 0xed12ff00), .interrupt leader]

def overtakenShown (w : Watched) : Bool :=
  !w.pending && w.presses == [⟨0x11, 0⟩, ⟨0x12, 9⟩] && w.state.messages == [0x00000011]

theorem Press.Whole.ne_nil {press : Press} {told : List UInt32} (whole : press.Whole told) : told ≠ [] := by
  rw [Press.Whole] at whole
  split at whole
  · exact whole ▸ List.cons_ne_nil _ _
  split at whole
  · exact whole ▸ List.cons_ne_nil _ _
  · exact whole.1

theorem Told.length_le {presses : List Press} {messages : List UInt32} (told : Told presses messages) :
    presses.length ≤ messages.length := by
  induction told with
  | nil => exact Nat.le_refl _
  | press whole _ ih =>
    have := List.length_pos_iff.mpr whole.ne_nil
    rw [List.length_append, List.length_cons]
    omega

/-- No message tells of the first press. -/
theorem overtaken_untold : ∃ moments final, Run (Machine.Step (step 0xff00)) Watched.initial moments final ∧
    moments.map Moment.event = overtakenEvents ∧
    (∀ moment ∈ moments, RepeatsInTime 0xff00 moment.before moment.event) ∧ ¬Matched final := by
  have found : (Machine.replay (Machine.guarded (RepeatsInTime 0xff00) (step 0xff00)) Watched.initial
      overtakenEvents).any overtakenShown = true := by decide
  obtain ⟨moments, final, run, events, inTime, shown⟩ := Machine.run_of_fine found
  refine ⟨moments, final, run, events, inTime, fun matched => ?_⟩
  simp only [overtakenShown, Bool.and_eq_true, Bool.not_eq_true', beq_iff_eq] at shown
  obtain ⟨⟨done, presses⟩, messages⟩ := shown
  cases matched.1 with
  | stopped _ _ told =>
    rw [presses, messages] at told
    exact absurd told.length_le (by decide)
  | pending open_ => exact absurd (open_.symm.trans done) (by decide)

end BekenSdk.Irda
