import BekenSdk.Base.Machine

/-! The infrared keys of irda.c: `irda_isr` takes the leader, the end of a frame and the repeats, and the handler of
hardware timer 4, `irda_key_timer_hdl`, tells a short, a long and a held press apart by the number of repeats.
-/

set_option autoImplicit false

namespace BekenSdk.Irda
open Base

def irKeyTypeShort : UInt32 := 0
def irKeyTypeLong : UInt32 := 1
def irKeyTypeHold : UInt32 := 2

def keyShortCnt : UInt8 := 3
def keyLongCnt : UInt8 := 8
def keyHoldCnt : UInt8 := 11

def generateKey (keyType : UInt32) (value : UInt8) : UInt32 := (keyType <<< 24) ||| value.toUInt32

/-- `IR_key` without its queue, its user code, which does not change, and `repeat_flag`, which is not read. -/
structure IrKey where
  validFlag : Bool
  irKeyCode : UInt8
  repeatCnt : UInt8
  timerCnt : UInt8

/-- `IR_key`, the static `hold_flag` of the handler, whether the hardware timer runs, and the messages for the queue,
the latest first. -/
structure State where
  irKey : IrKey
  holdFlag : Bool
  timerRunning : Bool
  messages : List UInt32

/-- The variables before `Irda_init_app`, which leaves them so. -/
def State.initial : State := ⟨⟨false, 0, 0, 0⟩, false, false, []⟩

def irSendKey (msg : UInt32) (s : State) : State := { s with messages := msg :: s.messages }

/-- What `op_flag` and `key_type` ask for once the count is over the repeats: SND_KEY with the type, or STOP_TIMER
alone. -/
def expiredKeyType (repeatCnt : UInt8) (holdFlag : Bool) : Option UInt32 :=
  if repeatCnt < keyShortCnt then some irKeyTypeShort
  else if repeatCnt < keyLongCnt then some irKeyTypeLong
  else if holdFlag then none
  else some irKeyTypeHold

def irdaKeyTimerHdl (s : State) : State :=
  let key := { s.irKey with timerCnt := s.irKey.timerCnt + 1 }
  if key.timerCnt > key.repeatCnt then
    let told := match expiredKeyType key.repeatCnt s.holdFlag with
      | some keyType => irSendKey (generateKey keyType key.irKeyCode) s
      | none => s
    { told with irKey := key, holdFlag := false, timerRunning := false }
  else if key.repeatCnt ≥ keyHoldCnt then
    { irSendKey (generateKey irKeyTypeHold key.irKeyCode) s with
      irKey := { key with repeatCnt := keyLongCnt, timerCnt := keyLongCnt }
      holdFlag := true }
  else { s with irKey := key }

/-- What IRDA_INT and RX_FIFO_DOUT show at an interrupt. -/
structure Interrupt where
  right : Bool
  ended : Bool
  repeated : Bool
  dout : UInt32

def userCodeMask : UInt32 := 0xffff
def keyCodeMask : UInt32 := 0xff0000
def keyCodeShift : UInt32 := 16
def keyCodeInversMask : UInt32 := 0xff000000
def keyCodeInversShift : UInt32 := 24

def keyCodeOf (tmp : UInt32) : UInt8 := ((tmp &&& keyCodeMask) >>> keyCodeShift).toUInt8

/-- The user code is the receiver's, and the last byte is the complement of the key code. -/
def irValueValid (userCode : UInt16) (tmp : UInt32) : Bool :=
  (tmp &&& userCodeMask) == userCode.toUInt32 &&
    (((tmp &&& keyCodeInversMask) >>> keyCodeInversShift) ^^^ ((tmp &&& keyCodeMask) >>> keyCodeShift)) == 0xff

section
variable (userCode : UInt16)

/-- `right_int`. -/
def takeRight (right : Bool) (s : State) : State :=
  if right then { s with irKey := { s.irKey with validFlag := true, repeatCnt := 0 } } else s

/-- `end_int` with `valid_flag` set. `start_irda_handle_timer` starts the timer, also when it runs already. -/
def takeEnd (tmp : UInt32) (s : State) : State :=
  if irValueValid userCode tmp then
    { s with irKey := { s.irKey with irKeyCode := keyCodeOf tmp, timerCnt := 0 }, timerRunning := true }
  else { s with irKey := { s.irKey with validFlag := false } }

/-- `repeat_int`. -/
def takeRepeat (repeated : Bool) (s : State) : State :=
  if repeated then { s with irKey := { s.irKey with repeatCnt := s.irKey.repeatCnt + 1 } } else s

def irdaIsr (int : Interrupt) (s : State) : State :=
  let s := takeRight int.right s
  if int.ended && s.irKey.validFlag then
    let s := takeEnd userCode int.dout s
    -- an invalid frame leaves the function before `repeat_int`
    if irValueValid userCode int.dout then takeRepeat int.repeated s else s
  else takeRepeat int.repeated s

end

/-- A frame with a valid code, and the repeats that came before the timer stopped. -/
structure Press where
  key : UInt8
  repeats : Nat
  deriving DecidableEq

/-- The state with the presses, the latest first, and whether the timer has to stop yet for the latest. -/
structure Watched where
  state : State
  presses : List Press
  pending : Bool

def Watched.initial : Watched := ⟨State.initial, [], false⟩

def addRepeat : List Press → List Press
  | [] => []
  | press :: earlier => { press with repeats := press.repeats + 1 } :: earlier

inductive Event where
  | interrupt (int : Interrupt)
  | tick

section
variable (userCode : UInt16)

/-- Whether the interrupt brings the frame of a press. -/
def Interrupt.presses (int : Interrupt) : Bool := int.ended && irValueValid userCode int.dout

/-- The frame of an interrupt comes before its repeat. -/
def watchInterrupt (int : Interrupt) (presses : List Press) (pending : Bool) : List Press × Bool :=
  let pressed := int.presses userCode
  let presses := if pressed then ⟨keyCodeOf int.dout, 0⟩ :: presses else presses
  let pending := pressed || pending
  (if int.repeated && pending then addRepeat presses else presses, pending)

/-- The timer ticks every 112 ms while it runs. -/
def step : Event → Watched → Option Watched
  | .interrupt int, w =>
    let watched := watchInterrupt userCode int w.presses w.pending
    some ⟨irdaIsr userCode int w.state, watched.1, watched.2⟩
  | .tick, w =>
    if w.state.timerRunning then
      let s := irdaKeyTimerHdl w.state
      some ⟨s, w.presses, w.pending && s.timerRunning⟩
    else none

end

end BekenSdk.Irda
