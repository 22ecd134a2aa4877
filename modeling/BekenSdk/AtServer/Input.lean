import BekenSdk.Base.CData
import Mathlib.Logic.Function.Basic

/-! The input of the AT server (atsvr_core.c, atsvr_port.c): bytes from the UART are
gathered in `rxbuf` until a line is whole. The buffer stands in `atsvr_port_env`
between a pointer and the cursor.
-/

set_option autoImplicit false

namespace BekenSdk.AtServer

def atsvrInputBuffMaxSize : Nat := 2048
def rxRbLength : Nat := 128
def atsvrRetChar : UInt8 := 0x0D
def atsvrEndChar : UInt8 := 0x0A

/-- `before` is the last byte of `resources_protection`. -/
structure AtsvrPort where
  uartOverflow : Bool
  before : UInt8
  rxbuf : Nat → UInt8
  bp : Nat

inductive Access where
  | read (index : Int)
  | write (index : Int)
  deriving DecidableEq

def Access.index : Access → Int
  | read index => index
  | write index => index

def Access.Inside (access : Access) : Prop := 0 ≤ access.index ∧ access.index < atsvrInputBuffMaxSize

inductive Output where
  /-- What `atsvr_msg_handler` is given. -/
  | stream (msg : List UInt8)
  | noticeError
  | msgOverflow
  deriving DecidableEq

namespace AtsvrPort
variable (port : AtsvrPort)

/-- `inbuf[index]`. -/
def get (index : Int) : UInt8 := if index < 0 then port.before else port.rxbuf index.toNat

/-- `inbuf[index] = value`. The cursor's lowest byte comes right after the buffer. -/
def put (index : Nat) (value : UInt8) : AtsvrPort :=
  if index < atsvrInputBuffMaxSize then { port with rxbuf := Function.update port.rxbuf index value }
  else { port with bp := port.bp / 256 * 256 + value.toNat }

end AtsvrPort

/-- What a call of `atsvr_msg_get_input` returns and leaves. -/
structure Got where
  state : Int
  port : AtsvrPort
  fifo : List UInt8
  accesses : List Access
  outputs : List Output

def Got.after (accesses : List Access) (got : Got) : Got := { got with accesses := accesses ++ got.accesses }

/-- The loop of `atsvr_msg_get_input` over the bytes that wait. -/
def inputChars (port : AtsvrPort) : List UInt8 → Got
  | [] => ⟨0, port.put (port.bp + 1) 0, [], [.write (port.bp + 1)], []⟩
  | char :: fifo =>
    let stored := port.put port.bp char
    let seen : List Access := [.write port.bp, .read (port.bp - 1), .read port.bp]
    if stored.get (port.bp - 1) = atsvrRetChar ∧ stored.get port.bp = atsvrEndChar then
      if 2 ≤ port.bp then ⟨1, stored.put (port.bp - 1) 0, fifo, seen ++ [.write (port.bp - 1)], []⟩
      else if port.bp = 0 then (inputChars stored fifo).after seen
      else ⟨-1, { stored with bp := 0 }, fifo, seen, []⟩
    else if stored.get port.bp = 0 then ⟨-1, { stored with bp := port.bp + 1 }, fifo, seen, []⟩
    else if atsvrInputBuffMaxSize ≤ port.bp + 1 then ⟨0, { stored with bp := 0 }, fifo, seen, [.msgOverflow]⟩
    else (inputChars { stored with bp := port.bp + 1 } fifo).after seen

def atsvrMsgGetInput (port : AtsvrPort) (fifo : List UInt8) : Got :=
  if port.uartOverflow then ⟨-10, { port with uartOverflow := false, bp := 0 }, fifo.drop rxRbLength, [],
    [.msgOverflow]⟩
  else inputChars port fifo

structure Server where
  port : AtsvrPort
  fifo : List UInt8
  accesses : List Access
  outputs : List Output

/-- Every call that goes on has taken a byte or cleared the flag. -/
def remaining (port : AtsvrPort) (fifo : List UInt8) : Nat := fifo.length + if port.uartOverflow then 1 else 0

theorem inputChars_remaining (port : AtsvrPort) (fifo : List UInt8) :
    (inputChars port fifo).port.uartOverflow = port.uartOverflow ∧
      ((inputChars port fifo).state ≠ 0 → (inputChars port fifo).fifo.length < fifo.length) := by
  have flag (port : AtsvrPort) (index : Nat) (value : UInt8) :
      (port.put index value).uartOverflow = port.uartOverflow := by
    unfold AtsvrPort.put
    split <;> rfl
  induction fifo generalizing port with
  | nil => exact ⟨flag _ _ _, fun never => absurd rfl never⟩
  | cons char fifo ih =>
    unfold inputChars
    dsimp only
    split
    · split
      · exact ⟨(flag _ _ _).trans (flag _ _ _), fun _ => Nat.lt_succ_self _⟩
      split
      · have later := ih (port.put port.bp char)
        exact ⟨later.1.trans (flag _ _ _), fun on => Nat.lt_succ_of_lt (later.2 on)⟩
      · exact ⟨flag _ _ _, fun _ => Nat.lt_succ_self _⟩
    split
    · exact ⟨flag _ _ _, fun _ => Nat.lt_succ_self _⟩
    split
    · exact ⟨flag _ _ _, fun never => absurd rfl never⟩
    · have later := ih { port.put port.bp char with bp := port.bp + 1 }
      exact ⟨later.1.trans (flag _ _ _), fun on => Nat.lt_succ_of_lt (later.2 on)⟩

theorem atsvrMsgGetInput_remaining {port : AtsvrPort} {fifo : List UInt8}
    (on : (atsvrMsgGetInput port fifo).state ≠ 0) :
    remaining (atsvrMsgGetInput port fifo).port (atsvrMsgGetInput port fifo).fifo < remaining port fifo := by
  unfold atsvrMsgGetInput remaining at *
  split at on
  next flag =>
    simp only [flag, if_true, List.length_drop, Bool.false_eq_true, if_false]
    omega
  next flag =>
    obtain ⟨same, fewer⟩ := inputChars_remaining port fifo
    rw [if_neg flag, same]
    exact Nat.add_lt_add_right (fewer on) _

/-- The loop at `con`. What the handler of a line leaves in the buffer is not fixed. -/
def con (handler : (Nat → UInt8) → Nat → Nat → UInt8) (server : Server) : Server :=
  let got := atsvrMsgGetInput server.port server.fifo
  let accesses := server.accesses ++ got.accesses
  let outputs := server.outputs ++ got.outputs
  if whole : got.state = 1 then
    let msg := (List.range got.port.bp).map got.port.rxbuf
    con handler
      ⟨{ got.port with rxbuf := handler got.port.rxbuf got.port.bp, bp := 0 }, got.fifo, accesses,
        outputs ++ [.stream msg]⟩
  else if bad : got.state ≤ -1 then
    con handler ⟨{ got.port with bp := 0 }, got.fifo, accesses, outputs ++ [.noticeError]⟩
  else if got.state ≠ 0 then ⟨{ got.port with bp := 0 }, got.fifo, accesses, outputs⟩
  else ⟨got.port, got.fifo, accesses, outputs⟩
termination_by remaining server.port server.fifo
decreasing_by
  · exact atsvrMsgGetInput_remaining fun zero => absurd (whole.symm.trans zero) (by decide)
  · exact atsvrMsgGetInput_remaining fun zero => absurd (le_of_eq_of_le zero.symm bad) (by decide)

/-- One round of `atsvr_msg_main`, with the bytes that arrive before it. -/
def wake (handler : (Nat → UInt8) → Nat → Nat → UInt8) (server : Server) (chunk : List UInt8) : Server :=
  con handler { server with fifo := server.fifo ++ chunk }

/-- `atsvr_port` at the start. -/
def atsvrPort (before : UInt8) : AtsvrPort := ⟨false, before, fun _ => 0, 0⟩

/-- The rounds of `atsvr_msg_main` in the common mode, one for each chunk. -/
def atsvrMsgMain (handler : (Nat → UInt8) → Nat → Nat → UInt8) (before : UInt8) (cuts : List (List UInt8)) : Server :=
  cuts.foldl (wake handler) ⟨atsvrPort before, [], [], []⟩

/-! ## Splitting

The splitter of a line into arguments (`_at_server.c`). It edits the line in place: what ends an argument becomes NUL,
and an escaped character is moved over its backslash. The dispatcher then reads every argument once more with `sscanf`.
-/

open Base

def atsvrMaxArg : Nat := 16
def atsvrGeneral : Int := 1

def equalsChar : UInt8 := 0x3D
def quoteChar : UInt8 := 0x22
def spaceChar : UInt8 := 0x20
def commaChar : UInt8 := 0x2C
def backslashChar : UInt8 := 0x5C
def dotChar : UInt8 := 0x2E

/-- `memmove` within a buffer. -/
def memmove (buffer : List UInt8) (dst src count : Nat) : List UInt8 :=
  buffer.take dst ++ (buffer.drop src).take count ++ buffer.drop (dst + count)

/-- The string that a pointer into a buffer points to. -/
def stringAt (buffer : List UInt8) (offset : Nat) : List UInt8 := (buffer.drop offset).takeWhile (· ≠ 0)

/-! ## The state machine -/

/-- `isD` has two bits: an equals sign has come, and an argument behind it. -/
structure Stat where
  inArg : Bool
  inQuote : Bool
  done : Bool
  isD : Nat
  limQ : Bool
  deriving DecidableEq

/-- The locals of `_atsvr_handle_input`, with what it returns early, its accesses to `inbuf` and the entries of `argv` that
it stores. What is beyond the table is kept like the rest of `argv`. -/
structure Splitter where
  inbuf : List UInt8
  i : Nat
  argc : Nat
  argv : Nat → Option Nat
  stat : Stat
  returned : Option Int
  accesses : List Access
  stores : List Nat

namespace Splitter
variable (s : Splitter)

/-- After both `memset`s. -/
def start (inbuf : List UInt8) : Splitter := ⟨inbuf, 0, 0, fun _ => none, ⟨false, false, false, 0, false⟩, none, [], []⟩

def char : UInt8 := s.inbuf.getD s.i 0

def return_ (code : Int) : Splitter := { s with returned := some code }

def touch (accesses : List Access) : Splitter := { s with accesses := s.accesses ++ accesses }

/-- `inbuf[i] = '\0'` -/
def cut : Splitter := { s.touch [.write s.i] with inbuf := s.inbuf.set s.i 0 }

/-- A new argument begins at the offset. -/
def argument (offset : Nat) (inQuote : Bool) : Splitter :=
  { s with
    argc := s.argc + 1
    argv := Function.update s.argv s.argc (some offset)
    stores := s.stores ++ [s.argc]
    stat := { s.stat with
      inArg := true
      inQuote := inQuote
      limQ := false
      isD := if s.stat.isD = 1 then 2 else s.stat.isD } }

/-- `i > 0 && inbuf[i - 1] == '\\' && stat.inArg` -/
def escaped : Bool := decide (0 < s.i ∧ s.inbuf.getD (s.i - 1) 0 = backslashChar) && s.stat.inArg

/-- The read of that condition. -/
def lookBack : Splitter := if 0 < s.i then s.touch [.read (s.i - 1)] else s

/-- The character and all that follows is moved over the backslash. -/
def shift : Splitter :=
  let count := strlenAt (s.inbuf.drop s.i) + 1
  { s.touch ((List.range count).map (fun k : Nat => .read (s.i + k)) ++
      (List.range count).map (fun k : Nat => .write (s.i - 1 + k))) with
    inbuf := memmove s.inbuf (s.i - 1) s.i count
    i := s.i - 1 }

def onNul : Splitter :=
  if s.stat.inQuote ∨ s.stat.limQ ∨ s.stat.isD = 1 then s.return_ 2
  else { s with stat := { s.stat with done := true } }

def onEquals : Splitter :=
  if s.argc = 1 then { s.cut with stat := { s.stat with inArg := false, isD := 1 } }
  else if s.argc = 0 then s.return_ 4
  else s

def onQuote : Splitter :=
  if s.escaped then s.lookBack.shift
  else
    let s := s.lookBack
    match s.stat.inQuote, s.stat.inArg with
    | false, true => s
    | true, false => s.return_ 2
    | false, false => s.argument (s.i + 1) true
    | true, true => { s.cut with stat := { s.stat with inArg := false, inQuote := false } }

def onSpace : Splitter :=
  if s.escaped then s.lookBack.shift
  else
    let s := s.lookBack
    if ¬s.stat.inQuote ∧ s.stat.inArg then { s.cut with stat := { s.stat with inArg := false } } else s

def onComma : Splitter :=
  if s.stat.isD = 1 ∧ s.argc = 1 then s.return_ 5
  else if s.stat.inArg ∧ ¬s.stat.inQuote then { s.cut with stat := { s.stat with inArg := false, limQ := true } }
  else s

def onOther : Splitter := if ¬s.stat.inArg then s.argument s.i s.stat.inQuote else s

/-- The `switch`. -/
def turn : Splitter :=
  let s := s.touch [.read s.i]
  if s.char = 0 then s.onNul
  else if s.char = equalsChar then s.onEquals
  else if s.char = quoteChar then s.onQuote
  else if s.char = spaceChar then s.onSpace
  else if s.char = commaChar then s.onComma
  else s.onOther

/-- The loop; `none` is that the fuel does not suffice. -/
def scan : Nat → Splitter → Option Splitter
  | 0, _ => none
  | fuel + 1, s =>
    let t := s.turn
    if t.returned.isSome ∨ t.stat.done then some t
    else if t.i + 1 < atsvrInputBuffMaxSize then scan fuel { t with i := t.i + 1 }
    else some { t with i := t.i + 1 }

end Splitter

/-! ## The dispatcher -/

/-- `struct _atsvr_command`; a handler is whatever the application makes of it. -/
structure AtsvrCommand (F : Type) where
  name : List UInt8
  function : Option F

/-- `argc` and `argv` as they are passed on, with the buffer that `argv` points into, and the entry that was set to `env`. -/
structure Call where
  argc : UInt8
  argv : Nat → Option Nat
  inbuf : List UInt8
  env : Option Nat

def Call.offset (call : Call) (k : Nat) : Nat := (call.argv k).getD 0

/-- The arguments as strings. -/
def Call.arguments (call : Call) : List (List UInt8) :=
  (List.range call.argc.toNat).map fun k => stringAt call.inbuf (call.offset k)

inductive Result (F : Type) where
  | returned (code : Int)
  /-- The handler is called, and `ATSVR_OK` returned. -/
  | called (function : F) (call : Call)

/-- What `_atsvr_handle_input` does. -/
structure Handled (F : Type) where
  result : Result F
  /-- The call of `_atsvc_command_handle`. -/
  dispatch : Option Call
  accesses : List Access
  stores : List Nat

/-- The handler that is called, with its arguments as strings. -/
def Handled.handed {F : Type} (handled : Handled F) : Option (F × List (List UInt8)) :=
  match handled.result with
  | .returned _ => none
  | .called function call => some (function, call.arguments)

section
variable {F : Type} (commands : List (AtsvrCommand F))

/-- The commands are those that were registered; `len` is the length of a part that has to match, or zero. -/
def atsvrLookupAtCommand (name : List UInt8) (len : Nat) : Option (AtsvrCommand F) :=
  commands.find? fun command =>
    if len ≠ 0 then len ≤ command.name.length ∧ command.name.take len = name.take len
    else command.name.length = name.length ∧ command.name = name

/-- `strchr(argv[0], '.')` as a number, or zero. -/
def dotPosition (name : List UInt8) : Nat := if dotChar ∈ name then name.idxOf dotChar else 0

/-- What `%[^"]` after a quote takes of a string. -/
def scanned (text : List UInt8) : Option (List UInt8) :=
  match text with
  | [] => none
  | char :: rest =>
    if char = quoteChar ∧ rest.takeWhile (· ≠ quoteChar) ≠ [] then some (rest.takeWhile (· ≠ quoteChar)) else none

/-- The accesses to a string, its NUL with them. -/
def stringReads (offset : Nat) (text : List UInt8) : List Access :=
  (List.range (text.length + 1)).map fun k : Nat => .read (offset + k)

def stringWrites (offset : Nat) (text : List UInt8) : List Access :=
  (List.range (text.length + 1)).map fun k : Nat => .write (offset + k)

/-- `sscanf(argv[i], "\"%[^\"]\"", argv[i])` -/
def sscanf (inbuf : List UInt8) (offset : Nat) : List UInt8 × List Access :=
  let text := stringAt inbuf offset
  match scanned text with
  | some word =>
    (inbuf.take offset ++ (word ++ [0]) ++ inbuf.drop (offset + (word.length + 1)),
      stringReads offset text ++ stringWrites offset word)
  | none => (inbuf, stringReads offset text)

/-- The loop over the arguments. -/
def sscanfAll (call : Call) : List UInt8 × List Access :=
  (List.range call.argc.toNat).foldl
    (fun done k =>
      let next := sscanf done.1 (call.offset k)
      (next.1, done.2 ++ next.2))
    (call.inbuf, [])

/-- `ATSVR_HANDLER_ENV` is 0: `env` is stored behind the arguments when there is room. -/
def atsvcCommandHandle (call : Call) : Handled F :=
  let name := stringAt call.inbuf (call.offset 0)
  let reads := stringReads (call.offset 0) name
  match (atsvrLookupAtCommand commands name (dotPosition name)).bind AtsvrCommand.function with
  | none => ⟨.returned atsvrGeneral, some call, reads, []⟩
  | some function =>
    let rescan := sscanfAll call
    let env := if call.argc.toNat < atsvrMaxArg then some call.argc.toNat else none
    ⟨.called function { call with inbuf := rescan.1, env := env }, some call, reads ++ rescan.2, env.toList⟩

/-- What follows the loop. -/
def Splitter.finish (s : Splitter) : Handled F :=
  match s.returned with
  | some code => ⟨.returned code, none, s.accesses, s.stores⟩
  | none =>
    if s.stat.inQuote then ⟨.returned 2, none, s.accesses, s.stores⟩
    else if s.argc < 1 then ⟨.returned 0, none, s.accesses, s.stores⟩
    else
      let handled := atsvcCommandHandle commands ⟨UInt8.ofNat s.argc, s.argv, s.inbuf, none⟩
      { handled with accesses := s.accesses ++ handled.accesses, stores := s.stores ++ handled.stores }

def atsvrHandleInput (fuel : Nat) (inbuf : List UInt8) : Option (Handled F) :=
  (Splitter.scan fuel (Splitter.start inbuf)).map (Splitter.finish commands)

end

end BekenSdk.AtServer
