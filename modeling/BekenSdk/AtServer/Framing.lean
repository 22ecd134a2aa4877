import BekenSdk.AtServer.Input
import BekenSdk.Base.LineSplit

/-! The lines that the input hands over, against the stream split at its line ends.
Where the lines and what is left at every cut are short, cutting the stream
changes nothing. The byte before the buffer is read at the start of every line.
-/

set_option autoImplicit false

namespace BekenSdk.AtServer
open Base LineSplit

abbrev split : List UInt8 → List UInt8 → List (List UInt8) × List UInt8 := splitFrom atsvrRetChar atsvrEndChar

/-- The longest line that fits the buffer with its end. -/
def lineMax : Nat := atsvrInputBuffMaxSize - 2

/-- The messages of the lines, without the empty ones. -/
def messages (lines : List (List UInt8)) : List (List UInt8) := (lines.filter (· ≠ [])).map (· ++ [0])

/-- What a stream comes to, when lines that are too long are rejected. -/
def handedOver (stream : List UInt8) : List (List UInt8) :=
  messages ((split [] stream).1.filter (·.length ≤ lineMax))

def Output.message : Output → Option (List UInt8)
  | .stream msg => some msg
  | _ => none

def Server.lines (server : Server) : List (List UInt8) := server.outputs.filterMap Output.message

structure Server.Framed (server : Server) (stream : List UInt8) : Prop where
  lines : server.lines = handedOver stream
  consumed : server.fifo = []
  inside : ∀ access ∈ server.accesses, access.Inside

/-- Every line fits, and no call runs dry within the last two bytes of the buffer. -/
structure Short (before : UInt8) (cuts : List (List UInt8)) : Prop where
  before : before ≠ atsvrRetChar
  noNul : 0 ∉ cuts.flatten
  lines : ∀ line ∈ (split [] cuts.flatten).1, line.length ≤ lineMax
  left : ∀ earlier, earlier <+: cuts → (split [] earlier.flatten).2.length ≤ lineMax

/-! ## Calls -/

/-- The buffer holds the bytes of an unfinished line. -/
structure AtsvrPort.Gathered (port : AtsvrPort) (line : List UInt8) : Prop where
  flag : port.uartOverflow = false
  before : port.before ≠ atsvrRetChar
  chars : (List.range port.bp).map port.rxbuf = line

def Access.Near (access : Access) : Prop := access.Inside ∨ access = .read (-1)

variable {port : AtsvrPort} {line fifo : List UInt8} {char : UInt8}

theorem AtsvrPort.Gathered.bp (gathered : port.Gathered line) : port.bp = line.length := by
  rw [← gathered.chars, List.length_map, List.length_range]

theorem put_inside {index : Nat} (inside : index < atsvrInputBuffMaxSize) (value : UInt8) :
    port.put index value = { port with rxbuf := Function.update port.rxbuf index value } :=
  if_pos inside

/-- The cursor of a full buffer is spoilt when a call runs dry. -/
theorem cursor_falls_back (full : port.bp = 2047) : (inputChars port []).port.bp = 1792 := by
  rw [inputChars, AtsvrPort.put, full]
  rfl

theorem map_update (size : Nat) (rxbuf : Nat → UInt8) (value : UInt8) :
    (List.range size).map (Function.update rxbuf size value) = (List.range size).map rxbuf := by
  apply List.map_congr_left
  intro i member
  exact Function.update_of_ne (List.mem_range.mp member).ne _ _

theorem AtsvrPort.Gathered.next (gathered : port.Gathered line) (char : UInt8) :
    AtsvrPort.Gathered { port with rxbuf := Function.update port.rxbuf port.bp char, bp := port.bp + 1 }
      (line ++ [char]) where
  flag := gathered.flag
  before := gathered.before
  chars := by
    dsimp only
    rw [List.range_succ, List.map_append, map_update, gathered.chars, List.map_singleton, Function.update_self]

/-- The test of a line's end, which looks one byte back. -/
theorem AtsvrPort.Gathered.ends (gathered : port.Gathered line) (inside : port.bp < atsvrInputBuffMaxSize) :
    (port.put port.bp char).get (port.bp - 1) = atsvrRetChar ∧ (port.put port.bp char).get port.bp = atsvrEndChar ↔
      Ends atsvrRetChar atsvrEndChar line char := by
  have here : (port.put port.bp char).get port.bp = char := by
    rw [put_inside inside, AtsvrPort.get, if_neg (by omega)]
    exact Function.update_self _ _ _
  have back : (port.put port.bp char).get (port.bp - 1) = atsvrRetChar ↔ line.getLast? = some atsvrRetChar := by
    rw [put_inside inside, AtsvrPort.get, ← gathered.chars]
    cases at_ : port.bp with
    | zero => exact iff_of_false gathered.before nofun
    | succ n =>
      have index : (((n + 1 : Nat) : Int) - 1).toNat = n := by omega
      rw [if_neg (by omega), index, List.range_succ, List.map_append, List.map_singleton, List.getLast?_concat,
        Option.some.injEq]
      dsimp only
      rw [Function.update_of_ne n.lt_succ_self.ne]
  rw [here, back, Ends, and_comm]

/-- What a call comes to on the bytes that wait: it runs dry, or one line ends. -/
structure Called (line fifo : List UInt8) (got : Got) : Prop where
  near : ∀ access ∈ got.accesses, access.Near
  quiet : got.outputs = []
  flag : got.port.uartOverflow = false
  before : got.port.before ≠ atsvrRetChar
  left : got.fifo <:+ fifo
  came :
    got.state = 0 ∧ got.fifo = [] ∧ (split line fifo).1 = [] ∧ got.port.Gathered (split line fifo).2 ∨
    ∃ whole, split line fifo = (whole :: (split [] got.fifo).1, (split [] got.fifo).2) ∧
      (got.state = 1 ∧ whole ≠ [] ∧ (List.range got.port.bp).map got.port.rxbuf = whole ++ [0] ∨
        got.state = -1 ∧ whole = [])

theorem near_seen (inside : port.bp < atsvrInputBuffMaxSize) :
    ∀ access ∈ ([.write port.bp, .read (port.bp - 1), .read port.bp] : List Access), access.Near := by
  have here : (0 : Int) ≤ port.bp ∧ (port.bp : Int) < atsvrInputBuffMaxSize := by omega
  simp only [List.forall_mem_cons, List.not_mem_nil, false_imp_iff, implies_true, and_true]
  refine ⟨.inl here, ?_, .inl here⟩
  cases at_ : port.bp with
  | zero => exact .inr rfl
  | succ n =>
    rw [at_] at here
    refine .inl ⟨?_, ?_⟩
    · change (0 : Int) ≤ (n + 1 : Nat) - 1
      omega
    · change ((n + 1 : Nat) : Int) - 1 < atsvrInputBuffMaxSize
      omega

theorem Called.after {got : Got} {accesses : List Access} (called : Called (line ++ [char]) fifo got)
    (near : ∀ access ∈ accesses, access.Near) (goes : ¬Ends atsvrRetChar atsvrEndChar line char) :
    Called line (char :: fifo) (got.after accesses) where
  near := List.forall_mem_append.mpr ⟨near, called.near⟩
  quiet := called.quiet
  flag := called.flag
  before := called.before
  left := called.left.trans (List.suffix_cons _ _)
  came := by
    rw [split, splitFrom_goes_on goes]
    exact called.came

theorem inputChars_called (gathered : port.Gathered line) (noNul : 0 ∉ fifo)
    (lines : ∀ whole ∈ (split line fifo).1, whole.length ≤ lineMax) (left : (split line fifo).2.length ≤ lineMax) :
    Called line fifo (inputChars port fifo) := by
  induction fifo generalizing port line with
  | nil =>
    have inside : port.bp + 1 < atsvrInputBuffMaxSize := by
      rw [gathered.bp]
      exact Nat.lt_of_le_of_lt (Nat.succ_le_succ left) (by decide)
    rw [inputChars, put_inside inside]
    refine ⟨?_, rfl, gathered.flag, gathered.before, List.suffix_rfl, .inl ⟨rfl, rfl, rfl, ?_⟩⟩
    · rw [List.forall_mem_singleton]
      refine .inl ⟨?_, ?_⟩
      · change (0 : Int) ≤ port.bp + 1
        omega
      · change ((port.bp : Int) + 1) < atsvrInputBuffMaxSize
        omega
    · refine ⟨gathered.flag, gathered.before, ?_⟩
      refine Eq.trans (List.map_congr_left fun i member => ?_) gathered.chars
      exact Function.update_of_ne (Nat.lt_succ_of_lt (List.mem_range.mp member)).ne _ _
  | cons char fifo ih =>
    have bp := gathered.bp
    have inside : port.bp < atsvrInputBuffMaxSize := by
      have short := length_of_short lines left
      rw [bp]
      exact Nat.lt_of_le_of_lt short (by decide)
    have char_ne : char ≠ 0 := fun zero => noNul (zero ▸ List.mem_cons_self)
    have here : (port.put port.bp char).get port.bp = char := by
      rw [put_inside inside, AtsvrPort.get, if_neg (by omega)]
      exact Function.update_self _ _ _
    have seen := near_seen inside
    unfold inputChars
    dsimp only
    by_cases ends : Ends atsvrRetChar atsvrEndChar line char
    · rw [if_pos ((gathered.ends inside).mpr ends), put_inside inside]
      have whole := splitFrom_ends ends fifo
      obtain ⟨before, rfl⟩ : ∃ before, line = before ++ [atsvrRetChar] :=
        ⟨line.dropLast, (List.dropLast_append_getLast? _ ends.2).symm⟩
      rw [List.length_append, List.length_singleton] at bp
      rw [List.dropLast_concat] at whole
      split
      next long =>
        rw [put_inside (by omega)]
        refine ⟨?_, rfl, gathered.flag, gathered.before, List.suffix_cons _ _, .inr ⟨before, whole, .inl ⟨rfl, ?_, ?_⟩⟩⟩
        · refine List.forall_mem_append.mpr ⟨seen, List.forall_mem_singleton.mpr (.inl ⟨?_, ?_⟩)⟩
          · change (0 : Int) ≤ port.bp - 1
            omega
          · change ((port.bp : Int) - 1) < atsvrInputBuffMaxSize
            omega
        · rintro rfl
          rw [List.length_nil] at bp
          omega
        · have chars := gathered.chars
          dsimp only
          rw [bp, List.range_succ, List.map_append, List.map_singleton] at chars ⊢
          rw [Nat.add_sub_cancel, map_update, Function.update_self]
          have first := List.append_inj_left chars (by rw [List.length_map, List.length_range])
          refine congrArg (· ++ [(0 : UInt8)]) (Eq.trans (List.map_congr_left fun i member => ?_) first)
          exact Function.update_of_ne (Nat.lt_succ_of_lt (List.mem_range.mp member)).ne _ _
      next short =>
        rw [if_neg (by omega)]
        obtain rfl : before = [] := List.length_eq_zero_iff.mp (by omega)
        exact ⟨seen, rfl, gathered.flag, gathered.before, List.suffix_cons _ _, .inr ⟨[], whole, .inr ⟨rfl, rfl⟩⟩⟩
    · rw [if_neg (mt (gathered.ends inside).mp ends), here, if_neg char_ne, put_inside inside]
      have goes := splitFrom_goes_on ends fifo
      rw [split, goes] at lines left
      have later := length_of_short lines left
      rw [List.length_append, List.length_singleton, ← bp] at later
      rw [if_neg (Nat.not_le_of_lt (Nat.lt_of_le_of_lt later (by decide)))]
      apply Called.after _ seen ends
      exact ih (gathered.next char) (fun member => noNul (List.mem_cons_of_mem _ member)) lines left

/-! ## Rounds -/

variable {handler : (Nat → UInt8) → Nat → Nat → UInt8} {server : Server} {before : UInt8} {cuts : List (List UInt8)}

theorem atsvrMsgGetInput_chars (clear : port.uartOverflow = false) (fifo : List UInt8) :
    atsvrMsgGetInput port fifo = inputChars port fifo := by
  rw [atsvrMsgGetInput, clear, if_neg Bool.false_ne_true]

/-- What a round comes to, from a buffer with an unfinished line. -/
structure Served (line : List UInt8) (server done : Server) : Prop where
  lines : done.lines = server.lines ++ messages (split line server.fifo).1
  consumed : done.fifo = []
  gathered : done.port.Gathered (split line server.fifo).2
  near : ∀ access ∈ done.accesses, access.Near

theorem messages_cons (whole : List UInt8) (lines : List (List UInt8)) :
    messages (whole :: lines) = (if whole = [] then [] else [whole ++ [0]]) ++ messages lines := by
  by_cases empty : whole = []
  · rw [if_pos empty, messages, List.filter_cons_of_neg (by simpa using empty)]
    rfl
  · rw [if_neg empty, messages, List.filter_cons_of_pos (by simpa using empty)]
    rfl

theorem messages_append (first second : List (List UInt8)) :
    messages (first ++ second) = messages first ++ messages second := by
  rw [messages, List.filter_append, List.map_append]
  rfl

/-- The induction is on the bytes that wait: every line that ends takes some. -/
theorem con_served (gathered : server.port.Gathered line) (noNul : 0 ∉ server.fifo)
    (lines : ∀ whole ∈ (split line server.fifo).1, whole.length ≤ lineMax)
    (left : (split line server.fifo).2.length ≤ lineMax) (near : ∀ access ∈ server.accesses, access.Near) :
    Served line server (con handler server) := by
  induction size : server.fifo.length using Nat.strong_induction_on generalizing server line with
  | h size_ ih =>
    subst size
    have called := inputChars_called gathered noNul lines left
    have fewer := (inputChars_remaining server.port server.fifo).2
    rw [con, atsvrMsgGetInput_chars gathered.flag]
    dsimp only
    generalize inputChars server.port server.fifo = got at called fewer
    have nearer := List.forall_mem_append.mpr ⟨near, called.near⟩
    have noNul' : 0 ∉ got.fifo := fun member => noNul (called.left.mem member)
    rcases called.came with ⟨zero, dry, none, rest⟩ | ⟨whole, ended, ⟨one, some, msg⟩ | ⟨bad, rfl⟩⟩
    · rw [dif_neg (by omega), dif_neg (by omega), if_neg (by omega)]
      refine ⟨?_, dry, rest, nearer⟩
      rw [none, Server.lines, called.quiet]
      exact List.filterMap_append
    all_goals
      rw [ended] at lines left
      have later := (List.forall_mem_cons.mp lines).2
    · rw [dif_pos one]
      have fresh : AtsvrPort.Gathered { got.port with rxbuf := handler got.port.rxbuf got.port.bp, bp := 0 } [] :=
        ⟨called.flag, called.before, rfl⟩
      have served := @ih _ (fewer (by omega)) [] ⟨_, got.fifo, server.accesses ++ got.accesses,
        server.outputs ++ got.outputs ++ [.stream ((List.range got.port.bp).map got.port.rxbuf)]⟩ fresh noNul' later left
        nearer rfl
      refine ⟨?_, served.consumed, ?_, served.near⟩
      · rw [served.lines, ended, messages_cons, if_neg some, ← msg, called.quiet, ← List.append_assoc]
        simp only [Server.lines, List.filterMap_append, List.append_nil]
        rfl
      · rw [ended]
        exact served.gathered
    · rw [dif_neg (by omega), dif_pos (by omega)]
      have fresh : AtsvrPort.Gathered { got.port with bp := 0 } [] := ⟨called.flag, called.before, rfl⟩
      have served := @ih _ (fewer (by omega)) [] ⟨_, got.fifo, server.accesses ++ got.accesses,
        server.outputs ++ got.outputs ++ [.noticeError]⟩ fresh noNul' later left nearer rfl
      refine ⟨?_, served.consumed, ?_, served.near⟩
      · rw [served.lines, ended, messages_cons, if_pos rfl, called.quiet]
        simp only [Server.lines, List.filterMap_append, List.append_nil, List.append_assoc]
        rfl
      · rw [ended]
        exact served.gathered

theorem Short.earlier {chunk : List UInt8} (short : Short before (cuts ++ [chunk])) : Short before cuts where
  before := short.before
  noNul member := short.noNul (by rw [List.flatten_append]; exact List.mem_append_left _ member)
  lines line member := by
    apply short.lines
    rw [List.flatten_append, split, splitFrom_append]
    exact List.mem_append_left _ member
  left earlier here := short.left earlier (here.trans (List.prefix_append _ _))

/-- However a stream of short lines is cut, its lines are handed over. -/
theorem served_of_short (short : Short before cuts) :
    (atsvrMsgMain handler before cuts).lines = messages (split [] cuts.flatten).1 ∧
      (atsvrMsgMain handler before cuts).fifo = [] ∧
      (atsvrMsgMain handler before cuts).port.Gathered (split [] cuts.flatten).2 ∧
      ∀ access ∈ (atsvrMsgMain handler before cuts).accesses, access.Near := by
  induction cuts using List.reverseRecOn with
  | nil => exact ⟨rfl, rfl, ⟨rfl, short.before, rfl⟩, fun _ never => absurd never List.not_mem_nil⟩
  | append_singleton cuts chunk ih =>
    obtain ⟨lines, consumed, gathered, near⟩ := ih short.earlier
    have flat : (cuts ++ [chunk]).flatten = cuts.flatten ++ chunk := by
      rw [List.flatten_append, List.flatten_singleton]
    have all := short.lines
    have left := short.left _ List.prefix_rfl
    have noNul := short.noNul
    rw [flat, split, splitFrom_append] at all left
    rw [flat] at noNul
    have round : atsvrMsgMain handler before (cuts ++ [chunk]) =
      wake handler (atsvrMsgMain handler before cuts) chunk := by
      rw [atsvrMsgMain, List.foldl_append]
      rfl
    rw [round, wake, flat, split, splitFrom_append, consumed, List.nil_append]
    have served := @con_served _ handler { atsvrMsgMain handler before cuts with fifo := chunk } gathered
      (fun member => noNul (List.mem_append_right _ member)) (fun whole member => all whole (List.mem_append_right _ member))
      left near
    refine ⟨?_, served.consumed, served.gathered, served.near⟩
    refine served.lines.trans ((congrArg (· ++ _) lines).trans ?_)
    exact (messages_append _ _).symm

theorem handedOver_of_short (short : Short before cuts) :
    handedOver cuts.flatten = messages (split [] cuts.flatten).1 := by
  rw [handedOver, List.filter_eq_self.mpr]
  exact fun line member => decide_eq_true (short.lines line member)

/-! ## The first byte -/

theorem con_accesses (access : Access) (member : access ∈ server.accesses) :
    access ∈ (con handler server).accesses := by
  fun_induction con handler server with
  | case1 server got accesses outputs one msg ih => exact ih (List.mem_append_left _ member)
  | case2 server got accesses outputs one bad ih => exact ih (List.mem_append_left _ member)
  | case3 | case4 => exact List.mem_append_left _ member

theorem inputChars_reads (start : port.bp = 0) (char : UInt8) (fifo : List UInt8) :
    .read (-1) ∈ (inputChars port (char :: fifo)).accesses := by
  have seen : Access.read (-1) ∈ ([.write port.bp, .read (port.bp - 1), .read port.bp] : List Access) := by
    rw [start]
    decide
  unfold inputChars
  dsimp only
  split
  · split
    · exact List.mem_append_left _ seen
    · exact List.mem_append_left _ seen
  split
  · exact seen
  split
  · exact seen
  · exact List.mem_append_left _ seen

/-- A server at the start of a line, with nothing gathered and nothing waiting. -/
structure Server.Idle (server : Server) : Prop where
  flag : server.port.uartOverflow = false
  start : server.port.bp = 0
  fifo : server.fifo = []

theorem wake_reads (idle : server.Idle) (char : UInt8) (chunk : List UInt8) :
    .read (-1) ∈ (wake handler server (char :: chunk)).accesses := by
  have reads := inputChars_reads idle.start char chunk
  rw [wake, idle.fifo, List.nil_append, con, atsvrMsgGetInput_chars idle.flag]
  dsimp only
  split
  · exact con_accesses _ (List.mem_append_right _ reads)
  split
  · exact con_accesses _ (List.mem_append_right _ reads)
  split <;> exact List.mem_append_right _ reads

theorem wake_nil (idle : server.Idle) :
    wake handler server [] =
      { server with port := server.port.put 1 0, accesses := server.accesses ++ [.write 1] } := by
  rw [wake, List.append_nil, con, atsvrMsgGetInput_chars idle.flag, idle.fifo, inputChars, idle.start]
  simp only [List.append_nil]
  rfl

theorem Server.Idle.wake (idle : server.Idle) : (wake handler server []).Idle := by
  rw [wake_nil idle]
  exact ⟨idle.flag, idle.start, idle.fifo⟩

theorem rounds_read (idle : server.Idle) (some : cuts.flatten ≠ []) :
    .read (-1) ∈ (cuts.foldl (wake handler) server).accesses := by
  induction cuts generalizing server with
  | nil => exact absurd rfl some
  | cons chunk cuts ih =>
    cases chunk with
    | nil => exact ih idle.wake some
    | cons char chunk =>
      rw [List.foldl_cons]
      have first : .read (-1) ∈ (wake handler server (char :: chunk)).accesses := wake_reads idle char chunk
      generalize wake handler server (char :: chunk) = later at first
      clear ih some idle
      induction cuts generalizing later with
      | nil => exact first
      | cons chunk cuts ih => exact ih _ (con_accesses _ first)

theorem rounds_of_nothing (idle : server.Idle) (none : cuts.flatten = [])
    (inside : ∀ access ∈ server.accesses, access.Inside) :
    (cuts.foldl (wake handler) server).lines = server.lines ∧ (cuts.foldl (wake handler) server).fifo = [] ∧
      ∀ access ∈ (cuts.foldl (wake handler) server).accesses, access.Inside := by
  induction cuts generalizing server with
  | nil => exact ⟨rfl, idle.fifo, inside⟩
  | cons chunk cuts ih =>
    obtain ⟨rfl, rest⟩ := List.append_eq_nil_iff.mp none
    have all := @ih (wake handler server []) idle.wake rest (by
      rw [wake_nil idle]
      exact List.forall_mem_append.mpr ⟨inside, List.forall_mem_singleton.mpr ⟨by decide, by decide⟩⟩)
    refine ⟨all.1.trans ?_, all.2⟩
    rw [wake_nil idle]
    rfl

theorem start_idle (before : UInt8) : Server.Idle ⟨atsvrPort before, [], [], []⟩ := ⟨rfl, rfl, rfl⟩

/-- The input is framed and inside the buffer exactly while nothing is received. Where the
lines are short, however they are cut, every byte comes to be in a line or in the buffer, and
all that is amiss is the read before the buffer. -/
theorem input_framed_iff (handler : (Nat → UInt8) → Nat → Nat → UInt8) (before : UInt8) (cuts : List (List UInt8)) :
    ((atsvrMsgMain handler before cuts).Framed cuts.flatten ↔ cuts.flatten = []) ∧
      (Short before cuts →
        (atsvrMsgMain handler before cuts).lines = handedOver cuts.flatten ∧
          (atsvrMsgMain handler before cuts).fifo = [] ∧
          (∃ left, (atsvrMsgMain handler before cuts).port.Gathered left ∧
            ((split [] cuts.flatten).1.flatMap fun line => line ++ [atsvrRetChar, atsvrEndChar]) ++ left =
            cuts.flatten) ∧
          ∀ access ∈ (atsvrMsgMain handler before cuts).accesses, access.Inside ∨ access = .read (-1)) := by
  refine ⟨⟨fun framed => ?_, fun none => ?_⟩, fun short => ?_⟩
  · by_contra some
    exact absurd (framed.inside _ (rounds_read (start_idle before) some)).1 (by decide)
  · obtain ⟨lines, consumed, inside⟩ := @rounds_of_nothing handler _ _ (start_idle before) none
      fun _ never => absurd never List.not_mem_nil
    refine ⟨lines.trans ?_, consumed, inside⟩
    rw [none]
    rfl
  · obtain ⟨lines, consumed, gathered, near⟩ := @served_of_short handler _ _ short
    refine ⟨lines.trans (handedOver_of_short short).symm, consumed, ⟨_, gathered, ?_⟩, near⟩
    exact splitFrom_joined [] cuts.flatten

/-- For the first byte, the byte before the buffer is read. -/
theorem first_byte_reads_before :
    ¬∀ (handler : (Nat → UInt8) → Nat → Nat → UInt8) (before : UInt8) (cuts : List (List UInt8)),
      (atsvrMsgMain handler before cuts).Framed cuts.flatten := by
  intro all
  have framed := all (fun rxbuf _ => rxbuf) 0 [[0x41]]
  exact absurd (framed.inside _ (rounds_read (start_idle 0) (by decide))).1 (by decide)

end BekenSdk.AtServer
