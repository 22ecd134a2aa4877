import Mathlib.Data.List.Infix

/-! A stream split into lines that end with two given elements, one after the
other. The lines before a point of the stream do not depend on what follows.
-/

set_option autoImplicit false

namespace BekenSdk.Base.LineSplit
variable {α : Type} [DecidableEq α] {ret stop : α}

/-- Whether the next element ends the line. -/
def Ends (ret stop : α) (line : List α) (next : α) : Prop := next = stop ∧ line.getLast? = some ret

instance {line : List α} {next : α} : Decidable (Ends ret stop line next) := inferInstanceAs (Decidable (_ ∧ _))

/-- The lines that end in the stream and what is left over, when a part of the first
line came before. -/
def splitFrom (ret stop : α) (line : List α) : List α → List (List α) × List α
  | [] => ([], line)
  | next :: rest =>
    if Ends ret stop line next then
      (line.dropLast :: (splitFrom ret stop [] rest).1, (splitFrom ret stop [] rest).2)
    else splitFrom ret stop (line ++ [next]) rest

variable {line first second : List α} {next : α}

theorem splitFrom_ends (ends : Ends ret stop line next) (rest : List α) :
    splitFrom ret stop line (next :: rest) =
      (line.dropLast :: (splitFrom ret stop [] rest).1, (splitFrom ret stop [] rest).2) :=
  if_pos ends

theorem splitFrom_goes_on (goes : ¬Ends ret stop line next) (rest : List α) :
    splitFrom ret stop line (next :: rest) = splitFrom ret stop (line ++ [next]) rest :=
  if_neg goes

/-- Cutting the stream changes nothing. -/
theorem splitFrom_append (line first second : List α) :
    splitFrom ret stop line (first ++ second) =
      ((splitFrom ret stop line first).1 ++ (splitFrom ret stop (splitFrom ret stop line first).2 second).1,
        (splitFrom ret stop (splitFrom ret stop line first).2 second).2) := by
  induction first generalizing line with
  | nil => rfl
  | cons next rest ih =>
    rw [List.cons_append]
    by_cases ends : Ends ret stop line next
    · rw [splitFrom_ends ends, splitFrom_ends ends, ih]
      rfl
    · rw [splitFrom_goes_on ends, splitFrom_goes_on ends, ih]

/-- The lines with their ends and what is left over make up the stream. -/
theorem splitFrom_joined (line stream : List α) :
    ((splitFrom ret stop line stream).1.flatMap fun whole => whole ++ [ret,
      stop]) ++ (splitFrom ret stop line stream).2 =
      line ++ stream := by
  induction stream generalizing line with
  | nil => exact (List.append_nil line).symm
  | cons next rest ih =>
    by_cases ends : Ends ret stop line next
    · obtain ⟨rfl, last⟩ := ends
      rw [splitFrom_ends ⟨rfl, last⟩, List.flatMap_cons, List.append_assoc, ih, List.nil_append]
      conv_rhs => rw [← List.dropLast_append_getLast? ret last]
      simp only [List.append_assoc, List.cons_append, List.nil_append]
    · rw [splitFrom_goes_on ends, ih, List.append_assoc, List.singleton_append]

/-- When every line is short, so is what came before the stream. -/
theorem length_of_short {bound : Nat} {stream : List α}
    (lines : ∀ whole ∈ (splitFrom ret stop line stream).1, whole.length ≤ bound)
    (left : (splitFrom ret stop line stream).2.length ≤ bound) : line.length ≤ bound + 1 := by
  induction stream generalizing line with
  | nil => exact Nat.le_succ_of_le left
  | cons next rest ih =>
    by_cases ends : Ends ret stop line next
    · rw [splitFrom_ends ends] at lines
      have short := lines _ List.mem_cons_self
      rw [List.length_dropLast] at short
      omega
    · rw [splitFrom_goes_on ends] at lines left
      have more := ih lines left
      rw [List.length_append, List.length_singleton] at more
      omega

end BekenSdk.Base.LineSplit
