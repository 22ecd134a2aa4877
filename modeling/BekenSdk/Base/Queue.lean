import BekenSdk.Base.Machine

/-! A queue: what goes in comes out in the same order. How much of an offer it may take depends on
how much is in it.
-/

set_option autoImplicit false

namespace BekenSdk.Base.Queue

/-- A call with what it was asked and what it did. -/
inductive Call (α : Type) where
  | put (offered : Nat) (taken : List α)
  | get (wanted : Nat) (given : List α)
  | peek (wanted : Nat) (shown : List α)

variable {α : Type} {accepts : Nat → Nat → Nat → Prop} {queue final : List α} {calls : List (Call α)}

/-- `accepts` relates what is in the queue, what is offered and what is taken of it. -/
def Step (accepts : Nat → Nat → Nat → Prop) (queue : List α) : Call α → List α → Prop
  | .put offered taken, next => accepts queue.length offered taken.length ∧ next = queue ++ taken
  | .get wanted given, next => given = queue.take wanted ∧ next = queue.drop wanted
  | .peek wanted shown, next => shown = queue.take wanted ∧ next = queue

/-- What was put in, in order. The calls are listed the latest first. -/
def taken : List (Call α) → List α
  | [] => []
  | .put _ bytes :: earlier => taken earlier ++ bytes
  | .get _ _ :: earlier | .peek _ _ :: earlier => taken earlier

def given : List (Call α) → List α
  | [] => []
  | .get _ bytes :: earlier => given earlier ++ bytes
  | .put _ _ :: earlier | .peek _ _ :: earlier => given earlier

/-- What went in is what came out and what is left. -/
theorem conserved (run : Run (Step accepts) queue calls final) : queue ++ taken calls = given calls ++ final := by
  induction run with
  | nil => exact List.append_nil _
  | @next calls s t call _ last ih =>
    cases call with
    | put offered bytes =>
      obtain ⟨-, rfl⟩ := last
      rw [taken, given, ← List.append_assoc, ih, List.append_assoc]
    | get wanted bytes =>
      obtain ⟨rfl, rfl⟩ := last
      rw [taken, given, ih, List.append_assoc, List.take_append_drop]
    | peek wanted bytes =>
      obtain ⟨-, rfl⟩ := last
      exact ih

theorem Step.unique {call : Call α} {first second : List α} (left : Step accepts queue call first)
    (right : Step accepts queue call second) : first = second := by
  cases call <;> exact left.2.trans right.2.symm

/-- The calls tell what is in the queue. -/
theorem run_unique {other : List α} (run : Run (Step accepts) queue calls final)
    (again : Run (Step accepts) queue calls other) : final = other := by
  induction run generalizing other with
  | nil => cases again; rfl
  | next _ last ih =>
    cases again with
    | next before final =>
      obtain rfl := ih before
      exact last.unique final

end BekenSdk.Base.Queue
