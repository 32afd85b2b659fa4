/-
The result of a task, as the world outside of its thread sees it. A completion
is a slot that is filled once; whoever asks before that can leave a waker, which
is called when the slot is filled.
-/

import TaskMachine.Task

namespace TaskMachine

/-- Why a task did not return. -/
inductive Failure where
  /-- It faulted. -/
  | fault (fault : Fault)
  /-- It was ended because its parent had ended. -/
  | orphaned
  /-- Its pool shut down first. -/
  | shutdown
  deriving DecidableEq, Repr

/-- What is reported for a pool that has shut down. -/
def shutdownText : String := "reactor shut down"

namespace Failure

/-- What a failure is reported as. -/
def message : Failure → String
  | fault reason => "task faulted: " ++ reason.message
  | orphaned => "task was orphaned"
  | shutdown => shutdownText

/-- The fault behind a failure, if there is one. -/
def fault? : Failure → Option Fault
  | fault reason => some reason
  | _ => none

end Failure

/-- The values that a task returned, or why it returned none. -/
abbrev Outcome := Except Failure (List Value)

/-- The outcome of a task that ended in some way. -/
def Exit.outcome : Exit → Outcome
  | .returned values => .ok values
  | .faulted fault => .error (.fault fault)
  | .orphaned => .error .orphaned

/-- The slot for the outcome of a task. -/
structure Completion where
  /-- The outcome, once there is one. -/
  result : Option Outcome
  /-- The wakers to call then. -/
  pending : List Nat

namespace Completion

/-- A slot that is not filled. -/
def empty : Completion := ⟨none, []⟩

/-- Fills the slot. Tells which wakers are to be called. -/
def complete (completion : Completion) (outcome : Outcome) : Completion × List Nat :=
  (⟨some outcome, []⟩, completion.pending)

/-- Asks for the outcome. If there is none yet, the waker is left, unless it was left before. -/
def poll (completion : Completion) (waker : Nat) : Completion × Option Outcome :=
  match completion.result with
  | some outcome => (completion, some outcome)
  | none =>
    if waker ∈ completion.pending then (completion, none)
    else ({ completion with pending := completion.pending ++ [waker] }, none)

/-- To ask changes no outcome. -/
@[simp] theorem result_poll (completion : Completion) (waker : Nat) :
    (completion.poll waker).1.result = completion.result := by
  unfold poll
  split
  · rfl
  · split <;> rfl

/-- Who asks is told the outcome that there is. -/
@[simp] theorem poll_answer (completion : Completion) (waker : Nat) :
    (completion.poll waker).2 = completion.result := by
  unfold poll
  split
  · rename_i outcome found
    exact found.symm
  · rename_i missing
    split <;> exact missing.symm

end Completion

end TaskMachine
