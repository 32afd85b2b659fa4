/-
The execution of a stack by a host. The host is whatever answers the requests
that reach outside of the stack: it starts tasks, hands over messages and
invokes callbacks, in a monad of its own. An execution goes on until the task
gives up its turn, ends or faults, or until the units that it was charged reach
a limit; a limit of zero is no limit, and then the execution may have no end,
so it is given a number of instructions after which it is left unfinished.
-/

import TaskMachine.Execution.Action

namespace TaskMachine

/-- What a stack is executed in. -/
structure Host (m : Type → Type) where
  /-- Starts a child of the executing task, which runs a function, and tells its number. -/
  spawn : Function → m TaskId
  /-- Takes the next message of the executing task, if there is one. -/
  receive : m (Option Value)
  /-- Invokes a callback for the executing task, whose stack is past the instruction. -/
  invoke : Hook → Stack → m Unit

/-- Where an execution stands after an instruction. -/
inductive Progress where
  /-- It goes on, and was charged so much. -/
  | proceed (stack : Stack) (cost : Nat)
  /-- It has stopped. -/
  | stop (stack : Stack) (status : Status)

namespace Stack

variable {m : Type → Type} [Monad m]

/-- The stack with a value stored in a register of the top frame. -/
def keep (stack : Stack) (destination : Fin registerCount) (value : Value) : Stack :=
  { stack with top := stack.top.store destination value }

/-- Executes one instruction. If there is no message to take, the stack is left as it was, so
that the instruction is executed again when the task goes on. -/
@[specialize] def step (host : Host m) (stack : Stack) : m Progress :=
  match stack.act with
  | .proceed next cost => pure (.proceed next cost)
  | .stop next status => pure (.stop next status)
  | .spawn next function destination => do
    let child ← host.spawn function
    pure (.proceed (next.keep destination (.number child.toFloat)) 1)
  | .receive next destination => do
    match ← host.receive with
    | some value => pure (.proceed (next.keep destination value) 1)
    | none => pure (.stop stack (.suspended .message))
  | .invoke next hook => do
    host.invoke hook next
    pure (.proceed next 1)

/-- Executes at most `fuel` instructions, after so many units were charged before. Answers
nothing if the execution has not stopped by then. -/
@[specialize] def advance (host : Host m) (limit : Nat) :
    Nat → Nat → Stack → m (Option (Stack × Status))
  | 0, _, _ => pure none
  | fuel + 1, charged, stack => do
    match ← stack.step host with
    | .stop next status => pure (some (next, status))
    | .proceed next cost =>
      if 0 < limit ∧ limit ≤ charged + cost then pure (some (next, .yielded))
      else advance host limit fuel (charged + cost) next

/-- Executes a stack for one turn. With a limit, as many instructions as the limit has units are
enough; without one, the execution is left unfinished after `fuel` instructions. -/
@[specialize] def execute (host : Host m) (limit fuel : Nat) (stack : Stack) :
    m (Option (Stack × Status)) :=
  stack.advance host limit (if limit = 0 then fuel else limit) 0

end Stack

end TaskMachine
