/-
The execution of a stack on its own, without a scheduler. Children are counted
and not run, messages come from a line of values, and whatever reaches outside
of the stack is written down.
-/

import TaskMachine.Execution.Run

namespace TaskMachine

/-- What a stack on its own asked of the world outside. -/
inductive SoloEvent where
  /-- It started a child. -/
  | spawned (function : Function) (child : TaskId)
  /-- It invoked a callback. -/
  | invoked (hook : Hook) (stack : Stack)

/-- The world of a stack on its own. -/
structure Solo where
  /-- The number of the next child. -/
  nextId : TaskId
  /-- The values that it can still receive, oldest first. -/
  inbox : List Value
  /-- What it asked for, latest first. -/
  events : List SoloEvent

namespace Solo

/-- Starts no task, but counts it. -/
def spawn (function : Function) : StateM Solo TaskId :=
  modifyGet fun solo =>
    (solo.nextId,
      { solo with
        nextId := solo.nextId.next
        events := .spawned function solo.nextId :: solo.events })

/-- Takes the oldest value. -/
def receive : StateM Solo (Option Value) :=
  modifyGet fun solo =>
    match solo.inbox with
    | [] => (none, solo)
    | value :: rest => (some value, { solo with inbox := rest })

/-- Writes down the callback. -/
def invoke (hook : Hook) (stack : Stack) : StateM Solo Unit :=
  modify fun solo => { solo with events := .invoked hook stack :: solo.events }

/-- The host of a stack on its own. -/
def host : Host (StateM Solo) := { spawn, receive, invoke }

/-- Puts a value at the end of the line. -/
def send (solo : Solo) (value : Value) : Solo := { solo with inbox := solo.inbox ++ [value] }

end Solo

end TaskMachine
