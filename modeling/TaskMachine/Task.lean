/-
What a scheduler keeps of a task. A task is alive until it ends, and a zombie
from then on for as long as something still refers to it: its own life counts
as one reference, each child that is still there as another, and the embedder
can hold more.
-/

import TaskMachine.Agenda
import TaskMachine.Frame
import TaskMachine.Inbox.Mailroom

namespace TaskMachine

/-- Whether a task has ended. -/
inductive Life where
  /-- It has not. -/
  | alive
  /-- It has, and something still refers to it. -/
  | zombie
  deriving DecidableEq, Repr

/-- The two queues of a scheduler. -/
inductive Lane where
  /-- The tasks that can run. -/
  | run
  /-- The tasks that wait for something. -/
  | wait
  deriving DecidableEq, Repr

/-- What a waiting task waits for. -/
inductive Awaited where
  /-- A timer. -/
  | timer (timer : TimerId)
  /-- A message. -/
  | message
  deriving DecidableEq, Repr

/-- The place of a task among all tasks of a scheduler. Places are not used again. -/
abbrev Slot := Nat

/-- The neighbours of a task in its queue. -/
structure Links where
  next : Option Slot
  previous : Option Slot
  deriving DecidableEq, Repr

/-- No neighbours. -/
def Links.none : Links := ⟨.none, .none⟩

/-! ### Flags -/

/-- Options of a task, as a set of bits. -/
structure Flags where
  bits : UInt8
  deriving DecidableEq, Repr, Inhabited

namespace Flags

/-- No options. -/
def empty : Flags := ⟨0⟩

/-- The task is sent a message when a child of it ends. -/
def trapExit : Flags := ⟨1⟩

/-- Whether all options of a set are in another. -/
def contains (flags other : Flags) : Bool := flags.bits &&& other.bits == other.bits

/-- The options of either set. -/
def union (flags other : Flags) : Flags := ⟨flags.bits ||| other.bits⟩

end Flags

/-! ### How a task ends -/

/-- How a task ended. -/
inductive Exit where
  /-- Its function returned these values. -/
  | returned (values : List Value)
  /-- It faulted. -/
  | faulted (fault : Fault)
  /-- It was ended because its parent had ended. -/
  | orphaned

/-- What a task that traps exits is sent. -/
def Exit.code : Exit → Value
  | .returned _ => .number 0
  | .faulted _ => .number 1
  | .orphaned => .number 2

/-! ### Tasks -/

/-- A task. -/
structure Task where
  id : TaskId
  /-- Its stack. It is away while the task has its turn, and gone when the task has ended. -/
  stack : Option Stack
  /-- The task that created it. -/
  parent : Option Slot
  /-- How many references keep it from being destroyed. -/
  references : Nat
  life : Life
  flags : Flags
  /-- What it waits for, if it is in the wait queue. -/
  awaited : Option Awaited
  /-- Its neighbours in the queue that it is in. -/
  links : Links
  /-- The queue that it is in. -/
  lane : Option Lane
  /-- Where it is sent messages. -/
  mailbox : Mailbox
  /-- Who is told when it ends, in order. -/
  watchers : List Nat

/-- A task that has not been scheduled yet. -/
def Task.created (id : TaskId) (function : Function) (parent : Option Slot) (mailbox : Mailbox) :
    Task :=
  { id
    stack := some (.entering function)
    parent
    references := 1
    life := .alive
    flags := .empty
    awaited := none
    links := .none
    lane := none
    mailbox
    watchers := [] }

/-- The state of a task, as the embedder sees it. -/
inductive TaskState where
  /-- It has not been scheduled. -/
  | created
  /-- It has its turn. -/
  | running
  /-- It is in the run queue. -/
  | ready
  /-- It is in the wait queue. -/
  | waiting
  /-- It has ended, and something still refers to it. -/
  | zombie
  /-- It is gone. -/
  | destroyed
  deriving DecidableEq, Repr

namespace TaskState

/-- Every state. -/
def all : List TaskState := [created, running, ready, waiting, zombie, destroyed]

/-- The name of a state. -/
def name : TaskState → String
  | created => "Created"
  | running => "Running"
  | ready => "Ready"
  | waiting => "Waiting"
  | zombie => "Zombie"
  | destroyed => "Destroyed"

end TaskState

/-- The state of a task that is still there. -/
def Task.state (task : Task) : TaskState :=
  match task.life, task.lane with
  | .zombie, _ => .zombie
  | .alive, some .wait => .waiting
  | .alive, some .run => if task.stack.isSome then .ready else .running
  | .alive, none => if task.stack.isSome then .created else .running

end TaskMachine
