/-
What an embedder can do wrong with a scheduler. A crash breaks an operation off
where it is; what the operation had changed by then stays changed.
-/

import TaskMachine.Task

namespace TaskMachine

/-- Why an operation broke off. -/
inductive Crash where
  /-- There is no task with this number any more, or there never was one. -/
  | destroyed (task : TaskId)
  /-- There is a task with this number already. -/
  | alreadyExists (task : TaskId)
  /-- The task has ended. -/
  | alreadyEnded (task : TaskId)
  /-- The task is in a queue. -/
  | alreadyEnqueued (task : TaskId) (lane : Lane)
  /-- The task was released without having been retained. -/
  | overReleased (task : TaskId)
  /-- A task that another one refers to is gone. -/
  | noTask
  /-- The task is not in the queue that it was to leave. -/
  | notEnqueued
  /-- A task that is to have its turn has no stack. -/
  | noStack (task : TaskId)
  /-- A task without references was released. -/
  | noReference
  /-- A time cannot be written down. -/
  | timeOverflow
  /-- The operation has no end. -/
  | endless
  deriving DecidableEq, Repr

/-- The name of a queue. -/
def Lane.name : Lane → String
  | .run => "Run"
  | .wait => "Wait"

/-- What a crash is reported as. -/
def Crash.message : Crash → String
  | destroyed task => "task " ++ task.text ++ " has been destroyed"
  | alreadyExists task => "task " ++ task.text ++ " already exists"
  | alreadyEnded task => "task " ++ task.text ++ " has already ended"
  | alreadyEnqueued task lane =>
    "task " ++ task.text ++ " is already enqueued in the Some(" ++ lane.name ++ ") queue"
  | overReleased task =>
    "task " ++ task.text ++ " was released more times than it was retained"
  | noTask => "id is not valid"
  | notEnqueued => "task is not in this queue"
  | noStack task =>
    "internal error: entered unreachable code: scheduled task " ++ task.text ++ " has no frame"
  | noReference =>
    "internal error: entered unreachable code: task reference count underflow"
  | timeOverflow => "overflow when adding duration to instant"
  | endless => "the operation has no end"

end TaskMachine
