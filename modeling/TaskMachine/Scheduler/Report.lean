/-
What can be asked of a scheduler, and its listing. The listing shows both
queues, one line for each task.
-/

import TaskMachine.Scheduler.Tick

namespace TaskMachine.Scheduler

/-- The state of the task with a given number. -/
def state (scheduler : Scheduler) (id : TaskId) : TaskState :=
  match scheduler.task? id with
  | some task => task.state
  | none => .destroyed

/-- The number of references to the task with a given number. -/
def references (scheduler : Scheduler) (id : TaskId) : Nat :=
  match scheduler.task? id with
  | some task => task.references
  | none => 0

/-- The stack of the task with a given number, if it is still there and has one. -/
def stack? (scheduler : Scheduler) (id : TaskId) : Option Stack :=
  (scheduler.task? id).bind Task.stack

/-- The number of tasks that are still there. -/
def size (scheduler : Scheduler) : Nat := scheduler.registry.size

/-- Whether no task can run, none waits and no timer is to fire. -/
def isIdle (scheduler : Scheduler) : Bool := scheduler.outlook = .idle

/-- Whether two tasks have the same mailbox. Nothing is said if either is gone. -/
def sameMailbox (scheduler : Scheduler) (first second : TaskId) : Option Bool := do
  let mailbox ← scheduler.mailbox? first
  let other ← scheduler.mailbox? second
  pure (mailbox = other)

/-- How what a task waits for is listed. -/
def awaitedText : Awaited → String
  | .timer timer => "Timer(TimerId(" ++ timer.number.repr ++ "))"
  | .message => "Message"

/-- The line of a task in a listing. -/
def taskLine (roster : Roster) (task : Task) : Except Crash String := do
  let parent ← match task.parent with
    | some parent => do pure (" parent=" ++ (← roster.idAt parent).text)
    | none => pure ""
  let awaited := match task.awaited with
    | some awaited => " wait=" ++ awaitedText awaited
    | none => ""
  let position := match task.stack with
    | some stack => " pc=" ++ stack.top.pc.repr ++ " depth=" ++ stack.depth.repr
    | none => ""
  pure ("  " ++ task.id.text ++ " " ++ task.state.name ++ " refs=" ++ task.references.repr ++
    parent ++ awaited ++ position ++ "\n")

/-- The lines of a queue in a listing. -/
def laneLines (roster : Roster) (name : String) (lane : Lane) : Except Crash String := do
  let slots ← roster.slots lane
  let lines ← slots.mapM fun slot =>
    match roster.task? slot with
    | some task => taskLine roster task
    | none => throw .noTask
  pure (name ++ " queue (" ++ (roster.ends lane).length.repr ++ "):\n" ++ String.join lines)

/-- The listing of both queues. -/
def listing (scheduler : Scheduler) : Except Crash String := do
  let run ← laneLines scheduler.roster "run" .run
  let wait ← laneLines scheduler.roster "wait" .wait
  pure (run ++ wait)

/-- The listing of the set of woken tasks, by their number. -/
def wokenText (scheduler : Scheduler) : String :=
  "WakeHandle \x7b woken: " ++ scheduler.mailroom.woken.length.repr ++ " \x7d"

end TaskMachine.Scheduler
