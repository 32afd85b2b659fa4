/-
Passes. In one pass the tasks that were woken and those whose timers are due
join the run queue, and then every task that stands in it gets one turn. Between
passes, a scheduler with nothing to run lets time go by until its next timer is
due, and a thread with nothing to wait for sleeps until it is given its token.
-/

import TaskMachine.Scheduler.Turn

namespace TaskMachine

/-- What is left to do after a pass. -/
inductive Tick where
  /-- Tasks can run. -/
  | busy
  /-- No task can run, but some wait. -/
  | waiting
  /-- No task can run, and none waits. -/
  | idle
  deriving DecidableEq, Repr

/-- The name of what is left to do. -/
def Tick.name : Tick → String
  | busy => "Busy"
  | waiting => "Waiting"
  | idle => "Idle"

namespace Scheduler

/-! ### Waiting tasks that go on -/

/-- Moves a waiting task to the run queue. -/
def resume (slot : Slot) : Scheduling Unit := do
  onRoster (Roster.remove .wait slot)
  update slot fun task => { task with awaited := none }
  onRoster (Roster.pushTail .run slot)

/-- Moves the task with a given number to the run queue if it waits for a given thing. -/
def resumeIf (id : TaskId) (awaited : Awaited) : Scheduling Unit := do
  match (← get).registry.find? id with
  | none => pure ()
  | some slot =>
    let task ← fetch slot
    if task.awaited = some awaited then resume slot else pure ()

/-- Moves the tasks that were woken to the run queue, if they wait for messages. -/
def wakeWoken : Scheduling Unit := do
  let woken ← onMailroom fun room =>
    let (next, woken) := room.takeWoken
    (woken, next)
  woken.forM fun id => resumeIf id .message

/-- Fires all timers that are due. -/
def fireDue : Scheduling (List Firing) := do
  let scheduler ← get
  let firings := scheduler.agenda.fireDue scheduler.clock
  set { scheduler with agenda := firings.agenda }
  if firings.overflowed then throw .timeOverflow else pure firings.fired

/-- Moves the tasks whose timers fired to the run queue, if they still wait for them. -/
def resumeFired (fired : List Firing) : Scheduling Unit :=
  fired.forM fun firing => resumeIf firing.task (.timer firing.timer)

/-- Moves the tasks whose timers are due to the run queue. -/
def pollTimers : Scheduling Unit := do
  resumeFired (← fireDue)

/-! ### Passes -/

/-- What is left to do. -/
def outlook (scheduler : Scheduler) : Tick :=
  if scheduler.roster.run.length ≠ 0 then .busy
  else if scheduler.roster.wait.length ≠ 0 ∨ scheduler.agenda.hasPending then .waiting
  else .idle

/-- One pass: each task in the run queue gets one turn. -/
def tick : Scheduling Tick := do
  wakeWoken
  pollTimers
  let _ ← stepMany (← get).roster.run.length
  pure (← get).outlook

/-- So many passes. Tells what was left to do after each. -/
def tickMany : Nat → Scheduling (List Tick)
  | 0 => pure []
  | passes + 1 => do
    let first ← tick
    let rest ← tickMany passes
    pure (first :: rest)

/-! ### Time -/

/-- Lets time go by. -/
def advanceClock (duration : Nat) : Scheduling Unit :=
  modify fun scheduler => { scheduler with clock := scheduler.clock + duration }

/-- Lets time go by until the next timer is due. -/
def elapse : Scheduling Unit :=
  modify fun scheduler =>
    match scheduler.agenda.nextDeadline with
    | some deadline => { scheduler with clock := max scheduler.clock deadline }
    | none => scheduler

/-- Gives the thread its token. -/
def unpark : Scheduling Unit := onMailroom fun room => ((), room.unpark)

/-- Uses up the token of the thread. Tells whether it was there. -/
def takeToken : Scheduling Bool := onMailroom fun room => (room.takeToken.2, room.takeToken.1)

/-- Fires the timers that are due next. Until then the thread sleeps, unless it has its token:
then only what is due already is fired. -/
def awaitTimers : Scheduling (List Firing) := do
  if !(← takeToken) then elapse
  fireDue

/-- Sleeps until a timer is due or the thread is given its token. Without a timer nothing but the
token ends the sleep, and it is used up. -/
def wait : Scheduling Unit := do
  if (← get).agenda.hasPending then resumeFired (← awaitTimers)
  else
    let _ ← takeToken

/-- Lets time go by until a timer is due, whether the thread has its token or not. Without a
timer nothing happens. -/
def rest : Scheduling Unit := do
  if (← get).agenda.hasPending then
    elapse
    pollTimers
  else pure ()

/-- How a run ends that does not sleep for ever. -/
inductive Ending where
  /-- No task is left that could run or that waits. -/
  | done
  /-- All tasks that are left wait for messages, and nothing can send one. -/
  | blocked
  deriving DecidableEq, Repr

/-- Runs all tasks until nothing is left to do, for at most so many passes. When no task can run,
the thread sleeps, and its token can end that before a timer is due. -/
def runWaiting : Nat → Scheduling Unit
  | 0 => throw .endless
  | passes + 1 => do
    match ← tick with
    | .busy => runWaiting passes
    | .idle => pure ()
    | .waiting =>
      wait
      runWaiting passes

/-- Runs all tasks until nothing is left to do, for at most so many passes, over timers that do not
look at the token of the thread: time goes by until the next one is due, whoever was woken. A run
that would sleep for ever stops instead. -/
def runWithin : Nat → Scheduling Ending
  | 0 => throw .endless
  | passes + 1 => do
    match ← tick with
    | .busy => runWithin passes
    | .idle => pure .done
    | .waiting =>
      if (← get).agenda.hasPending then
        rest
        runWithin passes
      else if (← get).mailroom.woken.isEmpty then pure .blocked
      else runWithin passes

end Scheduler

end TaskMachine
