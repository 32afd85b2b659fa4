/-
One turn. The task at the head of the run queue is executed until it stops or
its limit is reached. Then it goes to the tail of the run queue, or to the wait
queue if it waits for something, or it ends. While it has its turn it stays at
the head of the run queue, and its stack is away.
-/

import TaskMachine.Scheduler.Ending

namespace TaskMachine.Scheduler

/-! ### The task and its surroundings -/

/-- Takes the oldest message of the task at a place. -/
def receiveFor (slot : Slot) : Scheduling (Option Value) := do
  let task ← fetch slot
  let message ← onMailroom fun room =>
    let (next, message) := room.receive task.mailbox
    (message, next)
  pure (message.map Message.value)

/-- Tells the embedder that the task at a place invoked a hook. -/
def invokeFor (slot : Slot) (hook : Hook) (stack : Stack) : Scheduling Unit := do
  let run ← reading fun scheduler => scheduler.roster.ids .run
  let wait ← reading fun scheduler => scheduler.roster.ids .wait
  let task ← fetch slot
  notify (.invoked hook task.id run wait stack)

/-- What the task at a place is executed in. -/
def hostFor (slot : Slot) : Host Scheduling :=
  { spawn := fun function => spawnChild function slot
    receive := receiveFor slot
    invoke := invokeFor slot }

/-! ### After a turn -/

/-- Moves the task at a place to the tail of the run queue. -/
def requeue (slot : Slot) : Scheduling Unit := do
  if (← get).roster.run.head = some slot then onRoster (Roster.rotate .run)
  else
    onRoster (Roster.remove .run slot)
    onRoster (Roster.pushTail .run slot)

/-- Moves the task at a place to the wait queue. -/
def suspend (slot : Slot) (awaited : Awaited) : Scheduling Unit := do
  onRoster (Roster.remove .run slot)
  update slot fun task => { task with awaited := some awaited }
  onRoster (Roster.pushTail .wait slot)

/-- Starts a timer that fires after some time, and in every period from then on if there is
one. -/
def startTimer (after : Nat) (period : Option Nat) (task : TaskId) : Scheduling TimerId :=
  modifyGet fun scheduler =>
    let (agenda, timer) := scheduler.agenda.start scheduler.clock after period task
    (timer, { scheduler with agenda })

/-- Gives the task at a place its stack back. -/
def putStack (slot : Slot) (stack : Stack) : Scheduling Unit :=
  update slot fun task => { task with stack := some stack }

/-- Moves the task at a place to where it belongs after its turn. A task that is to wait for a
message goes on if one has come since it looked. -/
def settle (slot : Slot) (id : TaskId) (stack : Stack) : Status → Scheduling Unit
  | .yielded => do
    putStack slot stack
    requeue slot
  | .suspended (.timer after) => do
    putStack slot stack
    let timer ← startTimer after none id
    suspend slot (.timer timer)
  | .suspended .message => do
    putStack slot stack
    let task ← fetch slot
    if (← get).mailroom.isEmpty task.mailbox then suspend slot .message else requeue slot
  | .ended values => do
    endTask slot (.returned values)
    sweepOrphans
  | .faulted fault => do
    endTask slot (.faulted fault)
    sweepOrphans

/-- Executes the task at a place for one turn. -/
def runTurn (slot : Slot) : Scheduling Unit := do
  let task ← fetch slot
  match task.stack with
  | none => throw (.noStack task.id)
  | some stack =>
    update slot fun task => { task with stack := none }
    let scheduler ← get
    match ← stack.execute (hostFor slot) scheduler.config.execLimit scheduler.patience with
    | some (after, status) => settle slot task.id after status
    | none => throw .endless

/-- Gives the task at the head of the run queue its turn, or ends it if it is an orphan. Tells
whether there was a task. -/
def step : Scheduling Bool := do
  match (← get).roster.run.head with
  | none => pure false
  | some slot =>
    if ← parentIsZombie slot then
      endTask slot .orphaned
      sweepOrphans
    else runTurn slot
    pure true

/-- Gives turns until there is no task or so many turns were given. Tells how many. -/
def stepMany : Nat → Scheduling Nat
  | 0 => pure 0
  | turns + 1 => do
    if ← step then
      let more ← stepMany turns
      pure (more + 1)
    else pure 0

end TaskMachine.Scheduler
