/-
The steps of a thread of a pool. Round after round it looks whether the pool
shuts down, takes in the tasks that were sent to it, makes a pass with its
scheduler, and sleeps if nothing is left to run. When the pool shuts down it
refuses what is still on its way, and then closes: the completions of the tasks
that have not ended are filled with the news of the shutdown.

For every task that it takes in, a thread promises to fill a completion. A
promise comes due when the task ends or the thread closes, and it is counted off
before the completion is filled, so that nobody can see an outcome and find the
task still counted. A promise that was counted off is not kept again.
-/

import TaskMachine.Pool.Basic

namespace TaskMachine.Pool

/-- Fills a completion, and calls the wakers that were left in it. -/
def fill (pool : Pool) (index : Nat) (outcome : Outcome) : Pool :=
  match pool.completions[index]? with
  | none => pool
  | some completion =>
    let (filled, wakers) := completion.complete outcome
    { pool with
      completions := pool.completions.setIfInBounds index filled
      called := wakers.reverse ++ pool.called }

/-- The tasks that have ended, with their outcomes, among the notices of a pass. -/
def endings (notices : List Notice) : List (Nat × Outcome) :=
  notices.filterMap fun
    | .ended completion _ exit => some (completion, exit.outcome)
    | .invoked .. => none

/-- The hooks that were invoked, among the notices of a pass. -/
def invocations (notices : List Notice) : List Notice :=
  notices.filter fun
    | .ended .. => false
    | .invoked .. => true

/-- What the embedder sends at the latest of the notices of a pass. It is told of hooks alone. -/
def answers (pool : Pool) : List Notice → List Parcel
  | .invoked hook task run wait stack :: earlier =>
    pool.respond (.invoked hook task run wait stack :: invocations earlier ++ pool.notices)
  | _ => []

/-- What the embedder sends from a thread to its own mailboxes at the latest of the notices of a
pass. -/
def inward (pool : Pool) (index : Nat) (notices : List Notice) : List Letter :=
  ((pool.answers notices).filter fun parcel => parcel.worker = index).map Parcel.letter

/-- What the embedder sends from a thread to the mailboxes of others at the notices of a pass, in
order. -/
def outward (pool : Pool) (index : Nat) : List Notice → List Parcel
  | [] => []
  | notice :: earlier =>
    pool.outward index earlier ++
      (pool.answers (notice :: earlier)).filter fun parcel => parcel.worker ≠ index

/-- Makes an operation with the scheduler of a thread, on the time and the numbers of the pool.
What the embedder sends to the thread itself arrives at once, and what it sends to others arrives
at the end. What comes next hangs on the answer and on the promises that have come due. A crash
closes the thread, and what was told in the operation before is dropped with it. The only crash that
threads come to is a pass without an end, which is given up here. A thread that makes one never
stops, and it has filled the completions of the tasks that ended earlier in the pass with their
outcomes; here they are filled with the news of the shutdown. -/
def operate {α : Type} (pool : Pool) (index : Nat) (worker : Worker)
    (operation : Scheduling α) (next : α → List (Nat × Outcome) → Worker → Worker) : Pool :=
  let before :=
    { worker.scheduler with
      clock := pool.clock
      nextId := pool.nextId
      notices := []
      respond := pool.inward index }
  let after (scheduler : Scheduler) : Pool :=
    (pool.outward index scheduler.notices).foldl deliver
      { pool with
        nextId := scheduler.nextId
        notices := invocations scheduler.notices ++ pool.notices }
  match operation before with
  | .ok answer scheduler =>
    (after scheduler).setWorker index
      (next answer (endings scheduler.notices.reverse) { worker with scheduler })
  | .error crash scheduler =>
    (after scheduler).setWorker index ({ worker with scheduler }.abandon (.crashed crash))

/-- Takes a task in: it is put among the tasks of the thread, watched and scheduled. -/
def takeIn (command : Command) (promise : Nat) : Scheduling Unit := do
  Scheduler.insertTask command.id command.function none command.mailbox
  let _ ← Scheduler.watch command.id promise
  Scheduler.schedule command.id

/-- Where a thread goes on after a pass. -/
def phaseAfter : Tick → Phase
  | .busy => .checking
  | .waiting => .waiting
  | .idle => .parked

/-- Whether a thread that waits for its timers goes on: it has its token, or a timer is due. -/
def awake (pool : Pool) (worker : Worker) : Bool :=
  worker.scheduler.mailroom.token ||
    match worker.scheduler.agenda.nextDeadline with
    | some deadline => decide (deadline ≤ pool.clock)
    | none => false

/-- One step of a thread. A thread that is blocked or has stopped makes none. -/
def step (pool : Pool) (index : Nat) : Option Pool := do
  let worker ← pool.workers[index]?
  let moveTo (phase : Phase) : Pool := pool.setWorker index { worker with phase }
  match worker.phase with
  | .checking => some (moveTo (if pool.stopping then .draining else .receiving))
  | .receiving =>
    match worker.commands with
    | [] => some (moveTo .ticking)
    | command :: commands =>
      some (pool.operate index { worker with commands } (takeIn command worker.promises.size)
        fun _ _ taken =>
          { taken with
            promises := taken.promises.push (some command.completion)
            executing := taken.executing + 1
            total := taken.total + 1 })
  | .ticking =>
    some (pool.operate index worker Scheduler.tick fun tick due after =>
      { after with phase := .counting due (phaseAfter tick) })
  | .counting [] next => some (moveTo next)
  | .counting ((promise, outcome) :: due) next =>
    match worker.promises[promise]?.join with
    | none => some (moveTo (.counting due next))
    | some completion =>
      some (pool.setWorker index
        { worker with
          promises := worker.promises.setIfInBounds promise none
          executing := worker.executing - 1
          phase := .filling completion outcome due next })
  | .filling completion outcome due next =>
    some ((moveTo (.counting due next)).fill completion outcome)
  | .waiting =>
    if pool.awake worker then
      some (pool.operate index worker Scheduler.wait fun _ _ after =>
        { after with phase := .checking })
    else none
  | .parked =>
    if worker.scheduler.mailroom.token then
      some (pool.operate index worker Scheduler.takeToken fun _ _ after =>
        { after with phase := .checking })
    else none
  | .draining =>
    match worker.commands with
    | [] => some (moveTo .closing)
    | command :: commands =>
      some ((pool.setWorker index { worker with commands }).fill command.completion
        (.error .shutdown))
  | .closing => some (pool.setWorker index (worker.abandon .stopped))
  | .stopped | .crashed _ => none

end TaskMachine.Pool
