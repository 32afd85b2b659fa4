/-
A pool of threads, each with a scheduler of its own. A task goes to the thread
that has the fewest unfinished tasks; its completion is filled when it ends, or
when its thread stops before that.

Everything that happens in a pool is a sequence of small steps, of a thread or
of a holder of the pool, and each step looks at or changes one thing that others
can change too. A thread that has nothing to do blocks, until a timer is due or
it is given its token. The steps of the threads are in `Worker`; here are those
of the holders.
-/

import TaskMachine.Pool.Completion
import TaskMachine.Scheduler.Tick

namespace TaskMachine

/-- A task on its way to a thread. -/
structure Command where
  id : TaskId
  function : Function
  mailbox : Mailbox
  /-- The completion to fill when the task ends. -/
  completion : Nat

/-- Where a thread is. -/
inductive Phase where
  /-- It is about to look whether the pool shuts down. -/
  | checking
  /-- It is about to take in the next task that was sent to it. -/
  | receiving
  /-- It is about to make a pass. -/
  | ticking
  /-- Some of its promises have come due, and it is about to count the first of them off. It
  goes on elsewhere when all are kept. -/
  | counting (due : List (Nat × Outcome)) (next : Phase)
  /-- It has counted a promise off and is about to fill the completion, and then to count on. -/
  | filling (completion : Nat) (outcome : Outcome) (due : List (Nat × Outcome)) (next : Phase)
  /-- It sleeps until a timer is due or it is given its token. -/
  | waiting
  /-- It sleeps until it is given its token. -/
  | parked
  /-- It is about to refuse the next task that was sent to it. -/
  | draining
  /-- It has seen that no task is left to refuse, and is about to close. -/
  | closing
  /-- It has stopped. -/
  | stopped
  /-- A crash has stopped it. -/
  | crashed (crash : Crash)

/-- A thread of a pool. -/
structure Worker where
  scheduler : Scheduler
  /-- The tasks that were sent to it, oldest first. -/
  commands : List Command
  /-- Whether it takes what is sent to it. What is sent to it later is sent back. -/
  isOpen : Bool
  phase : Phase
  /-- For each task that it has taken in, the completion that it has promised to fill, unless
  the promise was counted off. -/
  promises : Array (Option Nat)
  /-- How many promises it has not counted off. -/
  executing : Nat
  /-- How many tasks it has taken in. -/
  total : Nat

namespace Worker

/-- A thread that is about to begin. -/
def new (config : Config) (patience : Nat) : Worker :=
  { scheduler := .new config patience
    commands := []
    isOpen := true
    phase := .checking
    promises := #[]
    executing := 0
    total := 0 }

/-- Closes a thread for good: it takes nothing any more, and all its promises come due with the
news of the shutdown, also those of tasks that ended in an operation that a crash broke off. -/
def abandon (worker : Worker) (next : Phase) : Worker :=
  { worker with
    commands := []
    isOpen := false
    phase := .counting
      ((List.range worker.promises.size).map fun promise => (promise, .error .shutdown)) next }

/-- Whether no crash has stopped the thread. -/
def isSound (worker : Worker) : Bool :=
  match worker.phase with
  | .crashed _ => false
  | _ => true

end Worker

/-- A letter with the thread that it goes to. -/
structure Parcel where
  /-- The thread whose mailboxes it is for. -/
  worker : Nat
  letter : Letter

/-- A pool. -/
structure Pool where
  workers : Array Worker
  /-- Whether a shutdown has begun. -/
  stopping : Bool
  /-- Whether the holders still know the threads. -/
  listed : Bool
  /-- The completions of all tasks that were ever sent to a thread. -/
  completions : Array Completion
  /-- The wakers that were called, latest first. -/
  called : List Nat
  clock : Nat
  /-- The number of the next task. -/
  nextId : TaskId
  /-- The hooks that programs invoked, on all threads, latest first. -/
  notices : List Notice
  /-- What the embedder sends when a hook is invoked, given all that were. -/
  respond : List Notice → List Parcel

/-- What the holder of a pool keeps of a task. -/
structure Handle where
  id : TaskId
  /-- The thread of the task. -/
  worker : Nat
  mailbox : Mailbox
  completion : Nat
  deriving DecidableEq, Repr

namespace Pool

/-- A pool of so many threads, but of one at least. -/
def new (threads : Nat) (config : Config) (patience : Nat) : Pool :=
  { workers := Array.replicate (max threads 1) (.new config patience)
    stopping := false
    listed := true
    completions := #[]
    called := []
    clock := 0
    nextId := .first
    notices := []
    respond := fun _ => [] }

/-- The pool with another state of a thread. -/
def setWorker (pool : Pool) (index : Nat) (worker : Worker) : Pool :=
  { pool with workers := pool.workers.setIfInBounds index worker }

/-- Gives a thread its token. -/
def unpark (pool : Pool) (index : Nat) : Pool :=
  { pool with
    workers := pool.workers.modify index fun worker =>
      { worker with
        scheduler :=
          { worker.scheduler with mailroom := worker.scheduler.mailroom.unpark } } }

/-! ### Spawning -/

/-- The thread with the fewest unfinished tasks; of several, the first. -/
def leastBusy (pool : Pool) : Option Nat :=
  (List.range pool.workers.size).foldl
    (fun best index =>
      match best with
      | none => some index
      | some least =>
        if (pool.workers[index]?.map Worker.executing).getD 0
            < (pool.workers[least]?.map Worker.executing).getD 0 then some index
        else best)
    none

/-- Sends a task to the thread with the fewest unfinished tasks, for a holder that has seen no
shutdown before. Nothing comes of it if the threads are not known any more, or if the thread
has closed. -/
def dispatch (pool : Pool) (function : Function) : Pool × Option Handle :=
  if !pool.listed then (pool, none)
  else
    match pool.leastBusy with
    | none => (pool, none)
    | some index =>
      match pool.workers[index]? with
      | none => (pool, none)
      | some worker =>
        let id := pool.nextId
        let counted := { pool with nextId := id.next }
        if worker.isOpen then
          let (mailroom, mailbox) := worker.scheduler.mailroom.addInbox id
          let completion := pool.completions.size
          let told := { worker with
            scheduler := { worker.scheduler with mailroom }
            commands := worker.commands ++ [⟨id, function, mailbox, completion⟩] }
          ({ counted with completions := pool.completions.push .empty }.setWorker index told,
            some ⟨id, index, mailbox, completion⟩)
        else (counted, none)

/-- Sends a task to a thread and gives the thread its token, unless the pool shuts down. -/
def spawn (pool : Pool) (function : Function) : Pool × Option Handle :=
  if pool.stopping then (pool, none)
  else
    match pool.dispatch function with
    | (sent, some handle) => (sent.unpark handle.worker, some handle)
    | (sent, none) => (sent, none)

/-! ### Other steps of holders -/

/-- Sends a letter to a mailbox of a thread. -/
def deliver (pool : Pool) (parcel : Parcel) : Pool :=
  { pool with
    workers := pool.workers.modify parcel.worker fun worker =>
      { worker with
        scheduler :=
          { worker.scheduler with
            mailroom :=
              worker.scheduler.mailroom.send parcel.letter.mailbox parcel.letter.message } } }

/-- Sends a value to a task. -/
def send (pool : Pool) (handle : Handle) (value : Value) (sender : Option TaskId) : Pool :=
  pool.deliver ⟨handle.worker, handle.mailbox, value, sender⟩

/-- The outcome of a task, once there is one. -/
def result? (pool : Pool) (completion : Nat) : Option Outcome :=
  (pool.completions[completion]?).bind Completion.result

/-- Asks for the outcome of a task, and leaves a waker if there is none yet. -/
def poll (pool : Pool) (handle : Handle) (waker : Nat) : Pool × Option Outcome :=
  match pool.completions[handle.completion]? with
  | none => (pool, none)
  | some completion =>
    let (polled, outcome) := completion.poll waker
    ({ pool with completions := pool.completions.setIfInBounds handle.completion polled }, outcome)

/-- The number of unfinished tasks of each thread that the holders know. -/
def load (pool : Pool) : List Nat :=
  if pool.listed then pool.workers.toList.map Worker.executing else []

/-- The number of tasks that each thread that the holders know has taken in. -/
def totals (pool : Pool) : List Nat :=
  if pool.listed then pool.workers.toList.map Worker.total else []

/-- The first step of a shutdown: the threads can see that it has begun. -/
def beginShutdown (pool : Pool) : Pool := { pool with stopping := true }

/-- The second step: the holders forget the threads. -/
def unlist (pool : Pool) : Pool := { pool with listed := false }

/-- The third step: every thread is given its token. -/
def unparkAll (pool : Pool) : Pool :=
  (List.range pool.workers.size).foldl unpark pool

end Pool

end TaskMachine
