/-
The state of a scheduler. It runs tasks in turns on one thread: its tasks stand
in a run queue and a wait queue, its timers in an agenda, and what other threads
can touch of it in a mailroom.

The embedder hears of a scheduler by notices: that a program invoked one of its
hooks, or that a task it watches has ended. At each notice it may send messages;
what it sends is a function of all notices up to then. A clock that the
scheduler does not set itself says what time it is.
-/

import TaskMachine.Execution.Run
import TaskMachine.Roster.Lane

namespace TaskMachine

/-- The settings of a scheduler. -/
structure Config where
  /-- How many units of execution a turn may cost. Zero is no limit. -/
  execLimit : Nat
  deriving DecidableEq, Repr

/-- The settings of a scheduler that was given none. -/
def Config.standard : Config := ⟨100⟩

/-- What the embedder is told of. -/
inductive Notice where
  /-- A task invoked a hook; the queues and the stack are as they are at that moment. -/
  | invoked (hook : Hook) (task : TaskId) (run wait : List TaskId) (stack : Stack)
  /-- A watched task has ended. -/
  | ended (watcher : Nat) (task : TaskId) (exit : Exit)

/-- A message with the mailbox that it is for. -/
structure Letter where
  mailbox : Mailbox
  message : Message

/-- A scheduler. -/
structure Scheduler where
  /-- The tasks and the queues that they stand in. -/
  roster : Roster
  /-- The places of the tasks by their numbers. -/
  registry : Table TaskId Slot
  /-- The timers. -/
  agenda : Agenda
  /-- The time. -/
  clock : Nat
  /-- The settings. -/
  config : Config
  /-- The inboxes, and who was woken. -/
  mailroom : Mailroom
  /-- Whether a task has ended that others may have been the children of. -/
  deathsPending : Bool
  /-- The number of the next task. -/
  nextId : TaskId
  /-- What the embedder was told, latest first. -/
  notices : List Notice
  /-- What the embedder sends when it is told, given all that it was told. -/
  respond : List Notice → List Letter
  /-- After so many instructions without a limit a turn counts as endless. -/
  patience : Nat

/-- An operation of a scheduler, which may break off. -/
abbrev Scheduling := EStateM Crash Scheduler

namespace Scheduler

/-- A scheduler without tasks. -/
def new (config : Config) (patience : Nat) : Scheduler :=
  { roster := .empty
    registry := .empty
    agenda := .empty
    clock := 0
    config
    mailroom := .empty
    deathsPending := false
    nextId := .first
    notices := []
    respond := fun _ => []
    patience }

/-! ### Parts of the state -/

/-- Makes a change of the roster. -/
def onRoster {α : Type} (change : Rostering α) : Scheduling α := fun scheduler =>
  match change scheduler.roster with
  | .ok result roster => .ok result { scheduler with roster }
  | .error crash roster => .error crash { scheduler with roster }

/-- Makes a change of the mailroom. -/
def onMailroom {α : Type} (change : Mailroom → α × Mailroom) : Scheduling α :=
  modifyGet fun scheduler =>
    let (result, mailroom) := change scheduler.mailroom
    (result, { scheduler with mailroom })

/-- What can be read off the state, unless that is a crash. -/
def reading {α : Type} (read : Scheduler → Except Crash α) : Scheduling α := do
  match read (← get) with
  | .ok result => pure result
  | .error crash => throw crash

/-- The task at a place. -/
def fetch (slot : Slot) : Scheduling Task := onRoster (Roster.fetch slot)

/-- Changes the task at a place. -/
def update (slot : Slot) (change : Task → Task) : Scheduling Unit :=
  onRoster (Roster.update slot change)

/-- The place of the task with a given number. -/
def slotOf (id : TaskId) : Scheduling Slot := do
  match (← get).registry.find? id with
  | some slot => pure slot
  | none => throw (.destroyed id)

/-- The task with a given number, if there is one. -/
def task? (scheduler : Scheduler) (id : TaskId) : Option Task :=
  (scheduler.registry.find? id).bind scheduler.roster.task?

/-- The next unused number. -/
def takeId : Scheduling TaskId :=
  modifyGet fun scheduler => (scheduler.nextId, { scheduler with nextId := scheduler.nextId.next })

/-! ### Messages -/

/-- A new inbox, whose messages wake the task with a given number. -/
def openInbox (owner : TaskId) : Scheduling Mailbox :=
  onMailroom fun room =>
    let (next, mailbox) := room.addInbox owner
    (mailbox, next)

/-- Sends a message to a mailbox. -/
def post (mailbox : Mailbox) (message : Message) : Scheduling Unit :=
  onMailroom fun room => ((), room.send mailbox message)

/-- Wakes a task, whether there is a message for it or not. -/
def wake (id : TaskId) : Scheduling Unit :=
  onMailroom fun room => ((), room.wake id)

/-- The mailbox of the task with a given number, if it is still there. -/
def mailbox? (scheduler : Scheduler) (id : TaskId) : Option Mailbox :=
  (scheduler.task? id).map Task.mailbox

/-- Sends a value to the task with a given number. Tells whether the task is still there. -/
def send (id : TaskId) (value : Value) (sender : Option TaskId) : Scheduling Bool := do
  match (← get).mailbox? id with
  | some mailbox =>
    post mailbox ⟨value, sender⟩
    pure true
  | none => pure false

/-- Tells the embedder of something, and delivers what it sends. -/
def notify (notice : Notice) : Scheduling Unit := do
  modify fun scheduler => { scheduler with notices := notice :: scheduler.notices }
  let scheduler ← get
  (scheduler.respond scheduler.notices).forM fun letter => post letter.mailbox letter.message

end Scheduler

end TaskMachine
