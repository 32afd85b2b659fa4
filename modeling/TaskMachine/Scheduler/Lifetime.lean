/-
How tasks come and how long they stay. A task comes with one reference, which
stands for its own life, and gives one to its parent. Whoever holds a reference
can release it; the task whose last reference is released is destroyed, which
releases the one that it gave its parent, and so on.
-/

import TaskMachine.Scheduler.Basic

namespace TaskMachine.Scheduler

/-! ### Creation -/

/-- Puts a task among the others, with a reference to its parent. -/
def insert (id : TaskId) (function : Function) (parent : Option Slot) (mailbox : Mailbox) :
    Scheduling Slot := do
  if let some parent := parent then
    update parent fun task => { task with references := task.references + 1 }
  let slot ← onRoster (Roster.add (.created id function parent mailbox))
  modify fun scheduler => { scheduler with registry := scheduler.registry.insert id slot }
  pure slot

/-- Puts a task with a given number and mailbox among the others. -/
def insertTask (id : TaskId) (function : Function) (parent : Option TaskId) (mailbox : Mailbox) :
    Scheduling Unit := do
  if (← get).registry.contains id then throw (.alreadyExists id)
  let parent ← parent.mapM slotOf
  let _ ← insert id function parent mailbox

/-- Creates a task, which does not run until it is scheduled. -/
def createTask (function : Function) (parent : Option TaskId) : Scheduling TaskId := do
  let id ← takeId
  let mailbox ← openInbox id
  insertTask id function parent mailbox
  pure id

/-- Appends a task to the run queue. -/
def schedule (id : TaskId) : Scheduling Unit := do
  let slot ← slotOf id
  let task ← fetch slot
  match task.life with
  | .zombie => throw (.alreadyEnded id)
  | .alive => onRoster (Roster.pushTail .run slot)

/-- Creates a task and appends it to the run queue. -/
def spawn (function : Function) (parent : Option TaskId) : Scheduling TaskId := do
  let id ← createTask function parent
  schedule id
  pure id

/-- Creates a child of a task and appends it to the run queue. Its number is not looked for
among those that are in use. -/
def spawnChild (function : Function) (parent : Slot) : Scheduling TaskId := do
  let id ← takeId
  let mailbox ← openInbox id
  let slot ← insert id function (some parent) mailbox
  onRoster (Roster.pushTail .run slot)
  pure id

/-! ### Options and watchers -/

/-- Sets the options of a task. -/
def setFlags (id : TaskId) (flags : Flags) : Scheduling Unit := do
  let slot ← slotOf id
  update slot fun task => { task with flags }

/-- Has a watcher told when a task ends. Tells whether the task has not ended yet. -/
def watch (id : TaskId) (watcher : Nat) : Scheduling Bool := do
  match (← get).registry.find? id with
  | none => pure false
  | some slot =>
    match (← get).roster.task? slot with
    | none => pure false
    | some task =>
      match task.life with
      | .zombie => pure false
      | .alive =>
        update slot fun task => { task with watchers := task.watchers ++ [watcher] }
        pure true

/-! ### References -/

/-- Adds a reference to a task. -/
def retain (id : TaskId) : Scheduling Unit := do
  let slot ← slotOf id
  update slot fun task => { task with references := task.references + 1 }

/-- Takes a reference from the task at a place. If it was the last one, the task is destroyed
and its parent loses a reference in turn, for at most so many tasks. Assertions for debugging are
off: it is not looked whether a task that is destroyed is in a queue. In a sound scheduler it is
not (`Sound.lane_eq_none_of_last`). -/
def releaseWithin : Nat → Slot → Scheduling Unit
  | 0, _ => throw .endless
  | tasks + 1, slot => do
    let task ← fetch slot
    match task.references with
    | 0 => throw .noReference
    | 1 =>
      onRoster (Roster.drop slot)
      modify fun scheduler => { scheduler with registry := scheduler.registry.erase task.id }
      match task.parent with
      | some parent => releaseWithin tasks parent
      | none => pure ()
    | left + 2 => update slot fun task => { task with references := left + 1 }

/-- Takes a reference from the task at a place. -/
def releaseSlot (slot : Slot) : Scheduling Unit := do
  releaseWithin ((← get).roster.tasks.size + 1) slot

/-- Releases a reference to a task that was added before. A task that is alive keeps its last
reference, which is its own. -/
def release (id : TaskId) : Scheduling Unit := do
  let slot ← slotOf id
  let task ← fetch slot
  if task.life = .zombie ∨ 1 < task.references then releaseSlot slot
  else throw (.overReleased task.id)

end TaskMachine.Scheduler
