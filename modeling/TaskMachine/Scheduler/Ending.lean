/-
How tasks end. A task that ends leaves its queue, its timer is cancelled, its
watchers are told, the nearest ancestor that is still alive is sent how it ended
if it asked for that, and the task gives up the reference that stood for its
life. If something still refers to it, its children may have become orphans:
they are swept out of both queues, and their own children after them, until a
whole pass finds none.
-/

import TaskMachine.Scheduler.Lifetime

namespace TaskMachine

/-- The task nearest to a place that is alive, on the way from it to its parent and so on, as
far as so many steps lead. -/
def Roster.livingWithin (roster : Roster) : Nat → Option Slot → Except Crash (Option Task)
  | _, none => pure none
  | 0, some _ => throw .endless
  | steps + 1, some slot =>
    match roster.task? slot with
    | none => throw .noTask
    | some task =>
      match task.life with
      | .alive => pure (some task)
      | .zombie => roster.livingWithin steps task.parent

/-- The task nearest to a place that is alive, on the way from it to its parent and so on. -/
def Roster.nearestLiving (roster : Roster) (slot : Option Slot) : Except Crash (Option Task) :=
  roster.livingWithin (roster.tasks.size + 1) slot

namespace Scheduler

/-- Whether the parent of the task at a place has ended. -/
def parentIsZombie (slot : Slot) : Scheduling Bool := do
  let task ← fetch slot
  match task.parent with
  | none => pure false
  | some parent => pure (decide ((← fetch parent).life = .zombie))

/-- Takes the task at a place out of the queue that it is in. -/
def leaveLane (slot : Slot) : Scheduling Unit := do
  let task ← fetch slot
  match task.lane with
  | some lane => onRoster (Roster.remove lane slot)
  | none => pure ()

/-- Cancels a timer. -/
def cancelTimer (timer : TimerId) : Scheduling Unit :=
  modify fun scheduler => { scheduler with agenda := (scheduler.agenda.cancel timer).1 }

/-- Sends the nearest living ancestor of an ended task how it ended, if it traps exits. -/
def reportExit (id : TaskId) (parent : Option Slot) (exit : Exit) : Scheduling Unit := do
  match ← reading fun scheduler => scheduler.roster.nearestLiving parent with
  | some ancestor =>
    if ancestor.flags.contains .trapExit then post ancestor.mailbox ⟨exit.code, some id⟩
    else pure ()
  | none => pure ()

/-- Ends the task at a place. -/
def endTask (slot : Slot) (exit : Exit) : Scheduling Unit := do
  leaveLane slot
  let task ← fetch slot
  if let some (.timer timer) := task.awaited then cancelTimer timer
  update slot fun task =>
    { task with awaited := none, stack := none, life := .zombie, watchers := [] }
  if 1 < task.references then
    modify fun scheduler => { scheduler with deathsPending := true }
  task.watchers.forM fun watcher => notify (.ended watcher task.id exit)
  reportExit task.id task.parent exit
  releaseSlot slot

/-! ### Orphans -/

/-- Ends the task at a place if it is in a queue and its parent has ended. Tells whether it
was. -/
def sweepSlot (slot : Slot) : Scheduling Bool := do
  match (← get).roster.task? slot with
  | none => pure false
  | some task =>
    match task.lane with
    | none => pure false
    | some _ =>
      if ← parentIsZombie slot then
        endTask slot .orphaned
        pure true
      else pure false

/-- Ends the orphans at some places, one after another. Tells whether there was one. -/
def sweepSlots : List Slot → Scheduling Bool
  | [] => pure false
  | slot :: rest => do
    let ended ← sweepSlot slot
    let others ← sweepSlots rest
    pure (ended || others)

/-- One pass over both queues, as they are at its start, the waiting tasks first. Tells whether
it ended a task. -/
def sweepOnce : Scheduling Bool := do
  let waiting ← reading fun scheduler => scheduler.roster.slots .wait
  let ready ← reading fun scheduler => scheduler.roster.slots .run
  let ended ← sweepSlots (waiting ++ ready)
  modify fun scheduler => { scheduler with deathsPending := false }
  pure ended

/-- Passes over both queues until one ends nothing, at most so many. -/
def sweepWithin : Nat → Scheduling Unit
  | 0 => throw .endless
  | passes + 1 => do
    if ← sweepOnce then sweepWithin passes else pure ()

/-- Ends all orphans, if a task has ended that may have left some. -/
def sweepOrphans : Scheduling Unit := do
  if (← get).deathsPending then
    modify fun scheduler => { scheduler with deathsPending := false }
    sweepWithin ((← get).roster.tasks.size + 1)
  else pure ()

end Scheduler

end TaskMachine
