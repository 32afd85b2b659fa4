/-
The operations on the queues of a roster: a task joins a queue at its tail and
leaves it from anywhere, and the head can move to the tail. A task that is in a
queue joins none, and a task leaves only the queue that it is in; either is
checked before anything is changed.
-/

import TaskMachine.Roster.Basic

namespace TaskMachine.Roster

/-- Appends a task to a queue. -/
def pushTail (lane : Lane) (slot : Slot) : Rostering Unit := do
  let task ← fetch slot
  match task.lane with
  | some occupied => throw (.alreadyEnqueued task.id occupied)
  | none =>
    let ends := (← get).ends lane
    put slot { task with lane := some lane, links := ⟨none, ends.tail⟩ }
    match ends.tail with
    | some tail =>
      update tail fun last => { last with links := { last.links with next := some slot } }
      modify fun roster =>
        roster.setEnds lane { ends with tail := some slot, length := ends.length + 1 }
    | none =>
      modify fun roster => roster.setEnds lane ⟨some slot, some slot, ends.length + 1⟩

/-- Changes the ends of a queue. -/
def updateEnds (lane : Lane) (change : Ends → Ends) : Rostering Unit :=
  modify fun roster => roster.setEnds lane (change (roster.ends lane))

/-- Takes a task out of a queue. -/
def remove (lane : Lane) (slot : Slot) : Rostering Unit := do
  let task ← fetch slot
  if task.lane = some lane then
    put slot { task with lane := none, links := .none }
    match task.links.previous with
    | some previous =>
      update previous fun before =>
        { before with links := { before.links with next := task.links.next } }
    | none => updateEnds lane fun ends => { ends with head := task.links.next }
    match task.links.next with
    | some next =>
      update next fun behind =>
        { behind with links := { behind.links with previous := task.links.previous } }
    | none => updateEnds lane fun ends => { ends with tail := task.links.previous }
    updateEnds lane fun ends => { ends with length := ends.length - 1 }
  else throw .notEnqueued

/-- Moves the head of a queue to its tail. -/
def rotate (lane : Lane) : Rostering Unit := do
  let ends := (← get).ends lane
  match ends.head with
  | some head =>
    if 1 < ends.length then
      remove lane head
      pushTail lane head
    else pure ()
  | none => pure ()

/-- The places from one on, along the neighbours behind, as far as so many steps lead. -/
def walk (roster : Roster) : Nat → Option Slot → Except Crash (List Slot)
  | _, none => pure []
  | 0, some _ => throw .endless
  | steps + 1, some slot =>
    match roster.task? slot with
    | none => throw .noTask
    | some task => do
      let rest ← roster.walk steps task.links.next
      pure (slot :: rest)

/-- The places of the tasks in a queue, in order. -/
def slots (roster : Roster) (lane : Lane) : Except Crash (List Slot) :=
  roster.walk (roster.tasks.size + 1) (roster.ends lane).head

/-- The number of the task at a place. -/
def idAt (roster : Roster) (slot : Slot) : Except Crash TaskId :=
  match roster.task? slot with
  | some task => pure task.id
  | none => throw .noTask

/-- The numbers of the tasks in a queue, in order. -/
def ids (roster : Roster) (lane : Lane) : Except Crash (List TaskId) := do
  (← roster.slots lane).mapM roster.idAt

end TaskMachine.Roster
