/-
The tasks of a scheduler and its two queues. A queue is a doubly linked list
that is threaded through the tasks themselves: a task knows its neighbours and
the queue that it is in, and the roster knows the two ends of each queue. To
look up a task that is gone is a crash.
-/

import TaskMachine.Crash

namespace TaskMachine

/-- The ends of a queue. -/
structure Ends where
  head : Option Slot
  tail : Option Slot
  /-- The number of tasks in the queue. -/
  length : Nat
  deriving DecidableEq, Repr

/-- A queue with no tasks in it. -/
def Ends.empty : Ends := ⟨none, none, 0⟩

/-- The tasks of a scheduler and its two queues. -/
structure Roster where
  /-- The tasks by their places. Those that are gone are missing. -/
  tasks : Array (Option Task)
  /-- The tasks that can run. -/
  run : Ends
  /-- The tasks that wait. -/
  wait : Ends

/-- A change of a roster, which may break off. -/
abbrev Rostering := EStateM Crash Roster

namespace Roster

/-- No tasks. -/
def empty : Roster := ⟨#[], .empty, .empty⟩

/-- The task at a place, unless it is gone. -/
def task? (roster : Roster) (slot : Slot) : Option Task := roster.tasks[slot]?.join

/-- The ends of a queue. -/
def ends (roster : Roster) : Lane → Ends
  | .run => roster.run
  | .wait => roster.wait

/-- The roster with other ends of a queue. -/
def setEnds (roster : Roster) (lane : Lane) (ends : Ends) : Roster :=
  match lane with
  | .run => { roster with run := ends }
  | .wait => { roster with wait := ends }

/-- The roster with another task at a place. -/
def setTask (roster : Roster) (slot : Slot) (task : Option Task) : Roster :=
  { roster with tasks := roster.tasks.setIfInBounds slot task }

/-- The task at a place. -/
def fetch (slot : Slot) : Rostering Task := do
  match (← get).task? slot with
  | some task => pure task
  | none => throw .noTask

/-- Puts a task at a place. -/
def put (slot : Slot) (task : Task) : Rostering Unit :=
  modify fun roster => roster.setTask slot (some task)

/-- Changes the task at a place. -/
def update (slot : Slot) (change : Task → Task) : Rostering Unit := do
  let task ← fetch slot
  put slot (change task)

/-- Puts a task at a place of its own. -/
def add (task : Task) : Rostering Slot :=
  modifyGet fun roster =>
    (roster.tasks.size, { roster with tasks := roster.tasks.push (some task) })

/-- Takes the task at a place away. -/
def drop (slot : Slot) : Rostering Unit :=
  modify fun roster => roster.setTask slot none

/-! ### What is where after a change -/

@[simp] theorem ends_setEnds_self (roster : Roster) (lane : Lane) (ends : Ends) :
    (roster.setEnds lane ends).ends lane = ends := by
  cases lane <;> rfl

theorem ends_setEnds_other (roster : Roster) {lane other : Lane} (ends : Ends)
    (differ : other ≠ lane) : (roster.setEnds lane ends).ends other = roster.ends other := by
  cases lane <;> cases other <;> simp_all [setEnds, Roster.ends]

@[simp] theorem task?_setEnds (roster : Roster) (lane : Lane) (ends : Ends) (slot : Slot) :
    (roster.setEnds lane ends).task? slot = roster.task? slot := by
  cases lane <;> rfl

@[simp] theorem ends_setTask (roster : Roster) (slot : Slot) (task : Option Task) (lane : Lane) :
    (roster.setTask slot task).ends lane = roster.ends lane := by
  cases lane <;> rfl

/-- What is put at a place is there, if the place was given out before. -/
theorem task?_setTask_self (roster : Roster) {slot : Slot} (task : Option Task)
    (known : slot < roster.tasks.size) : (roster.setTask slot task).task? slot = task := by
  simp [task?, setTask, known]

theorem task?_setTask_other (roster : Roster) {slot other : Slot} (task : Option Task)
    (differ : other ≠ slot) : (roster.setTask slot task).task? other = roster.task? other := by
  simp [task?, setTask, Array.getElem?_setIfInBounds_ne differ.symm]

/-- Only a place that was given out can have a task. -/
theorem lt_size_of_task?_eq_some {roster : Roster} {slot : Slot} {task : Task}
    (present : roster.task? slot = some task) : slot < roster.tasks.size := by
  rcases Nat.lt_or_ge slot roster.tasks.size with within | beyond
  · exact within
  · simp [task?, Array.getElem?_eq_none beyond] at present

end Roster

end TaskMachine
