/-
What the small changes of a roster do, place by place. Every change of a task
goes through `fetch` and `put`, so it comes down to `alter`, and what is at a
place after several changes is read off with `task?_alter`.

The queues are threaded through the tasks. `Task.place` is the part of a task
that belongs to its queue, and `Task.unplaced` is all the rest: the operations
on queues change places and nothing else.
-/

import TaskMachine.Proofs.After
import TaskMachine.Roster.Lane

namespace TaskMachine

/-- The part of a task that belongs to its queue. -/
def Task.place (task : Task) : Option Lane × Links := (task.lane, task.links)

/-- The task in another place. -/
def Task.setPlace (task : Task) (lane : Option Lane) (links : Links) : Task :=
  { task with lane, links }

/-- A task without the part that belongs to its queue. -/
def Task.unplaced (task : Task) : Task := task.setPlace none .none

/-- The task with another neighbour behind it. -/
def Task.setNext (task : Task) (next : Option Slot) : Task :=
  { task with links := { task.links with next } }

/-- The task with another neighbour in front of it. -/
def Task.setPrevious (task : Task) (previous : Option Slot) : Task :=
  { task with links := { task.links with previous } }

theorem Task.unplaced_setPlace (task : Task) (lane : Option Lane) (links : Links) :
    (task.setPlace lane links).unplaced = task.unplaced := rfl

theorem Task.unplaced_setNext (task : Task) (next : Option Slot) :
    (task.setNext next).unplaced = task.unplaced := rfl

theorem Task.unplaced_setPrevious (task : Task) (previous : Option Slot) :
    (task.setPrevious previous).unplaced = task.unplaced := rfl

namespace Roster

variable {roster : Roster} {slot other : Slot} {task : Task}

/-- The roster with the task at a place changed, if there is one. -/
def alter (roster : Roster) (slot : Slot) (change : Task → Task) : Roster :=
  roster.setTask slot ((roster.task? slot).map change)

theorem task?_eq_none (beyond : roster.tasks.size ≤ slot) : roster.task? slot = none := by
  simp [task?, Array.getElem?_eq_none beyond]

theorem task?_alter (roster : Roster) (slot : Slot) (change : Task → Task) (other : Slot) :
    (roster.alter slot change).task? other =
      if other = slot then (roster.task? other).map change else roster.task? other := by
  split
  · rename_i same
    subst same
    rcases Nat.lt_or_ge other roster.tasks.size with known | beyond
    · rw [alter, task?_setTask_self roster _ known]
    · rw [task?_eq_none beyond, task?_eq_none (by simpa [alter, setTask] using beyond),
        Option.map_none]
  · rename_i differ
    rw [alter, task?_setTask_other roster _ differ]

theorem task?_alter_of_present (present : roster.task? slot = some task) (change : Task → Task)
    (other : Slot) : (roster.alter slot change).task? other =
      if other = slot then some (change task) else roster.task? other := by
  rw [task?_alter]
  split
  · rename_i same
    rw [same, present, Option.map_some]
  · rfl

theorem task?_alter_present (slot : Slot) (change : Task → Task)
    (present : roster.task? other = some task) :
    ∃ changed, (roster.alter slot change).task? other = some changed := by
  rw [task?_alter, present]
  split <;> exact ⟨_, rfl⟩

/-- What a change of one task keeps is the same of every task. -/
theorem map_alter (roster : Roster) (slot : Slot) {change : Task → Task} {View : Type}
    {view : Task → View} (keeps : ∀ task, view (change task) = view task) (other : Slot) :
    ((roster.alter slot change).task? other).map view = (roster.task? other).map view := by
  rw [task?_alter]
  split
  · rw [Option.map_map]
    exact congrArg (fun view => (roster.task? other).map view) (funext keeps)
  · rfl

@[simp] theorem ends_alter (roster : Roster) (slot : Slot) (change : Task → Task) (lane : Lane) :
    (roster.alter slot change).ends lane = roster.ends lane :=
  ends_setTask roster slot _ lane

@[simp] theorem size_alter (roster : Roster) (slot : Slot) (change : Task → Task) :
    (roster.alter slot change).tasks.size = roster.tasks.size := by
  simp [alter, setTask]

@[simp] theorem size_setEnds (roster : Roster) (lane : Lane) (ends : Ends) :
    (roster.setEnds lane ends).tasks.size = roster.tasks.size := by
  cases lane <;> rfl

@[simp] theorem size_setTask (roster : Roster) (slot : Slot) (task : Option Task) :
    (roster.setTask slot task).tasks.size = roster.tasks.size := by
  simp [setTask]

/-- The roster with a neighbour changed, if there is one. -/
def alterAt (roster : Roster) (neighbour : Option Slot) (change : Task → Task) : Roster :=
  match neighbour with
  | some slot => roster.alter slot change
  | none => roster

theorem task?_alterAt (roster : Roster) (neighbour : Option Slot) (change : Task → Task)
    (other : Slot) : (roster.alterAt neighbour change).task? other =
      if neighbour = some other then (roster.task? other).map change else roster.task? other := by
  cases neighbour with
  | none => simp [alterAt]
  | some slot =>
    rw [alterAt, task?_alter]
    simp only [Option.some.injEq, eq_comm]

@[simp] theorem ends_alterAt (roster : Roster) (neighbour : Option Slot) (change : Task → Task)
    (lane : Lane) : (roster.alterAt neighbour change).ends lane = roster.ends lane := by
  cases neighbour with
  | none => rfl
  | some slot => exact ends_alter roster slot change lane

theorem setEnds_setEnds (roster : Roster) (lane : Lane) (ends later : Ends) :
    (roster.setEnds lane ends).setEnds lane later = roster.setEnds lane later := by
  cases lane <;> rfl

theorem alter_setEnds (roster : Roster) (lane : Lane) (ends : Ends) (slot : Slot)
    (change : Task → Task) :
    (roster.setEnds lane ends).alter slot change =
      (roster.alter slot change).setEnds lane ends := by
  cases lane <;> rfl

/-! ### Single changes -/

theorem fetch_eq (present : roster.task? slot = some task) :
    fetch slot roster = .ok task roster := by
  simp only [fetch, bind_apply, get_apply, present, pure_apply]

theorem fetch_eq_error (absent : roster.task? slot = none) :
    fetch slot roster = .error .noTask roster := by
  simp only [fetch, bind_apply, get_apply, absent, throw_apply]

theorem put_eq (present : roster.task? slot = some task) (change : Task → Task) :
    put slot (change task) roster = .ok ⟨⟩ (roster.alter slot change) := by
  rw [put, modify_apply, alter, present, Option.map_some]

theorem update_eq (present : roster.task? slot = some task) (change : Task → Task) :
    update slot change roster = .ok ⟨⟩ (roster.alter slot change) := by
  simp only [update, bind_apply, fetch_eq present, put_eq present]

theorem updateEnds_eq (roster : Roster) (lane : Lane) (change : Ends → Ends) :
    updateEnds lane change roster = .ok ⟨⟩ (roster.setEnds lane (change (roster.ends lane))) := rfl

theorem drop_eq (roster : Roster) (slot : Slot) :
    drop slot roster = .ok ⟨⟩ (roster.setTask slot none) := rfl

theorem add_eq (roster : Roster) (task : Task) :
    add task roster =
      .ok roster.tasks.size { roster with tasks := roster.tasks.push (some task) } :=
  rfl

theorem task?_push (roster : Roster) (task : Task) (other : Slot) :
    ({ roster with tasks := roster.tasks.push (some task) } : Roster).task? other =
      if other = roster.tasks.size then some task else roster.task? other := by
  unfold task?
  rw [Array.getElem?_push]
  split <;> rfl

theorem task?_drop (roster : Roster) (slot other : Slot) :
    (roster.setTask slot none).task? other = if other = slot then none else roster.task? other := by
  split
  · rename_i same
    subst same
    rcases Nat.lt_or_ge other roster.tasks.size with known | beyond
    · exact task?_setTask_self roster none known
    · exact task?_eq_none (by simpa using beyond)
  · rename_i differ
    exact task?_setTask_other roster none differ

section

variable {found : Task}

/-- What is there when a task has come was there before, or is that task. -/
theorem of_task?_push
    (present : ({ roster with tasks := roster.tasks.push (some task) } : Roster).task? other =
      some found) :
    (other = roster.tasks.size ∧ found = task) ∨ roster.task? other = some found := by
  rw [task?_push] at present
  split at present
  · rename_i same
    exact Or.inl ⟨same, (Option.some.inj present).symm⟩
  · exact Or.inr present

theorem task?_push_of_present (present : roster.task? other = some found) :
    ({ roster with tasks := roster.tasks.push (some task) } : Roster).task? other = some found := by
  rw [task?_push, if_neg (Nat.ne_of_lt (lt_size_of_task?_eq_some present)), present]

/-- What is there when a task has gone was there before, and is another task. -/
theorem of_task?_drop (present : (roster.setTask slot none).task? other = some found) :
    other ≠ slot ∧ roster.task? other = some found := by
  rw [task?_drop] at present
  split at present
  · exact absurd present nofun
  · rename_i differ
    exact ⟨differ, present⟩

theorem task?_drop_of_present (differ : other ≠ slot) (present : roster.task? other = some found) :
    (roster.setTask slot none).task? other = some found := by
  rw [task?_drop, if_neg differ, present]

end

/-! ### Rosters that differ in places only -/

/-- Two rosters have the same tasks, up to what belongs to their queues. -/
def SameTasks (roster other : Roster) : Prop :=
  other.tasks.size = roster.tasks.size ∧
    ∀ slot, (other.task? slot).map Task.unplaced = (roster.task? slot).map Task.unplaced

theorem SameTasks.refl (roster : Roster) : SameTasks roster roster := ⟨rfl, fun _ => rfl⟩

theorem SameTasks.trans {first second third : Roster} (same : SameTasks first second)
    (again : SameTasks second third) : SameTasks first third :=
  ⟨again.1.trans same.1, fun slot => (again.2 slot).trans (same.2 slot)⟩

theorem SameTasks.symm {later : Roster} (same : SameTasks roster later) : SameTasks later roster :=
  ⟨same.1.symm, fun slot => (same.2 slot).symm⟩

/-- A task that is there before is there afterwards, in another place perhaps. -/
theorem SameTasks.present {other' : Roster} (same : SameTasks roster other')
    (present : roster.task? slot = some task) :
    ∃ later, other'.task? slot = some later ∧ later.unplaced = task.unplaced := by
  have moved := same.2 slot
  rw [present, Option.map_some] at moved
  exact Option.map_eq_some_iff.mp moved

/-- What does not depend on its place is the same of every task. -/
theorem SameTasks.map {later : Roster} (same : SameTasks roster later) {View : Type}
    (view : Task → View) (through : ∀ task, view task.unplaced = view task) (slot : Slot) :
    (later.task? slot).map view = (roster.task? slot).map view := by
  have composed (entry : Option Task) : entry.map view = (entry.map Task.unplaced).map view := by
    cases entry with
    | none => rfl
    | some task => exact congrArg some (through task).symm
  rw [composed, same.2 slot, ← composed]

theorem sameTasks_alter (roster : Roster) (slot : Slot) {change : Task → Task}
    (places : ∀ task, (change task).unplaced = task.unplaced) :
    SameTasks roster (roster.alter slot change) :=
  ⟨size_alter roster slot change, map_alter roster slot places⟩

theorem sameTasks_alterAt (roster : Roster) (neighbour : Option Slot) {change : Task → Task}
    (places : ∀ task, (change task).unplaced = task.unplaced) :
    SameTasks roster (roster.alterAt neighbour change) := by
  cases neighbour with
  | none => exact SameTasks.refl roster
  | some slot => exact sameTasks_alter roster slot places

/-- Rosters that differ in places only still do so after the same change of one task. -/
theorem SameTasks.alter {later : Roster} (same : SameTasks roster later) (slot : Slot)
    {change : Task → Task}
    (respects : ∀ task, (change task).unplaced = (change task.unplaced).unplaced) :
    SameTasks (roster.alter slot change) (later.alter slot change) := by
  have through (entry : Option Task) : (entry.map change).map Task.unplaced =
      ((entry.map Task.unplaced).map change).map Task.unplaced := by
    cases entry with
    | none => rfl
    | some task => exact congrArg some (respects task)
  refine ⟨by rw [size_alter, size_alter, same.1], fun other => ?_⟩
  rw [task?_alter, task?_alter]
  split
  · rw [through, same.2 other, ← through]
  · exact same.2 other

theorem sameTasks_setEnds (roster : Roster) (lane : Lane) (ends : Ends) :
    SameTasks roster (roster.setEnds lane ends) :=
  ⟨size_setEnds roster lane ends, fun other => by rw [task?_setEnds]⟩

/-! ### Joining and leaving, but for the ends -/

/-- The tasks after one of them has joined a queue behind another, or as its first. -/
def attach (roster : Roster) (lane : Lane) (slot : Slot) (tail : Option Slot) : Roster :=
  (roster.alter slot (·.setPlace (some lane) ⟨none, tail⟩)).alterAt tail (·.setNext (some slot))

/-- The tasks after one of them has left its queue, with its neighbours linked to each other. -/
def detach (roster : Roster) (slot : Slot) (links : Links) : Roster :=
  ((roster.alter slot (·.setPlace none .none)).alterAt
    links.previous (·.setNext links.next)).alterAt
    links.next (·.setPrevious links.previous)

@[simp] theorem ends_attach (roster : Roster) (lane : Lane) (slot : Slot) (tail : Option Slot)
    (other : Lane) : (roster.attach lane slot tail).ends other = roster.ends other := by
  rw [attach, ends_alterAt, ends_alter]

@[simp] theorem ends_detach (roster : Roster) (slot : Slot) (links : Links) (lane : Lane) :
    (roster.detach slot links).ends lane = roster.ends lane := by
  rw [detach, ends_alterAt, ends_alterAt, ends_alter]

theorem task?_attach_self (roster : Roster) (lane : Lane) {tail : Option Slot}
    (differ : tail ≠ some slot) :
    (roster.attach lane slot tail).task? slot =
      (roster.task? slot).map (·.setPlace (some lane) ⟨none, tail⟩) := by
  rw [attach, task?_alterAt, if_neg differ, task?_alter, if_pos rfl]

theorem place_attach_other (roster : Roster) (lane : Lane) (tail : Option Slot)
    (differ : other ≠ slot) :
    ((roster.attach lane slot tail).task? other).map Task.place =
      (roster.task? other).map fun task =>
        (task.lane, ⟨if tail = some other then some slot else task.links.next,
          task.links.previous⟩) := by
  rw [attach, task?_alterAt, task?_alter, if_neg differ]
  split <;> cases roster.task? other <;> rfl

theorem task?_detach_self (roster : Roster) (links : Links) (next : links.next ≠ some slot)
    (previous : links.previous ≠ some slot) :
    (roster.detach slot links).task? slot = (roster.task? slot).map Task.unplaced := by
  rw [detach, task?_alterAt, if_neg next, task?_alterAt, if_neg previous, task?_alter, if_pos rfl]
  rfl

theorem place_detach_other (roster : Roster) (links : Links) (differ : other ≠ slot) :
    ((roster.detach slot links).task? other).map Task.place =
      (roster.task? other).map fun task =>
        (task.lane, ⟨if links.previous = some other then links.next else task.links.next,
          if links.next = some other then links.previous else task.links.previous⟩) := by
  rw [detach, task?_alterAt, task?_alterAt, task?_alter, if_neg differ]
  split <;> split <;> cases roster.task? other <;> rfl

theorem sameTasks_attach (roster : Roster) (lane : Lane) (slot : Slot) (tail : Option Slot) :
    SameTasks roster (roster.attach lane slot tail) :=
  (sameTasks_alter roster slot fun task => task.unplaced_setPlace _ _).trans
    (sameTasks_alterAt _ tail fun task => task.unplaced_setNext _)

theorem sameTasks_detach (roster : Roster) (slot : Slot) (links : Links) :
    SameTasks roster (roster.detach slot links) :=
  ((sameTasks_alter roster slot fun task => task.unplaced_setPlace _ _).trans
    (sameTasks_alterAt _ _ fun task => task.unplaced_setNext _)).trans
    (sameTasks_alterAt _ _ fun task => task.unplaced_setPrevious _)

end Roster

end TaskMachine
