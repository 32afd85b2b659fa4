/-
Who waits for which timer, and who is gone. The nap of a task is the firing that
it waits for. Places are not used again, so a place whose task has ended stays
without one that is alive.
-/

import TaskMachine.Proofs.Roster.Places

namespace TaskMachine

/-- The firing that a task waits for, if it waits for a timer. -/
def Task.nap? (task : Task) : Option Firing :=
  match task.awaited with
  | some (.timer timer) => some ⟨timer, task.id⟩
  | _ => none

theorem Task.nap?_eq_some_iff {task : Task} {firing : Firing} :
    task.nap? = some firing ↔
      task.awaited = some (.timer firing.timer) ∧ task.id = firing.task := by
  obtain ⟨timer, id⟩ := firing
  rw [Task.nap?]
  cases task.awaited with
  | none => simp
  | some awaited => cases awaited <;> simp

theorem Task.nap?_of_awaited_eq_none {task : Task} (awake : task.awaited = none) :
    task.nap? = none := by
  rw [Task.nap?, awake]

theorem Task.nap?_congr {task later : Task} (id : later.id = task.id)
    (awaited : later.awaited = task.awaited) : later.nap? = task.nap? := by
  rw [Task.nap?, Task.nap?, id, awaited]

namespace Roster

/-- The firing that the task at a place waits for, if it waits for a timer. -/
def nap? (roster : Roster) (slot : Slot) : Option Firing := (roster.task? slot).bind Task.nap?

/-- There was a task at a place, and it has ended. -/
def Gone (roster : Roster) (slot : Slot) : Prop :=
  slot < roster.tasks.size ∧ ∀ task, roster.task? slot = some task → task.life = .zombie

/-- Places are not used again. -/
structure Placed (roster origin : Roster) : Prop where
  size : origin.tasks.size ≤ roster.tasks.size
  gone : ∀ slot, origin.Gone slot → roster.Gone slot

variable {roster next origin middle : Roster} {slot other : Slot} {task : Task} {firing : Firing}

/-! ### Naps -/

theorem nap?_eq (present : roster.task? slot = some task) : roster.nap? slot = task.nap? := by
  rw [nap?, present, Option.bind_some]

theorem nap?_eq_none (missing : roster.task? slot = none) : roster.nap? slot = none := by
  rw [nap?, missing, Option.bind_none]

theorem nap?_eq_some_iff : roster.nap? slot = some firing ↔ ∃ task, roster.task? slot = some task ∧
    task.awaited = some (.timer firing.timer) ∧ task.id = firing.task := by
  simp only [nap?, Option.bind_eq_some_iff, Task.nap?_eq_some_iff]

/-- What a task waits for is all that matters. -/
theorem nap?_congr (same : (next.task? slot).map Task.nap? = (roster.task? slot).map Task.nap?) :
    next.nap? slot = roster.nap? slot := by
  have through (entry : Option Task) : entry.bind Task.nap? = (entry.map Task.nap?).join := by
    cases entry <;> rfl
  rw [nap?, nap?, through, same, ← through]

theorem SameTasks.nap? (same : SameTasks roster next) (slot : Slot) :
    next.nap? slot = roster.nap? slot :=
  nap?_congr (same.map Task.nap? (fun _ => rfl) slot)

theorem nap?_alter (roster : Roster) (slot : Slot) {change : Task → Task}
    (id : ∀ task, (change task).id = task.id)
    (awaited : ∀ task, (change task).awaited = task.awaited) (other : Slot) :
    (roster.alter slot change).nap? other = roster.nap? other :=
  nap?_congr (map_alter roster slot (fun task => Task.nap?_congr (id task) (awaited task)) other)

/-- A new task does not wait for anything. -/
theorem nap?_push (roster : Roster) (awake : task.awaited = none) (slot : Slot) :
    ({ roster with tasks := roster.tasks.push (some task) } : Roster).nap? slot =
      roster.nap? slot := by
  by_cases new : slot = roster.tasks.size
  · have there := (task?_push roster task slot).trans (if_pos new)
    rw [nap?_eq there, Task.nap?_of_awaited_eq_none awake,
      nap?_eq_none (task?_eq_none (Nat.le_of_eq new.symm))]
  · have before := (task?_push roster task slot).trans (if_neg new)
    rw [nap?, before, nap?]

/-! ### Tasks that have ended -/

theorem Gone.arrange (gone : roster.Gone slot) (same : SameTasks roster next) : next.Gone slot := by
  refine ⟨same.1 ▸ gone.1, fun later present => ?_⟩
  obtain ⟨task, before, unplaced⟩ := same.symm.present present
  exact (congrArg Task.life unplaced).symm.trans (gone.2 task before)

theorem Gone.alter (gone : roster.Gone slot) {change : Task → Task}
    (life : ∀ task, task.life = .zombie → (change task).life = .zombie) (other : Slot) :
    (roster.alter other change).Gone slot := by
  refine ⟨(size_alter roster other change).symm ▸ gone.1, fun later present => ?_⟩
  rw [task?_alter] at present
  split at present
  · obtain ⟨task, before, rfl⟩ := Option.map_eq_some_iff.mp present
    exact life task (gone.2 task before)
  · exact gone.2 later present

theorem Gone.push (gone : roster.Gone slot) (task : Task) :
    ({ roster with tasks := roster.tasks.push (some task) } : Roster).Gone slot := by
  refine ⟨?_, fun later present => ?_⟩
  · rw [Array.size_push]
    exact Nat.lt_succ_of_lt gone.1
  · rcases of_task?_push present with ⟨new, _⟩ | before
    · exact absurd gone.1 (new ▸ Nat.lt_irrefl _)
    · exact gone.2 later before

theorem Gone.drop (gone : roster.Gone slot) (other : Slot) :
    (roster.setTask other none).Gone slot :=
  ⟨(size_setTask roster other none).symm ▸ gone.1,
    fun later present => gone.2 later (of_task?_drop present).2⟩

namespace Placed

theorem refl (roster : Roster) : roster.Placed roster := ⟨Nat.le_refl _, fun _ gone => gone⟩

theorem trans (second : roster.Placed middle) (first : middle.Placed origin) :
    roster.Placed origin :=
  ⟨Nat.le_trans first.size second.size, fun slot gone => second.gone slot (first.gone slot gone)⟩

theorem arrange (placed : roster.Placed origin) (same : SameTasks roster next) :
    next.Placed origin :=
  ⟨same.1.symm ▸ placed.size, fun slot gone => (placed.gone slot gone).arrange same⟩

theorem alter (placed : roster.Placed origin) (slot : Slot) {change : Task → Task}
    (life : ∀ task, task.life = .zombie → (change task).life = .zombie) :
    (roster.alter slot change).Placed origin :=
  ⟨(size_alter roster slot change).symm ▸ placed.size,
    fun other gone => (placed.gone other gone).alter life slot⟩

theorem push (placed : roster.Placed origin) (task : Task) :
    ({ roster with tasks := roster.tasks.push (some task) } : Roster).Placed origin := by
  refine ⟨Nat.le_trans placed.size ?_, fun slot gone => (placed.gone slot gone).push task⟩
  rw [Array.size_push]
  exact Nat.le_succ _

theorem drop (placed : roster.Placed origin) (slot : Slot) :
    (roster.setTask slot none).Placed origin :=
  ⟨(size_setTask roster slot none).symm ▸ placed.size,
    fun other gone => (placed.gone other gone).drop slot⟩

end Placed

end Roster

end TaskMachine
