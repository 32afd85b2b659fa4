/-
How a task comes to wait and goes on. Whatever state a scheduler is in,
`suspend` and `resume` change what one task waits for, and the places of tasks
in their queues, and nothing else.
-/

import TaskMachine.Proofs.Roster.Frames
import TaskMachine.Proofs.Roster.Queued
import TaskMachine.Proofs.Scheduler.Parts
import TaskMachine.Scheduler.Tick

namespace TaskMachine.Scheduler

/-- One state leads to another in which one task waits for something else, and is in another place
perhaps. -/
structure Rewaited (before : Scheduler) (slot : Slot) (awaited : Option Awaited)
    (after : Scheduler) : Prop where
  rest : after = { before with roster := after.roster }
  tasks : Roster.SameTasks (before.roster.alter slot (·.await awaited)) after.roster

/-- What is known of a task afterwards. -/
theorem Rewaited.earlier {before after : Scheduler} {slot : Slot} {awaited : Option Awaited}
    (rewaited : before.Rewaited slot awaited after) {place : Slot} {task : Task}
    (present : after.roster.task? place = some task) :
    ∃ earlier, before.roster.task? place = some earlier ∧ task.id = earlier.id ∧
      task.mailbox = earlier.mailbox ∧
      task.awaited = if place = slot then awaited else earlier.awaited := by
  have same := rewaited.tasks.2 place
  rw [present, Option.map_some, Roster.task?_alter] at same
  split at same
  · rename_i atSlot
    rw [Option.map_map] at same
    obtain ⟨earlier, earlierPresent, is⟩ := Option.map_eq_some_iff.mp same.symm
    exact ⟨earlier, earlierPresent, (congrArg Task.id is).symm, (congrArg Task.mailbox is).symm,
      by rw [if_pos atSlot]; exact (congrArg Task.awaited is).symm⟩
  · rename_i elsewhere
    obtain ⟨earlier, earlierPresent, is⟩ := Option.map_eq_some_iff.mp same.symm
    exact ⟨earlier, earlierPresent, (congrArg Task.id is).symm, (congrArg Task.mailbox is).symm,
      by rw [if_neg elsewhere]; exact (congrArg Task.awaited is).symm⟩

theorem after_suspend (scheduler : Scheduler) (slot : Slot) (awaited : Awaited) :
    After (suspend slot awaited) scheduler
      (fun _ next => Rewaited scheduler slot (some awaited) next) fun _ _ => True := by
  refine After.bind (after_onRoster ((Roster.after_remove _ _ _).mono (fun _ left same => ?_)
    fun _ _ _ => trivial))
  refine After.bind (after_onRoster ((Roster.after_update _).mono (fun _ changed is => ?_)
    fun _ _ _ => trivial))
  refine after_onRoster ((Roster.after_pushTail _ _ _).mono (fun _ joined again => ?_)
    fun _ _ _ => trivial)
  subst is
  exact ⟨rfl, (same.alter slot fun _ => rfl).trans again⟩

theorem after_resume (scheduler : Scheduler) (slot : Slot) :
    After (resume slot) scheduler (fun _ next => Rewaited scheduler slot none next)
      fun _ _ => True := by
  refine After.bind (after_onRoster ((Roster.after_remove _ _ _).mono (fun _ left same => ?_)
    fun _ _ _ => trivial))
  refine After.bind (after_onRoster ((Roster.after_update _).mono (fun _ changed is => ?_)
    fun _ _ _ => trivial))
  refine after_onRoster ((Roster.after_pushTail _ _ _).mono (fun _ joined again => ?_)
    fun _ _ _ => trivial)
  subst is
  exact ⟨rfl, (same.alter slot fun _ => rfl).trans again⟩

/-- The task with a given number goes on if it waits for a given thing; else nothing changes. -/
theorem after_resumeIf (scheduler : Scheduler) (id : TaskId) (awaited : Awaited) :
    After (resumeIf id awaited) scheduler
      (fun _ next =>
        (next = scheduler ∧ ∀ slot task, scheduler.registry.find? id = some slot →
          scheduler.roster.task? slot = some task → task.awaited ≠ some awaited) ∨
        ∃ slot, scheduler.registry.find? id = some slot ∧ Rewaited scheduler slot none next)
      fun _ _ => True := by
  refine After.bind (After.get ?_)
  cases found : scheduler.registry.find? id with
  | none => exact After.pure (Or.inl ⟨rfl, fun slot task known => by simp at known⟩)
  | some slot =>
    refine After.bind (after_onRoster (Roster.after_fetch (fun task present => ?_)
      fun _ => trivial))
    by_cases waits : task.awaited = some awaited
    · rw [if_pos waits]
      exact (after_resume scheduler slot).imp fun _ next rewaited => Or.inr ⟨slot, rfl, rewaited⟩
    · rw [if_neg waits]
      refine After.pure (Or.inl ⟨rfl, fun other otherTask known otherPresent => ?_⟩)
      obtain rfl := Option.some.inj known
      rw [present] at otherPresent
      rwa [← Option.some.inj otherPresent]

/-- Tasks that were woken go on, which changes the roster and nothing else. -/
theorem after_resumeEach (scheduler : Scheduler) (batch : List TaskId) :
    After (batch.forM fun id => resumeIf id .message) scheduler
      (fun _ next => next = { scheduler with roster := next.roster }) fun _ _ => True := by
  refine After.forM (fun id _ middle reached => ?_) rfl
  refine (after_resumeIf middle id .message).imp fun _ next resumed => ?_
  rcases resumed with ⟨rfl, _⟩ | ⟨_, _, rewaited⟩
  · exact reached
  · rw [rewaited.rest, reached]

end TaskMachine.Scheduler
