/-
What is left of the tasks when some of them end. A task that ends is a zombie
from then on, or gone; of every other task nothing changes but its place in a
queue and the number of references to it. `Roster.Outlived` says so of any
number of endings, and `Departed` says of a single one what the embedder is told
besides.
-/

import TaskMachine.Proofs.Roster.Counted
import TaskMachine.Proofs.Roster.Frames
import TaskMachine.Proofs.Roster.Naps
import TaskMachine.Proofs.Scheduler.Parts
import TaskMachine.Scheduler.Ending

namespace TaskMachine

/-- A task without its place in a queue and the references to it. -/
def Task.core (task : Task) : Task := { task.unplaced with references := 0 }

theorem Task.core_ended (task : Task) : task.ended.core = task.core.ended := rfl

theorem Task.ended_ended (task : Task) : task.ended.ended = task.ended := rfl

namespace Roster

/-! ### Tasks that end -/

/-- The tasks that are there were there before, and since then those at some places have ended. -/
def Outlived (before after : Roster) (ended : List Slot) : Prop :=
  ∀ slot later, after.task? slot = some later → ∃ earlier, before.task? slot = some earlier ∧
    later.core = if slot ∈ ended then earlier.ended.core else earlier.core

variable {before middle after : Roster} {ended endedNow : List Slot} {slot : Slot} {later : Task}

theorem Outlived.refl (roster : Roster) : roster.Outlived roster [] :=
  fun _ task present => ⟨task, present, rfl⟩

theorem Outlived.trans (first : before.Outlived middle ended)
    (second : middle.Outlived after endedNow) : before.Outlived after (endedNow ++ ended) := by
  intro slot later present
  obtain ⟨between, betweenPresent, now⟩ := second slot later present
  obtain ⟨earlier, earlierPresent, before⟩ := first slot between betweenPresent
  refine ⟨earlier, earlierPresent, now.trans ?_⟩
  simp only [List.mem_append]
  by_cases endsNow : slot ∈ endedNow <;> by_cases endedBefore : slot ∈ ended <;>
    simp_all [Task.core_ended, Task.ended_ended]

/-- Nothing but places and references changes. -/
theorem Outlived.of_core (same : ∀ slot,
    (after.task? slot).map Task.core = (before.task? slot).map Task.core) :
    before.Outlived after [] := by
  intro slot later present
  have moved := same slot
  rw [present, Option.map_some] at moved
  obtain ⟨earlier, earlierPresent, core⟩ := Option.map_eq_some_iff.mp moved.symm
  exact ⟨earlier, earlierPresent, core.symm⟩

theorem SameTasks.outlived (same : SameTasks before after) : before.Outlived after [] :=
  .of_core (same.map Task.core fun _ => rfl)

theorem outlived_drop (roster : Roster) (slot : Slot) :
    roster.Outlived (roster.setTask slot none) [] :=
  fun _ task present => ⟨task, (of_task?_drop present).2, rfl⟩

theorem outlived_ended (roster : Roster) (slot : Slot) :
    roster.Outlived (roster.alter slot Task.ended) [slot] := by
  intro other later present
  rw [task?_alter] at present
  by_cases same : other = slot
  · rw [if_pos same] at present
    obtain ⟨earlier, earlierPresent, rfl⟩ := Option.map_eq_some_iff.mp present
    exact ⟨earlier, earlierPresent, by rw [if_pos (List.mem_singleton.mpr same)]⟩
  · rw [if_neg same] at present
    exact ⟨later, present, by rw [if_neg (mt List.mem_singleton.mp same)]⟩

/-- What has ended and is still there is a zombie. -/
theorem Outlived.zombie (outlived : before.Outlived after ended) (member : slot ∈ ended)
    (present : after.task? slot = some later) : later.life = .zombie := by
  obtain ⟨earlier, _, core⟩ := outlived slot later present
  rw [if_pos member] at core
  exact congrArg Task.life core

/-- A task that was a zombie still is one, or is gone. -/
theorem Outlived.still_zombie (outlived : before.Outlived after ended) {earlier : Task}
    (zombie : earlier.life = .zombie) (earlierPresent : before.task? slot = some earlier)
    (present : after.task? slot = some later) : later.life = .zombie := by
  obtain ⟨found, foundPresent, core⟩ := outlived slot later present
  obtain rfl := Option.some.inj (earlierPresent.symm.trans foundPresent)
  split at core
  · exact congrArg Task.life core
  · exact (congrArg Task.life core).trans zombie

/-- A task has the parent that it had. -/
theorem Outlived.parent (outlived : before.Outlived after ended)
    (present : after.task? slot = some later) :
    ∃ earlier, before.task? slot = some earlier ∧ later.parent = earlier.parent := by
  obtain ⟨earlier, earlierPresent, core⟩ := outlived slot later present
  have parent : later.core.parent =
      (if slot ∈ ended then earlier.ended.core else earlier.core).parent := congrArg Task.parent core
  refine ⟨earlier, earlierPresent, ?_⟩
  split at parent
  · exact parent
  · exact parent

/-- Of a task that has not ended nothing changes but its place and the references to it. -/
theorem Outlived.unended (outlived : before.Outlived after ended) (apart : slot ∉ ended)
    (present : after.task? slot = some later) :
    ∃ earlier, before.task? slot = some earlier ∧ later.core = earlier.core := by
  obtain ⟨earlier, earlierPresent, core⟩ := outlived slot later present
  rw [if_neg apart] at core
  exact ⟨earlier, earlierPresent, core⟩

end Roster

namespace Scheduler

variable {scheduler earlier later : Scheduler} {ended : List Slot} {slot : Slot} {task : Task}
  {exit : Exit}

/-! ### One ending -/

/-- What the embedder is told when the task at a place ends, in order. -/
def partings (scheduler : Scheduler) (slot : Slot) (exit : Exit) : List Notice :=
  match scheduler.roster.task? slot with
  | some task => task.watchers.map fun watcher => .ended watcher task.id exit
  | none => []

theorem partings_eq (present : scheduler.roster.task? slot = some task) :
    scheduler.partings slot exit =
      task.watchers.map fun watcher => .ended watcher task.id exit := by
  rw [partings, present]

/-- Of a task that has not ended, the same watchers are to be told. -/
theorem partings_of_outlived (outlived : earlier.roster.Outlived later.roster ended)
    (apart : slot ∉ ended) (present : later.roster.task? slot = some task) :
    later.partings slot exit = earlier.partings slot exit := by
  obtain ⟨before, beforePresent, core⟩ := outlived.unended apart present
  have id : task.core.id = before.core.id := congrArg Task.id core
  have watchers : task.core.watchers = before.core.watchers := congrArg Task.watchers core
  simp only [Task.core, Task.unplaced, Task.setPlace] at id watchers
  rw [partings_eq present, partings_eq beforePresent, id, watchers]

/-- The timers without the one that the task at a place waits for. -/
def agendaWithout (scheduler : Scheduler) (slot : Slot) : Agenda :=
  match scheduler.roster.nap? slot with
  | some firing => (scheduler.agenda.cancel firing.timer).1
  | none => scheduler.agenda

/-- The task at a place has ended and no other, its timer was cancelled, and each of its watchers
was told once. If something still refers to it, it is still there, and orphans are looked for. -/
structure Departed (scheduler : Scheduler) (slot : Slot) (exit : Exit) (next : Scheduler) :
    Prop where
  outlived : scheduler.roster.Outlived next.roster [slot]
  agenda : next.agenda = scheduler.agendaWithout slot
  clock : next.clock = scheduler.clock
  told : next.notices = (scheduler.partings slot exit).reverse ++ scheduler.notices
  pending : ∀ task, scheduler.roster.task? slot = some task → 1 < task.references →
    next.deathsPending = true
  remains : ∀ task, scheduler.roster.task? slot = some task → 1 < task.references →
    ∃ found, next.roster.task? slot = some found

/-- Some references were given up, and the last one of the task at a place was not, if it had more
than one. No task has ended, and nothing but tasks and their numbers has changed. -/
def Released (scheduler : Scheduler) (slot : Slot) (next : Scheduler) : Prop :=
  ∃ roster registry, next = { scheduler with roster, registry } ∧
    scheduler.roster.Outlived roster [] ∧
    ∀ task, scheduler.roster.task? slot = some task → 1 < task.references →
      ∃ found, roster.task? slot = some found

theorem after_releaseWithin_released (tasks : Nat) (slot : Slot) (scheduler : Scheduler) :
    After (releaseWithin tasks slot) scheduler (fun _ => scheduler.Released slot)
      fun _ _ => True := by
  induction tasks generalizing slot scheduler with
  | zero => exact After.throw trivial
  | succ tasks inductionHypothesis =>
    refine After.bind (after_onRoster (Roster.after_fetch (fun task present => ?_)
      fun _ => trivial))
    match count : task.references with
    | 0 => exact After.throw trivial
    | 1 =>
      refine After.bind (after_onRoster (After.of_ok (Roster.drop_eq _ slot) ?_))
      refine After.bind (After.modify ?_)
      have dropped := Roster.outlived_drop scheduler.roster slot
      have single (found : Task) (foundPresent : scheduler.roster.task? slot = some found) :
          ¬ 1 < found.references := by
        rw [Option.some.inj (foundPresent.symm.trans present), count]
        exact Nat.lt_irrefl 1
      cases task.parent with
      | none =>
        exact After.pure ⟨_, _, rfl, dropped, fun found foundPresent more =>
          absurd more (single found foundPresent)⟩
      | some parent =>
        refine (inductionHypothesis parent _).imp fun _ next released => ?_
        obtain ⟨roster, registry, rfl, outlived, _⟩ := released
        exact ⟨roster, registry, rfl, dropped.trans outlived, fun found foundPresent more =>
          absurd more (single found foundPresent)⟩
    | left + 2 =>
      refine after_update present ⟨_, scheduler.registry, rfl, .of_core ?_, fun _ _ _ => ?_⟩
      · exact Roster.map_alter scheduler.roster slot fun _ => rfl
      · exact Roster.task?_alter_present slot _ present

theorem after_releaseSlot_released (slot : Slot) (scheduler : Scheduler) :
    After (releaseSlot slot) scheduler (fun _ => scheduler.Released slot) fun _ _ => True :=
  After.bind (After.get (after_releaseWithin_released _ slot scheduler))

end Scheduler

end TaskMachine
