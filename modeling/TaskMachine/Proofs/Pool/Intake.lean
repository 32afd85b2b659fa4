/-
A thread takes a task in. If that succeeds, the task is there besides what was
there before, it has not ended, and the promise that is to be kept when it does
is its only watcher. Nothing else of the tasks has changed.
-/

import TaskMachine.Pool.Worker
import TaskMachine.Proofs.Session.Farewells

namespace TaskMachine

namespace Scheduler

variable {scheduler before next : Scheduler} {id other : TaskId} {watcher : Nat}
  {lists : Lane → List Slot} {held unscheduled : List TaskId} {slot : Slot} {task : Task}

/-! ### What the parts of it do to who lives and who watches -/

/-- Who lives and who watches does not hang on what cannot be seen from outside. -/
theorem same_of_seen (same : ∀ slot, (next.roster.task? slot).map Task.seen =
    (before.roster.task? slot).map Task.seen) :
    (∀ id, next.Lives id ↔ before.Lives id) ∧
      ∀ id watcher, next.Watches id watcher ↔ before.Watches id watcher := by
  have half {one another : Scheduler} (same : ∀ slot, (one.roster.task? slot).map Task.seen =
      (another.roster.task? slot).map Task.seen) {slot : Slot} {task : Task}
      (present : one.roster.task? slot = some task) : ∃ found,
        another.roster.task? slot = some found ∧ found.id = task.id ∧ found.life = task.life ∧
          found.watchers = task.watchers := by
    have is := same slot
    rw [present, Option.map_some] at is
    obtain ⟨found, foundPresent, seen⟩ := Option.map_eq_some_iff.mp is.symm
    simp only [Task.seen, Task.account, Prod.mk.injEq] at seen
    exact ⟨found, foundPresent, seen.1.1, seen.1.2.2.2, seen.2⟩
  have lives {one another : Scheduler} (same : ∀ slot, (one.roster.task? slot).map Task.seen =
      (another.roster.task? slot).map Task.seen) (id : TaskId) (lives : one.Lives id) :
      another.Lives id := by
    obtain ⟨slot, task, present, rfl, alive⟩ := lives
    obtain ⟨found, foundPresent, id, life, _⟩ := half same present
    exact ⟨slot, found, foundPresent, id, life.trans alive⟩
  have watches {one another : Scheduler} (same : ∀ slot, (one.roster.task? slot).map Task.seen =
      (another.roster.task? slot).map Task.seen) (id : TaskId) (watcher : Nat)
      (watches : one.Watches id watcher) : another.Watches id watcher := by
    obtain ⟨slot, task, present, rfl, alive, waits⟩ := watches
    obtain ⟨found, foundPresent, id, life, watchers⟩ := half same present
    exact ⟨slot, found, foundPresent, id, life.trans alive, watchers ▸ waits⟩
  have back : ∀ slot, (before.roster.task? slot).map Task.seen =
      (next.roster.task? slot).map Task.seen := fun slot => (same slot).symm
  exact ⟨fun id => ⟨lives same id, lives back id⟩,
    fun id watcher => ⟨watches same id watcher, watches back id watcher⟩⟩

/-- A task is inserted that has no parent, unless its number is in use. -/
theorem insertTask_eq (scheduler : Scheduler) (id : TaskId) (function : Function)
    (mailbox : Mailbox) : insertTask id function none mailbox scheduler =
      if scheduler.registry.contains id then .error (.alreadyExists id) scheduler
      else .ok ⟨⟩ (scheduler.entered id function none mailbox) := by
  by_cases known : scheduler.registry.contains id = true
  · rw [if_pos known, insertTask, bind_apply, get_apply]
    simp only [known, if_true]
    rfl
  · rw [if_neg known, insertTask, bind_apply, get_apply]
    simp only [known]
    rfl

theorem task?_entered (scheduler : Scheduler) (id : TaskId) (function : Function)
    (mailbox : Mailbox) (slot : Slot) :
    (scheduler.entered id function none mailbox).roster.task? slot =
      if slot = scheduler.roster.tasks.size then some (.created id function none mailbox)
      else scheduler.roster.task? slot :=
  Roster.task?_push _ _ _

/-- The task has not ended, and has no watcher. -/
theorem same_entered (scheduler : Scheduler) (id : TaskId) (function : Function)
    (mailbox : Mailbox) :
    (∀ other, (scheduler.entered id function none mailbox).Lives other ↔
      scheduler.Lives other ∨ other = id) ∧
    ∀ other watcher, (scheduler.entered id function none mailbox).Watches other watcher ↔
      scheduler.Watches other watcher := by
  have before {slot : Slot} {task : Task} (present : scheduler.roster.task? slot = some task) :
      (scheduler.entered id function none mailbox).roster.task? slot = some task := by
    rw [task?_entered, if_neg (Nat.ne_of_lt (Roster.lt_size_of_task?_eq_some present)), present]
  have after {slot : Slot} {task : Task}
      (present : (scheduler.entered id function none mailbox).roster.task? slot = some task) :
      task = .created id function none mailbox ∨ scheduler.roster.task? slot = some task := by
    rw [task?_entered] at present
    split at present
    · exact Or.inl (Option.some.inj present).symm
    · exact Or.inr present
  refine ⟨fun other => ⟨?_, ?_⟩, fun other watcher => ⟨?_, ?_⟩⟩
  · rintro ⟨slot, task, present, rfl, alive⟩
    rcases after present with rfl | wasPresent
    · exact Or.inr rfl
    · exact Or.inl ⟨slot, task, wasPresent, rfl, alive⟩
  · rintro (⟨slot, task, present, rfl, alive⟩ | rfl)
    · exact ⟨slot, task, before present, rfl, alive⟩
    · exact ⟨_, _, (task?_entered _ _ _ _ _).trans (if_pos rfl), rfl, rfl⟩
  · rintro ⟨slot, task, present, rfl, alive, waits⟩
    rcases after present with rfl | wasPresent
    · exact absurd waits List.not_mem_nil
    · exact ⟨slot, task, wasPresent, rfl, alive, waits⟩
  · rintro ⟨slot, task, present, rfl, alive, waits⟩
    exact ⟨slot, task, before present, rfl, alive, waits⟩

/-- A watcher is accepted for a task that has not ended. -/
theorem same_watched (present : scheduler.roster.task? slot = some task)
    (alive : task.life = .alive) {next : Scheduler}
    (is : next.roster = scheduler.roster.alter slot fun task =>
      { task with watchers := task.watchers ++ [watcher] }) :
    (∀ other, next.Lives other ↔ scheduler.Lives other) ∧
      ∀ other promise, next.Watches other promise ↔
        scheduler.Watches other promise ∨ other = task.id ∧ promise = watcher := by
  have found (place : Slot) : next.roster.task? place = if place = slot then
      some { task with watchers := task.watchers ++ [watcher] }
      else scheduler.roster.task? place := by
    rw [is, Roster.task?_alter_of_present present]
  refine ⟨fun other => ⟨?_, ?_⟩, fun other promise => ⟨?_, ?_⟩⟩
  · rintro ⟨place, changed, there, rfl, life⟩
    rw [found] at there
    split at there
    · obtain rfl := Option.some.inj there
      exact ⟨slot, task, present, rfl, alive⟩
    · exact ⟨place, changed, there, rfl, life⟩
  · rintro ⟨place, earlier, wasPresent, rfl, life⟩
    by_cases same : place = slot
    · obtain rfl := Option.some.inj (present.symm.trans (same ▸ wasPresent))
      exact ⟨slot, _, (found slot).trans (if_pos rfl), rfl, alive⟩
    · exact ⟨place, earlier, (found place).trans ((if_neg same).trans wasPresent), rfl, life⟩
  · rintro ⟨place, changed, there, rfl, life, waits⟩
    rw [found] at there
    split at there
    · obtain rfl := Option.some.inj there
      rcases List.mem_append.mp waits with before | now
      · exact Or.inl ⟨slot, task, present, rfl, alive, before⟩
      · exact Or.inr ⟨rfl, List.mem_singleton.mp now⟩
    · exact Or.inl ⟨place, changed, there, rfl, life, waits⟩
  · rintro (⟨place, earlier, wasPresent, rfl, life, waits⟩ | ⟨rfl, rfl⟩)
    · by_cases same : place = slot
      · obtain rfl := Option.some.inj (present.symm.trans (same ▸ wasPresent))
        exact ⟨slot, _, (found slot).trans (if_pos rfl), rfl, alive, List.mem_append_left _ waits⟩
      · exact ⟨place, earlier, (found place).trans ((if_neg same).trans wasPresent), rfl, life,
          waits⟩
    · exact ⟨slot, _, (found slot).trans (if_pos rfl), rfl, alive,
        List.mem_append_right _ List.mem_cons_self⟩

/-- A watcher is accepted for a task that is waiting to be scheduled. -/
theorem after_watch_same (idle : scheduler.Idle lists id slot) :
    After (watch id watcher) scheduler
      (fun _ next => next.nextId = scheduler.nextId ∧
        (∀ other, next.Lives other ↔ scheduler.Lives other) ∧
        ∀ other promise, next.Watches other promise ↔
          scheduler.Watches other promise ∨ other = id ∧ promise = watcher)
      fun _ _ => False := by
  obtain ⟨task, present, rfl, alive⟩ := idle.alive
  refine After.bind (After.get ?_)
  rw [idle.known]
  refine After.bind (After.get ?_)
  rw [present]
  simp only [alive]
  exact After.bind (after_update present (After.pure ⟨rfl, same_watched present alive rfl⟩))

/-- To schedule a task changes its place at most. -/
theorem after_schedule_same (id : TaskId) :
    After (schedule id) scheduler
      (fun _ next => next.nextId = scheduler.nextId ∧ Roster.SameTasks scheduler.roster next.roster)
      fun _ next => next.nextId = scheduler.nextId := by
  refine After.bind (after_slotOf (fun slot _ => ?_) fun _ => rfl)
  refine After.bind (after_onRoster (Roster.after_fetch (fun task _ => ?_) fun _ => rfl))
  cases task.life with
  | zombie => exact After.throw rfl
  | alive =>
    exact after_onRoster ((Roster.after_pushTail scheduler.roster .run slot).mono
      (fun _ _ same => ⟨rfl, same⟩) fun _ _ _ => rfl)

/-! ### All of it -/

/-- A task was taken in, with a watcher. -/
structure TookIn (next before : Scheduler) (id : TaskId) (watcher : Nat) : Prop where
  settled : next.Settled next [] [] []
  nextId : next.nextId = before.nextId
  lives : ∀ other, next.Lives other ↔ before.Lives other ∨ other = id
  watches : ∀ other promise, next.Watches other promise ↔
    before.Watches other promise ∨ other = id ∧ promise = watcher

/-- A task can be taken in if its number was handed out. If that breaks off, no number was. -/
theorem after_takeIn (settled : scheduler.Settled scheduler [] [] []) {command : Command}
    (numbered : command.id.number < scheduler.nextId.number) (promise : Nat) :
    After (Pool.takeIn command promise) scheduler
      (fun _ next => next.TookIn scheduler command.id promise)
      fun _ next => next.nextId = scheduler.nextId := by
  obtain ⟨lists, sound⟩ := settled
  refine After.bind ((After.known.and (sound.after_insertTask numbered)).mono
    (fun _ entered inserts => ?_) fun _ next breaks => ?_)
  · obtain ⟨inserts, enteredSound, slot, idle⟩ := inserts
    have is : entered = scheduler.entered command.id command.function none command.mailbox := by
      rw [insertTask_eq] at inserts
      split at inserts
      · exact absurd inserts nofun
      · injection inserts with _ is
        exact is.symm
    obtain ⟨livesEntered, watchesEntered⟩ :=
      same_entered scheduler command.id command.function command.mailbox
    rw [← is] at livesEntered watchesEntered
    have numbers : entered.nextId = scheduler.nextId := is ▸ rfl
    refine After.bind (((enteredSound.after_watch command.id promise).and
      (after_watch_same idle)).mono (fun _ watched found => ?_) fun _ _ fails => fails.1.elim)
    obtain ⟨watchedSound, numbersWatched, livesWatched, watchesWatched⟩ := found
    have left (other : TaskId) (differ : other ≠ command.id) (member : other ∈ [command.id]) :
        other ∈ ([] : List TaskId) :=
      absurd (List.mem_singleton.mp member) differ
    refine ((watchedSound.after_schedule left).and (after_schedule_same command.id)).mono
      (fun _ next scheduled => ?_) fun _ next fails => fails.2.trans (numbersWatched.trans numbers)
    obtain ⟨⟨listsNow, nextSound⟩, numbersNext, same⟩ := scheduled
    obtain ⟨livesNext, watchesNext⟩ := same_of_seen (same.map Task.seen fun _ => rfl)
    refine ⟨⟨listsNow, nextSound.restart⟩, numbersNext.trans (numbersWatched.trans numbers),
      fun other => ?_, fun other promise => ?_⟩
    · rw [livesNext, livesWatched, livesEntered]
    · rw [watchesNext, watchesWatched, watchesEntered]
  · obtain ⟨breaks, _⟩ := breaks
    rw [insertTask_eq] at breaks
    split at breaks
    · injection breaks with _ is
      exact is ▸ rfl
    · exact absurd breaks nofun

end Scheduler

end TaskMachine
