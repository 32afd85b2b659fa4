/-
A task ends, and the scheduler stays sound. The task leaves its queue, its
watchers are told, and the reference that stood for its life is given up. It is
the only one that ends.
-/

import TaskMachine.Proofs.Scheduler.Departures
import TaskMachine.Proofs.Scheduler.Lifetimes

namespace TaskMachine

theorem Agenda.OneShot.cancel {agenda : Agenda} (oneShot : agenda.OneShot) (timer : TimerId) :
    (agenda.cancel timer).1.OneShot := by
  intro other entry found
  by_cases same : other = timer
  · rw [same] at found
    exact absurd ((Table.find?_erase_self agenda.pending timer).symm.trans found) nofun
  · exact oneShot other entry ((Table.find?_erase_other agenda.pending same).symm.trans found)

/-- On the way from a task to its parent and so on, every task is there. -/
theorem Roster.Counted.livingWithin {roster : Roster} {registry : Table TaskId Slot}
    {nextId : TaskId} {held : List TaskId} {owed : Option Slot}
    (counted : roster.Counted registry nextId held owed) {steps : Nat} {slot : Slot} {task : Task}
    (present : roster.task? slot = some task) (enough : slot < steps) :
    ∃ found, roster.livingWithin steps (some slot) = .ok found := by
  induction steps generalizing slot task with
  | zero => exact absurd enough (Nat.not_lt_zero slot)
  | succ steps inductionHypothesis =>
    rw [Roster.livingWithin, present]
    cases life : task.life with
    | alive =>
      simp only [life]
      exact ⟨some task, rfl⟩
    | zombie =>
      simp only [life]
      cases own : task.parent with
      | none => exact ⟨none, by cases steps <;> rfl⟩
      | some parent =>
        obtain ⟨sooner, found, foundPresent⟩ := counted.parent present own
        exact inductionHypothesis foundPresent
          (Nat.lt_of_lt_of_le sooner (Nat.le_of_lt_succ enough))

namespace Scheduler

variable {origin scheduler next : Scheduler} {ended : List Slot} {lists : Lane → List Slot}
  {held unscheduled : List TaskId} {running owed : Option Slot} {slot : Slot} {task : Task}
  {lane : Lane}

/-- A task has ended, and its watchers were told. -/
theorem Since.finish (since : scheduler.Since origin ended)
    (present : scheduler.roster.task? slot = some task) (config : next.config = scheduler.config)
    {told : List Notice} (notices : next.notices = told ++ scheduler.notices)
    (mentions : ∀ watcher ∈ task.watchers, ∃ exit, Notice.ended watcher task.id exit ∈ told)
    (others : ∀ other found, other ≠ slot → scheduler.roster.task? other = some found →
      found.life = .alive → ∃ later, next.roster.task? other = some later ∧ later.life = .alive ∧
        later.id = found.id ∧ found.watchers ⊆ later.watchers) :
    next.Since origin (slot :: ended) where
  config := config.trans since.config
  told := by
    obtain ⟨recent, earlier, known⟩ := since.told
    refine ⟨told ++ recent, by rw [notices, earlier, List.append_assoc], ?_⟩
    intro other member found foundPresent alive watcher watches
    by_cases before : other ∈ ended
    · obtain ⟨exit, mentioned⟩ := known other before found foundPresent alive watcher watches
      exact ⟨exit, List.mem_append_right _ mentioned⟩
    · obtain rfl := (List.mem_cons.mp member).resolve_right before
      obtain ⟨later, laterPresent, _, id, watchers⟩ :=
        since.alive other found foundPresent alive before
      obtain rfl := Option.some.inj (present.symm.trans laterPresent)
      obtain ⟨exit, mentioned⟩ := mentions watcher (watchers watches)
      rw [id] at mentioned
      exact ⟨exit, List.mem_append_left _ mentioned⟩
  alive := fun other found foundPresent alive apart => by
    obtain ⟨differ, before⟩ := not_or.mp (mt List.mem_cons.mpr apart)
    obtain ⟨middle, middlePresent, middleAlive, id, watchers⟩ :=
      since.alive other found foundPresent alive before
    obtain ⟨later, laterPresent, laterAlive, id', watchers'⟩ :=
      others other middle differ middlePresent middleAlive
    exact ⟨later, laterPresent, laterAlive, id'.trans id,
      fun _ member => watchers' (watchers member)⟩

/-- All watchers are told in order, which changes the mailroom besides. -/
theorem after_tellAll (scheduler : Scheduler) (watchers : List Nat) (id : TaskId) (exit : Exit) :
    After (watchers.forM fun watcher => notify (.ended watcher id exit)) scheduler
      (fun _ next => ∃ mailroom, next = { scheduler with
        notices := (watchers.map fun watcher => .ended watcher id exit).reverse ++ scheduler.notices
        mailroom })
      fun _ _ => False := by
  induction watchers generalizing scheduler with
  | nil => exact After.pure ⟨scheduler.mailroom, rfl⟩
  | cons watcher rest inductionHypothesis =>
    refine After.bind ((after_notify scheduler _).imp fun _ middle reached => ?_)
    obtain ⟨mailroom, rfl⟩ := reached
    refine (inductionHypothesis _).imp fun _ next reached => ?_
    obtain ⟨mailroom', rfl⟩ := reached
    exact ⟨mailroom', by simp⟩

/-- To report an exit changes the mailroom at most. -/
theorem after_reportExit {registry : Table TaskId Slot} {nextId : TaskId}
    (counted : scheduler.roster.Counted registry nextId held owed) (id : TaskId)
    {parent : Option Slot}
    (known : ∀ slot, parent = some slot → ∃ found, scheduler.roster.task? slot = some found)
    (exit : Exit) :
    After (reportExit id parent exit) scheduler
      (fun _ next => ∃ mailroom, next = { scheduler with mailroom }) fun _ _ => False := by
  have finds : ∃ found, scheduler.roster.nearestLiving parent = .ok found := by
    cases parent with
    | none => exact ⟨none, rfl⟩
    | some slot =>
      obtain ⟨found, present⟩ := known slot rfl
      exact counted.livingWithin present
        (Nat.lt_succ_of_lt (Roster.lt_size_of_task?_eq_some present))
  obtain ⟨ancestor, found⟩ := finds
  refine After.bind (after_reading found ?_)
  cases ancestor with
  | none => exact After.pure ⟨scheduler.mailroom, rfl⟩
  | some ancestor =>
    by_cases traps : ancestor.flags.contains .trapExit = true
    · simp only [traps, if_true]
      exact after_onMailroom fun _ mailroom => ⟨mailroom, rfl⟩
    · simp only [traps]
      exact After.pure ⟨scheduler.mailroom, rfl⟩

namespace Sound

/-- A task that is in a queue leaves it and ends; when its watchers are told, only the reference
that stood for its life is left to be given up. -/
theorem finish (sound : scheduler.Sound origin ended lists held unscheduled running none)
    (member : slot ∈ lists lane) (turn : ∀ {place}, running = some place → place = slot) :
    ∃ task left found, scheduler.roster.task? slot = some task ∧ task.lane = some lane ∧
      Roster.remove lane slot scheduler.roster = .ok ⟨⟩ left ∧
      Roster.SameTasks scheduler.roster left ∧ left.task? slot = some found ∧
      (∀ parent, found.parent = some parent →
        ∃ other, (left.alter slot Task.ended).task? parent = some other) ∧
      ∀ agenda deathsPending told mailroom, agenda.OneShot →
        (∀ watcher ∈ found.watchers, ∃ exit, Notice.ended watcher found.id exit ∈ told) →
        ({ scheduler with
            roster := left.alter slot Task.ended
            agenda
            deathsPending
            notices := told ++ scheduler.notices
            mailroom } : Scheduler).Sound origin (slot :: ended)
          (Roster.without lists [slot]) held unscheduled none (some slot) := by
  obtain ⟨task, present, alive, inLane⟩ := sound.queued.present member
  obtain ⟨left, removes, same, queued⟩ := sound.queued.finish member turn
  rw [sound.queued.lines.update_erase member] at queued
  have seen := same.map Task.seen fun _ => rfl
  have back {other : Slot} {earlier : Task}
      (present : scheduler.roster.task? other = some earlier) :
      ∃ later, left.task? other = some later ∧ later.id = earlier.id ∧
        later.parent = earlier.parent ∧ later.life = earlier.life ∧
        later.watchers = earlier.watchers := by
    have moved := seen other
    rw [present, Option.map_some] at moved
    obtain ⟨later, laterPresent, is⟩ := Option.map_eq_some_iff.mp moved
    simp only [Task.seen, Task.account, Prod.mk.injEq] at is
    exact ⟨later, laterPresent, is.1.1, is.1.2.1, is.1.2.2.2, is.2⟩
  obtain ⟨found, foundPresent, id, parent, life, watchers⟩ := back present
  refine ⟨task, left, found, present, inLane, removes, same, foundPresent, fun place own => ?_,
    fun agenda deathsPending told mailroom oneShot mentions => ⟨?_, queued, oneShot, ?_⟩⟩
  · rw [parent] at own
    obtain ⟨_, other, otherPresent⟩ := sound.counted.parent present own
    obtain ⟨later, laterPresent, _⟩ := back otherPresent
    exact Roster.task?_alter_present slot Task.ended laterPresent
  · exact (sound.counted.congr (same.map Task.account fun _ => rfl)).finish foundPresent
      (life.trans alive)
  · rw [id, watchers] at mentions
    refine sound.since.finish present rfl rfl mentions
      fun other earlier differ earlierPresent lives => ?_
    obtain ⟨later, laterPresent, id, _, life, watchers⟩ := back earlierPresent
    refine ⟨later, ?_, life.trans lives, id, fun _ member => watchers.symm ▸ member⟩
    show (left.alter slot Task.ended).task? other = some later
    rw [Roster.task?_alter, if_neg differ, laterPresent]

/-- A task that is in a queue ends, and nothing else becomes of the others. -/
theorem after_endTask (sound : scheduler.Sound origin ended lists held unscheduled running none)
    (member : slot ∈ lists lane) (turn : ∀ {place}, running = some place → place = slot)
    (exit : Exit) :
    After (endTask slot exit) scheduler
      (fun _ next => next.Sound origin (slot :: ended) (Roster.without lists [slot]) held
        unscheduled none none ∧ scheduler.Departed slot exit next)
      fun _ _ => False := by
  obtain ⟨task, left, found, present, inLane, removes, same, foundPresent, parentKnown, finished⟩ :=
    sound.finish member turn
  have endedPresent : (left.alter slot Task.ended).task? slot = some found.ended := by
    rw [Roster.task?_alter, if_pos rfl, foundPresent, Option.map_some]
  obtain ⟨_, again, unplaced⟩ := same.present present
  obtain rfl := Option.some.inj (foundPresent.symm.trans again)
  have references : found.unplaced.references = task.unplaced.references :=
    congrArg Task.references unplaced
  have departs : scheduler.partings slot exit =
      found.watchers.map fun watcher => .ended watcher found.id exit := by
    have kept : ({ scheduler with roster := left } : Scheduler).partings slot exit =
        scheduler.partings slot exit :=
      partings_of_outlived same.outlived List.not_mem_nil foundPresent
    exact kept.symm.trans (partings_eq foundPresent)
  have outlived := same.outlived.trans (left.outlived_ended slot)
  have naps : scheduler.roster.nap? slot = found.nap? := by
    rw [← same.nap? slot, Roster.nap?_eq foundPresent]
  -- It remains to tell of the task and to give up its reference.
  have concludes {agenda : Agenda} (oneShot : agenda.OneShot)
      (cancelled : agenda = scheduler.agendaWithout slot) {deathsPending : Bool}
      (pending : 1 < found.references → deathsPending = true) :
      After (do
        found.watchers.forM fun watcher => notify (.ended watcher found.id exit)
        reportExit found.id found.parent exit
        releaseSlot slot)
        { scheduler with roster := left.alter slot Task.ended, agenda, deathsPending }
        (fun _ next => next.Sound origin (slot :: ended) (Roster.without lists [slot]) held
          unscheduled none none ∧ scheduler.Departed slot exit next)
        fun _ _ => False := by
    refine After.bind ((after_tellAll _ _ _ _).imp fun _ told reached => ?_)
    obtain ⟨mailroom, rfl⟩ := reached
    have gone := finished agenda deathsPending _ mailroom oneShot fun watcher watches =>
      ⟨exit, List.mem_reverse.mpr (List.mem_map.mpr ⟨watcher, watches, rfl⟩)⟩
    refine After.bind ((after_reportExit gone.counted found.id parentKnown exit).imp
      fun _ reported reached => ?_)
    obtain ⟨mailroom', rfl⟩ := reached
    refine (((gone.mailroom mailroom').after_releaseSlot endedPresent).and
      (after_releaseSlot_released slot _)).mono (fun _ next released => ?_) fun _ _ fails => fails.1
    obtain ⟨released, roster, registry, rfl, still, remains⟩ := released
    have several {other : Task} (otherPresent : scheduler.roster.task? slot = some other)
        (more : 1 < other.references) : 1 < found.references := by
      obtain rfl := Option.some.inj (present.symm.trans otherPresent)
      exact Nat.lt_of_lt_of_eq more references.symm
    exact ⟨released, outlived.trans still, cancelled, rfl, by rw [departs],
      fun _ otherPresent more => pending (several otherPresent more),
      fun _ otherPresent more => remains _ endedPresent (several otherPresent more)⟩
  have buries {agenda : Agenda} (oneShot : agenda.OneShot)
      (cancelled : agenda = scheduler.agendaWithout slot) :
      After (do
        update slot fun task =>
          { task with awaited := none, stack := none, life := .zombie, watchers := [] }
        if 1 < found.references then
          modify fun scheduler => { scheduler with deathsPending := true }
        found.watchers.forM fun watcher => notify (.ended watcher found.id exit)
        reportExit found.id found.parent exit
        releaseSlot slot) { scheduler with roster := left, agenda }
        (fun _ next => next.Sound origin (slot :: ended) (Roster.without lists [slot]) held
          unscheduled none none ∧ scheduler.Departed slot exit next)
        fun _ _ => False := by
    refine After.bind (after_update foundPresent ?_)
    by_cases more : 1 < found.references
    · simp only [more, if_true]
      exact After.bind (After.modify (concludes oneShot cancelled fun _ => rfl))
    · simp only [more, if_false]
      exact concludes oneShot cancelled fun several => absurd several more
  refine After.bind (After.bind (after_fetch present ?_))
  rw [inLane]
  refine after_onRoster (After.of_ok removes (After.bind (after_fetch foundPresent ?_)))
  rw [Task.nap?] at naps
  cases awaits : found.awaited with
  | none =>
    rw [awaits] at naps
    exact buries sound.oneShot (by rw [agendaWithout, naps])
  | some awaited =>
    rw [awaits] at naps
    cases awaited with
    | message => exact buries sound.oneShot (by rw [agendaWithout, naps])
    | timer timer =>
      exact After.bind (After.modify (buries (sound.oneShot.cancel timer)
        (by rw [agendaWithout, naps])))

end Sound

end Scheduler

end TaskMachine
