/-
What a scheduler is like at each moment of a session whose embedder keeps to what
it may ask for. Between the parts of an operation it is sound. In the middle of a
turn it is sound but for the stack that is away, and the parent of the task has
not ended. In the middle of an ending it is sound but for the reference that the
task still has to give up; and the parent has ended exactly if the task is ended
for that.
-/

import TaskMachine.Proofs.Session.Effects

namespace TaskMachine

namespace Roster

variable {before after : Roster} {slot : Slot} {task earlier : Task}

/-- Whether the parent of a task has ended is not changed by the end of the task. -/
theorem Outlived.bereft_iff (outlived : before.Outlived after [slot])
    (earlierPresent : before.task? slot = some earlier) (present : after.task? slot = some task)
    (own : task.parent = earlier.parent)
    (parents : ∀ parent, task.parent = some parent →
      parent ≠ slot ∧ ∃ found, after.task? parent = some found) :
    after.Bereft slot ↔ before.Bereft slot := by
  constructor
  · rintro ⟨_, parent, found, again, mine, foundPresent, zombie⟩
    obtain rfl := Option.some.inj (present.symm.trans again)
    obtain ⟨was, wasPresent, core⟩ := outlived.unended
      (fun member => (parents parent mine).1 (List.mem_singleton.mp member)) foundPresent
    exact ⟨earlier, parent, was, earlierPresent, own ▸ mine, wasPresent,
      (congrArg Task.life core).symm.trans zombie⟩
  · rintro ⟨_, parent, was, again, mine, wasPresent, zombie⟩
    obtain rfl := Option.some.inj (earlierPresent.symm.trans again)
    obtain ⟨found, foundPresent⟩ := (parents parent (own.trans mine)).2
    exact ⟨task, parent, found, present, own.trans mine, foundPresent,
      outlived.still_zombie zombie wasPresent foundPresent⟩

/-- The parent of a task that is there has not ended, whatever becomes of the queues, and whoever
comes and goes. -/
theorem placid_cared (slot : Slot) :
    Placid fun roster => slot < roster.tasks.size ∧ ¬ roster.Bereft slot where
  arrange := by
    rintro roster next ⟨known, cared⟩ same
    refine ⟨same.1 ▸ known, ?_⟩
    rintro ⟨task, parent, found, present, own, foundPresent, zombie⟩
    obtain ⟨before, wasPresent, is⟩ := same.symm.present present
    obtain ⟨was, parentPresent, isParent⟩ := same.symm.present foundPresent
    have parents : before.unplaced.parent = task.unplaced.parent := by rw [is]
    have lives : was.unplaced.life = found.unplaced.life := by rw [isParent]
    exact cared ⟨before, parent, was, wasPresent, parents.trans own, parentPresent,
      lives.trans zombie⟩
  alters := by
    rintro roster slot' change ⟨known, cared⟩ bearing
    refine ⟨by rwa [size_alter], ?_⟩
    rintro ⟨task, parent, found, present, own, foundPresent, zombie⟩
    have same (place : Slot) := map_alter roster slot' bearing place
    have earlier {place : Slot} {later : Task}
        (present : (roster.alter slot' change).task? place = some later) :
        ∃ before, roster.task? place = some before ∧ before.bearing = later.bearing := by
      have is := same place
      rw [present, Option.map_some] at is
      exact Option.map_eq_some_iff.mp is.symm
    obtain ⟨before, wasPresent, is⟩ := earlier present
    obtain ⟨was, parentPresent, isParent⟩ := earlier foundPresent
    have parents : before.bearing.parent = task.bearing.parent := by rw [is]
    have lives : was.bearing.life = found.bearing.life := by rw [isParent]
    exact cared ⟨before, parent, was, wasPresent, parents.trans own, parentPresent,
      lives.trans zombie⟩
  adds := by
    rintro roster id function parent' mailbox ⟨known, cared⟩
    refine ⟨by simpa using Nat.lt_succ_of_lt known, ?_⟩
    rintro ⟨task, parent, found, present, own, foundPresent, zombie⟩
    rcases of_task?_push present with ⟨rfl, -⟩ | wasPresent
    · exact Nat.lt_irrefl _ known
    · rcases of_task?_push foundPresent with ⟨-, rfl⟩ | parentPresent
      · exact absurd zombie nofun
      · exact cared ⟨task, parent, found, wasPresent, own, parentPresent, zombie⟩
  drops := by
    rintro roster slot' ⟨known, cared⟩
    refine ⟨by rwa [size_setTask], ?_⟩
    rintro ⟨task, parent, found, present, own, foundPresent, zombie⟩
    exact cared ⟨task, parent, found, (of_task?_drop present).2, own,
      (of_task?_drop foundPresent).2, zombie⟩

end Roster

namespace Scheduler

variable {origin scheduler next : Scheduler} {ended : List Slot} {lists : Lane → List Slot}
  {held unscheduled : List TaskId} {running : Option Slot} {slot : Slot} {task : Task} {exit : Exit}
  {lane : Lane}

/-- A task that was in a queue has ended, and only the reference that stood for its life is left to
be given up. -/
theorem Departing.sound (departing : scheduler.Departing slot exit task next)
    (sound : scheduler.Sound origin ended lists held unscheduled running none)
    (member : slot ∈ lists lane) (turn : ∀ {place}, running = some place → place = slot) :
    next.Sound origin (slot :: ended) (Roster.without lists [slot]) held unscheduled none
        (some slot) ∧
      (∃ queued, scheduler.roster.task? slot = some queued ∧ queued.life = .alive ∧
        task.unplaced = queued.unplaced) ∧
      next.roster.task? slot = some task.ended ∧
      (next.roster.Bereft slot ↔ scheduler.roster.Bereft slot) := by
  obtain ⟨queued, left, found, present, inLane, removes, same, foundPresent, -, finished⟩ :=
    sound.finish member turn
  obtain ⟨out, leaves, taskPresent, is⟩ := departing.out
  have taken : After (leaveLane slot) scheduler
      (fun _ next => next = { scheduler with roster := left }) fun _ _ => True := by
    refine After.bind (after_fetch present ?_)
    rw [inLane]
    exact after_onRoster (After.of_ok removes rfl)
  obtain rfl : out = left := congrArg Scheduler.roster (taken.ok leaves)
  obtain rfl := Option.some.inj (foundPresent.symm.trans taskPresent)
  obtain ⟨_, again, unplaced⟩ := same.present present
  obtain rfl := Option.some.inj (foundPresent.symm.trans again)
  have told : ∀ watcher ∈ found.watchers, ∃ exit', Notice.ended watcher found.id exit' ∈
      (farewells found exit).reverse := fun watcher watches =>
    ⟨exit, List.mem_reverse.mpr (List.mem_map.mpr ⟨watcher, watches, rfl⟩)⟩
  have soundNow := (finished next.agenda next.deathsPending _ next.mailroom
    (departing.oneShot sound.oneShot) told).congr is departing.registry departing.nextId
      (departing.oneShot sound.oneShot) departing.config ⟨[], departing.notices⟩
  have endedPresent : next.roster.task? slot = some found.ended := by
    rw [is, Roster.task?_alter_of_present foundPresent]
    exact if_pos rfl
  obtain ⟨now, nowPresent, alive, _⟩ := sound.queued.present member
  obtain rfl := Option.some.inj (present.symm.trans nowPresent)
  refine ⟨soundNow, ⟨queued, present, alive, unplaced⟩, endedPresent, ?_⟩
  have outlived : scheduler.roster.Outlived next.roster [slot] := by
    rw [is]
    exact same.outlived.trans (out.outlived_ended slot)
  have own : found.ended.parent = queued.parent := by
    show found.unplaced.parent = queued.unplaced.parent
    rw [unplaced]
  refine outlived.bereft_iff present endedPresent own fun parent own => ?_
  obtain ⟨sooner, other, otherPresent⟩ := soundNow.counted.parent endedPresent own
  exact ⟨Nat.ne_of_lt sooner, other, otherPresent⟩

end Scheduler

namespace Moment

open Scheduler (hostFor)

/-- What a session is like at a moment. -/
def Standing (moment : Moment) : Prop :=
  match moment with
  | ⟨session, .between⟩ => session.Sound
  | ⟨session, .turn slot _ _⟩ =>
    (∃ lists, session.scheduler.Sound session.scheduler [] lists session.held session.unscheduled
      (some slot) none) ∧ ¬ session.scheduler.roster.Bereft slot
  | ⟨session, .ending slot task exit⟩ =>
    (∃ lists, session.scheduler.Sound session.scheduler [] lists session.held session.unscheduled
      none (some slot)) ∧ session.scheduler.roster.task? slot = some task.ended ∧
      (exit = .orphaned ↔ session.scheduler.roster.Bereft slot)

/-! ### What moves make of it -/

section

variable {session : Session} {lists : Lane → List Slot} {slot : Slot} {stack : Stack}
  {middle : Scheduler}

theorem Chore.after_perform (sound : session.Sound) (chore : Chore) :
    After chore.perform session.scheduler
      (fun _ next => next.Settled session.scheduler [] session.held session.unscheduled)
      fun _ _ => False := by
  obtain ⟨lists, sound⟩ := sound
  cases chore with
  | wake => exact sound.after_wakeWoken
  | poll => exact sound.after_pollTimers
  | rest => exact sound.after_rest
  | calm => exact After.modify ⟨lists, sound.congr rfl rfl rfl sound.oneShot rfl ⟨[], rfl⟩⟩

/-- An instruction leaves the scheduler as sound as it was, whether the execution goes on or not. -/
theorem sound_of_step
    (sound : session.scheduler.Sound session.scheduler [] lists session.held session.unscheduled
      (some slot) none) {progress : Progress}
    (steps : stack.step (hostFor slot) session.scheduler = .ok progress middle) :
    ∃ lists, middle.Sound session.scheduler [] lists session.held session.unscheduled (some slot)
      none := by
  have midTurn : session.scheduler.MidTurn session.scheduler [] lists session.held
      session.unscheduled slot := by
    refine ⟨[], ?_⟩
    rwa [List.append_nil, Function.update_eq_self]
  obtain ⟨⟨spawned, soundNow⟩, -⟩ :=
    ((Scheduler.keeps_midTurn _ _ _ _ _ slot).after_step stack midTurn).ok steps
  exact ⟨_, soundNow⟩

/-- While it has its turn, the parent of a task does not end. -/
theorem cared_of_instructed {events : List Event}
    (sound : session.scheduler.Sound session.scheduler [] lists session.held session.unscheduled
      (some slot) none) (cared : ¬ session.scheduler.roster.Bereft slot)
    (instructed : session.scheduler.Instructed slot events middle) :
    ¬ middle.roster.Bereft slot := by
  cases instructed with
  | spawned spawns =>
    obtain ⟨task, present, -⟩ := sound.turn
    exact ((Scheduler.guards_spawnChild (Roster.placid_cared slot).sedate.toPeaceful _ _ _
      (.refl ⟨Roster.lt_size_of_task?_eq_some present, cared⟩)).ok spawns).roster.2
  | alone | received | invoked => exact cared

/-- A turn that does not end the task leaves the scheduler sound, and ends nobody else. -/
theorem settled_of_settle {origin : Scheduler} {id : TaskId} {status : Status} {next : Scheduler}
    (sound : middle.Sound origin [] lists session.held session.unscheduled (some slot) none)
    (stays : status.exit? = none)
    (settles : Scheduler.settle slot id stack status middle = .ok ⟨⟩ next) :
    next.Settled origin [] session.held session.unscheduled := by
  obtain ⟨rest, split⟩ : ∃ rest, lists .run = slot :: rest :=
    List.head?_eq_some_iff.mp (sound.queued.turn rfl)
  have stands : lists .run = slot :: (rest ++ []) := by rw [split, List.append_nil]
  obtain ⟨ended, listsNow, _, _, soundNow, _, _, _, nobody⟩ :=
    (sound.after_settle stands id stack status).ok settles
  rw [nobody stays] at soundNow
  exact ⟨listsNow, soundNow⟩

/-- The task at a place was alive and has ended, and it is the only one. It is still to be
reported. -/
structure Fallen (session : Session) (slot : Slot) (task : Task) (exit : Exit) (next : Scheduler) :
    Prop where
  earlier : ∃ before, session.scheduler.roster.task? slot = some before ∧ before.life = .alive ∧
    task.unplaced = before.unplaced
  since : next.Since session.scheduler [slot]
  standing : (moved session next (.ending slot task exit)).Standing

theorem Fallen.alive {task : Task} {exit : Exit} {next : Scheduler}
    (fallen : Fallen session slot task exit next) : task.life = .alive := by
  obtain ⟨before, _, alive, same⟩ := fallen.earlier
  have lives : task.unplaced.life = before.unplaced.life := by rw [same]
  exact lives.trans alive

/-- A task that has its turn ends because its execution has stopped. -/
theorem Standing.finish {id : TaskId} {after : Stack} {status : Status} {exit : Exit} {task : Task}
    {next : Scheduler} (standing : Standing ⟨session, .turn slot id stack⟩)
    (steps : stack.step (hostFor slot) session.scheduler = .ok (.stop after status) middle)
    (exits : status.exit? = some exit)
    (departs : Scheduler.depart slot exit middle = .ok task next) :
    Fallen session slot task exit next := by
  obtain ⟨⟨lists, sound⟩, cared⟩ := standing
  obtain ⟨listsNow, soundNow⟩ := sound_of_step sound steps
  have member : slot ∈ listsNow .run := List.mem_of_head? (soundNow.queued.turn rfl)
  have still := (Scheduler.Halted.of_step steps).roster
  obtain ⟨gone, earlier, endedPresent, bereft⟩ := ((Scheduler.after_depart slot
    exit middle).ok departs).sound soundNow member fun same => (Option.some.inj same).symm
  rw [still] at earlier bereft
  refine ⟨earlier, gone.since, ⟨_, gone.restart⟩, endedPresent, iff_of_false ?_ fun now => ?_⟩
  · rintro rfl
    cases status <;> exact absurd exits nofun
  · exact cared (bereft.mp now)

/-- A task in a queue ends because its parent has ended. -/
theorem Standing.orphan {task : Task} {next : Scheduler} (standing : Standing ⟨session, .between⟩)
    (stands : (∃ queued lane, session.scheduler.roster.task? slot = some queued ∧
      queued.lane = some lane) ∨ session.scheduler.roster.run.head = some slot)
    (bereft : Scheduler.parentIsZombie slot session.scheduler = .ok true session.scheduler)
    (departs : Scheduler.depart slot .orphaned session.scheduler = .ok task next) :
    Fallen session slot task .orphaned next := by
  obtain ⟨lists, sound⟩ := standing
  obtain ⟨lane, member⟩ : ∃ lane, slot ∈ lists lane := by
    rcases stands with ⟨queued, lane, present, inLane⟩ | first
    · exact ⟨lane, (sound.queued.lines.mem_iff present).mpr inLane⟩
    · exact ⟨.run, List.mem_of_head? (sound.head.symm.trans first)⟩
  obtain ⟨gone, earlier, endedPresent, same⟩ :=
    ((Scheduler.after_depart slot .orphaned _).ok departs).sound sound member nofun
  obtain ⟨before, present, _⟩ := id earlier
  obtain ⟨lost, tells, is⟩ := sound.parentIsZombie_eq present
  rw [bereft] at tells
  cases tells
  exact ⟨earlier, gone.since, ⟨_, gone.restart⟩, endedPresent,
    iff_of_true rfl (same.mpr (is.mp rfl))⟩

end

theorem Move.standing {moment next : Moment} {events : List Event}
    (moves : Move Session.Permits moment events next) (standing : moment.Standing) :
    next.Standing := by
  cases moves with
  | @serve session operation scheduler permitted quiet performs =>
    have steps : session.Step operation _ := .success permitted performs
    obtain ⟨_, _, lists, sound⟩ := steps.sound standing
    exact ⟨lists, sound.restart⟩
  | @refuse session operation crash scheduler permitted quiet breaks refusal =>
    have steps : session.Step operation _ := .refusal permitted breaks fun endless => by
      rw [endless] at refusal
      exact absurd refusal nofun
    obtain ⟨_, _, lists, sound⟩ := steps.sound standing
    exact ⟨lists, sound.restart⟩
  | tend chore performs =>
    obtain ⟨lists, sound⟩ := (chore.after_perform standing).ok performs
    exact ⟨lists, sound.restart⟩
  | @begin session slot task stack first cared present mans =>
    obtain ⟨lists, sound⟩ := standing
    have disarmed := sound.rearrange (Roster.map_alter _ slot Task.seen_disarm)
      (sound.queued.disarm (sound.head.symm.trans first))
    refine ⟨⟨lists, disarmed.restart⟩, ?_⟩
    obtain ⟨lost, tells, is⟩ := sound.parentIsZombie_eq present
    rw [cared] at tells
    cases tells
    have disarms : ∀ task : Task, task.disarm.bearing = task.bearing := fun _ => rfl
    exact ((Roster.placid_cared slot).alters slot ⟨Roster.lt_size_of_task?_eq_some present,
      fun bereft => absurd (is.mpr bereft) nofun⟩ disarms).2
  | @instruct session slot id stack after cost scheduler steps =>
    obtain ⟨⟨lists, sound⟩, cared⟩ := standing
    obtain ⟨listsNow, soundNow⟩ := sound_of_step sound steps
    exact ⟨⟨listsNow, soundNow.restart⟩, cared_of_instructed sound cared (.of_step steps)⟩
  | preempt settles =>
    obtain ⟨⟨lists, sound⟩, -⟩ := standing
    obtain ⟨listsNow, soundNow⟩ := settled_of_settle sound rfl settles
    exact ⟨listsNow, soundNow.restart⟩
  | pause steps stays settles =>
    obtain ⟨⟨lists, sound⟩, -⟩ := standing
    obtain ⟨_, middleSound⟩ := sound_of_step sound steps
    obtain ⟨listsNow, soundNow⟩ := settled_of_settle middleSound stays settles
    exact ⟨listsNow, soundNow.restart⟩
  | finish steps exits departs => exact (standing.finish steps exits departs).standing
  | orphan stands bereft departs => exact (standing.orphan stands bereft departs).standing
  | @close session slot task exit middle scheduler reports releases =>
    obtain ⟨⟨lists, sound⟩, endedPresent, -⟩ := standing
    obtain ⟨-, rfl⟩ := (Scheduler.after_report task exit _).ok reports
    have reported := sound.mailroom
      (session.scheduler.mailroom.deliver (session.scheduler.roster.exitReport task exit))
    exact ⟨lists, ((reported.after_releaseSlot endedPresent).ok releases).restart⟩

theorem Reached.standing {events : List Event} {moment : Moment}
    (reached : Reached Session.Permits events moment) : moment.Standing := by
  obtain ⟨config, patience, respond, runs⟩ := reached
  induction runs with
  | none => exact Session.sound_start config patience respond
  | move _ moves inductionHypothesis => exact moves.standing inductionHypothesis

end Moment

end TaskMachine
