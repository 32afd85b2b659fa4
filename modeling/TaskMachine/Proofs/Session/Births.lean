/-
Whom a turn brings about. `passed` lists the instructions that a task executes in
its turn and goes on after, as `Stack.advance` takes them, each with the
scheduler before and after it. One of them in which the task spawns brings one
task about, at the next place, as a child of the one that has its turn and at
the tail of the run queue. No other instruction does, and nothing that comes
after the execution. So the places that are given out in a step are those of the
children, in the order in which they were spawned.
-/

import TaskMachine.Proofs.Execution.Ground
import TaskMachine.Proofs.Session.Confined

namespace TaskMachine

open Scheduler (hostFor spawnChild)

/-! ### What a turn passes -/

/-- An instruction that the task at a place executes, and after which it goes on. -/
structure Passed (slot : Slot) where
  stack : Stack
  before : Scheduler
  next : Stack
  cost : Nat
  after : Scheduler
  steps : stack.step (hostFor slot) before = .ok (.proceed next cost) after

/-- The instructions that an execution passes. -/
def Stack.passed (slot : Slot) (limit : Nat) : Nat → Nat → Stack → Scheduler → List (Passed slot)
  | 0, _, _, _ => []
  | fuel + 1, charged, stack, scheduler =>
    match steps : stack.step (hostFor slot) scheduler with
    | .ok (.proceed next cost) after =>
      ⟨stack, scheduler, next, cost, after, steps⟩ ::
        if 0 < limit ∧ limit ≤ charged + cost then []
        else passed slot limit fuel (charged + cost) next after
    | _ => []

theorem Stack.passed_of_proceed {slot : Slot} {stack next : Stack} {cost : Nat}
    {scheduler after : Scheduler}
    (steps : stack.step (hostFor slot) scheduler = .ok (.proceed next cost) after)
    (limit fuel charged : Nat) :
    stack.passed slot limit (fuel + 1) charged scheduler =
      ⟨stack, scheduler, next, cost, after, steps⟩ ::
        if 0 < limit ∧ limit ≤ charged + cost then []
        else next.passed slot limit fuel (charged + cost) after := by
  rw [passed]
  split
  · rename_i again
    cases steps.symm.trans again
    rfl
  · rename_i other
    exact absurd steps (other next cost after)

theorem Stack.passed_of_stop {slot : Slot} {stack next : Stack} {status : Status}
    {scheduler after : Scheduler}
    (steps : stack.step (hostFor slot) scheduler = .ok (.stop next status) after)
    (limit fuel charged : Nat) : stack.passed slot limit (fuel + 1) charged scheduler = [] := by
  rw [passed]
  split
  · rename_i again
    cases steps.symm.trans again
  · rfl

/-- What is run by the child that an instruction spawns, if it is one that does. -/
def Passed.spawned? {slot : Slot} (passed : Passed slot) : Option Function :=
  match passed.stack.act.query? with
  | some (.spawn function) => some function
  | _ => none

/-- Those that spawn. -/
def spawnings {slot : Slot} (log : List (Passed slot)) : List (Passed slot) :=
  log.filter fun passed => passed.spawned?.isSome

namespace Scheduler

/-- The instructions that the task at a place passes when it is given a turn. An orphan is given
none. -/
def passed (scheduler : Scheduler) (slot : Slot) : List (Passed slot) :=
  match answer? (parentIsZombie slot) scheduler, (scheduler.roster.task? slot).bind Task.stack with
  | some false, some stack =>
    stack.passed slot scheduler.config.execLimit
      (if scheduler.config.execLimit = 0 then scheduler.patience else scheduler.config.execLimit) 0
      (scheduler.manned slot)
  | _, _ => []

/-! ### Births -/

/-- A task has come, which runs a function, as a child of the one at a place. It has a number and an
inbox of its own, and stands at the tail of the run queue. -/
structure Born (before : Scheduler) (slot : Slot) (function : Function) (child : Slot)
    (after : Scheduler) : Prop where
  place : child = before.roster.tasks.size
  size : after.roster.tasks.size = child + 1
  created : ∃ task, after.roster.task? child = some task ∧
    task.unplaced = .created before.nextId function (some slot) ⟨before.mailroom.inboxes.size⟩
  joins : ∃ run, before.roster.slots .run = .ok run ∧ after.roster.slots .run = .ok (run ++ [child])

variable {origin scheduler next : Scheduler} {ended : List Slot} {lists : Lane → List Slot}
  {held unscheduled : List TaskId} {slot first last : Slot} {function : Function} {task : Task}
  {stack : Stack}

theorem Sound.passed_eq (sound : scheduler.Sound origin ended lists held unscheduled none none)
    (cared : ¬ scheduler.roster.Bereft slot) (present : scheduler.roster.task? slot = some task)
    (mans : task.stack = some stack) :
    scheduler.passed slot = stack.passed slot scheduler.config.execLimit
      (if scheduler.config.execLimit = 0 then scheduler.patience else scheduler.config.execLimit) 0
      (scheduler.manned slot) := by
  obtain ⟨lost, tells, is⟩ := sound.parentIsZombie_eq present
  rw [Bool.eq_false_iff.mpr fun lost => cared (is.mp lost)] at tells
  have asked : answer? (parentIsZombie slot) scheduler = some false := by rw [answer?, tells]
  simp only [passed, asked, present, Option.bind_some, mans]

theorem Sound.passed_eq_nil (sound : scheduler.Sound origin ended lists held unscheduled none none)
    (bereft : scheduler.roster.Bereft slot) : scheduler.passed slot = [] := by
  have ⟨task, _, _, present, _⟩ := bereft
  obtain ⟨lost, tells, is⟩ := sound.parentIsZombie_eq present
  rw [is.mpr bereft] at tells
  have asked : answer? (parentIsZombie slot) scheduler = some true := by rw [answer?, tells]
  rw [passed, asked]

/-- A child that is spawned is born, and nobody else. -/
theorem Sound.after_spawnChild_born
    (sound : scheduler.Sound origin ended lists held unscheduled (some slot) none)
    (function : Function) :
    After (spawnChild function slot) scheduler
      (fun _ next => scheduler.Born slot function scheduler.roster.tasks.size next)
      fun _ _ => True := by
  obtain ⟨running, present, -⟩ := sound.turn
  refine ((sound.after_spawnChild present function).and
    (after_spawnChild_conceived slot function scheduler)).mono (fun _ next known => ?_)
    fun _ _ _ => trivial
  obtain ⟨⟨child, soundNow⟩, roster, registry, pushes, rfl⟩ := known
  have same := (Roster.after_pushTail _ _ _).ok pushes
  have spares := (Roster.after_pushTail_spared (scheduler.spares_conceived slot function)
    (fun old => absurd old (Nat.lt_irrefl _)) .run).ok pushes
  have lists' := soundNow.queued.lines .run
  rw [Function.update_self] at lists'
  -- Who has joined the run queue was in no queue before, and so is the one that was not there.
  have newborn : child = scheduler.roster.tasks.size := by
    obtain ⟨later, laterPresent, queued⟩ :=
      lists'.present (List.mem_append_right _ (List.mem_singleton.mpr rfl))
    have apart : child ∉ lists .run := fun inside =>
      (List.nodup_append.mp lists'.distinct).2.2 child inside child
        (List.mem_singleton.mpr rfl) rfl
    have known := Roster.lt_size_of_task?_eq_some laterPresent
    rw [spares.size] at known
    refine Nat.le_antisymm (Nat.le_of_lt_succ known) (Nat.le_of_not_lt fun old => apart ?_)
    obtain ⟨earlier, earlierPresent, -, own⟩ := spares.known child later old laterPresent
    have lane : later.own.lane = earlier.own.lane := congrArg Task.lane (own List.not_mem_nil)
    exact (sound.queued.lines.mem_iff earlierPresent).mpr (lane.symm.trans queued)
  subst newborn
  refine ⟨rfl, spares.size, ?_, lists .run, sound.queued.lines.slots .run, ?_⟩
  · have grown : (scheduler.conceived slot function).task? scheduler.roster.tasks.size =
        some (.created scheduler.nextId function (some slot) ⟨scheduler.mailroom.inboxes.size⟩) :=
      (Roster.task?_push _ _ _).trans (if_pos (Roster.size_alter _ _ _).symm)
    obtain ⟨task, taskPresent, unplaced⟩ := same.present grown
    exact ⟨task, taskPresent, unplaced⟩
  · rw [soundNow.queued.lines.slots .run, Function.update_self]

/-- An instruction spawns a child, or lets no task come. -/
theorem after_step_births (slot : Slot) (stack : Stack) (scheduler : Scheduler) :
    After (stack.step (hostFor slot)) scheduler
      (fun _ next => match stack.act.query? with
        | some (.spawn function) => ∃ child, spawnChild function slot scheduler = .ok child next
        | _ => next.roster = scheduler.roster)
      fun _ _ => True := by
  unfold Stack.step
  cases stack.act with
  | proceed next cost => exact After.pure rfl
  | stop next status => exact After.pure rfl
  | spawn next function destination =>
    exact After.bind (After.known.mono (fun child _ spawns => After.pure ⟨child, spawns⟩)
      fun _ _ _ => trivial)
  | receive next destination =>
    refine After.bind ((after_receiveFor slot scheduler).imp fun value middle received => ?_)
    obtain ⟨task, present, rfl, rfl⟩ := received
    cases (scheduler.mailroom.receive task.mailbox).2.map Message.value with
    | none => exact After.pure rfl
    | some value => exact After.pure rfl
  | invoke next hook =>
    refine After.bind ((after_invokeFor slot hook next scheduler).imp fun _ middle invoked => ?_)
    obtain ⟨id, run, wait, notifies⟩ := invoked
    rw [notify_eq] at notifies
    cases notifies
    exact After.pure rfl

/-- From one place on children were born, one for each instruction that spawned, and each at the
time of its instruction. -/
structure Births {slot : Slot} (log : List (Passed slot)) (first last : Slot) : Prop where
  count : last = first + (spawnings log).length
  each : ∀ index (passed : Passed slot), (spawnings log)[index]? = some passed →
    ∃ function, passed.stack.act.query? = some (.spawn function) ∧
      passed.before.Born slot function (first + index) passed.after

namespace Births

variable {passed : Passed slot} {log : List (Passed slot)}

theorem nil : Births ([] : List (Passed slot)) first first := ⟨rfl, fun _ _ => nofun⟩

theorem spawned (asks : passed.stack.act.query? = some (.spawn function))
    (born : passed.before.Born slot function first passed.after)
    (births : Births log (first + 1) last) : Births (passed :: log) first last := by
  have among : spawnings (passed :: log) = passed :: spawnings log := by
    rw [spawnings, List.filter_cons_of_pos (by simp [Passed.spawned?, asks]), spawnings]
  refine ⟨?_, fun index other is => ?_⟩
  · rw [among, List.length_cons, births.count, Nat.add_assoc, Nat.add_comm 1]
  · rw [among] at is
    cases index with
    | zero =>
      obtain rfl := Option.some.inj is
      exact ⟨function, asks, born⟩
    | succ index =>
      obtain ⟨function, asks, born⟩ := births.each index other is
      rw [Nat.add_assoc, Nat.add_comm 1] at born
      exact ⟨function, asks, born⟩

theorem other (asks : passed.spawned? = none) (births : Births log first last) :
    Births (passed :: log) first last := by
  have apart : spawnings (passed :: log) = spawnings log := by
    rw [spawnings, List.filter_cons_of_neg (by simp [asks]), spawnings]
  exact ⟨apart ▸ births.count, apart ▸ births.each⟩

end Births

/-- The children that are born in an execution are those that it spawns. -/
theorem MidTurn.after_advance_births
    (midTurn : scheduler.MidTurn origin ended lists held unscheduled slot)
    (limit fuel charged : Nat) (stack : Stack) :
    After (stack.advance (hostFor slot) limit fuel charged) scheduler
      (fun _ next => Births (stack.passed slot limit fuel charged scheduler)
        scheduler.roster.tasks.size next.roster.tasks.size)
      fun _ _ => True := by
  induction fuel generalizing charged stack scheduler with
  | zero => exact After.pure .nil
  | succ fuel inductionHypothesis =>
    have keeps := (keeps_midTurn origin ended lists held unscheduled slot).after_step stack midTurn
    refine After.bind (((keeps.mono (fun _ _ known => known.1) fun _ _ _ => trivial).and
      (After.known.and (after_step_births slot stack scheduler))).mono
      (fun progress middle known => ?_) fun _ _ _ => trivial)
    obtain ⟨midTurnNow, steps, births⟩ := known
    cases progress with
    | stop after status =>
      refine After.pure ?_
      rw [Stack.passed_of_stop steps, (Halted.of_step steps).roster]
      exact .nil
    | proceed after cost =>
      -- What the rest of the execution brings about comes behind what this instruction does.
      have further {log : List (Passed slot)} {last : Slot}
          (rest : Births log middle.roster.tasks.size last) :
          Births (⟨stack, scheduler, after, cost, middle, steps⟩ :: log)
            scheduler.roster.tasks.size last := by
        obtain ⟨spawned, sound⟩ := midTurn
        cases asks : stack.act.query? with
        | none =>
          rw [asks] at births
          exact .other (by simp [Passed.spawned?, asks]) (births ▸ rest)
        | some query =>
          rw [asks] at births
          cases query with
          | spawn function =>
            obtain ⟨child, spawns⟩ := births
            have born := (sound.after_spawnChild_born function).ok spawns
            exact .spawned asks born (born.size ▸ rest)
          | receive | invoke => exact .other (by simp [Passed.spawned?, asks]) (births ▸ rest)
      rw [Stack.passed_of_proceed steps]
      by_cases reached : 0 < limit ∧ limit ≤ charged + cost
      · simp only [reached, and_self, if_true]
        exact After.pure (further .nil)
      · simp only [reached, if_false]
        exact (inductionHypothesis midTurnNow (charged + cost) after).imp fun _ _ => further

end Scheduler

end TaskMachine
