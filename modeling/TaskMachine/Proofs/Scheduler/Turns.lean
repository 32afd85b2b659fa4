/-
A turn keeps the scheduler sound. While the task at the head of the run queue is
executed, its stack is away and nothing else is amiss; what the task asks of the
scheduler then keeps that, and lets children join behind the others. At the end
of the turn the task gets its stack back and stays in one of the queues, or it
ends. Those behind it stay in their order, but for the orphans that it leaves.
-/

import TaskMachine.Proofs.Execution.Charges
import TaskMachine.Proofs.Scheduler.Sweeps
import TaskMachine.Scheduler.Turn

namespace TaskMachine

theorem Agenda.OneShot.start {agenda : Agenda} (oneShot : agenda.OneShot) (now after : Nat)
    (task : TaskId) : (agenda.start now after none task).1.OneShot := by
  intro timer entry found
  by_cases same : timer = ⟨agenda.last + 1⟩
  · rw [same] at found
    have inserted := (Table.find?_insert_self agenda.pending ⟨agenda.last + 1⟩ _).symm.trans found
    rw [← Option.some.inj inserted]
    rfl
  · exact oneShot timer entry ((Table.find?_insert_other agenda.pending _ same).symm.trans found)

/-- How a task ends whose execution has stopped, if it ends. -/
def Status.exit? : Status → Option Exit
  | .ended values => some (.returned values)
  | .faulted fault => some (.faulted fault)
  | _ => none

namespace Scheduler

variable {origin scheduler middle : Scheduler} {ended rest spawned : List Slot}
  {lists listsNow : Lane → List Slot} {held unscheduled : List TaskId} {slot : Slot} {task : Task}
  {exit : Exit} {exit? : Option Exit} {owed : Option Slot}

/-- An operation has no end, because a task is executed without a limit. -/
def Endless (origin : Scheduler) (crash : Crash) (_ : Scheduler) : Prop :=
  crash = .endless ∧ origin.config.execLimit = 0

/-! ### While a task has its turn -/

/-- The stack of a task is away. -/
def manned (scheduler : Scheduler) (slot : Slot) : Scheduler :=
  { scheduler with roster := scheduler.roster.alter slot Task.disarm }

/-- A scheduler in the middle of a turn. Nobody has ended, and nobody has left a queue. -/
def MidTurn (scheduler origin : Scheduler) (ended : List Slot) (lists : Lane → List Slot)
    (held unscheduled : List TaskId) (slot : Slot) : Prop :=
  ∃ spawned, scheduler.Sound origin ended
    (Function.update lists .run (lists .run ++ spawned)) held unscheduled (some slot) none

/-- The task that has its turn is at the head of the run queue. -/
theorem Sound.turn
    (sound : scheduler.Sound origin ended lists held unscheduled (some slot) none) :
    ∃ task, scheduler.roster.task? slot = some task ∧ task.life = .alive :=
  have ⟨task, present, alive, _⟩ :=
    sound.queued.present (List.mem_of_head? (sound.queued.turn rfl))
  ⟨task, present, alive⟩

/-- Whatever the task asks for, its turn goes on. -/
theorem keeps_midTurn (origin : Scheduler) (ended : List Slot) (lists : Lane → List Slot)
    (held unscheduled : List TaskId) (slot : Slot) :
    Stack.Keeps (hostFor slot) (MidTurn · origin ended lists held unscheduled slot)
      fun _ _ => False where
  spawn := fun function scheduler midTurn => by
    obtain ⟨spawned, sound⟩ := midTurn
    obtain ⟨task, present, _⟩ := sound.turn
    refine (sound.after_spawnChild present function).imp fun _ next reached => ?_
    obtain ⟨child, soundNow⟩ := reached
    rw [Function.update_self, Function.update_idem, List.append_assoc] at soundNow
    exact ⟨spawned ++ [child], soundNow⟩
  receive := fun scheduler midTurn => by
    obtain ⟨spawned, sound⟩ := midTurn
    obtain ⟨task, present, _⟩ := sound.turn
    refine After.bind (after_fetch present (After.bind (after_onMailroom fun message room => ?_)))
    exact After.pure ⟨spawned, sound.mailroom room⟩
  invoke := fun hook stack scheduler midTurn => by
    obtain ⟨spawned, sound⟩ := midTurn
    obtain ⟨task, present, _⟩ := sound.turn
    obtain ⟨run, runs⟩ := sound.queued.lines.ids .run
    obtain ⟨wait, waits⟩ := sound.queued.lines.ids .wait
    refine After.bind (after_reading runs (After.bind (after_reading waits ?_)))
    refine After.bind (after_fetch present ((after_notify scheduler _).imp
      fun _ next reached => ?_))
    obtain ⟨room, rfl⟩ := reached
    exact ⟨spawned, sound.congr rfl rfl rfl sound.oneShot rfl ⟨[_], rfl⟩⟩

/-- The task at the head of the run queue is executed. Only without a limit this may have no end. -/
theorem Sound.after_execute
    (sound : scheduler.Sound origin ended lists held unscheduled none none)
    (first : (lists .run).head? = some slot) (stack : Stack) :
    After (stack.execute (hostFor slot) scheduler.config.execLimit scheduler.patience)
      (scheduler.manned slot)
      (fun result next => next.MidTurn origin ended lists held unscheduled slot ∧
        (result = none → scheduler.config.execLimit = 0))
      fun _ _ => False := by
  have disarmed := sound.rearrange (Roster.map_alter _ slot Task.seen_disarm)
    (sound.queued.disarm first)
  refine (keeps_midTurn origin ended lists held unscheduled slot).after_execute
    scheduler.config.execLimit scheduler.patience stack ⟨[], ?_⟩
  rw [List.append_nil, Function.update_eq_self]
  exact disarmed

theorem after_startTimer (oneShot : scheduler.agenda.OneShot) (after : Nat) (id : TaskId) :
    After (startTimer after none id) scheduler
      (fun _ next => ∃ agenda, agenda.OneShot ∧ next = { scheduler with agenda })
      fun _ _ => False :=
  After.modifyGet ⟨_, oneShot.start scheduler.clock after id, rfl⟩

/-! ### After a turn -/

/-- What a turn leads to. Those behind the task that had it stay in their order, but for the orphans
that were swept out, and in front of all others. Of them only those have ended. Nobody has ended if
the task itself has not. -/
def Turned (origin : Scheduler) (ended rest : List Slot) (held unscheduled : List TaskId)
    (exit? : Option Exit) (next : Scheduler) : Prop :=
  ∃ (endedNow : List Slot) (listsNow : Lane → List Slot) (swept joined : List Slot),
    next.Sound origin endedNow listsNow held unscheduled none none ∧
    listsNow .run = rest.filter (· ∉ swept) ++ joined ∧
    (∀ other ∈ rest, other ∈ swept → other ∉ ended → next.Orphaned origin other) ∧
    (∀ other ∈ rest, other ∈ endedNow → other ∈ swept ∨ other ∈ ended) ∧
    (exit? = none → endedNow = ended)

/-- A turn in which nobody ends. -/
theorem Turned.quiet (joined : List Slot)
    (sound : scheduler.Sound origin ended listsNow held unscheduled none none)
    (stands : listsNow .run = rest ++ joined) :
    Turned origin ended rest held unscheduled exit? scheduler :=
  ⟨ended, listsNow, [], joined, sound, by simpa using stands,
    fun _ _ member => absurd member List.not_mem_nil, fun _ _ => Or.inr, fun _ => rfl⟩

theorem Turned.settled (turned : Turned origin ended rest held unscheduled exit? scheduler) :
    ∃ ended, scheduler.Settled origin ended held unscheduled := by
  obtain ⟨endedNow, listsNow, _, _, sound, _⟩ := turned
  exact ⟨endedNow, listsNow, sound⟩

namespace Sound

/-- The task gets its stack back. -/
theorem arm (sound : scheduler.Sound origin ended lists held unscheduled (some slot) none)
    (stack : Stack) :
    ({ scheduler with roster := scheduler.roster.alter slot (Task.arm stack) } : Scheduler).Sound
      origin ended lists held unscheduled none none :=
  sound.rearrange (Roster.map_alter _ slot (Task.seen_arm stack)) (sound.queued.arm stack)

theorem head (sound : scheduler.Sound origin ended lists held unscheduled running owed) :
    scheduler.roster.run.head = (lists .run).head? :=
  congrArg Ends.head (sound.queued.lines .run).ends

theorem after_requeue (sound : scheduler.Sound origin ended lists held unscheduled none none)
    (split : lists .run = slot :: rest) :
    After (requeue slot) scheduler
      (fun _ next => next.Sound origin ended (Function.update lists .run (rest ++ [slot])) held
        unscheduled none none)
      fun _ _ => False := by
  have head : scheduler.roster.run.head = some slot := by
    rw [sound.head, split, List.head?_cons]
  obtain ⟨roster, rotates, same, queued⟩ := sound.queued.rotate split
  refine After.bind (After.get ?_)
  rw [if_pos head]
  have turned := sound.rearrange (same.map Task.seen fun _ => rfl) queued
  exact after_onRoster (After.of_ok rotates turned)

/-- A task goes from one queue to the other. -/
theorem transfer (sound : scheduler.Sound origin ended lists held unscheduled none none)
    {lane other : Lane} (member : slot ∈ lists lane) (differ : other ≠ lane)
    (awaited : Option Awaited) (fits : awaited.isSome = true ↔ other = .wait) :
    After (do
      onRoster (Roster.remove lane slot)
      update slot fun task => { task with awaited }
      onRoster (Roster.pushTail other slot)) scheduler
      (fun _ next => next.Sound origin ended
        (Function.update (Function.update lists lane ((lists lane).erase slot)) other
          (lists other ++ [slot])) held unscheduled none none)
      fun _ _ => False := by
  obtain ⟨left, joined, removes, ⟨found, foundPresent⟩, pushes, same, queued⟩ :=
    sound.queued.transfer member differ fits
  refine After.bind (after_onRoster (After.of_ok removes ?_))
  refine After.bind (after_update foundPresent ?_)
  have moved := sound.rearrange (fun place => (same.map Task.seen (fun _ => rfl) place).trans
    (Roster.map_alter _ slot (Task.seen_await awaited) place)) queued
  exact after_onRoster (After.of_ok pushes moved)

/-- A task that has had its turn waits for something. -/
theorem after_suspend (sound : scheduler.Sound origin ended lists held unscheduled none none)
    (split : lists .run = slot :: (rest ++ spawned)) (awaited : Awaited) :
    After (suspend slot awaited) scheduler
      (fun _ => Turned origin ended rest held unscheduled exit?) fun _ _ => False := by
  have member : slot ∈ lists .run := by rw [split]; exact List.mem_cons_self
  refine (sound.transfer member (by decide) (some awaited) (iff_of_true rfl rfl)).imp
    fun _ next soundNow => .quiet spawned soundNow ?_
  rw [Function.update_of_ne (by decide), Function.update_self, split, List.erase_cons_head]

/-- A task that has had its turn ends, and the orphans that it leaves. -/
theorem after_finish (sound : scheduler.Sound origin ended lists held unscheduled running none)
    (turn : ∀ {place}, running = some place → place = slot)
    (split : lists .run = slot :: (rest ++ spawned)) (exit : Exit) :
    After (do endTask slot exit; sweepOrphans) scheduler
      (fun _ => Turned origin ended rest held unscheduled (some exit)) fun _ _ => False := by
  have member : slot ∈ lists .run := by rw [split]; exact List.mem_cons_self
  have distinct := (sound.queued.lines .run).distinct
  rw [split] at distinct
  have apart := (List.nodup_cons.mp distinct).1
  have behind : Roster.without lists [slot] .run = rest ++ spawned := by
    rw [← sound.queued.lines.update_erase member, Function.update_self, split,
      List.erase_cons_head]
  refine (sound.after_close member turn exit).imp fun _ next closed => ?_
  obtain ⟨left, swept, _, _, sweeping, _⟩ := closed
  have other_ended {other : Slot} (among : other ∈ rest) (inside : other ∈ slot :: ended) :
      other ∈ ended := by
    refine (List.mem_cons.mp inside).resolve_left ?_
    rintro rfl
    exact apart (List.mem_append_left _ among)
  refine ⟨_, _, swept, spawned.filter (· ∉ swept), sweeping.sound, ?_,
    fun other among gone before => sweeping.orphaned gone fun inside => ?_,
    fun other among inside => ?_, nofun⟩
  · rw [Roster.without, behind, List.filter_append]
  · exact before (other_ended among inside)
  · exact (List.mem_append.mp inside).imp_right (other_ended among)

theorem after_settle (sound : scheduler.Sound origin ended lists held unscheduled (some slot) none)
    (split : lists .run = slot :: (rest ++ spawned)) (id : TaskId) (stack : Stack)
    (status : Status) :
    After (settle slot id stack status) scheduler
      (fun _ => Turned origin ended rest held unscheduled status.exit?) fun _ _ => False := by
  obtain ⟨task, present, _⟩ := sound.turn
  have armed := sound.arm stack
  have puts {next : Scheduling Unit} {success : Unit → Scheduler → Prop}
      (after : After next { scheduler with roster := scheduler.roster.alter slot (Task.arm stack) }
        success fun _ _ => False) :
      After (do putStack slot stack; next) scheduler success fun _ _ => False :=
    After.bind (after_update present after)
  have stays : After (requeue slot)
      { scheduler with roster := scheduler.roster.alter slot (Task.arm stack) }
      (fun _ => Turned origin ended rest held unscheduled none) fun _ _ => False := by
    refine (armed.after_requeue split).imp fun _ next soundNow =>
      .quiet (spawned ++ [slot]) soundNow ?_
    rw [Function.update_self, List.append_assoc]
  have turn {place : Slot} (same : some slot = some place) : place = slot :=
    (Option.some.inj same).symm
  cases status with
  | yielded => exact puts stays
  | suspended wait =>
    cases wait with
    | timer after =>
      refine puts (After.bind ((after_startTimer armed.oneShot after id).imp
        fun timer _ started => ?_))
      obtain ⟨agenda, oneShot, rfl⟩ := started
      exact (armed.timers oneShot).after_suspend split (.timer timer)
    | message =>
      obtain ⟨found, foundPresent⟩ := Roster.task?_alter_present slot (Task.arm stack) present
      refine puts (After.bind (after_fetch foundPresent (After.bind (After.get ?_))))
      by_cases empty : scheduler.mailroom.isEmpty found.mailbox = true
      · simp only [empty, if_true]
        exact armed.after_suspend split .message
      · simp only [empty]
        exact stays
  | ended values => exact sound.after_finish turn split (.returned values)
  | faulted fault => exact sound.after_finish turn split (.faulted fault)

end Sound

/-! ### Turns -/

/-- A step ends the task at the head of the run queue: because its parent has ended, or because its
execution has stopped. The last argument is the scheduler that it ends in. -/
inductive Finishes (scheduler : Scheduler) (slot : Slot) : Exit → Scheduler → Prop
  | bereft (first : scheduler.roster.run.head = some slot)
      (bereft : scheduler.roster.Bereft slot) : Finishes scheduler slot .orphaned scheduler
  | stops {task : Task} {stack after : Stack} {status : Status} {exit : Exit} {middle : Scheduler}
      (first : scheduler.roster.run.head = some slot) (cared : ¬ scheduler.roster.Bereft slot)
      (present : scheduler.roster.task? slot = some task) (mans : task.stack = some stack)
      (runs : stack.execute (hostFor slot) scheduler.config.execLimit scheduler.patience
        (scheduler.manned slot) = .ok (some (after, status)) middle)
      (exits : status.exit? = some exit) : Finishes scheduler slot exit middle

/-- An execution that stops with an exit ends the task. -/
theorem settle_of_exit {status : Status} (exits : status.exit? = some exit) (slot : Slot)
    (id : TaskId) (stack : Stack) :
    settle slot id stack status = (do endTask slot exit; sweepOrphans) := by
  cases status with
  | yielded => exact absurd exits nofun
  | suspended wait => exact absurd exits nofun
  | ended values => rw [← Option.some.inj exits]; rfl
  | faulted fault => rw [← Option.some.inj exits]; rfl

/-- A turn executes the task, and then does what the outcome asks for. -/
theorem after_runTurn_of_executes {stack : Stack} {success : Unit → Scheduler → Prop}
    {failure : Crash → Scheduler → Prop} (present : scheduler.roster.task? slot = some task)
    (mans : task.stack = some stack)
    (executes : After (stack.execute (hostFor slot) scheduler.config.execLimit scheduler.patience)
      (scheduler.manned slot) (fun outcome middle => After (match outcome with
        | some (after, status) => settle slot task.id after status
        | none => throw .endless) middle success failure) failure) :
    After (runTurn slot) scheduler success failure := by
  refine After.bind (after_fetch present ?_)
  rw [mans]
  exact After.bind (after_update present (After.bind (After.get (After.bind executes))))

/-- A step gives the task at the head of the run queue its turn, if that is no orphan. -/
theorem Sound.after_step_of_turns {success : Unit → Scheduler → Prop}
    {failure : Crash → Scheduler → Prop}
    (sound : scheduler.Sound origin ended lists held unscheduled none none)
    (first : scheduler.roster.run.head = some slot) (cared : ¬ scheduler.roster.Bereft slot)
    (turns : After (runTurn slot) scheduler success failure) :
    After step scheduler (fun more next => more = true ∧ success ⟨⟩ next) failure := by
  obtain ⟨task, present, _⟩ :=
    sound.queued.present (List.mem_of_head? (sound.head.symm.trans first))
  obtain ⟨lost, tells, is⟩ := sound.parentIsZombie_eq present
  rw [Bool.eq_false_iff.mpr fun lost => cared (is.mp lost)] at tells
  refine After.bind (After.get ?_)
  simp only [first]
  exact After.bind (After.of_ok tells (After.bind (turns.imp fun _ _ succeeds =>
    After.pure ⟨rfl, succeeds⟩)))

/-- A step that ends a task does nothing else after it. -/
theorem Finishes.after_step {success : Unit → Scheduler → Prop}
    {failure : Crash → Scheduler → Prop}
    (sound : scheduler.Sound origin ended lists held unscheduled none none)
    (finishes : scheduler.Finishes slot exit middle)
    (closes : After (do endTask slot exit; sweepOrphans) middle success failure) :
    After step scheduler (fun more next => more = true ∧ success ⟨⟩ next) failure := by
  cases finishes with
  | bereft first orphaned =>
    have ⟨task, _, _, present, _⟩ := orphaned
    obtain ⟨lost, tells, is⟩ := sound.parentIsZombie_eq present
    rw [is.mpr orphaned] at tells
    refine After.bind (After.get ?_)
    simp only [first]
    refine After.bind (After.of_ok tells (After.bind (closes.unbind.imp fun _ left sweeps => ?_)))
    exact After.bind (sweeps.imp fun _ next succeeds => After.pure ⟨rfl, succeeds⟩)
  | stops first cared present mans runs exits =>
    rw [← settle_of_exit exits slot _ _] at closes
    exact sound.after_step_of_turns first cared
      (after_runTurn_of_executes present mans (After.of_ok runs closes))

/-- What a step leads to that gives a turn to a task in front of some others. -/
def Stepped (scheduler origin : Scheduler) (ended : List Slot) (slot : Slot) (rest : List Slot)
    (held unscheduled : List TaskId) (next : Scheduler) : Prop :=
  ∃ exit?, Turned origin ended rest held unscheduled exit? next ∧
    ∀ exit, exit? = some exit → ∃ middle, scheduler.Finishes slot exit middle

namespace Sound

theorem after_runTurn (sound : scheduler.Sound origin ended lists held unscheduled none none)
    (split : lists .run = slot :: rest) (cared : ¬ scheduler.roster.Bereft slot) :
    After (runTurn slot) scheduler
      (fun _ => scheduler.Stepped origin ended slot rest held unscheduled) (Endless origin) := by
  have first : (lists .run).head? = some slot := by rw [split, List.head?_cons]
  obtain ⟨task, present, alive, _⟩ := sound.queued.present (List.mem_of_head? first)
  obtain ⟨stack, mans⟩ : ∃ stack, task.stack = some stack :=
    Option.isSome_iff_exists.mp ((sound.queued.stands present).manned.mpr ⟨alive, nofun⟩)
  have executes := sound.after_execute first stack
  refine after_runTurn_of_executes present mans ?_
  cases runs : stack.execute (hostFor slot) scheduler.config.execLimit scheduler.patience
      (scheduler.manned slot) with
  | error crash middle => exact (executes.error runs).elim
  | ok result middle =>
    obtain ⟨⟨spawned, midTurn⟩, unfinished⟩ := executes.ok runs
    refine After.of_ok runs ?_
    cases result with
    | none => exact After.throw ⟨rfl, by rw [← sound.since.config]; exact unfinished rfl⟩
    | some outcome =>
      obtain ⟨after, status⟩ := outcome
      have stands : Function.update lists .run (lists .run ++ spawned) .run =
          slot :: (rest ++ spawned) := by rw [Function.update_self, split, List.cons_append]
      refine (midTurn.after_settle stands task.id after status).mono
        (fun _ next turned => ⟨status.exit?, turned, fun exit exits => ?_⟩) fun _ _ => False.elim
      exact ⟨middle, .stops (sound.head.trans first) cared present mans runs exits⟩

/-- A step gives the task at the head of the run queue its turn, if there is one. -/
theorem after_step (sound : scheduler.Sound origin ended lists held unscheduled none none) :
    After step scheduler
      (fun more next => lists .run = [] ∧ more = false ∧ next = scheduler ∨
        ∃ slot rest, lists .run = slot :: rest ∧ more = true ∧
          scheduler.Stepped origin ended slot rest held unscheduled next)
      (Endless origin) := by
  cases split : lists .run with
  | nil =>
    refine After.bind (After.get ?_)
    rw [sound.head, split]
    exact After.pure (Or.inl ⟨rfl, rfl, rfl⟩)
  | cons slot rest =>
    have first : scheduler.roster.run.head = some slot := by
      rw [sound.head, split, List.head?_cons]
    by_cases bereft : scheduler.roster.Bereft slot
    · have finishes : scheduler.Finishes slot .orphaned scheduler := .bereft first bereft
      have stands : lists .run = slot :: (rest ++ []) := by rw [split, List.append_nil]
      refine (finishes.after_step sound (sound.after_finish nofun stands .orphaned)).mono
        (fun more next stepped => ?_) fun _ _ => False.elim
      refine Or.inr ⟨slot, rest, rfl, stepped.1, some .orphaned, stepped.2, fun exit same => ?_⟩
      rw [← Option.some.inj same]
      exact ⟨scheduler, finishes⟩
    · exact (sound.after_step_of_turns first bereft (sound.after_runTurn split bereft)).imp
        fun more next stepped => Or.inr ⟨slot, rest, rfl, stepped⟩

/-- After a step the scheduler is settled again. -/
theorem after_step_settled
    (sound : scheduler.Sound origin ended lists held unscheduled none none) :
    After step scheduler (fun _ next => ∃ ended, next.Settled origin ended held unscheduled)
      (Endless origin) := by
  refine sound.after_step.imp fun more next stepped => ?_
  rcases stepped with ⟨_, _, rfl⟩ | ⟨_, _, _, _, _, turned, _⟩
  · exact ⟨ended, lists, sound⟩
  · exact turned.settled

theorem after_stepMany (sound : scheduler.Sound origin ended lists held unscheduled none none)
    (turns : Nat) :
    After (stepMany turns) scheduler
      (fun _ next => ∃ ended, next.Settled origin ended held unscheduled)
      (Endless origin) := by
  induction turns generalizing scheduler ended lists with
  | zero => exact After.pure ⟨ended, lists, sound⟩
  | succ turns inductionHypothesis =>
    refine After.bind (sound.after_step_settled.imp fun more middle settled => ?_)
    cases more with
    | false => exact After.pure settled
    | true =>
      obtain ⟨endedNow, listsNow, soundNow⟩ := settled
      exact After.bind ((inductionHypothesis soundNow).imp fun _ _ settled => After.pure settled)

end Sound

end Scheduler

end TaskMachine
