/-
What every operation keeps. Besides the changes of which `Steady` speaks, tasks
come to wait and go on, end and go, and time goes by. What is `Stable` under
these too is kept by every operation that is made of them, whether it breaks off
or not, and so nothing about the scheduler has to be followed through the
operations but once. To wait for a message and to look who was woken is left
apart: what other threads do in between decides whether that goes well.
-/

import TaskMachine.Proofs.Scheduler.Steady

namespace TaskMachine

namespace Scheduler

/-- What is kept by every change that operations are made of. -/
structure Stable (kept : Scheduler → Prop) : Prop extends Steady kept where
  /-- Timers are started, cancelled or fired, or time goes by. -/
  retimes : ∀ {scheduler : Scheduler} (agenda : Agenda) (clock : Nat), kept scheduler →
    kept { scheduler with agenda, clock }
  /-- A task waits for something else, but does not begin to wait for messages, or it ends. -/
  rewaits : ∀ {scheduler : Scheduler} (slot : Slot) {change : Task → Task}, kept scheduler →
    (∀ task, (change task).id = task.id) → (∀ task, (change task).mailbox = task.mailbox) →
    (∀ task, (change task).awaited = some .message → task.awaited = some .message) →
    (∀ task, task.life = .zombie → (change task).life = .zombie) →
    kept { scheduler with roster := scheduler.roster.alter slot change }
  leave : ∀ {scheduler : Scheduler} {slot : Slot} {task : Task},
    scheduler.roster.task? slot = some task → kept scheduler → kept
      { scheduler with
        roster := scheduler.roster.setTask slot none
        registry := scheduler.registry.erase task.id }

section

variable {Result : Type} {kept : Scheduler → Prop} {broken : Prop} {scheduler : Scheduler}

namespace Stable

variable (stable : Stable kept)

include stable

/-! ### Single changes -/

theorem preserves_rewait (slot : Slot) {change : Task → Task}
    (id : ∀ task, (change task).id = task.id)
    (mailbox : ∀ task, (change task).mailbox = task.mailbox)
    (awaited : ∀ task, (change task).awaited = some .message → task.awaited = some .message)
    (life : ∀ task, task.life = .zombie → (change task).life = .zombie) :
    Preserves kept broken (update slot change) := by
  intro scheduler holds
  refine after_onRoster ((Roster.after_update change).mono (fun _ roster is => ?_)
    fun _ roster is _ => ?_)
  · rw [is]
    exact stable.rewaits slot holds id mailbox awaited life
  · rw [is]
    exact holds

/-- Timers are started, cancelled or fired, or time goes by. -/
theorem preserves_retime {agenda : Scheduler → Agenda} {clock : Scheduler → Nat} :
    Preserves kept broken (modify fun scheduler =>
      { scheduler with agenda := agenda scheduler, clock := clock scheduler }) :=
  fun _ holds => After.modify (stable.retimes _ _ holds)

/-! ### How tasks go -/

theorem preserves_releaseWithin (tasks : Nat) (slot : Slot) :
    Preserves kept broken (releaseWithin tasks slot) := by
  induction tasks generalizing slot with
  | zero => exact .throw _
  | succ tasks inductionHypothesis =>
    intro scheduler holds
    refine After.bind (after_onRoster (Roster.after_fetch (fun task present => ?_)
      fun _ _ => holds))
    match task.references with
    | 0 => exact After.throw fun _ => holds
    | 1 =>
      refine After.bind (after_onRoster (After.of_ok (Roster.drop_eq _ slot) ?_))
      refine After.bind (After.modify ?_)
      cases task.parent with
      | none => exact After.pure (stable.leave present holds)
      | some parent => exact inductionHypothesis parent _ (stable.leave present holds)
    | left + 2 =>
      have counts : Preserves kept broken
          (update slot fun task => { task with references := left + 1 }) :=
        stable.preserves_update slot (fun _ => rfl) (fun _ => rfl) (fun _ => rfl)
          fun _ ended => ended
      exact counts scheduler holds

theorem preserves_releaseSlot (slot : Slot) : Preserves kept broken (releaseSlot slot) :=
  Preserves.get.bind fun _ => stable.preserves_releaseWithin _ slot

theorem preserves_release (id : TaskId) : Preserves kept broken (release id) := by
  refine (Preserves.slotOf id).bind fun slot => (Preserves.fetch slot).bind fun task => ?_
  split
  · exact stable.preserves_releaseSlot slot
  · exact .throw _

/-! ### How tasks end -/

theorem preserves_endTask (slot : Slot) (exit : Exit) :
    Preserves kept broken (endTask slot exit) := by
  refine (stable.preserves_leaveLane slot).bind fun _ => (Preserves.fetch slot).bind fun task => ?_
  have concludes : Preserves kept broken (do
      task.watchers.forM fun watcher => notify (.ended watcher task.id exit)
      reportExit task.id task.parent exit
      releaseSlot slot) :=
    (Preserves.forM _ fun _ => stable.preserves_notify _).bind fun _ =>
      (stable.preserves_reportExit task.id task.parent exit).bind fun _ =>
        stable.preserves_releaseSlot slot
  have buries : Preserves kept broken (do
      update slot fun task =>
        { task with awaited := none, stack := none, life := .zombie, watchers := [] }
      if 1 < task.references then
        modify fun scheduler => { scheduler with deathsPending := true }
      task.watchers.forM fun watcher => notify (.ended watcher task.id exit)
      reportExit task.id task.parent exit
      releaseSlot slot) := by
    refine Preserves.bind (stable.preserves_rewait slot (fun _ => rfl) (fun _ => rfl)
      (fun _ => nofun) fun _ _ => rfl) fun _ => ?_
    by_cases more : 1 < task.references
    · simp only [more, if_true]
      exact Preserves.bind (stable.preserves_modify fun _ =>
        ⟨rfl, rfl, rfl, rfl, rfl, rfl, rfl, rfl, [], rfl⟩) fun _ => concludes
    · simp only [more, if_false]
      exact concludes
  cases task.awaited with
  | none => exact buries
  | some awaited =>
    cases awaited with
    | message => exact buries
    | timer timer =>
      exact Preserves.bind stable.preserves_retime fun _ => buries

theorem preserves_sweepSlot (slot : Slot) : Preserves kept broken (sweepSlot slot) := by
  refine Preserves.get.bind fun scheduler => ?_
  cases scheduler.roster.task? slot with
  | none => exact .pure false
  | some task =>
    cases lane : task.lane with
    | none =>
      simp only [lane]
      exact .pure false
    | some lane' =>
      simp only [lane]
      refine (Steady.preserves_parentIsZombie slot).bind fun orphaned => ?_
      cases orphaned with
      | false => exact .pure false
      | true => exact (stable.preserves_endTask slot .orphaned).bind fun _ => .pure true

theorem preserves_sweepSlots (slots : List Slot) : Preserves kept broken (sweepSlots slots) := by
  induction slots with
  | nil => exact .pure false
  | cons slot rest inductionHypothesis =>
    exact (stable.preserves_sweepSlot slot).bind fun _ => inductionHypothesis.bind fun _ => .pure _

theorem preserves_sweepWithin (passes : Nat) : Preserves kept broken (sweepWithin passes) := by
  induction passes with
  | zero => exact .throw _
  | succ passes inductionHypothesis =>
    have sweeps : Preserves kept broken sweepOnce :=
      (Preserves.reading _).bind fun _ => (Preserves.reading _).bind fun _ =>
        (stable.preserves_sweepSlots _).bind fun ended => Preserves.bind
          (stable.preserves_modify fun _ => ⟨rfl, rfl, rfl, rfl, rfl, rfl, rfl, rfl, [], rfl⟩)
          fun _ => .pure ended
    refine sweeps.bind fun more => ?_
    cases more with
    | false => exact .pure ()
    | true => exact inductionHypothesis

theorem preserves_sweepOrphans : Preserves kept broken sweepOrphans := by
  refine Preserves.get.bind fun scheduler => ?_
  cases scheduler.deathsPending with
  | false => exact .pure ()
  | true =>
    exact Preserves.bind (stable.preserves_modify fun _ =>
        ⟨rfl, rfl, rfl, rfl, rfl, rfl, rfl, rfl, [], rfl⟩) fun _ =>
      Preserves.get.bind fun _ => stable.preserves_sweepWithin _

/-! ### Waiting tasks that go on -/

/-- A task goes from one queue to the other, and does not begin to wait for messages. -/
theorem preserves_transfer (lane other : Lane) (slot : Slot) {awaited : Option Awaited}
    (unlike : awaited ≠ some .message) : Preserves kept broken (do
      onRoster (Roster.remove lane slot)
      update slot fun task => { task with awaited }
      onRoster (Roster.pushTail other slot)) :=
  (stable.preserves_remove lane slot).bind fun _ => Preserves.bind
    (stable.preserves_rewait slot (fun _ => rfl) (fun _ => rfl)
      (fun _ waits => absurd waits unlike) fun _ ended => ended) fun _ =>
        stable.preserves_pushTail other slot

/-- A task goes from one queue to the other, and begins to wait for messages. -/
theorem preserves_suspend (slot : Slot)
    (alters : ∀ {scheduler : Scheduler}, kept scheduler → kept { scheduler with
      roster := scheduler.roster.alter slot fun task => { task with awaited := some .message } }) :
    Preserves kept broken (suspend slot .message) := by
  refine (stable.preserves_remove .run slot).bind fun _ => Preserves.bind
    (fun scheduler holds => ?_) fun _ => stable.preserves_pushTail .wait slot
  refine after_onRoster ((Roster.after_update _).mono (fun _ roster is => ?_)
    fun _ roster is _ => ?_)
  · rw [is]
    exact alters holds
  · rw [is]
    exact holds

/-! ### Passes -/

theorem preserves_resumeIf (id : TaskId) (awaited : Awaited) :
    Preserves kept broken (resumeIf id awaited) := by
  refine Preserves.get.bind fun scheduler => ?_
  cases scheduler.registry.find? id with
  | none => exact .pure ()
  | some slot =>
    refine (Preserves.fetch slot).bind fun task => ?_
    split
    · exact stable.preserves_transfer .wait .run slot nofun
    · exact .pure ()

theorem preserves_fireDue : Preserves kept broken fireDue := by
  intro scheduler holds
  refine After.bind (After.get (After.bind (After.set ?_)))
  have fired : kept { scheduler with
      agenda := (scheduler.agenda.fireDue scheduler.clock).agenda } :=
    stable.retimes _ scheduler.clock holds
  split
  · exact After.throw fun _ => fired
  · exact After.pure fired

theorem preserves_resumeFired (fired : List Firing) : Preserves kept broken (resumeFired fired) :=
  .forM fired fun firing => stable.preserves_resumeIf firing.task (.timer firing.timer)

theorem preserves_pollTimers : Preserves kept broken pollTimers :=
  stable.preserves_fireDue.bind fun fired => stable.preserves_resumeFired fired

theorem preserves_elapse : Preserves kept broken elapse := by
  refine fun scheduler holds => After.modify ?_
  cases scheduler.agenda.nextDeadline with
  | none => exact holds
  | some deadline => exact stable.retimes scheduler.agenda _ holds

theorem preserves_wait (tokenless : Tokenless kept) : Preserves kept broken wait := by
  refine Preserves.get.bind fun scheduler => ?_
  cases scheduler.agenda.hasPending with
  | false => exact tokenless.preserves_takeToken.bind fun _ => .pure ()
  | true =>
    have awaits : Preserves kept broken awaitTimers := by
      refine tokenless.preserves_takeToken.bind fun token => ?_
      cases token with
      | true => exact stable.preserves_fireDue
      | false => exact stable.preserves_elapse.bind fun _ => stable.preserves_fireDue
    exact awaits.bind fun fired => stable.preserves_resumeFired fired

theorem preserves_rest : Preserves kept broken rest := by
  refine Preserves.get.bind fun scheduler => ?_
  cases scheduler.agenda.hasPending with
  | false => exact .pure ()
  | true => exact stable.preserves_elapse.bind fun _ => stable.preserves_pollTimers

end Stable

/-! ### Waiting for messages -/

/-- What is stable, and kept too when a task waits for messages, having seen that there is none. -/
structure Abiding (kept : Scheduler → Prop) (broken : Prop) : Prop extends Stable kept where
  suspends : ∀ {scheduler : Scheduler} {slot : Slot} {task : Task}, kept scheduler →
    scheduler.roster.task? slot = some task → scheduler.mailroom.isEmpty task.mailbox = true →
      After (suspend slot .message) scheduler (fun _ => kept) fun _ next => broken → kept next

/-- What abides, and is kept too when the woken tasks go on and when the token is given or used. -/
structure Lasting (kept : Scheduler → Prop) (broken : Prop) : Prop extends Abiding kept broken where
  goesOn : Preserves kept broken wakeWoken
  tokenless : Tokenless kept

namespace Abiding

variable (abiding : Abiding kept broken)

include abiding

theorem preserves_settle (slot : Slot) (id : TaskId) (stack : Stack) (status : Status) :
    Preserves kept broken (settle slot id stack status) := by
  have stable := abiding.toStable
  have puts : Preserves kept broken (putStack slot stack) := stable.preserves_putStack slot stack
  have finishes (exit : Exit) : Preserves kept broken (do endTask slot exit; sweepOrphans) :=
    (stable.preserves_endTask slot exit).bind fun _ => stable.preserves_sweepOrphans
  cases status with
  | yielded => exact puts.bind fun _ => stable.preserves_requeue slot
  | suspended wait =>
    cases wait with
    | timer after =>
      refine puts.bind fun _ => Preserves.bind (fun _ holds => ?_)
        fun timer => stable.preserves_transfer .run .wait slot nofun
      exact After.modifyGet (stable.retimes _ _ holds)
    | message =>
      refine puts.bind fun _ scheduler holds => ?_
      refine After.bind (after_onRoster (Roster.after_fetch (fun task present => ?_)
        fun _ _ => holds))
      refine After.bind (After.get ?_)
      by_cases empty : scheduler.mailroom.isEmpty task.mailbox = true
      · simp only [empty, if_true]
        exact abiding.suspends holds present empty
      · simp only [empty]
        exact stable.preserves_requeue slot scheduler holds
  | ended values => exact finishes (.returned values)
  | faulted fault => exact finishes (.faulted fault)

theorem preserves_runTurn (slot : Slot) : Preserves kept broken (runTurn slot) := by
  refine (Preserves.fetch slot).bind fun task => ?_
  cases task.stack with
  | none => exact .throw _
  | some stack =>
    refine Preserves.bind (abiding.preserves_update slot (fun _ => rfl) (fun _ => rfl)
      (fun _ => rfl) fun _ ended => ended) fun _ => Preserves.get.bind fun scheduler => ?_
    refine Preserves.bind (fun middle holds => ((abiding.keeps slot).after_execute
      scheduler.config.execLimit scheduler.patience stack holds).imp fun _ _ known => known.1)
      fun outcome => ?_
    cases outcome with
    | none => exact .throw _
    | some outcome => exact abiding.preserves_settle slot task.id outcome.1 outcome.2

theorem preserves_step : Preserves kept broken step := by
  refine Preserves.get.bind fun scheduler => ?_
  cases scheduler.roster.run.head with
  | none => exact .pure false
  | some slot =>
    refine (Steady.preserves_parentIsZombie slot).bind fun orphaned => ?_
    cases orphaned with
    | false => exact (abiding.preserves_runTurn slot).bind fun _ => .pure true
    | true =>
      exact (abiding.preserves_endTask slot .orphaned).bind fun _ =>
        abiding.preserves_sweepOrphans.bind fun _ => .pure true

theorem preserves_stepMany (turns : Nat) : Preserves kept broken (stepMany turns) := by
  induction turns with
  | zero => exact .pure 0
  | succ turns inductionHypothesis =>
    refine abiding.preserves_step.bind fun more => ?_
    cases more with
    | false => exact .pure 0
    | true => exact inductionHypothesis.bind fun _ => .pure _

end Abiding

namespace Lasting

variable (lasting : Lasting kept broken)

include lasting

theorem preserves_tick : Preserves kept broken tick :=
  lasting.goesOn.bind fun _ => lasting.preserves_pollTimers.bind fun _ =>
    Preserves.get.bind fun _ => (lasting.preserves_stepMany _).bind fun _ =>
      Preserves.get.bind fun _ => .pure _

theorem preserves_runWithin (passes : Nat) : Preserves kept broken (runWithin passes) := by
  induction passes with
  | zero => exact .throw _
  | succ passes inductionHypothesis =>
    refine lasting.preserves_tick.bind fun left => ?_
    cases left with
    | busy => exact inductionHypothesis
    | idle => exact .pure _
    | waiting =>
      refine Preserves.get.bind fun scheduler => ?_
      cases scheduler.agenda.hasPending with
      | true => exact lasting.preserves_rest.bind fun _ => inductionHypothesis
      | false =>
        refine Preserves.get.bind fun scheduler => ?_
        cases scheduler.mailroom.woken.isEmpty with
        | true => exact .pure _
        | false => exact inductionHypothesis

end Lasting

/-- What depends on the tasks, the numbers and the notices only, and not on what tasks wait for. -/
structure Indifferent (kept : Scheduler → Prop) : Prop where
  beside : ∀ {scheduler next : Scheduler}, kept scheduler → next.roster = scheduler.roster →
    next.registry = scheduler.registry → next.nextId = scheduler.nextId →
    (∃ recent, next.notices = recent ++ scheduler.notices) → kept next
  arrange : ∀ {scheduler : Scheduler} {roster : Roster}, kept scheduler →
    Roster.SameTasks scheduler.roster roster → kept { scheduler with roster }
  alter : ∀ {scheduler : Scheduler} (slot : Slot) {change : Task → Task}, kept scheduler →
    (∀ task, (change task).id = task.id) →
    (∀ task, task.life = .zombie → (change task).life = .zombie) →
    kept { scheduler with roster := scheduler.roster.alter slot change }
  number : ∀ {scheduler : Scheduler}, kept scheduler →
    kept { scheduler with nextId := scheduler.nextId.next }
  born : ∀ {scheduler : Scheduler} (function : Function) (parent : Option Slot) (mailbox : Mailbox),
    kept scheduler → kept
      { scheduler.entered scheduler.nextId function parent mailbox with
        nextId := scheduler.nextId.next }
  leave : ∀ {scheduler : Scheduler} {slot : Slot} {task : Task},
    scheduler.roster.task? slot = some task → kept scheduler → kept
      { scheduler with
        roster := scheduler.roster.setTask slot none
        registry := scheduler.registry.erase task.id }

theorem Indifferent.stable (indifferent : Indifferent kept) : Stable kept where
  beside := fun holds beside =>
    indifferent.beside holds beside.roster beside.registry beside.nextId beside.told
  opens := fun _ holds => indifferent.beside holds rfl rfl rfl ⟨[], rfl⟩
  sends := fun _ _ holds => indifferent.beside holds rfl rfl rfl ⟨[], rfl⟩
  receives := fun _ holds => indifferent.beside holds rfl rfl rfl ⟨[], rfl⟩
  wakes := fun _ holds => indifferent.beside holds rfl rfl rfl ⟨[], rfl⟩
  arrange := indifferent.arrange
  alter := fun slot _ holds id _ _ life => indifferent.alter slot holds id life
  retimes := fun _ _ holds => indifferent.beside holds rfl rfl rfl ⟨[], rfl⟩
  rewaits := fun slot _ holds id _ _ life => indifferent.alter slot holds id life
  number := indifferent.number
  born := fun function parent holds =>
    indifferent.beside (indifferent.born function parent _ holds) rfl rfl rfl ⟨[], rfl⟩
  leave := indifferent.leave

theorem Indifferent.lasting (indifferent : Indifferent kept) : Lasting kept broken where
  toStable := indifferent.stable
  suspends := fun {_ slot _} holds _ _ =>
    indifferent.stable.preserves_suspend slot (fun holds =>
      indifferent.alter slot holds (fun _ => rfl) fun _ ended => ended) _ holds
  goesOn := by
    refine Preserves.bind (fun _ holds => After.modifyGet ?_)
      fun woken => .forM woken fun id => indifferent.stable.preserves_resumeIf id .message
    exact indifferent.beside holds rfl rfl rfl ⟨[], rfl⟩
  tokenless := fun _ _ holds => indifferent.beside holds rfl rfl rfl ⟨[], rfl⟩

/-- A step keeps what is indifferent. -/
theorem Indifferent.of_step (indifferent : Indifferent kept) (holds : kept scheduler) {more : Bool}
    {next : Scheduler} (steps : step scheduler = .ok more next) : kept next := by
  have lasting : Lasting kept True := indifferent.lasting
  exact (lasting.preserves_step scheduler holds).ok steps

end

end Scheduler

end TaskMachine
