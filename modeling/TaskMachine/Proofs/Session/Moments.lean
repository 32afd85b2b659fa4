/-
The course of a session, moment by moment. Between two operations, and between
the parts that an operation is made of, a scheduler is at rest; it can be in the
middle of a turn, where the running task has its stack; and it can be in the
middle of an ending, where the watchers were told and the exit is still to be
reported. A `Move` leads from one moment to the next, by a piece of what the
scheduler does, and says what happened meanwhile.

More moves are possible than any operation makes: a turn may be cut short after
every instruction, orphans may be swept out in any order, and the embedder may
come in wherever nobody has a turn. So what holds of all runs of moves holds of
all runs of a scheduler, whatever its limits; `Session.runs_of_perform` finds the
moves that an operation makes.
-/

import TaskMachine.Proofs.Session.Basic

namespace TaskMachine

/-! ### Letters -/

/-- Delivers letters, one after another. -/
def Mailroom.deliver (room : Mailroom) (letters : List Letter) : Mailroom :=
  letters.foldl (fun room letter => room.send letter.mailbox letter.message) room

/-- What is sent in response to some things, told one after another, if some were told before. -/
def responses (respond : List Notice → List Letter) (told : List Notice) :
    List Notice → List Letter
  | [] => []
  | notice :: rest => respond (notice :: told) ++ responses respond (notice :: told) rest

/-- How an ended task is reported. -/
def Roster.exitReport (roster : Roster) (task : Task) (exit : Exit) : List Letter :=
  match roster.nearestLiving task.parent with
  | .ok (some ancestor) =>
    if ancestor.flags.contains .trapExit then [⟨ancestor.mailbox, ⟨exit.code, some task.id⟩⟩]
    else []
  | _ => []

/-! ### The two halves of an ending -/

namespace Scheduler

/-- A task leaves its queue and becomes a zombie, and its watchers are told. Its exit is still to
be reported, and the reference that stood for its life to be given up. -/
def depart (slot : Slot) (exit : Exit) : Scheduling Task := do
  leaveLane slot
  let task ← fetch slot
  if let some (.timer timer) := task.awaited then cancelTimer timer
  update slot fun task =>
    { task with awaited := none, stack := none, life := .zombie, watchers := [] }
  if 1 < task.references then
    modify fun scheduler => { scheduler with deathsPending := true }
  task.watchers.forM fun watcher => notify (.ended watcher task.id exit)
  pure task

theorem endTask_eq (slot : Slot) (exit : Exit) : endTask slot exit = (do
    let task ← depart slot exit
    reportExit task.id task.parent exit
    releaseSlot slot) := by
  simp only [endTask, depart, bind_assoc]
  refine congrArg _ (funext fun _ => congrArg _ (funext fun task => ?_))
  by_cases more : 1 < task.references
  · cases task.awaited with
    | none => simp only [more, if_true, bind_assoc, pure_bind]
    | some awaited => cases awaited <;> simp only [more, if_true, bind_assoc, pure_bind]
  · cases task.awaited with
    | none => simp only [more, if_false, bind_assoc, pure_bind]
    | some awaited => cases awaited <;> simp only [more, if_false, bind_assoc, pure_bind]

end Scheduler

/-! ### Moments -/

namespace Moment

/-- What happens in a session that concerns messages, turns or endings. -/
inductive Event where
  /-- A letter goes to an inbox. -/
  | sent (letter : Letter)
  /-- The task at a place has stored a value that came out of an inbox. -/
  | stored (slot : Slot) (mailbox : Mailbox) (value : Value)
  /-- A watcher was accepted for the task at a place. -/
  | watched (slot : Slot) (watcher : Nat)
  /-- The task at a place is given a turn. -/
  | began (slot : Slot)
  /-- Its turn is over. -/
  | rested (slot : Slot)
  /-- The task at a place has ended. -/
  | ended (slot : Slot) (task : TaskId) (exit : Exit)

/-- What a scheduler is in the middle of. -/
inductive Phase where
  /-- Nobody has a turn, and no exit is to be reported. -/
  | between
  /-- The task at a place has its turn, and this is its stack. -/
  | turn (slot : Slot) (id : TaskId) (stack : Stack)
  /-- The task at a place has ended, and its watchers were told. -/
  | ending (slot : Slot) (task : Task) (exit : Exit)

end Moment

/-- A moment in the course of a session. -/
structure Moment where
  session : Session
  phase : Moment.Phase

namespace Moment

/-- A session at the start. -/
def start (config : Config) (patience : Nat) (respond : List Notice → List Letter) : Moment :=
  ⟨.start config patience respond, .between⟩

/-- The same session in another state. -/
def moved (session : Session) (scheduler : Scheduler) (phase : Phase) : Moment :=
  ⟨{ session with scheduler }, phase⟩

/-! ### What happens in a move -/

/-- Letters are sent. One that is for no inbox goes nowhere. -/
def posted (room : Mailroom) (letters : List Letter) : List Event :=
  (letters.filter fun letter => letter.mailbox.inbox < room.inboxes.size).map .sent

/-- What happens when the embedder asks for something. -/
def asked (scheduler : Scheduler) : Operation → List Event
  | .send id value sender =>
    match scheduler.mailbox? id with
    | some mailbox => posted scheduler.mailroom [⟨mailbox, value, sender⟩]
    | none => []
  | .post mailbox message => posted scheduler.mailroom [⟨mailbox, message⟩]
  | .watch id watcher =>
    match scheduler.registry.find? id with
    | some slot =>
      if answer? (Scheduler.watch id watcher) scheduler = some true then [.watched slot watcher]
      else []
    | none => []
  | _ => []

/-- What happens when the task at a place executes an instruction and goes on. -/
def instructed (slot : Slot) (stack next : Stack) (scheduler after : Scheduler) : List Event :=
  match stack.act with
  | .receive _ destination =>
    match scheduler.roster.task? slot with
    | some task => [.stored slot task.mailbox (next.top.registers.get destination)]
    | none => []
  | .invoke _ _ => posted scheduler.mailroom (after.respond after.notices)
  | _ => []

/-- What happens when a task ends, as far as it comes before the report. -/
def departed (scheduler : Scheduler) (slot : Slot) (task : Task) (exit : Exit) : List Event :=
  .ended slot task.id exit :: posted scheduler.mailroom (responses scheduler.respond
    scheduler.notices (task.watchers.map fun watcher => .ended watcher task.id exit))

/-- What a scheduler does between turns besides giving them and ending tasks. -/
inductive Chore where
  /-- The tasks that were woken go on. -/
  | wake
  /-- The tasks whose timers are due go on. -/
  | poll
  /-- Time goes by until a timer is due. -/
  | rest
  /-- No more orphans are looked for. -/
  | calm

/-- How it is done. -/
def Chore.perform : Chore → Scheduling Unit
  | wake => Scheduler.wakeWoken
  | poll => Scheduler.pollTimers
  | rest => Scheduler.rest
  | calm => modify fun scheduler => { scheduler with deathsPending := false }

/-- One move, and what happens in it. The embedder may ask for what is allowed. -/
inductive Move (allowed : Session → Operation → Prop) : Moment → List Event → Moment → Prop
  /-- The embedder asks for something that gives no turns, and it is done. -/
  | serve {session : Session} {operation : Operation} {scheduler : Scheduler}
      (permitted : allowed session operation) (quiet : operation.givesTurns = false)
      (performs : operation.perform session.scheduler = .ok ⟨⟩ scheduler) :
      Move allowed ⟨session, .between⟩ (asked session.scheduler operation)
        ⟨⟨scheduler, session.heldAfter operation, session.unscheduledAfter operation⟩, .between⟩
  /-- It is refused. -/
  | refuse {session : Session} {operation : Operation} {crash : Crash} {scheduler : Scheduler}
      (permitted : allowed session operation) (quiet : operation.givesTurns = false)
      (breaks : operation.perform session.scheduler = .error crash scheduler)
      (refusal : crash.isRefusal = true) :
      Move allowed ⟨session, .between⟩ [] (moved session scheduler .between)
  | tend {session : Session} {scheduler : Scheduler} (chore : Chore)
      (performs : chore.perform session.scheduler = .ok ⟨⟩ scheduler) :
      Move allowed ⟨session, .between⟩ [] (moved session scheduler .between)
  /-- The task at the head of the run queue is given a turn. Its parent has not ended. -/
  | begin {session : Session} {slot : Slot} {task : Task} {stack : Stack}
      (first : session.scheduler.roster.run.head = some slot)
      (cared : Scheduler.parentIsZombie slot session.scheduler = .ok false session.scheduler)
      (present : session.scheduler.roster.task? slot = some task)
      (mans : task.stack = some stack) :
      Move allowed ⟨session, .between⟩ [.began slot]
        (moved session (session.scheduler.manned slot) (.turn slot task.id stack))
  /-- The task executes an instruction and goes on. -/
  | instruct {session : Session} {slot : Slot} {id : TaskId} {stack next : Stack} {cost : Nat}
      {scheduler : Scheduler}
      (steps : stack.step (Scheduler.hostFor slot) session.scheduler =
        .ok (.proceed next cost) scheduler) :
      Move allowed ⟨session, .turn slot id stack⟩
        (instructed slot stack next session.scheduler scheduler)
        (moved session scheduler (.turn slot id next))
  /-- The turn is cut short. -/
  | preempt {session : Session} {slot : Slot} {id : TaskId} {stack : Stack} {scheduler : Scheduler}
      (settles : Scheduler.settle slot id stack .yielded session.scheduler = .ok ⟨⟩ scheduler) :
      Move allowed ⟨session, .turn slot id stack⟩ [.rested slot] (moved session scheduler .between)
  /-- The task gives up its turn or waits for something. -/
  | pause {session : Session} {slot : Slot} {id : TaskId} {stack next : Stack} {status : Status}
      {middle scheduler : Scheduler}
      (steps : stack.step (Scheduler.hostFor slot) session.scheduler =
        .ok (.stop next status) middle)
      (stays : status.exit? = none)
      (settles : Scheduler.settle slot id next status middle = .ok ⟨⟩ scheduler) :
      Move allowed ⟨session, .turn slot id stack⟩ [.rested slot] (moved session scheduler .between)
  /-- The task returns or faults. -/
  | finish {session : Session} {slot : Slot} {id : TaskId} {stack next : Stack} {status : Status}
      {exit : Exit} {task : Task} {middle scheduler : Scheduler}
      (steps : stack.step (Scheduler.hostFor slot) session.scheduler =
        .ok (.stop next status) middle)
      (exits : status.exit? = some exit)
      (departs : Scheduler.depart slot exit middle = .ok task scheduler) :
      Move allowed ⟨session, .turn slot id stack⟩ (.rested slot :: departed middle slot task exit)
        (moved session scheduler (.ending slot task exit))
  /-- A task in a queue ends because its parent has ended. -/
  | orphan {session : Session} {slot : Slot} {task : Task} {scheduler : Scheduler}
      (stands : (∃ queued lane, session.scheduler.roster.task? slot = some queued ∧
          queued.lane = some lane) ∨ session.scheduler.roster.run.head = some slot)
      (bereft : Scheduler.parentIsZombie slot session.scheduler = .ok true session.scheduler)
      (departs : Scheduler.depart slot .orphaned session.scheduler = .ok task scheduler) :
      Move allowed ⟨session, .between⟩ (departed session.scheduler slot task .orphaned)
        (moved session scheduler (.ending slot task .orphaned))
  /-- The exit is reported, and the task gives up the reference that stood for its life. -/
  | close {session : Session} {slot : Slot} {task : Task} {exit : Exit}
      {middle scheduler : Scheduler}
      (reports : Scheduler.reportExit task.id task.parent exit session.scheduler = .ok ⟨⟩ middle)
      (releases : Scheduler.releaseSlot slot middle = .ok ⟨⟩ scheduler) :
      Move allowed ⟨session, .ending slot task exit⟩
        (posted session.scheduler.mailroom (session.scheduler.roster.exitReport task exit))
        (moved session scheduler .between)

/-- Moves, one after another, and all that happens in them. -/
inductive Runs (allowed : Session → Operation → Prop) (first : Moment) : List Event → Moment → Prop
  | none : Runs allowed first [] first
  | move {middle last : Moment} {events more : List Event} (runs : Runs allowed first events middle)
      (moves : Move allowed middle more last) : Runs allowed first (events ++ more) last

/-- What a session can come to from its start, and all that has happened until then. -/
def Reached (allowed : Session → Operation → Prop) (events : List Event) (moment : Moment) : Prop :=
  ∃ config patience respond, Runs allowed (start config patience respond) events moment

variable {allowed : Session → Operation → Prop} {first middle last : Moment}
  {events more : List Event}

theorem Runs.trans (runs : Runs allowed first events middle)
    (further : Runs allowed middle more last) :
    Runs allowed first (events ++ more) last := by
  induction further with
  | none => rwa [List.append_nil]
  | move _ moves inductionHypothesis =>
    rw [← List.append_assoc]
    exact .move inductionHypothesis moves

theorem Reached.runs (reached : Reached allowed events middle)
    (runs : Runs allowed middle more last) :
    Reached allowed (events ++ more) last := by
  obtain ⟨config, patience, respond, before⟩ := reached
  exact ⟨config, patience, respond, before.trans runs⟩

/-! ### The moves that operations make -/

/-- A session comes to a state by moves. -/
def Comes (allowed : Session → Operation → Prop) (origin : Moment) (session : Session)
    (phase : Phase) (scheduler : Scheduler) : Prop :=
  ∃ events, Runs allowed origin events (moved session scheduler phase)

section

variable {origin : Moment} {session : Session} {phase further : Phase} {scheduler next : Scheduler}
  {slot : Slot} {id : TaskId} {stack : Stack}

theorem Comes.move (comes : Comes allowed origin session phase scheduler)
    (moves : Move allowed (moved session scheduler phase) more (moved session next further)) :
    Comes allowed origin session further next := by
  obtain ⟨events, runs⟩ := comes
  exact ⟨events ++ more, .move runs moves⟩

theorem preserves_chore (chore : Chore) :
    Scheduler.Preserves (Comes allowed origin session .between) False chore.perform :=
  fun _ comes => After.known.mono (fun _ _ performs => comes.move (.tend chore performs))
    fun _ _ _ => False.elim

/-- A task that has ended is reported. -/
theorem Comes.after_close {task : Task} {exit : Exit}
    (comes : Comes allowed origin session (.ending slot task exit) scheduler) :
    After (do
        Scheduler.reportExit task.id task.parent exit
        Scheduler.releaseSlot slot) scheduler
      (fun _ => Comes allowed origin session .between)
      fun _ next => False → Comes allowed origin session .between next :=
  After.bind (After.known.mono (fun _ _ reports => After.known.mono
    (fun _ _ releases => comes.move (.close reports releases)) fun _ _ _ => False.elim)
    fun _ _ _ => False.elim)

/-- An orphan ends. -/
theorem Comes.after_orphan (comes : Comes allowed origin session .between scheduler)
    (stands : (∃ queued lane, scheduler.roster.task? slot = some queued ∧
      queued.lane = some lane) ∨ scheduler.roster.run.head = some slot)
    (bereft : Scheduler.parentIsZombie slot scheduler = .ok true scheduler) :
    After (Scheduler.endTask slot .orphaned) scheduler
      (fun _ => Comes allowed origin session .between)
      fun _ next => False → Comes allowed origin session .between next := by
  rw [Scheduler.endTask_eq]
  exact After.bind (After.known.mono
    (fun _ _ departs => (comes.move (.orphan stands bereft departs)).after_close)
    fun _ _ _ => False.elim)

/-- To look whether the parent of a task has ended changes nothing. -/
theorem after_parentIsZombie (slot : Slot) (scheduler : Scheduler) :
    After (Scheduler.parentIsZombie slot) scheduler
      (fun lost next => next = scheduler ∧
        Scheduler.parentIsZombie slot scheduler = .ok lost scheduler)
      fun _ _ => True := by
  have still : Scheduler.Preserves (· = scheduler) False (Scheduler.parentIsZombie slot) :=
    Scheduler.Steady.preserves_parentIsZombie slot
  refine (After.known.and (still scheduler rfl)).mono (fun lost next found => ?_)
    fun _ _ _ => trivial
  obtain ⟨tells, rfl⟩ := found
  exact ⟨rfl, tells⟩

theorem preserves_sweepSlot (slot : Slot) :
    Scheduler.Preserves (Comes allowed origin session .between) False
      (Scheduler.sweepSlot slot) := by
  intro scheduler comes
  refine After.bind (After.get ?_)
  cases present : scheduler.roster.task? slot with
  | none => exact After.pure comes
  | some task =>
    cases queued : task.lane with
    | none =>
      simp only [queued]
      exact After.pure comes
    | some lane =>
      simp only [queued]
      refine After.bind ((after_parentIsZombie slot scheduler).mono (fun lost _ found => ?_)
        fun _ _ _ => False.elim)
      obtain ⟨rfl, tells⟩ := found
      cases lost with
      | false => exact After.pure comes
      | true =>
        exact After.bind ((comes.after_orphan (Or.inl ⟨task, lane, present, queued⟩) tells).imp
          fun _ _ comes => After.pure comes)

theorem preserves_sweepSlots (slots : List Slot) :
    Scheduler.Preserves (Comes allowed origin session .between) False
      (Scheduler.sweepSlots slots) := by
  induction slots with
  | nil => exact .pure false
  | cons slot rest inductionHypothesis =>
    exact (preserves_sweepSlot slot).bind fun _ => inductionHypothesis.bind fun _ => .pure _

theorem preserves_sweepWithin (passes : Nat) :
    Scheduler.Preserves (Comes allowed origin session .between) False
      (Scheduler.sweepWithin passes) := by
  induction passes with
  | zero => exact .throw _
  | succ passes inductionHypothesis =>
    have sweeps : Scheduler.Preserves (Comes allowed origin session .between) False
        Scheduler.sweepOnce :=
      (Scheduler.Preserves.reading _).bind fun _ => (Scheduler.Preserves.reading _).bind fun _ =>
        (preserves_sweepSlots _).bind fun _ => (preserves_chore .calm).bind fun _ => .pure _
    refine sweeps.bind fun more => ?_
    cases more with
    | false => exact .pure ()
    | true => exact inductionHypothesis

theorem preserves_sweepOrphans :
    Scheduler.Preserves (Comes allowed origin session .between) False Scheduler.sweepOrphans := by
  refine Scheduler.Preserves.get.bind fun scheduler => ?_
  cases scheduler.deathsPending with
  | false => exact .pure ()
  | true =>
    exact (preserves_chore .calm).bind fun _ => Scheduler.Preserves.get.bind fun _ =>
      preserves_sweepWithin _

/-- A turn has come to its last instruction, or is cut short. -/
def Halts (allowed : Session → Operation → Prop) (origin : Moment) (session : Session)
    (slot : Slot) (id : TaskId) (stack : Stack) (status : Status) (scheduler : Scheduler) : Prop :=
  (status = .yielded ∧ Comes allowed origin session (.turn slot id stack) scheduler) ∨
    ∃ before last, Comes allowed origin session (.turn slot id last) before ∧
      last.step (Scheduler.hostFor slot) before = .ok (.stop stack status) scheduler

/-- Instruction after instruction is executed. -/
theorem Comes.after_advance (comes : Comes allowed origin session (.turn slot id stack) scheduler)
    (limit fuel charged : Nat) :
    After (stack.advance (Scheduler.hostFor slot) limit fuel charged) scheduler
      (fun outcome next => ∀ after status, outcome = some (after, status) →
        Halts allowed origin session slot id after status next)
      fun _ _ => True := by
  induction fuel generalizing stack scheduler charged with
  | zero => exact After.pure fun _ _ => nofun
  | succ fuel inductionHypothesis =>
    refine After.bind (After.known.mono (fun progress next steps => ?_) fun _ _ _ => trivial)
    cases progress with
    | stop after status =>
      refine After.pure fun _ _ same => ?_
      cases same
      exact Or.inr ⟨scheduler, stack, comes, steps⟩
    | proceed after cost =>
      have goesOn := comes.move (.instruct steps)
      by_cases reached : 0 < limit ∧ limit ≤ charged + cost
      · simp only [reached, and_self, if_true]
        refine After.pure fun _ _ same => ?_
        cases same
        exact Or.inl ⟨rfl, goesOn⟩
      · simp only [reached, if_false]
        exact inductionHypothesis goesOn (charged + cost)

/-- At the end of its turn a task goes where it belongs, or ends. -/
theorem Halts.after_settle {status : Status}
    (halts : Halts allowed origin session slot id stack status scheduler) :
    After (Scheduler.settle slot id stack status) scheduler
      (fun _ => Comes allowed origin session .between)
      fun _ next => False → Comes allowed origin session .between next := by
  rcases halts with ⟨rfl, comes⟩ | ⟨before, last, comes, steps⟩
  · exact After.known.mono (fun _ _ settles => comes.move (.preempt settles))
      fun _ _ _ => False.elim
  · cases exits : status.exit? with
    | none =>
      exact After.known.mono (fun _ _ settles => comes.move (.pause steps exits settles))
        fun _ _ _ => False.elim
    | some exit =>
      rw [Scheduler.settle_of_exit exits, Scheduler.endTask_eq]
      refine After.bind (After.bind (After.known.mono (fun task ended departs => ?_)
        fun _ _ _ => False.elim))
      exact (comes.move (.finish steps exits departs)).after_close.imp
        fun _ _ comes => preserves_sweepOrphans _ comes

theorem preserves_step :
    Scheduler.Preserves (Comes allowed origin session .between) False Scheduler.step := by
  intro scheduler comes
  refine After.bind (After.get ?_)
  cases first : scheduler.roster.run.head with
  | none => exact After.pure comes
  | some slot =>
    refine After.bind ((after_parentIsZombie slot scheduler).mono (fun lost _ found => ?_)
      fun _ _ _ => False.elim)
    obtain ⟨rfl, tells⟩ := found
    cases lost with
    | true =>
      refine After.bind ((comes.after_orphan (Or.inr first) tells).imp fun _ _ comes => ?_)
      exact After.bind ((preserves_sweepOrphans _ comes).imp fun _ _ comes => After.pure comes)
    | false =>
      refine After.bind (After.bind (Scheduler.after_onRoster (Roster.after_fetch
        (fun task present => ?_) fun _ fails => fails.elim)))
      cases mans : task.stack with
      | none => exact After.throw False.elim
      | some stack =>
        refine After.bind (Scheduler.after_update present (After.bind (After.get (After.bind ?_))))
        have begins := comes.move (.begin first tells present mans)
        refine (begins.after_advance _ _ _).mono (fun outcome next halts => ?_)
          fun _ _ _ => False.elim
        cases outcome with
        | none => exact After.throw False.elim
        | some outcome =>
          exact (halts outcome.1 outcome.2 rfl).after_settle.imp fun _ _ comes => After.pure comes

theorem preserves_stepMany (turns : Nat) :
    Scheduler.Preserves (Comes allowed origin session .between) False
      (Scheduler.stepMany turns) := by
  induction turns with
  | zero => exact .pure 0
  | succ turns inductionHypothesis =>
    refine preserves_step.bind fun more => ?_
    cases more with
    | false => exact .pure 0
    | true => exact inductionHypothesis.bind fun _ => .pure _

theorem preserves_tick :
    Scheduler.Preserves (Comes allowed origin session .between) False Scheduler.tick :=
  (preserves_chore .wake).bind fun _ => (preserves_chore .poll).bind fun _ =>
    Scheduler.Preserves.get.bind fun _ => (preserves_stepMany _).bind fun _ =>
      Scheduler.Preserves.get.bind fun _ => .pure _

theorem preserves_runWithin (passes : Nat) :
    Scheduler.Preserves (Comes allowed origin session .between) False
      (Scheduler.runWithin passes) := by
  induction passes with
  | zero => exact .throw _
  | succ passes inductionHypothesis =>
    refine preserves_tick.bind fun left => ?_
    cases left with
    | busy => exact inductionHypothesis
    | idle => exact .pure _
    | waiting =>
      refine Scheduler.Preserves.get.bind fun scheduler => ?_
      cases scheduler.agenda.hasPending with
      | true => exact (preserves_chore .rest).bind fun _ => inductionHypothesis
      | false =>
        refine Scheduler.Preserves.get.bind fun scheduler => ?_
        cases scheduler.mailroom.woken.isEmpty with
        | true => exact .pure _
        | false => exact inductionHypothesis

/-- An operation that gives turns makes nothing but moves. -/
theorem runs_of_givesTurns {operation : Operation} (gives : operation.givesTurns = true)
    (performs : operation.perform session.scheduler = .ok ⟨⟩ next) :
    ∃ events, Runs allowed ⟨session, .between⟩ events (moved session next .between) := by
  have comes : Comes allowed ⟨session, .between⟩ session .between session.scheduler := ⟨[], .none⟩
  have drops {Result : Type} {part : Scheduling Result}
      (preserves : Scheduler.Preserves
        (Comes allowed ⟨session, .between⟩ session .between) False part)
      (performs : (do let _ ← part) session.scheduler = .ok ⟨⟩ next) :
      Comes allowed ⟨session, .between⟩ session .between next :=
    (preserves.bind (fun _ => Scheduler.Preserves.pure ()) _ comes).ok performs
  cases operation with
  | step => exact drops preserves_step performs
  | tick => exact drops preserves_tick performs
  | run passes => exact drops (preserves_runWithin passes) performs
  | _ => exact absurd gives nofun

end

end Moment

/-- Whatever the embedder asks for is done in moves. -/
theorem Session.runs_of_perform {allowed : Session → Operation → Prop} {session : Session}
    {operation : Operation} (permitted : allowed session operation)
    (performs : operation.perform session.scheduler = .ok ⟨⟩ next) :
    ∃ events, Moment.Runs allowed ⟨session, .between⟩ events
      ⟨⟨next, session.heldAfter operation, session.unscheduledAfter operation⟩, .between⟩ := by
  cases gives : operation.givesTurns with
  | false => exact ⟨_, .move .none (.serve permitted gives performs)⟩
  | true =>
    obtain ⟨events, runs⟩ : ∃ events, Moment.Runs allowed _ events _ :=
      Moment.runs_of_givesTurns gives performs
    refine ⟨events, ?_⟩
    cases operation with
    | step | tick | run passes => exact runs
    | _ => exact absurd gives nofun

/-- Whatever the embedder may ask for now, and is not cut off in, is done in moves. -/
def Moment.Covers (allowed : Session → Operation → Prop) (moment : Moment) : Prop :=
  ∀ operation, moment.phase = .between → allowed moment.session operation →
    (∀ next, operation.perform moment.session.scheduler = .ok ⟨⟩ next →
      ∃ events, Runs allowed moment events ⟨⟨next, moment.session.heldAfter operation,
        moment.session.unscheduledAfter operation⟩, .between⟩) ∧
    ∀ crash next, operation.perform moment.session.scheduler = .error crash next →
      operation.givesTurns = false → crash.isRefusal = true →
        ∃ events, Runs allowed moment events (moved moment.session next .between)

/-- An operation that gives no turns and succeeds is one move. -/
theorem Moment.Move.continued {allowed : Session → Operation → Prop} (session : Session)
    (operation : Operation) (permitted : allowed session operation)
    (quiet : operation.givesTurns = false)
    (succeeds : crash? operation.perform session.scheduler = none) :
    Move allowed ⟨session, .between⟩ (asked session.scheduler operation)
      ⟨session.continued operation, .between⟩ := by
  rw [crash?] at succeeds
  rw [Session.continued]
  cases performs : operation.perform session.scheduler with
  | ok result scheduler => exact .serve permitted quiet performs
  | error crash scheduler =>
    rw [performs] at succeeds
    cases succeeds

theorem Moment.covers (allowed : Session → Operation → Prop) (moment : Moment) :
    moment.Covers allowed := by
  obtain ⟨session, phase⟩ := moment
  rintro operation rfl permitted
  exact ⟨fun _ performs => session.runs_of_perform permitted performs,
    fun _ _ breaks quiet refusal => ⟨_, .move .none (.refuse permitted quiet breaks refusal)⟩⟩

end TaskMachine
