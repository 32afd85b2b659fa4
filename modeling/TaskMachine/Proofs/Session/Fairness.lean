/-
Turns are first in, first out. The run queue is joined at its tail, and nobody
leaves it but the one whose turn is over and those who end. So nobody who stands
in it is overtaken by one that comes later, and during its turn a task stays at
the head.

All of this holds whatever the embedder asks for, and also if it releases what
it does not hold; and it holds whatever other threads do at the same time, which
can send messages, wake tasks and give the thread its token.
-/

import TaskMachine.Proofs.Scheduler.Gaps
import TaskMachine.Proofs.Session.Effects

namespace TaskMachine

/-! ### The branch that is never taken -/

namespace Scheduler

variable {scheduler : Scheduler} {slot : Slot}

/-- Moves the task at a place to the tail of the run queue. If it is not at the head, something
else is done. -/
def requeueOr (otherwise : Scheduling Unit) (slot : Slot) : Scheduling Unit := do
  if (← get).roster.run.head = some slot then onRoster (Roster.rotate .run) else otherwise

/-- What is done at the end of a turn, with something else in that branch. -/
def settleOr (otherwise : Scheduling Unit) (slot : Slot) (id : TaskId) (stack : Stack) :
    Status → Scheduling Unit
  | .yielded => do
    putStack slot stack
    requeueOr otherwise slot
  | .suspended .message => do
    putStack slot stack
    let task ← fetch slot
    if (← get).mailroom.isEmpty task.mailbox then suspend slot .message
    else requeueOr otherwise slot
  | status => settle slot id stack status

/-- In a turn that branch takes the task out of the run queue and lets it join again. -/
theorem settle_eq (slot : Slot) (id : TaskId) (stack : Stack) (status : Status) :
    settle slot id stack status = settleOr (do
      onRoster (Roster.remove .run slot)
      onRoster (Roster.pushTail .run slot)) slot id stack status := by
  cases status with
  | suspended wait => cases wait <;> rfl
  | _ => rfl

theorem requeueOr_of_head (otherwise : Scheduling Unit)
    (first : scheduler.roster.run.head = some slot) :
    requeueOr otherwise slot scheduler = onRoster (Roster.rotate .run) scheduler := by
  rw [requeueOr, bind_apply, get_apply]
  simp only [first, if_true]

/-- At the head of the run queue it does not matter what the branch is. -/
theorem settleOr_of_head (otherwise instead : Scheduling Unit)
    (first : scheduler.roster.run.head = some slot) (id : TaskId) (stack : Stack)
    (status : Status) :
    settleOr otherwise slot id stack status scheduler =
      settleOr instead slot id stack status scheduler := by
  have requeues (middle : Scheduler) (first : middle.roster.run.head = some slot) :
      requeueOr otherwise slot middle = requeueOr instead slot middle := by
    rw [requeueOr_of_head otherwise first, requeueOr_of_head instead first]
  have puts {one other : Scheduling Unit}
      (same : ∀ middle : Scheduler, middle.roster.run.head = some slot →
        one middle = other middle) :
      (putStack slot stack >>= fun _ => one) scheduler =
        (putStack slot stack >>= fun _ => other) scheduler := by
    have kept : After (putStack slot stack) scheduler
        (fun _ next => next.roster.run.head = some slot) fun _ _ => True :=
      after_onRoster ((Roster.after_update _).mono (fun _ _ is => is ▸ first) fun _ _ _ => trivial)
    rw [bind_apply, bind_apply]
    cases gives : putStack slot stack scheduler with
    | ok result middle => exact same middle (kept.ok gives)
    | error crash middle => rfl
  cases status with
  | yielded => exact puts requeues
  | suspended wait =>
    cases wait with
    | timer after => rfl
    | message =>
      refine puts fun middle first => ?_
      have still : After (fetch slot) middle (fun _ next => next = middle) fun _ _ => True :=
        after_onRoster (Roster.after_fetch (fun _ _ => rfl) fun _ => trivial)
      rw [bind_apply, bind_apply]
      cases finds : fetch slot middle with
      | error crash next => rfl
      | ok task next =>
        obtain rfl := still.ok finds
        simp only [bind_apply, get_apply]
        split
        · rfl
        · exact requeues next first
  | ended values => rfl
  | faulted fault => rfl

end Scheduler

/-! ### What happens between and during moves -/

namespace Moment

open Scheduler (hostFor)

variable {allowed : Session → Operation → Prop} {moment first middle last next : Moment}
  {events more further : List Event} {session : Session} {scheduler : Scheduler} {phase : Phase}
  {slot other : Slot} {id : TaskId} {stack : Stack} {status : Status} {run base : List Slot}

/-- A turn is over: it is cut short, or the execution has stopped. Since then other threads may have
been at work, and time has gone by. -/
inductive Stopped : Moment → Slot → TaskId → Stack → Status → Scheduler → Prop
  | cut {session : Session} {slot : Slot} {id : TaskId} {stack : Stack} :
      Stopped ⟨session, .turn slot id stack⟩ slot id stack .yielded session.scheduler
  | halted {session : Session} {slot : Slot} {id : TaskId} {before stack : Stack} {status : Status}
      {scheduler : Scheduler}
      (steps : before.step (hostFor slot) session.scheduler = .ok (.stop stack status) scheduler) :
      Stopped ⟨session, .turn slot id before⟩ slot id stack status scheduler
  | meanwhile {moment : Moment} {slot : Slot} {id : TaskId} {stack : Stack} {status : Status}
      {scheduler : Scheduler} (stops : Stopped moment slot id stack status scheduler)
      (mailroom : Mailroom) (clock : Nat) :
      Stopped moment slot id stack status { scheduler with mailroom, clock }

/-- What happens next: a move, or what goes on beside the moves. -/
inductive Advance (allowed : Session → Operation → Prop) : Moment → List Event → Moment → Prop
  | move {first last : Moment} {events : List Event} (moves : Move allowed first events last) :
      Advance allowed first events last
  /-- Other threads send messages, wake tasks or give the thread its token, and time goes by. -/
  | meanwhile (session : Session) (phase : Phase) (mailroom : Mailroom) (clock : Nat) :
      Advance allowed ⟨session, phase⟩ []
        (moved session { session.scheduler with mailroom, clock } phase)
  /-- A turn that does not end the task is settled. Since it was over, other threads may have sent
  the message that the task has looked for. -/
  | settle {session : Session} {phase : Phase} {slot : Slot} {id : TaskId} {stack : Stack}
      {status : Status} {middle scheduler : Scheduler}
      (stops : Stopped ⟨session, phase⟩ slot id stack status middle) (stays : status.exit? = none)
      (settles : Scheduler.settle slot id stack status middle = .ok ⟨⟩ scheduler) :
      Advance allowed ⟨session, phase⟩ [.rested slot] (moved session scheduler .between)

/-- What happens from one moment to another. -/
inductive Course (allowed : Session → Operation → Prop) (first : Moment) :
    List Event → Moment → Prop
  | none : Course allowed first [] first
  | advance {middle last : Moment} {events more : List Event}
      (course : Course allowed first events middle) (advances : Advance allowed middle more last) :
      Course allowed first (events ++ more) last

theorem Runs.course (runs : Runs allowed first events last) : Course allowed first events last := by
  induction runs with
  | none => exact .none
  | move _ moves inductionHypothesis => exact .advance inductionHypothesis (.move moves)

/-! ### The run queue -/

/-- Who leaves the run queue when something happens. -/
def Event.leaver? : Event → Option Slot
  | .rested slot => some slot
  | .ended slot _ _ => some slot
  | _ => none

/-- Who leaves the run queue meanwhile. -/
def leavers (events : List Event) : List Slot := events.filterMap Event.leaver?

theorem leavers_posted (room : Mailroom) (letters : List Letter) :
    leavers (posted room letters) = [] := by
  simp [leavers, posted, Event.leaver?, List.filterMap_map]

theorem leavers_departed (scheduler : Scheduler) (slot : Slot) (task : Task) (exit : Exit) :
    leavers (departed scheduler slot task exit) = [slot] :=
  congrArg (slot :: ·) (leavers_posted _ _)

/-- The run queue leads to these places, whoever is missing there; and if a task has its turn, it is
at the first of them. -/
structure Ready (moment : Moment) (run : List Slot) : Prop where
  threaded : ∃ lists, moment.session.scheduler.roster.Threaded lists ∧ lists .run = run
  turn : ∀ {slot id stack}, moment.phase = .turn slot id stack → run.head? = some slot

theorem ready_start (config : Config) (patience : Nat) (respond : List Notice → List Letter) :
    (start config patience respond).Ready [] :=
  ⟨⟨_, .empty, rfl⟩, nofun⟩

theorem Ready.head (ready : moment.Ready run) :
    moment.session.scheduler.roster.run.head = run.head? := by
  obtain ⟨⟨lists, threaded, rfl⟩, -⟩ := ready
  exact congrArg Ends.head (threaded.ends .run)

theorem Ready.joined (ready : moment.Ready run) :
    moment.session.scheduler.roster.Joined run := by
  obtain ⟨⟨lists, threaded, rfl⟩, -⟩ := ready
  exact ⟨lists, threaded, List.prefix_rfl⟩

theorem Served.joined {operation : Operation} {after : Scheduler}
    (served : Served operation scheduler events after) (joined : scheduler.roster.Joined base) :
    leavers events = [] ∧ after.roster.Joined base := by
  cases served with
  | quietly quiet performs =>
    exact ⟨rfl, ((Operation.guards_perform (Roster.sedate_joined base) quiet _
      (.refl joined)).ok performs).roster⟩
  | delivered letters => exact ⟨leavers_posted _ _, joined⟩
  | @watched slot task watcher present alive => exact ⟨rfl, joined.alter slot fun _ => rfl⟩

theorem joined_of_instructed {after : Scheduler}
    (instructed : scheduler.Instructed slot events after) (joined : scheduler.roster.Joined base) :
    leavers events = [] ∧ after.roster.Joined base := by
  cases instructed with
  | alone => exact ⟨rfl, joined⟩
  | spawned spawns =>
    exact ⟨rfl, ((Scheduler.guards_spawnChild (Roster.sedate_joined base).toPeaceful _ _ _
      (.refl joined)).ok spawns).roster⟩
  | received present takes => exact ⟨rfl, joined⟩
  | invoked hook id run wait stack => exact ⟨leavers_posted _ _, joined⟩

/-- What happens to the run queue: some leave it, and others join it at the tail. When a turn is
over nobody joins it but the one whose turn it was. -/
def Follows (run : List Slot) (events : List Event) (next : Moment) : Prop :=
  ∃ joining, next.Ready (run.filter (· ∉ leavers events) ++ joining) ∧
    ∀ slot, .rested slot ∈ events → joining ⊆ [slot]

/-- If nobody leaves, nobody's turn is over. -/
theorem Follows.of_joined (stays : leavers events = [])
    (joined : next.session.scheduler.roster.Joined run)
    (turn : ∀ {slot id stack}, next.phase = .turn slot id stack → run.head? = some slot) :
    Follows run events next := by
  obtain ⟨lists, threaded, joining, is⟩ := joined
  refine ⟨joining, ?_, fun slot rests => ?_⟩
  · rw [stays, List.filter_eq_self.mpr (by simp)]
    refine ⟨⟨lists, threaded, is.symm⟩, fun begun => ?_⟩
    rw [List.head?_append, turn begun, Option.some_or]
  · have leaves : slot ∈ leavers events := List.mem_filterMap.mpr ⟨_, rests, rfl⟩
    rw [stays] at leaves
    exact absurd leaves List.not_mem_nil

/-- When a turn is over the tasks are where they were before the last instruction. -/
theorem Stopped.same (stops : Stopped moment slot id stack status scheduler) :
    (∃ before, moment.phase = .turn slot id before) ∧
      scheduler.roster = moment.session.scheduler.roster := by
  induction stops with
  | cut => exact ⟨⟨_, rfl⟩, rfl⟩
  | halted steps => exact ⟨⟨_, rfl⟩, (Scheduler.Halted.of_step steps).roster⟩
  | meanwhile stops mailroom clock inductionHypothesis => exact inductionHypothesis

/-- The one whose turn is over leaves the head, and may join the queue at the tail. -/
theorem Stopped.follows (stops : Stopped ⟨session, phase⟩ slot id stack status scheduler)
    (ready : Ready ⟨session, phase⟩ run) (stays : status.exit? = none) {after : Scheduler}
    (settles : Scheduler.settle slot id stack status scheduler = .ok ⟨⟩ after) :
    Follows run [.rested slot] (moved session after .between) := by
  obtain ⟨⟨before, turn⟩, same⟩ := stops.same
  obtain ⟨rest, split⟩ := List.head?_eq_some_iff.mp (ready.turn turn)
  obtain ⟨⟨lists, threaded, rfl⟩, -⟩ := ready
  rw [← same] at threaded
  obtain ⟨later, joining, now, is, back⟩ :=
    (Scheduler.after_settle_threaded threaded split id stack stays).ok settles
  refine ⟨joining, ⟨⟨later, now, ?_⟩, nofun⟩, fun place rests => ?_⟩
  · rw [is, ← threaded.without_head split]
    rfl
  · obtain rfl : place = slot := by simpa using rests
    exact back

/-- A task that ends leaves the queue that it is in. -/
theorem Ready.depart {after : Scheduler} {exit : Exit} {task : Task}
    (ready : Ready ⟨session, phase⟩ run) (same : scheduler.roster = session.scheduler.roster)
    (departing : scheduler.Departing slot exit task after)
    (gone : ∀ place, place ∈ leavers events ↔ place = slot) :
    Follows run events (moved session after (.ending slot task exit)) := by
  obtain ⟨⟨lists, threaded, rfl⟩, -⟩ := ready
  obtain ⟨left, leaves, -, is⟩ := departing.out
  rw [← same] at threaded
  have leftThreaded : left.Threaded (Roster.without lists [slot]) :=
    (Scheduler.after_leaveLane_threaded threaded slot).ok leaves
  refine ⟨[], ⟨⟨Roster.without lists [slot], ?_, ?_⟩, nofun⟩, fun _ _ => List.nil_subset _⟩
  · show after.roster.Threaded _
    rw [is]
    exact leftThreaded.alter slot fun _ => rfl
  · rw [List.append_nil, Roster.without]
    exact List.filter_congr fun place _ => by simp [gone]

theorem Move.follows (moves : Move allowed moment events next) (ready : moment.Ready run) :
    Follows run events next := by
  cases moves with
  | serve permitted quiet performs =>
    obtain ⟨stays, joined⟩ := ((after_serve quiet).ok performs).joined ready.joined
    exact .of_joined stays joined nofun
  | refuse permitted quiet breaks refusal =>
    have quietly := (after_serve quiet).error breaks
    have kept := Operation.guards_perform (Roster.sedate_joined run) quietly _ (.refl ready.joined)
    exact .of_joined rfl (kept.error breaks refusal).roster nofun
  | tend chore performs =>
    have kept := chore.guards_perform (Roster.sedate_joined run) _ (.refl ready.joined)
    exact .of_joined rfl (kept.ok performs).roster nofun
  | @begin session slot task stack first cared present mans =>
    refine .of_joined rfl (ready.joined.alter slot fun _ => rfl) fun turn => ?_
    cases turn
    exact ready.head.symm.trans first
  | instruct steps =>
    obtain ⟨stays, joined⟩ := joined_of_instructed (.of_step steps) ready.joined
    refine .of_joined stays joined fun turn => ?_
    cases turn
    exact ready.turn rfl
  | preempt settles => exact Stopped.cut.follows ready rfl settles
  | pause steps stays settles => exact (Stopped.halted steps).follows ready stays settles
  | @finish session slot id stack after status exit task middle scheduler steps exits departs =>
    exact ready.depart (Scheduler.Halted.of_step steps).roster
      ((Scheduler.after_depart slot exit middle).ok departs) fun place => by
        show place ∈ slot :: leavers (departed _ _ _ _) ↔ place = slot
        simp [leavers_departed]
  | @orphan session slot task scheduler stands bereft departs =>
    exact ready.depart rfl ((Scheduler.after_depart slot .orphaned _).ok departs) fun place => by
      rw [leavers_departed, List.mem_singleton]
  | @close session slot task exit middle scheduler reports releases =>
    obtain ⟨-, is⟩ := (Scheduler.after_report task exit _).ok reports
    have joined : middle.roster.Joined run := by
      rw [is]
      exact ready.joined
    have kept := Scheduler.guards_releaseSlot (Roster.sedate_joined run) slot _ (.refl joined)
    exact .of_joined (leavers_posted _ _) (kept.ok releases).roster nofun

theorem Advance.follows (advances : Advance allowed moment events next) (ready : moment.Ready run) :
    Follows run events next := by
  cases advances with
  | move moves => exact moves.follows ready
  | meanwhile session phase mailroom clock =>
    exact .of_joined rfl ready.joined ready.turn
  | settle stops stays settles => exact stops.follows ready stays settles

theorem Course.ready (course : Course allowed first events last) (ready : ∃ run, first.Ready run) :
    ∃ run, last.Ready run := by
  induction course with
  | none => exact ready
  | advance _ advances inductionHypothesis =>
    obtain ⟨run, ready⟩ := inductionHypothesis
    obtain ⟨joining, ready, -⟩ := advances.follows ready
    exact ⟨_, ready⟩

/-! ### Who has a turn -/

/-- Turns begin when nobody has one, and at the head of the run queue, and are over for those who
have one. -/
def Fits (moment : Moment) : Event → Prop
  | .began slot =>
    moment.phase = .between ∧ moment.session.scheduler.roster.run.head = some slot
  | .rested slot => ∃ id stack, moment.phase = .turn slot id stack
  | _ => True

theorem fits_posted (moment : Moment) (room : Mailroom) (letters : List Letter) :
    ∀ event ∈ posted room letters, moment.Fits event := by
  intro event member
  obtain ⟨letter, -, rfl⟩ := List.mem_map.mp member
  trivial

theorem fits_departed (moment : Moment) (scheduler : Scheduler) (slot : Slot) (task : Task)
    (exit : Exit) : ∀ event ∈ departed scheduler slot task exit, moment.Fits event :=
  List.forall_mem_cons.mpr ⟨trivial, fits_posted _ _ _⟩

theorem Served.fits {operation : Operation} {after : Scheduler}
    (served : Served operation scheduler events after) (moment : Moment) :
    ∀ event ∈ events, moment.Fits event := by
  cases served with
  | quietly quiet performs => exact List.forall_mem_nil _
  | delivered letters => exact fits_posted _ _ _
  | watched watcher present alive => exact List.forall_mem_singleton.mpr trivial

theorem fits_of_instructed {after : Scheduler}
    (instructed : scheduler.Instructed slot events after) (moment : Moment) :
    ∀ event ∈ events, moment.Fits event := by
  cases instructed with
  | alone | spawned => exact List.forall_mem_nil _
  | received => exact List.forall_mem_singleton.mpr trivial
  | invoked => exact fits_posted _ _ _

theorem Move.fits (moves : Move allowed moment events next) :
    ∀ event ∈ events, moment.Fits event := by
  cases moves with
  | serve permitted quiet performs => exact ((after_serve quiet).ok performs).fits _
  | refuse | tend => exact List.forall_mem_nil _
  | begin first => exact List.forall_mem_singleton.mpr ⟨rfl, first⟩
  | instruct steps => exact fits_of_instructed (.of_step steps) _
  | preempt | pause => exact List.forall_mem_singleton.mpr ⟨_, _, rfl⟩
  | finish => exact List.forall_mem_cons.mpr ⟨⟨_, _, rfl⟩, fits_departed _ _ _ _ _⟩
  | orphan => exact fits_departed _ _ _ _ _
  | close => exact fits_posted _ _ _

theorem Advance.fits (advances : Advance allowed moment events next) :
    ∀ event ∈ events, moment.Fits event := by
  cases advances with
  | move moves => exact moves.fits
  | meanwhile => exact List.forall_mem_nil _
  | settle stops stays settles =>
    obtain ⟨before, turn⟩ := stops.same.1
    exact List.forall_mem_singleton.mpr ⟨_, before, turn⟩

/-- Who has a turn was given it now, or had it before. -/
theorem Advance.turn (advances : Advance allowed moment events next)
    (turn : next.phase = .turn slot id stack) :
    .began slot ∈ events ∨ ∃ before, moment.phase = .turn slot id before := by
  cases advances with
  | move moves =>
    cases moves with
    | begin =>
      cases turn
      exact Or.inl List.mem_cons_self
    | instruct =>
      cases turn
      exact Or.inr ⟨_, rfl⟩
    | _ => exact absurd turn nofun
  | meanwhile => exact Or.inr ⟨_, turn⟩
  | settle => exact absurd turn nofun

/-! ### Nobody is overtaken -/

/-- The task at a place stands in the run queue, and another one does not stand in front of it. -/
def Ahead (slot other : Slot) (run : List Slot) : Prop :=
  ∃ before behind, run = before ++ slot :: behind ∧ other ∉ before

theorem Ahead.filter (ahead : Ahead slot other run) {gone : List Slot} (stays : slot ∉ gone)
    (joining : List Slot) : Ahead slot other (run.filter (· ∉ gone) ++ joining) := by
  obtain ⟨before, behind, rfl, absent⟩ := ahead
  refine ⟨before.filter (· ∉ gone), behind.filter (· ∉ gone) ++ joining, ?_, fun member =>
    absent (List.mem_of_mem_filter member)⟩
  simp [stays]

/-- Another one that is not in front of it is not the head. -/
theorem Ahead.head_ne (ahead : Ahead slot other run) (differ : slot ≠ other) :
    run.head? ≠ some other := by
  obtain ⟨before, behind, rfl, absent⟩ := ahead
  intro first
  cases before with
  | nil => exact differ (Option.some.inj first)
  | cons head rest => exact absent (by simp [Option.some.inj first])

/-- The task at a place waits for its turn, and another one does not come before it. -/
structure Awaits (slot other : Slot) (moment : Moment) : Prop where
  stands : ∃ run, moment.Ready run ∧ Ahead slot other run
  pending : ∀ {id stack}, moment.phase ≠ .turn slot id stack

/-- The task at a place has been given a turn, or has ended. -/
def Heeded (slot : Slot) (events : List Event) : Prop :=
  .began slot ∈ events ∨ ∃ id exit, .ended slot id exit ∈ events

theorem Heeded.of_left (heeded : Heeded slot events) : Heeded slot (events ++ more) :=
  heeded.imp (List.mem_append_left _) fun ⟨id, exit, ends⟩ =>
    ⟨id, exit, List.mem_append_left _ ends⟩

theorem Heeded.of_right (heeded : Heeded slot more) : Heeded slot (events ++ more) :=
  heeded.imp (List.mem_append_right _) fun ⟨id, exit, ends⟩ =>
    ⟨id, exit, List.mem_append_right _ ends⟩

/-- Who waits for its turn goes on waiting, unless it is given it or ends. -/
theorem Advance.awaits (advances : Advance allowed moment events next)
    (awaits : Awaits slot other moment) : Heeded slot events ∨ Awaits slot other next := by
  obtain ⟨⟨run, ready, ahead⟩, pending⟩ := awaits
  by_cases leaves : slot ∈ leavers events
  · obtain ⟨event, member, is⟩ := List.mem_filterMap.mp leaves
    cases event with
    | rested place =>
      obtain rfl := Option.some.inj is
      obtain ⟨id, stack, turn⟩ := advances.fits _ member
      exact absurd turn pending
    | ended place id exit =>
      obtain rfl := Option.some.inj is
      exact Or.inl (Or.inr ⟨id, exit, member⟩)
    | _ => exact absurd is nofun
  · by_cases begins : .began slot ∈ events
    · exact Or.inl (Or.inl begins)
    · obtain ⟨joining, readyNow, -⟩ := advances.follows ready
      refine Or.inr ⟨⟨_, readyNow, ahead.filter leaves joining⟩, fun turn => ?_⟩
      obtain ⟨before, had⟩ := (advances.turn turn).resolve_left begins
      exact pending had

theorem Course.awaits (course : Course allowed first events last)
    (awaits : Awaits slot other first) : Heeded slot events ∨ Awaits slot other last := by
  induction course with
  | none => exact Or.inr awaits
  | advance _ advances inductionHypothesis =>
    rcases inductionHypothesis with heeded | waits
    · exact Or.inl heeded.of_left
    · exact (advances.awaits waits).imp_left Heeded.of_right

/-- Who stands in the run queue when another one's turn is over waits for its own, and the other one
is not in front of it. -/
theorem Advance.awaits_of_rested (advances : Advance allowed moment events next)
    (ready : moment.Ready run) (rests : .rested other ∈ events) {task : Task}
    (present : next.session.scheduler.roster.task? slot = some task)
    (stands : task.lane = some .run) (differ : slot ≠ other) : Awaits slot other next := by
  obtain ⟨id, stack, turn⟩ := advances.fits _ rests
  obtain ⟨joining, readyNow, back⟩ := advances.follows ready
  refine ⟨⟨_, readyNow, ?_⟩, fun turnNow => ?_⟩
  · have member : slot ∈ run.filter (· ∉ leavers events) ++ joining := by
      obtain ⟨lists, threaded, is⟩ := readyNow.threaded
      rw [← is]
      exact (threaded.mem_iff present).mpr stands
    have kept : slot ∈ run.filter (· ∉ leavers events) :=
      (List.mem_append.mp member).resolve_right fun joined =>
        differ (List.mem_singleton.mp (back other rests joined))
    obtain ⟨before, behind, split⟩ := List.append_of_mem kept
    refine ⟨before, behind ++ joining, by rw [split]; simp, fun front => ?_⟩
    have stayed : other ∈ run.filter (· ∉ leavers events) :=
      split ▸ List.mem_append_left _ front
    have left : other ∈ leavers events := List.mem_filterMap.mpr ⟨_, rests, rfl⟩
    exact absurd left (by simpa using (List.mem_filter.mp stayed).2)
  · rcases advances.turn turnNow with begins | ⟨before, had⟩
    · have rested := (advances.fits _ begins).1
      rw [turn] at rested
      exact absurd rested nofun
    · rw [turn] at had
      cases had
      exact differ rfl

/-- Turns are first in, first out. -/
structure Fair (allowed : Session → Operation → Prop) (moment : Moment) : Prop where
  /-- During its turn a task is at the head of the run queue. -/
  head : ∀ {slot id stack}, moment.phase = .turn slot id stack →
    moment.session.scheduler.roster.run.head = some slot
  /-- It still is when its turn is over, so that it does not matter what would be done otherwise. -/
  settles : ∀ {slot id stack status scheduler}, moment.Stopped slot id stack status scheduler →
    scheduler.roster.run.head = some slot ∧ ∀ otherwise,
      Scheduler.settleOr otherwise slot id stack status scheduler =
        Scheduler.settle slot id stack status scheduler
  /-- Only the head is given a turn, when nobody has one. -/
  begins : ∀ {events next slot}, Advance allowed moment events next → .began slot ∈ events →
    moment.phase = .between ∧ moment.session.scheduler.roster.run.head = some slot
  /-- If a task stands in the run queue when the turn of another one is over, the other one gets no
  further turn before the task has had one or has ended. -/
  waits : ∀ {events more further middle last next slot other task},
    Advance allowed moment events middle → .rested other ∈ events →
      middle.session.scheduler.roster.task? slot = some task → task.lane = some .run →
        slot ≠ other → Course allowed middle more last → Advance allowed last further next →
          .began other ∈ further → Heeded slot more
  /-- Whatever the embedder asks for is done in moves. -/
  covers : moment.Covers allowed

theorem Ready.in_turn (ready : moment.Ready run) : moment.Fair allowed where
  head := fun turn => ready.head.trans (ready.turn turn)
  settles := fun {slot id stack status scheduler} stops => by
    obtain ⟨⟨before, turn⟩, same⟩ := stops.same
    have first : scheduler.roster.run.head = some slot := by
      rw [same]
      exact ready.head.trans (ready.turn turn)
    refine ⟨first, fun otherwise => ?_⟩
    rw [Scheduler.settle_eq]
    exact Scheduler.settleOr_of_head _ _ first id stack status
  begins := fun advances begins => advances.fits _ begins
  waits := fun {_ _ _ middle last _ slot other _} advances rests present stands differ course again
      begins => by
    have awaits := advances.awaits_of_rested ready rests present stands differ
    refine (course.awaits awaits).resolve_right fun waits => ?_
    obtain ⟨⟨run, ready, ahead⟩, -⟩ := waits
    exact ahead.head_ne differ (ready.head.symm.trans (again.fits _ begins).2)
  covers := moment.covers allowed

/-- Turns are first in, first out, at every moment of every session. -/
theorem Course.fair {config : Config} {patience : Nat} {respond : List Notice → List Letter}
    (course : Course allowed (start config patience respond) events moment) :
    moment.Fair allowed := by
  obtain ⟨run, ready⟩ := course.ready ⟨[], ready_start config patience respond⟩
  exact ready.in_turn

/-! ### Two tasks that take turns -/

/-- A program that gives up its turn. -/
def yielding : Function := { (default : Function) with code := #[Instruction.yieldNow] }

/-- Its stack when it has given up its turn. -/
def yielded : Stack := ⟨{ Frame.entering yielding [] none with pc := 1 }, []⟩

/-- Two tasks run it. -/
def sharing : Session :=
  ((Session.start .standard 0 fun _ => []).continued (.spawn yielding none)).continued
    (.spawn yielding none)

/-- The first of them has given up its turn. -/
def passed : Session :=
  { sharing with
    scheduler := stateAfter (Scheduler.settle 0 ⟨1⟩ yielded .yielded) (sharing.scheduler.manned 0) }

/-- And so has the second. -/
def returned : Session :=
  { passed with
    scheduler := stateAfter (Scheduler.settle 1 ⟨2⟩ yielded .yielded) (passed.scheduler.manned 1) }

/-- The first one has its turn. -/
def sharingTurn : Moment :=
  moved sharing (sharing.scheduler.manned 0) (.turn 0 ⟨1⟩ (.entering yielding))

theorem course_sharingTurn : Course (fun _ _ => True) (start .standard 0 fun _ => []) [.began 0]
    sharingTurn := by
  have present : sharing.scheduler.roster.task? 0 = some _ := rfl
  have begins : Move (fun _ _ => True) ⟨sharing, .between⟩ [.began 0] sharingTurn :=
    .begin rfl rfl present rfl
  exact Runs.course (.move (.move
    (.move .none (.continued _ (.spawn yielding none) trivial rfl rfl))
    (.continued ((Session.start .standard 0 fun _ => []).continued (.spawn yielding none))
      (.spawn yielding none) trivial rfl rfl)) begins)

/-- The second one has its turn, and gives it up. -/
theorem course_returned : Course (fun _ _ => True) ⟨passed, .between⟩ [.began 1, .rested 1]
    ⟨returned, .between⟩ := by
  have present : passed.scheduler.roster.task? 1 = some _ := rfl
  have begins : Move (fun _ _ => True) ⟨passed, .between⟩ [.began 1]
      (moved passed (passed.scheduler.manned 1) (.turn 1 ⟨2⟩ (.entering yielding))) :=
    .begin rfl rfl present rfl
  have steps : (Stack.entering yielding).step (hostFor 1) (passed.scheduler.manned 1) =
    .ok (.stop yielded .yielded) (passed.scheduler.manned 1) := rfl
  have settles : Scheduler.settle 1 ⟨2⟩ yielded .yielded (passed.scheduler.manned 1) =
    .ok ⟨⟩ returned.scheduler := rfl
  exact Runs.course (.move (.move .none begins) (.pause steps rfl settles))

theorem sharingTurn_fair : (sharing.scheduler.manned 0).roster.run.head = some 0 ∧
    Heeded 1 [.began 1, .rested 1] := by
  have steps : (Stack.entering yielding).step (hostFor 0) (sharing.scheduler.manned 0) =
    .ok (.stop yielded .yielded) (sharing.scheduler.manned 0) := rfl
  have settles : Scheduler.settle 0 ⟨1⟩ yielded .yielded (sharing.scheduler.manned 0) =
    .ok ⟨⟩ passed.scheduler := rfl
  have waiting : passed.scheduler.roster.task? 1 = some _ := rfl
  have present : returned.scheduler.roster.task? 0 = some _ := rfl
  have again : Move (fun _ _ => True) ⟨returned, .between⟩ [.began 0]
      (moved returned (returned.scheduler.manned 0) (.turn 0 ⟨1⟩ yielded)) :=
    .begin rfl rfl present rfl
  have rests : Move (fun _ _ => True) sharingTurn [.rested 0] ⟨passed, .between⟩ :=
    .pause steps rfl settles
  exact ⟨course_sharingTurn.fair.head rfl, course_sharingTurn.fair.waits (.move rests)
    List.mem_cons_self waiting rfl (by decide) course_returned (.move again) List.mem_cons_self⟩

end Moment

end TaskMachine
