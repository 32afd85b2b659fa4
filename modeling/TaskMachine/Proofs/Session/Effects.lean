/-
What a move does to a scheduler. Whatever the embedder asks for is done quietly,
or sends letters, or has a watcher accepted. An instruction changes nothing, or
starts a child, takes a message, or sends letters. A task that ends leaves its
queue and becomes a zombie, and letters are sent; and what is left of the ending
sends one letter at most. That is said here once, for the histories that speak of
letters, turns and endings.
-/

import TaskMachine.Proofs.Scheduler.Quiet
import TaskMachine.Proofs.Session.Moments

namespace TaskMachine

namespace Mailroom

theorem deliver_append (room : Mailroom) (letters more : List Letter) :
    room.deliver (letters ++ more) = (room.deliver letters).deliver more :=
  List.foldl_append

end Mailroom

namespace Scheduler

variable {scheduler next : Scheduler} {slot : Slot} {id : TaskId} {task : Task} {exit : Exit}

/-! ### Letters -/

theorem post_eq (scheduler : Scheduler) (mailbox : Mailbox) (message : Message) :
    post mailbox message scheduler =
      .ok ⟨⟩ { scheduler with mailroom := scheduler.mailroom.send mailbox message } := rfl

theorem postAll_eq (scheduler : Scheduler) (letters : List Letter) :
    (letters.forM fun letter => post letter.mailbox letter.message) scheduler =
      .ok ⟨⟩ { scheduler with mailroom := scheduler.mailroom.deliver letters } := by
  induction letters generalizing scheduler with
  | nil => rfl
  | cons letter rest inductionHypothesis =>
    exact inductionHypothesis
      { scheduler with mailroom := scheduler.mailroom.send letter.mailbox letter.message }

theorem notify_eq (scheduler : Scheduler) (notice : Notice) :
    notify notice scheduler = .ok ⟨⟩ { scheduler with
      notices := notice :: scheduler.notices
      mailroom := scheduler.mailroom.deliver (scheduler.respond (notice :: scheduler.notices)) } :=
  postAll_eq { scheduler with notices := notice :: scheduler.notices } _

/-- The notices to the watchers of a task, in order. -/
def farewells (task : Task) (exit : Exit) : List Notice :=
  task.watchers.map fun watcher => .ended watcher task.id exit

theorem tellAll_eq (scheduler : Scheduler) (watchers : List Nat) (id : TaskId) (exit : Exit) :
    (watchers.forM fun watcher => notify (.ended watcher id exit)) scheduler =
      .ok ⟨⟩ { scheduler with
        notices := (watchers.map fun watcher => .ended watcher id exit).reverse ++ scheduler.notices
        mailroom := scheduler.mailroom.deliver (responses scheduler.respond scheduler.notices
          (watchers.map fun watcher => .ended watcher id exit)) } := by
  induction watchers generalizing scheduler with
  | nil => rfl
  | cons watcher rest inductionHypothesis =>
    show (notify (.ended watcher id exit) >>= fun _ =>
      rest.forM fun watcher => notify (.ended watcher id exit)) scheduler = _
    rw [bind_apply, notify_eq]
    simp only
    rw [inductionHypothesis]
    simp [responses, Mailroom.deliver_append]

/-! ### Endings -/

/-- A task has left its queue and become a zombie, and its watchers were told. -/
structure Departing (scheduler : Scheduler) (slot : Slot) (exit : Exit) (task : Task)
    (next : Scheduler) : Prop where
  out : ∃ left, leaveLane slot scheduler = .ok ⟨⟩ { scheduler with roster := left } ∧
    left.task? slot = some task ∧ next.roster = left.alter slot Task.ended
  notices : next.notices = (farewells task exit).reverse ++ scheduler.notices
  respond : next.respond = scheduler.respond
  mailroom : next.mailroom = scheduler.mailroom.deliver
    (responses scheduler.respond scheduler.notices (farewells task exit))
  registry : next.registry = scheduler.registry
  nextId : next.nextId = scheduler.nextId
  config : next.config = scheduler.config
  oneShot : scheduler.agenda.OneShot → next.agenda.OneShot

theorem after_leaveLane (slot : Slot) (scheduler : Scheduler) :
    After (leaveLane slot) scheduler
      (fun _ next => ∃ left, next = { scheduler with roster := left }) fun _ _ => True := by
  refine After.bind (after_onRoster (Roster.after_fetch (fun task _ => ?_) fun _ => trivial))
  cases task.lane with
  | none => exact After.pure ⟨scheduler.roster, rfl⟩
  | some lane =>
    exact after_onRoster (After.known.mono (fun _ left _ => ⟨left, rfl⟩) fun _ _ _ => trivial)

theorem after_depart (slot : Slot) (exit : Exit) (scheduler : Scheduler) :
    After (depart slot exit) scheduler (scheduler.Departing slot exit) fun _ _ => True := by
  refine After.bind (((after_leaveLane slot scheduler).and After.known).mono
    (fun _ middle found => ?_) fun _ _ _ => trivial)
  obtain ⟨⟨left, rfl⟩, leaves⟩ := found
  refine After.bind (after_onRoster (Roster.after_fetch (fun task present => ?_) fun _ => trivial))
  have tells {agenda : Agenda} (oneShot : scheduler.agenda.OneShot → agenda.OneShot)
      (deathsPending : Bool) : After (do
        task.watchers.forM fun watcher => notify (.ended watcher task.id exit)
        pure task)
        { scheduler with roster := left.alter slot Task.ended, agenda, deathsPending }
        (scheduler.Departing slot exit) fun _ _ => True :=
    After.bind (After.of_ok (tellAll_eq _ _ _ _)
      (After.pure ⟨⟨left, leaves, present, rfl⟩, rfl, rfl, rfl, rfl, rfl, rfl, oneShot⟩))
  have buries {agenda : Agenda} (oneShot : scheduler.agenda.OneShot → agenda.OneShot) :
      After (do
        update slot fun task =>
          { task with awaited := none, stack := none, life := .zombie, watchers := [] }
        if 1 < task.references then
          modify fun scheduler => { scheduler with deathsPending := true }
        task.watchers.forM fun watcher => notify (.ended watcher task.id exit)
        pure task) { scheduler with roster := left, agenda }
        (scheduler.Departing slot exit) fun _ _ => True := by
    refine After.bind (after_update present ?_)
    split
    · exact After.bind (After.modify (tells oneShot true))
    · exact tells oneShot scheduler.deathsPending
  cases awaits : task.awaited with
  | none => exact buries fun oneShot => oneShot
  | some awaited =>
    cases awaited with
    | message => exact buries fun oneShot => oneShot
    | timer timer => exact After.bind (After.modify (buries fun oneShot => oneShot.cancel timer))

/-- The report is the only letter that is sent when the watchers were told. -/
theorem after_report (task : Task) (exit : Exit) (scheduler : Scheduler) :
    After (reportExit task.id task.parent exit) scheduler
      (fun _ next => (∃ found, scheduler.roster.nearestLiving task.parent = .ok found) ∧
        next = { scheduler with
          mailroom := scheduler.mailroom.deliver (scheduler.roster.exitReport task exit) })
      fun _ _ => True := by
  refine After.bind (after_reading_any (fun ancestor finds => ?_) fun _ => trivial)
  rw [Roster.exitReport, finds]
  cases ancestor with
  | none => exact After.pure ⟨⟨none, rfl⟩, rfl⟩
  | some ancestor =>
    simp only
    split
    · exact After.of_ok (post_eq _ _ _) ⟨⟨some ancestor, rfl⟩, rfl⟩
    · exact After.pure ⟨⟨some ancestor, rfl⟩, rfl⟩

/-! ### Instructions -/

/-- What an instruction does after which the execution goes on, and what happens by it. -/
inductive Instructed (scheduler : Scheduler) (slot : Slot) :
    List Moment.Event → Scheduler → Prop
  | alone : Instructed scheduler slot [] scheduler
  | spawned {function : Function} {child : TaskId} {next : Scheduler}
      (spawns : spawnChild function slot scheduler = .ok child next) :
      Instructed scheduler slot [] next
  | received {task : Task} {message : Message} {room : Mailroom}
      (present : scheduler.roster.task? slot = some task)
      (takes : scheduler.mailroom.receive task.mailbox = (room, some message)) :
      Instructed scheduler slot [.stored slot task.mailbox message.value]
        { scheduler with mailroom := room }
  | invoked (hook : Hook) (id : TaskId) (run wait : List TaskId) (stack : Stack) :
      Instructed scheduler slot
        (Moment.posted scheduler.mailroom
          (scheduler.respond (.invoked hook id run wait stack :: scheduler.notices)))
        { scheduler with
          notices := .invoked hook id run wait stack :: scheduler.notices
          mailroom := scheduler.mailroom.deliver
            (scheduler.respond (.invoked hook id run wait stack :: scheduler.notices)) }

/-- What an instruction does after which the execution stops: nothing, or it has looked for a
message in vain. -/
def Halted (scheduler : Scheduler) (slot : Slot) (stack next : Stack) (status : Status)
    (after : Scheduler) : Prop :=
  after = scheduler ∧ status ≠ .suspended .message ∨ next = stack ∧ status = .suspended .message ∧
    ∃ task, scheduler.roster.task? slot = some task ∧
      (scheduler.mailroom.receive task.mailbox).2 = none ∧
      after = { scheduler with mailroom := (scheduler.mailroom.receive task.mailbox).1 }

theorem after_receiveFor (slot : Slot) (scheduler : Scheduler) :
    After (receiveFor slot) scheduler
      (fun value next => ∃ task, scheduler.roster.task? slot = some task ∧
        value = (scheduler.mailroom.receive task.mailbox).2.map Message.value ∧
        next = { scheduler with mailroom := (scheduler.mailroom.receive task.mailbox).1 })
      fun _ _ => True := by
  refine After.bind (after_onRoster (Roster.after_fetch (fun task present => ?_) fun _ => trivial))
  exact After.bind (After.modifyGet (After.pure ⟨task, present, rfl, rfl⟩))

theorem after_invokeFor (slot : Slot) (hook : Hook) (stack : Stack) (scheduler : Scheduler) :
    After (invokeFor slot hook stack) scheduler
      (fun _ next => ∃ id run wait,
        notify (.invoked hook id run wait stack) scheduler = .ok ⟨⟩ next)
      fun _ _ => True := by
  refine After.bind (after_reading_any (fun run _ => ?_) fun _ => trivial)
  refine After.bind (after_reading_any (fun wait _ => ?_) fun _ => trivial)
  refine After.bind (after_onRoster (Roster.after_fetch (fun task _ => ?_) fun _ => trivial))
  exact After.known.mono (fun _ _ notifies => ⟨task.id, run, wait, notifies⟩) fun _ _ _ => trivial

theorem after_instruction (slot : Slot) (stack : Stack) (scheduler : Scheduler) :
    After (stack.step (hostFor slot)) scheduler
      (fun progress after => match progress with
        | .proceed next _ => scheduler.Instructed slot
            (Moment.instructed slot stack next scheduler after) after
        | .stop next status => scheduler.Halted slot stack next status after)
      fun _ _ => True := by
  unfold Stack.step Moment.instructed
  cases acts : stack.act with
  | proceed next cost => exact After.pure .alone
  | stop next status => exact After.pure (Or.inl ⟨rfl, Stack.act_stop acts⟩)
  | spawn next function destination =>
    exact After.bind (After.known.mono (fun _ _ spawns => After.pure (.spawned spawns))
      fun _ _ _ => trivial)
  | receive next destination =>
    refine After.bind ((after_receiveFor slot scheduler).imp fun value middle received => ?_)
    obtain ⟨task, present, rfl, rfl⟩ := received
    cases takes : scheduler.mailroom.receive task.mailbox with
    | mk room message =>
      cases message with
      | none => exact After.pure (Or.inr ⟨rfl, rfl, task, present, by rw [takes], by rw [takes]⟩)
      | some message =>
        refine After.pure ?_
        have stored : (next.keep destination message.value).top.registers.get destination =
            message.value := Vector.getElem_set_self _
        simp only [present, stored]
        exact .received present takes
  | invoke next hook =>
    refine After.bind ((after_invokeFor slot hook next scheduler).imp fun _ middle invoked => ?_)
    obtain ⟨id, run, wait, notifies⟩ := invoked
    rw [notify_eq] at notifies
    cases notifies
    exact After.pure (.invoked hook id run wait next)

theorem Instructed.of_step {stack next : Stack} {cost : Nat} {after : Scheduler}
    (steps : stack.step (hostFor slot) scheduler = .ok (.proceed next cost) after) :
    scheduler.Instructed slot (Moment.instructed slot stack next scheduler after) after :=
  (after_instruction slot stack scheduler).ok steps

theorem Halted.of_step {stack next : Stack} {status : Status} {after : Scheduler}
    (steps : stack.step (hostFor slot) scheduler = .ok (.stop next status) after) :
    scheduler.Halted slot stack next status after :=
  (after_instruction slot stack scheduler).ok steps

theorem Halted.roster {stack next : Stack} {status : Status} {after : Scheduler}
    (halted : scheduler.Halted slot stack next status after) : after.roster = scheduler.roster := by
  rcases halted with ⟨rfl, -⟩ | ⟨-, -, _, -, -, rfl⟩ <;> rfl

end Scheduler

/-! ### Requests -/

/-- Whether an operation gives no turns, sends nothing and asks for no notices. -/
def Operation.isQuiet : Operation → Bool
  | .send _ _ _ | .post _ _ | .watch _ _ => false
  | operation => !operation.givesTurns

theorem Operation.guards_perform {good : Roster → Prop} {origin : Scheduler}
    (sedate : Roster.Sedate good) {operation : Operation} (quiet : operation.isQuiet = true) :
    Scheduler.Guards (Scheduler.Quiet good origin) operation.perform := by
  have drops {Result : Type} {part : Scheduling Result}
      (guards : Scheduler.Guards (Scheduler.Quiet good origin) part) :
      Scheduler.Guards (Scheduler.Quiet good origin) (do let _ ← part) :=
    guards.bind fun _ => .pure ()
  have peaceful := sedate.toPeaceful
  cases operation with
  | createTask function parent => exact drops (Scheduler.guards_createTask peaceful function parent)
  | spawn function parent => exact drops (Scheduler.guards_spawn peaceful function parent)
  | takeId => exact drops Scheduler.guards_takeId
  | openInbox owner => exact drops (Scheduler.guards_openInbox owner)
  | insertTask id function parent mailbox =>
    exact Scheduler.guards_insertTask peaceful id function parent mailbox
  | schedule id => exact Scheduler.guards_schedule peaceful id
  | setFlags id flags => exact Scheduler.guards_setFlags peaceful id flags
  | retain id => exact Scheduler.guards_retain peaceful id
  | release id => exact Scheduler.guards_release sedate id
  | wake id => exact Scheduler.guards_wake id
  | unpark => exact Scheduler.guards_unpark
  | park => exact drops Scheduler.guards_takeToken
  | advanceClock duration => exact Scheduler.guards_modify fun _ => ⟨rfl, rfl, rfl, rfl⟩
  | wait => exact Scheduler.guards_wait sedate
  | rest => exact Scheduler.guards_rest sedate
  | send | post | watch | step | tick | run => exact absurd quiet nofun

theorem Moment.Chore.guards_perform {good : Roster → Prop} {origin : Scheduler}
    (sedate : Roster.Sedate good) (chore : Chore) :
    Scheduler.Guards (Scheduler.Quiet good origin) chore.perform := by
  cases chore with
  | wake => exact Scheduler.guards_wakeWoken sedate
  | poll => exact Scheduler.guards_pollTimers sedate
  | rest => exact Scheduler.guards_rest sedate
  | calm => exact Scheduler.guards_modify fun _ => ⟨rfl, rfl, rfl, rfl⟩

namespace Moment

variable {scheduler next : Scheduler} {operation : Operation} {crash : Crash}

/-- What comes of what the embedder asks for. -/
inductive Served (operation : Operation) (scheduler : Scheduler) :
    List Event → Scheduler → Prop
  | quietly {next : Scheduler} (quiet : operation.isQuiet = true)
      (performs : operation.perform scheduler = .ok ⟨⟩ next) : Served operation scheduler [] next
  | delivered (letters : List Letter) :
      Served operation scheduler (posted scheduler.mailroom letters)
        { scheduler with mailroom := scheduler.mailroom.deliver letters }
  | watched {slot : Slot} {task : Task} (watcher : Nat)
      (present : scheduler.roster.task? slot = some task) (alive : task.life = .alive) :
      Served operation scheduler [.watched slot watcher]
        { scheduler with
          roster := scheduler.roster.alter slot fun task =>
            { task with watchers := task.watchers ++ [watcher] } }

theorem Served.nothing : Served operation scheduler [] scheduler := .delivered []

theorem after_watch (id : TaskId) (watcher : Nat) (scheduler : Scheduler) :
    After (Scheduler.watch id watcher) scheduler
      (fun accepted next => accepted = false ∧ next = scheduler ∨
        accepted = true ∧ ∃ slot task, scheduler.registry.find? id = some slot ∧
          scheduler.roster.task? slot = some task ∧ task.life = .alive ∧
          next = { scheduler with
            roster := scheduler.roster.alter slot fun task =>
              { task with watchers := task.watchers ++ [watcher] } })
      fun _ _ => False := by
  refine After.bind (After.get ?_)
  cases known : scheduler.registry.find? id with
  | none => exact After.pure (Or.inl ⟨rfl, rfl⟩)
  | some slot =>
    refine After.bind (After.get ?_)
    cases present : scheduler.roster.task? slot with
    | none => exact After.pure (Or.inl ⟨rfl, rfl⟩)
    | some task =>
      cases life : task.life with
      | zombie =>
        simp only [life]
        exact After.pure (Or.inl ⟨rfl, rfl⟩)
      | alive =>
        simp only [life]
        exact After.bind (Scheduler.after_update present
          (After.pure (Or.inr ⟨rfl, slot, task, rfl, present, life, rfl⟩)))

theorem after_serve (quiet : operation.givesTurns = false) :
    After operation.perform scheduler
      (fun _ => Served operation scheduler (asked scheduler operation))
      fun _ _ => operation.isQuiet = true := by
  have asks (same : asked scheduler operation = []) (quiet : operation.isQuiet = true) :
      After operation.perform scheduler
        (fun _ => Served operation scheduler (asked scheduler operation))
        fun _ _ => operation.isQuiet = true := by
    rw [same]
    exact After.known.mono (fun _ _ performs => .quietly quiet performs) fun _ _ _ => quiet
  cases operation with
  | send id value sender =>
    refine After.bind (After.bind (After.get ?_))
    rw [asked]
    cases scheduler.mailbox? id with
    | none => exact After.pure (After.pure .nothing)
    | some mailbox =>
      exact After.bind (After.of_ok (Scheduler.post_eq _ _ _)
        (After.pure (After.pure (.delivered [⟨mailbox, value, sender⟩]))))
  | post mailbox message =>
    exact After.of_ok (Scheduler.post_eq _ _ _) (.delivered [⟨mailbox, message⟩])
  | watch id watcher =>
    refine After.bind ((After.known.and (after_watch id watcher scheduler)).mono
      (fun accepted next found => ?_) fun _ _ fails => fails.2.elim)
    obtain ⟨watches, found⟩ := found
    have answers : answer? (Scheduler.watch id watcher) scheduler = some accepted := by
      rw [answer?, watches]
    rw [asked, answers]
    rcases found with ⟨rfl, rfl⟩ | ⟨rfl, slot, task, known, present, alive, rfl⟩
    · refine After.pure ?_
      cases next.registry.find? id <;> exact .nothing
    · rw [known]
      exact After.pure (.watched watcher present alive)
  | step | tick | run => cases quiet
  | _ => exact asks rfl rfl

end Moment
end TaskMachine
