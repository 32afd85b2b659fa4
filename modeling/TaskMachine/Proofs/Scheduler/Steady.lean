/-
What is kept where nobody begins or stops to wait. Operations are made of few
kinds of changes: tasks are put in other places, one of them changes or comes, a
number is handed out, a message is sent or taken. What is `Steady` under these
is kept by every operation that leaves the timers and the time alone, moves no
task out of the wait queue or into it, and ends none, whether it breaks off or
not. The other operations are in `Preserved`.
-/

import TaskMachine.Proofs.Execution.Charges
import TaskMachine.Proofs.Roster.Frames
import TaskMachine.Proofs.Scheduler.Parts
import TaskMachine.Scheduler.Tick

namespace TaskMachine

/-- A task may have been given a reference. -/
def Roster.Lent (before after : Roster) : Prop :=
  after = before ∨ ∃ slot, after = before.alter slot fun task =>
    { task with references := task.references + 1 }

namespace Scheduler

/-- The tasks, the timers, the numbers, the inboxes, the woken tasks and the token are the same, and
the embedder was told of nothing or of more. -/
structure Beside (scheduler next : Scheduler) : Prop where
  roster : next.roster = scheduler.roster
  registry : next.registry = scheduler.registry
  agenda : next.agenda = scheduler.agenda
  clock : next.clock = scheduler.clock
  nextId : next.nextId = scheduler.nextId
  inboxes : next.mailroom.inboxes = scheduler.mailroom.inboxes
  woken : next.mailroom.woken = scheduler.mailroom.woken
  token : next.mailroom.token = scheduler.mailroom.token
  told : ∃ recent, next.notices = recent ++ scheduler.notices

/-- A task with a given number is among the others. -/
def entered (scheduler : Scheduler) (id : TaskId) (function : Function) (parent : Option Slot)
    (mailbox : Mailbox) : Scheduler :=
  { scheduler with
    roster := { scheduler.roster with
      tasks := scheduler.roster.tasks.push (some (.created id function parent mailbox)) }
    registry := scheduler.registry.insert id scheduler.roster.tasks.size }

/-- What is kept by every change after which each task waits for what it waited for. -/
structure Steady (kept : Scheduler → Prop) : Prop where
  beside : ∀ {scheduler next : Scheduler}, kept scheduler → scheduler.Beside next → kept next
  opens : ∀ {scheduler : Scheduler} (owner : TaskId), kept scheduler →
    kept { scheduler with mailroom := (scheduler.mailroom.addInbox owner).1 }
  sends : ∀ {scheduler : Scheduler} (mailbox : Mailbox) (message : Message), kept scheduler →
    kept { scheduler with mailroom := scheduler.mailroom.send mailbox message }
  receives : ∀ {scheduler : Scheduler} (mailbox : Mailbox), kept scheduler →
    kept { scheduler with mailroom := (scheduler.mailroom.receive mailbox).1 }
  wakes : ∀ {scheduler : Scheduler} (id : TaskId), kept scheduler →
    kept { scheduler with mailroom := scheduler.mailroom.wake id }
  arrange : ∀ {scheduler : Scheduler} {roster : Roster}, kept scheduler →
    Roster.SameTasks scheduler.roster roster → kept { scheduler with roster }
  /-- A change of a task that does not come to life by it. -/
  alter : ∀ {scheduler : Scheduler} (slot : Slot) {change : Task → Task}, kept scheduler →
    (∀ task, (change task).id = task.id) → (∀ task, (change task).mailbox = task.mailbox) →
    (∀ task, (change task).awaited = task.awaited) →
    (∀ task, task.life = .zombie → (change task).life = .zombie) →
    kept { scheduler with roster := scheduler.roster.alter slot change }
  number : ∀ {scheduler : Scheduler}, kept scheduler →
    kept { scheduler with nextId := scheduler.nextId.next }
  /-- A task comes under the next number, with an inbox that is opened for it. -/
  born : ∀ {scheduler : Scheduler} (function : Function) (parent : Option Slot),
    kept scheduler → kept
      { scheduler.entered scheduler.nextId function parent
          (scheduler.mailroom.addInbox scheduler.nextId).2 with
        nextId := scheduler.nextId.next
        mailroom := (scheduler.mailroom.addInbox scheduler.nextId).1 }

/-- What does not depend on whether the thread has its token. -/
def Tokenless (kept : Scheduler → Prop) : Prop :=
  ∀ (scheduler : Scheduler) (token : Bool), kept scheduler →
    kept { scheduler with mailroom := { scheduler.mailroom with token } }

section

variable {Result Other : Type} {kept : Scheduler → Prop} {broken : Prop} {scheduler : Scheduler}

/-! ### Operations put together -/

/-- An operation keeps something. If it breaks off, this is said in a given case only. -/
def Preserves (kept : Scheduler → Prop) (broken : Prop) (operation : Scheduling Result) : Prop :=
  ∀ scheduler, kept scheduler →
    After operation scheduler (fun _ => kept) fun _ next => broken → kept next

namespace Preserves

theorem bind {operation : Scheduling Result} {next : Result → Scheduling Other}
    (first : Preserves kept broken operation)
    (second : ∀ result, Preserves kept broken (next result)) :
    Preserves kept broken (operation >>= next) :=
  fun scheduler holds =>
    (first scheduler holds).andThen fun result middle => second result middle

theorem pure (result : Result) : Preserves kept broken (pure result) :=
  fun _ holds => After.pure holds

theorem throw (crash : Crash) : Preserves kept broken (throw crash : Scheduling Result) :=
  fun _ holds => After.throw fun _ => holds

theorem get : Preserves kept broken (get : Scheduling Scheduler) :=
  fun _ holds => After.get holds

theorem forM {Item : Type} (items : List Item) {operation : Item → Scheduling PUnit}
    (each : ∀ item, Preserves kept broken (operation item)) :
    Preserves kept broken (items.forM operation) :=
  fun _ holds => After.forM (fun item _ => each item) holds

theorem reading (read : Scheduler → Except Crash Result) :
    Preserves kept broken (reading read) := by
  refine get.bind fun scheduler => ?_
  cases read scheduler with
  | ok result => exact pure result
  | error crash => exact throw crash

theorem fetch (slot : Slot) : Preserves kept broken (fetch slot) :=
  fun _ holds => after_onRoster (Roster.after_fetch (fun _ _ => holds) fun _ _ => holds)

theorem slotOf (id : TaskId) : Preserves kept broken (slotOf id) :=
  fun _ holds => after_slotOf (fun _ _ => holds) fun _ _ => holds

end Preserves

theorem Tokenless.preserves_unpark (tokenless : Tokenless kept) : Preserves kept broken unpark :=
  fun scheduler holds => After.modifyGet (tokenless scheduler true holds)

theorem Tokenless.preserves_takeToken (tokenless : Tokenless kept) :
    Preserves kept broken takeToken :=
  fun scheduler holds => After.modifyGet (tokenless scheduler false holds)

namespace Steady

variable (steady : Steady kept)

include steady

/-! ### Single changes -/

theorem preserves_modify {change : Scheduler → Scheduler}
    (beside : ∀ scheduler : Scheduler, scheduler.Beside (change scheduler)) :
    Preserves kept broken (modify change) :=
  fun scheduler holds => After.modify (steady.beside holds (beside scheduler))

theorem preserves_update (slot : Slot) {change : Task → Task}
    (id : ∀ task, (change task).id = task.id)
    (mailbox : ∀ task, (change task).mailbox = task.mailbox)
    (awaited : ∀ task, (change task).awaited = task.awaited)
    (life : ∀ task, task.life = .zombie → (change task).life = .zombie) :
    Preserves kept broken (update slot change) := by
  intro scheduler holds
  refine after_onRoster ((Roster.after_update change).mono (fun _ roster is => ?_)
    fun _ roster is _ => ?_)
  · rw [is]
    exact steady.alter slot holds id mailbox awaited life
  · rw [is]
    exact holds

/-- A change of the queues. -/
theorem preserves_onRoster {change : Rostering Result} (same : ∀ roster : Roster,
    After change roster (fun _ next => roster.SameTasks next) fun _ next => roster.SameTasks next) :
    Preserves kept broken (onRoster change) :=
  fun scheduler holds => after_onRoster ((same scheduler.roster).mono
    (fun _ _ same => steady.arrange holds same) fun _ _ same _ => steady.arrange holds same)

theorem preserves_pushTail (lane : Lane) (slot : Slot) :
    Preserves kept broken (onRoster (Roster.pushTail lane slot)) :=
  steady.preserves_onRoster fun roster => roster.after_pushTail lane slot

theorem preserves_remove (lane : Lane) (slot : Slot) :
    Preserves kept broken (onRoster (Roster.remove lane slot)) :=
  steady.preserves_onRoster fun roster => roster.after_remove lane slot

/-! ### Messages -/

theorem preserves_takeId : Preserves kept broken takeId :=
  fun _ holds => After.modifyGet (steady.number holds)

theorem preserves_openInbox (owner : TaskId) : Preserves kept broken (openInbox owner) :=
  fun _ holds => After.modifyGet (steady.opens owner holds)

theorem preserves_post (mailbox : Mailbox) (message : Message) :
    Preserves kept broken (post mailbox message) :=
  fun _ holds => After.modifyGet (steady.sends mailbox message holds)

theorem preserves_wake (id : TaskId) : Preserves kept broken (wake id) :=
  fun _ holds => After.modifyGet (steady.wakes id holds)

theorem preserves_send (id : TaskId) (value : Value) (sender : Option TaskId) :
    Preserves kept broken (send id value sender) := by
  refine Preserves.get.bind fun scheduler => ?_
  cases scheduler.mailbox? id with
  | none => exact .pure false
  | some mailbox => exact (steady.preserves_post mailbox _).bind fun _ => .pure true

theorem preserves_notify (notice : Notice) : Preserves kept broken (notify notice) := by
  have notes : Preserves kept broken
      (modify fun scheduler => { scheduler with notices := notice :: scheduler.notices }) :=
    steady.preserves_modify fun _ => ⟨rfl, rfl, rfl, rfl, rfl, rfl, rfl, rfl, [notice], rfl⟩
  refine notes.bind fun _ => Preserves.get.bind fun scheduler => ?_
  exact .forM _ fun letter => steady.preserves_post letter.mailbox letter.message

/-! ### How tasks come -/

theorem lends {roster : Roster} (holds : kept scheduler) (lent : scheduler.roster.Lent roster) :
    kept { scheduler with roster } := by
  rcases lent with rfl | ⟨slot, rfl⟩
  · exact holds
  · exact steady.alter slot holds (fun _ => rfl) (fun _ => rfl) (fun _ => rfl)
      fun _ ended => ended

omit steady in
/-- A task comes, whether its parent is given a reference before or it has none. -/
theorem after_insert {id : TaskId} {function : Function} {parent : Option Slot} {mailbox : Mailbox}
    (holds : kept scheduler)
    (enters : ∀ roster, scheduler.roster.Lent roster →
      kept (({ scheduler with roster } : Scheduler).entered id function parent mailbox)) :
    After (insert id function parent mailbox) scheduler (fun _ => kept)
      fun _ next => broken → kept next := by
  have adds (roster : Roster) (lent : scheduler.roster.Lent roster) :
      After (do
        let slot ← onRoster (Roster.add (.created id function parent mailbox))
        modify fun scheduler => { scheduler with registry := scheduler.registry.insert id slot }
        pure slot) { scheduler with roster } (fun _ => kept) fun _ next => broken → kept next :=
    After.bind (after_onRoster (After.of_ok (Roster.add_eq _ _)
      (After.bind (After.modify (After.pure (enters roster lent))))))
  cases parent with
  | none => exact adds scheduler.roster (Or.inl rfl)
  | some parent =>
    refine After.bind (after_onRoster ((Roster.after_update _).mono (fun _ roster is => ?_)
      fun _ roster is _ => ?_))
    · exact adds roster (Or.inr ⟨parent, is⟩)
    · rw [is]
      exact holds

omit steady in
/-- A task comes under a number that is not in use. -/
theorem after_insertTask {id : TaskId} {function : Function} {parent : Option TaskId}
    {mailbox : Mailbox} (holds : kept scheduler)
    (enters : ∀ parent roster, scheduler.registry.find? id = none → scheduler.roster.Lent roster →
      kept (({ scheduler with roster } : Scheduler).entered id function parent mailbox)) :
    After (insertTask id function parent mailbox) scheduler (fun _ => kept)
      fun _ next => broken → kept next := by
  refine After.bind (After.get ?_)
  cases known : scheduler.registry.find? id with
  | some slot =>
    simp only [Table.contains, known]
    exact After.throw fun _ => holds
  | none =>
    simp only [Table.contains, known, Option.isSome_none, Bool.false_eq_true, if_false]
    have inserts (parent : Option Slot) : After (do
        let _ ← insert id function parent mailbox
        pure ()) scheduler (fun _ => kept) fun _ next => broken → kept next :=
      After.bind ((after_insert holds fun roster => enters parent roster known).imp
        fun _ _ inserted => After.pure inserted)
    cases parent with
    | none => exact inserts none
    | some parent =>
      refine After.bind (After.bind (after_slotOf (fun slot _ => ?_) fun _ _ => holds))
      exact After.pure (inserts (some slot))

/-- A number is handed out and an inbox opened for it, and then a task comes under that number. It
could have got the number last. -/
theorem preserves_fresh {next : TaskId → Mailbox → Scheduling Result}
    (each : ∀ (id : TaskId) (mailbox : Mailbox) (scheduler : Scheduler), kept scheduler →
      (∀ function parent roster, scheduler.roster.Lent roster →
        kept (({ scheduler with roster } : Scheduler).entered id function parent mailbox)) →
      After (next id mailbox) scheduler (fun _ => kept) fun _ next => broken → kept next) :
    Preserves kept broken (do
      let id ← takeId
      let mailbox ← openInbox id
      next id mailbox) := by
  intro scheduler holds
  have opened := steady.opens scheduler.nextId holds
  refine After.bind (After.modifyGet (After.bind (After.modifyGet ?_)))
  exact each _ _ _ (steady.number opened) fun function parent roster lent =>
    steady.born function parent (steady.lends holds lent)

theorem preserves_createTask (function : Function) (parent : Option TaskId) :
    Preserves kept broken (createTask function parent) :=
  steady.preserves_fresh fun _ _ _ holds enters =>
    After.bind ((after_insertTask holds fun parent roster _ => enters function parent roster).imp
      fun _ _ inserted => After.pure inserted)

theorem preserves_schedule (id : TaskId) : Preserves kept broken (schedule id) := by
  refine (Preserves.slotOf id).bind fun slot => (Preserves.fetch slot).bind fun task => ?_
  cases task.life with
  | zombie => exact .throw _
  | alive => exact steady.preserves_pushTail .run slot

theorem preserves_spawn (function : Function) (parent : Option TaskId) :
    Preserves kept broken (spawn function parent) :=
  (steady.preserves_createTask function parent).bind fun id =>
    (steady.preserves_schedule id).bind fun _ => .pure id

theorem preserves_spawnChild (function : Function) (parent : Slot) :
    Preserves kept broken (spawnChild function parent) :=
  steady.preserves_fresh fun id _ _ holds enters =>
    After.bind ((after_insert holds (enters function (some parent))).imp fun slot _ inserted =>
      ((steady.preserves_pushTail .run slot).bind fun _ => .pure id) _ inserted)

/-! ### References and watchers -/

theorem preserves_setFlags (id : TaskId) (flags : Flags) :
    Preserves kept broken (setFlags id flags) :=
  (Preserves.slotOf id).bind fun slot => steady.preserves_update slot (fun _ => rfl) (fun _ => rfl)
    (fun _ => rfl) fun _ ended => ended

theorem preserves_watch (id : TaskId) (watcher : Nat) :
    Preserves kept broken (watch id watcher) := by
  refine Preserves.get.bind fun scheduler => ?_
  cases scheduler.registry.find? id with
  | none => exact .pure false
  | some slot =>
    refine Preserves.get.bind fun scheduler => ?_
    cases scheduler.roster.task? slot with
    | none => exact .pure false
    | some task =>
      cases life : task.life with
      | zombie =>
        simp only [life]
        exact .pure false
      | alive =>
        simp only [life]
        exact Preserves.bind (steady.preserves_update slot (fun _ => rfl) (fun _ => rfl)
          (fun _ => rfl) fun _ ended => ended) fun _ => .pure true

theorem preserves_retain (id : TaskId) : Preserves kept broken (retain id) :=
  (Preserves.slotOf id).bind fun slot => steady.preserves_update slot (fun _ => rfl) (fun _ => rfl)
    (fun _ => rfl) fun _ ended => ended

/-! ### How tasks end -/

omit steady in
theorem preserves_parentIsZombie (slot : Slot) : Preserves kept broken (parentIsZombie slot) := by
  refine (Preserves.fetch slot).bind fun task => ?_
  cases task.parent with
  | none => exact .pure false
  | some parent => exact (Preserves.fetch parent).bind fun _ => .pure _

theorem preserves_leaveLane (slot : Slot) : Preserves kept broken (leaveLane slot) := by
  refine (Preserves.fetch slot).bind fun task => ?_
  cases task.lane with
  | none => exact .pure ()
  | some lane => exact steady.preserves_remove lane slot

theorem preserves_reportExit (id : TaskId) (parent : Option Slot) (exit : Exit) :
    Preserves kept broken (reportExit id parent exit) := by
  refine (Preserves.reading _).bind fun ancestor => ?_
  cases ancestor with
  | none => exact .pure ()
  | some ancestor =>
    simp only
    split
    · exact steady.preserves_post ancestor.mailbox _
    · exact .pure ()

/-! ### Turns -/

theorem preserves_receiveFor (slot : Slot) : Preserves kept broken (receiveFor slot) := by
  refine (Preserves.fetch slot).bind fun task => ?_
  have receives : Preserves kept broken (onMailroom fun room =>
      ((room.receive task.mailbox).2, (room.receive task.mailbox).1)) :=
    fun _ holds => After.modifyGet (steady.receives task.mailbox holds)
  exact receives.bind fun _ => .pure _

theorem preserves_invokeFor (slot : Slot) (hook : Hook) (stack : Stack) :
    Preserves kept broken (invokeFor slot hook stack) :=
  (Preserves.reading _).bind fun _ => (Preserves.reading _).bind fun _ =>
    (Preserves.fetch slot).bind fun _ => steady.preserves_notify _

/-- Whatever a task asks for in its turn. -/
theorem keeps (slot : Slot) :
    Stack.Keeps (hostFor slot) kept fun _ next => broken → kept next where
  spawn := fun function => steady.preserves_spawnChild function slot
  receive := steady.preserves_receiveFor slot
  invoke := steady.preserves_invokeFor slot

theorem preserves_requeue (slot : Slot) : Preserves kept broken (requeue slot) := by
  refine Preserves.get.bind fun scheduler => ?_
  split
  · exact steady.preserves_onRoster fun roster => roster.after_rotate .run
  · exact (steady.preserves_remove .run slot).bind fun _ => steady.preserves_pushTail .run slot

theorem preserves_putStack (slot : Slot) (stack : Stack) :
    Preserves kept broken (putStack slot stack) :=
  steady.preserves_update slot (fun _ => rfl) (fun _ => rfl) (fun _ => rfl)
    fun _ ended => ended

end Steady

end

end Scheduler

end TaskMachine
