/-
What operations do that nobody is told of. Most of what a scheduler does sends no
message and tells nobody anything: it opens inboxes at most, and changes the
tasks. A condition on the tasks that is kept by the few changes of the roster
that such an operation is made of is kept by the operation, and if the embedder
is refused what it asks for, by what was done until then.

How much a condition has to stand depends on the operations. `Peaceful` ones let
tasks join the run queue and change in what is nobody's business; `Sedate` ones
let waiting tasks leave their queue besides, and tasks go; and for what is
`Placid` the queues play no part at all.
-/

import TaskMachine.Proofs.Inbox.Heard
import TaskMachine.Proofs.Scheduler.Preserved
import TaskMachine.Proofs.Scheduler.Turns

namespace TaskMachine

/-! ### Inboxes that are opened -/

/-- Some inboxes were opened, and nothing else was done to inboxes. -/
def Mailroom.Opens (room next : Mailroom) : Prop :=
  ∃ owners : List TaskId,
    next.inboxes = room.inboxes ++ (owners.map fun owner => (owner, Inbox.empty)).toArray

namespace Mailroom.Opens

variable {room next last : Mailroom}

theorem of_same (same : next.inboxes = room.inboxes) : room.Opens next := ⟨[], by simp [same]⟩

theorem refl (room : Mailroom) : room.Opens room := of_same rfl

theorem trans (opens : room.Opens next) (further : next.Opens last) : room.Opens last := by
  obtain ⟨owners, is⟩ := opens
  obtain ⟨others, now⟩ := further
  refine ⟨owners ++ others, ?_⟩
  rw [now, is]
  simp

theorem addInbox (room : Mailroom) (owner : TaskId) : room.Opens (room.addInbox owner).1 :=
  ⟨[owner], by simp [Mailroom.addInbox]⟩

/-- An inbox that was there is as it was. -/
theorem kept (opens : room.Opens next) {inbox : Nat} (known : inbox < room.inboxes.size) :
    next.inboxes[inbox]? = room.inboxes[inbox]? := by
  obtain ⟨owners, is⟩ := opens
  rw [is, Array.getElem?_append_left known]

/-- An inbox that was not there is empty. -/
theorem fresh (opens : room.Opens next) {inbox : Nat} (beyond : room.inboxes.size ≤ inbox)
    (known : inbox < next.inboxes.size) : ∃ owner, next.inboxes[inbox]? = some (owner, .empty) := by
  obtain ⟨owners, is⟩ := opens
  have within : inbox - room.inboxes.size < owners.length := by
    rw [is, Array.size_append] at known
    simp only [List.size_toArray, List.length_map] at known
    omega
  refine ⟨owners[inbox - room.inboxes.size], ?_⟩
  rw [is, Array.getElem?_append_right beyond]
  simp [within]

end Mailroom.Opens

namespace Scheduler

/-! ### Operations put together -/

variable {Result Other : Type} {kept : Scheduler → Prop}

/-- An operation keeps something, also if the embedder is refused what it asks for. -/
def Guards (kept : Scheduler → Prop) (operation : Scheduling Result) : Prop :=
  ∀ scheduler, kept scheduler →
    After operation scheduler (fun _ => kept)
      fun crash next => crash.isRefusal = true → kept next

namespace Guards

theorem bind {operation : Scheduling Result} {next : Result → Scheduling Other}
    (first : Guards kept operation) (second : ∀ result, Guards kept (next result)) :
    Guards kept (operation >>= next) :=
  fun scheduler holds => (first scheduler holds).andThen fun result middle => second result middle

theorem of_preserves {operation : Scheduling Result}
    (preserves : Preserves kept True operation) : Guards kept operation :=
  fun scheduler holds => (preserves scheduler holds).mono (fun _ _ => id)
    fun _ _ holds _ => holds trivial

theorem pure (result : Result) : Guards kept (pure result) := of_preserves (.pure result)

theorem throw (crash : Crash) : Guards kept (throw crash : Scheduling Result) :=
  of_preserves (.throw crash)

theorem get : Guards kept (get : Scheduling Scheduler) := of_preserves .get

theorem fetch (slot : Slot) : Guards kept (fetch slot) := of_preserves (.fetch slot)

theorem slotOf (id : TaskId) : Guards kept (slotOf id) := of_preserves (.slotOf id)

theorem forM {Item : Type} (items : List Item) {operation : Item → Scheduling PUnit}
    (each : ∀ item, Guards kept (operation item)) : Guards kept (items.forM operation) :=
  fun _ holds => After.forM (fun item _ => each item) holds

theorem modify {change : Scheduler → Scheduler}
    (keeps : ∀ scheduler, kept scheduler → kept (change scheduler)) :
    Guards kept (modify change) := fun scheduler holds => After.modify (keeps scheduler holds)

theorem modifyGet {change : Scheduler → Result × Scheduler}
    (keeps : ∀ scheduler, kept scheduler → kept (change scheduler).2) :
    Guards kept (modifyGet change) :=
  fun scheduler holds => After.modifyGet (keeps scheduler holds)

end Guards

end Scheduler

/-! ### Conditions on the tasks -/

/-- A task without what is nobody's business but its own: its stack, its options, what it waits for
and the references to it. -/
def Task.bearing (task : Task) : Task :=
  { task with stack := none, flags := .empty, awaited := none, references := 0 }

namespace Roster

/-- What is kept when tasks come, join the run queue and change. -/
structure Peaceful (good : Roster → Prop) : Prop where
  pushes : ∀ {roster : Roster} (slot : Slot), good roster →
    After (pushTail .run slot) roster (fun _ => good) fun crash next =>
      crash.isRefusal = true → good next
  alters : ∀ {roster : Roster} (slot : Slot) {change : Task → Task}, good roster →
    (∀ task, (change task).bearing = task.bearing) → good (roster.alter slot change)
  adds : ∀ {roster : Roster} (id : TaskId) (function : Function) (parent : Option Slot)
    (mailbox : Mailbox), good roster →
      good { roster with tasks := roster.tasks.push (some (.created id function parent mailbox)) }

/-- What is kept too when waiting tasks leave their queue, and when tasks go. -/
structure Sedate (good : Roster → Prop) : Prop extends Peaceful good where
  leaves : ∀ {roster : Roster} (slot : Slot), good roster →
    After (remove .wait slot) roster (fun _ => good) fun crash next =>
      crash.isRefusal = true → good next
  drops : ∀ {roster : Roster} (slot : Slot), good roster → good (roster.setTask slot none)

/-- What does not depend on the queues. -/
structure Placid (good : Roster → Prop) : Prop where
  arrange : ∀ {roster next : Roster}, good roster → SameTasks roster next → good next
  alters : ∀ {roster : Roster} (slot : Slot) {change : Task → Task}, good roster →
    (∀ task, (change task).bearing = task.bearing) → good (roster.alter slot change)
  adds : ∀ {roster : Roster} (id : TaskId) (function : Function) (parent : Option Slot)
    (mailbox : Mailbox), good roster →
      good { roster with tasks := roster.tasks.push (some (.created id function parent mailbox)) }
  drops : ∀ {roster : Roster} (slot : Slot), good roster → good (roster.setTask slot none)

theorem placid_true : Placid fun _ => True :=
  ⟨fun _ _ => trivial, fun _ _ _ _ => trivial, fun _ _ _ _ _ => trivial, fun _ _ => trivial⟩

variable {good : Roster → Prop}

/-- A change of the queues keeps what does not depend on them. -/
theorem Placid.after (placid : Placid good) {change : Rostering Unit} {roster : Roster}
    (holds : good roster) (same : After change roster (fun _ next => SameTasks roster next)
      fun _ next => SameTasks roster next) :
    After change roster (fun _ => good) fun crash next => crash.isRefusal = true → good next :=
  same.mono (fun _ _ same => placid.arrange holds same)
    fun _ _ same _ => placid.arrange holds same

theorem Placid.sedate (placid : Placid good) : Sedate good where
  pushes := fun slot holds => placid.after holds (after_pushTail _ .run slot)
  alters := placid.alters
  adds := placid.adds
  leaves := fun slot holds => placid.after holds (after_remove _ .wait slot)
  drops := placid.drops

end Roster

namespace Scheduler

/-- The tasks are as they should be, inboxes were opened at most, and nobody was told anything. -/
structure Quiet (good : Roster → Prop) (origin scheduler : Scheduler) : Prop where
  roster : good scheduler.roster
  opens : origin.mailroom.Opens scheduler.mailroom
  notices : scheduler.notices = origin.notices
  respond : scheduler.respond = origin.respond

namespace Quiet

variable {good : Roster → Prop} {origin scheduler next : Scheduler}

theorem refl (holds : good scheduler.roster) : Quiet good scheduler scheduler :=
  ⟨holds, .refl _, rfl, rfl⟩

/-- A change of anything but the tasks, the inboxes and what concerns notices. -/
theorem beside (quiet : Quiet good origin scheduler) (roster : next.roster = scheduler.roster)
    (inboxes : next.mailroom.inboxes = scheduler.mailroom.inboxes)
    (notices : next.notices = scheduler.notices) (respond : next.respond = scheduler.respond) :
    Quiet good origin next :=
  ⟨roster ▸ quiet.roster, quiet.opens.trans (.of_same inboxes), notices.trans quiet.notices,
    respond.trans quiet.respond⟩

theorem onRoster (quiet : Quiet good origin scheduler) {roster : Roster} (holds : good roster) :
    Quiet good origin { scheduler with roster } :=
  ⟨holds, quiet.opens, quiet.notices, quiet.respond⟩

end Quiet

variable {good : Roster → Prop} {origin : Scheduler}

theorem guards_onRoster {change : Rostering Result} (keeps : ∀ roster, good roster →
    After change roster (fun _ => good) fun crash next => crash.isRefusal = true → good next) :
    Guards (Quiet good origin) (onRoster change) :=
  fun scheduler quiet => after_onRoster ((keeps scheduler.roster quiet.roster).mono
    (fun _ _ => quiet.onRoster) fun _ _ holds refusal => quiet.onRoster (holds refusal))

/-- A change of the mailroom that opens inboxes at most. -/
theorem guards_onMailroom {change : Mailroom → Result × Mailroom}
    (opens : ∀ room, Mailroom.Opens room (change room).2) :
    Guards (Quiet good origin) (onMailroom change) :=
  .modifyGet fun scheduler quiet =>
    ⟨quiet.roster, quiet.opens.trans (opens scheduler.mailroom), quiet.notices, quiet.respond⟩

/-- A change beside tasks, inboxes and notices. -/
theorem guards_modify {change : Scheduler → Scheduler}
    (beside : ∀ scheduler, (change scheduler).roster = scheduler.roster ∧
      (change scheduler).mailroom.inboxes = scheduler.mailroom.inboxes ∧
      (change scheduler).notices = scheduler.notices ∧
      (change scheduler).respond = scheduler.respond) :
    Guards (Quiet good origin) (modify change) :=
  .modify fun scheduler quiet => have ⟨roster, inboxes, notices, respond⟩ := beside scheduler
    quiet.beside roster inboxes notices respond

theorem guards_takeId : Guards (Quiet good origin) takeId :=
  .modifyGet fun _ quiet => quiet.beside rfl rfl rfl rfl

theorem guards_openInbox (owner : TaskId) : Guards (Quiet good origin) (openInbox owner) :=
  guards_onMailroom fun room => .addInbox room owner

theorem guards_wake (id : TaskId) : Guards (Quiet good origin) (wake id) :=
  guards_onMailroom fun room => .of_same (room.inboxes_wake id)

theorem guards_unpark : Guards (Quiet good origin) unpark :=
  guards_onMailroom fun _ => .of_same rfl

theorem guards_takeToken : Guards (Quiet good origin) takeToken :=
  guards_onMailroom fun _ => .of_same rfl

/-! ### Peaceful operations -/

section

variable (peaceful : Roster.Peaceful good)

include peaceful

theorem guards_pushTail (slot : Slot) :
    Guards (Quiet good origin) (onRoster (Roster.pushTail .run slot)) :=
  guards_onRoster fun _ => peaceful.pushes slot

theorem guards_update (slot : Slot) {change : Task → Task}
    (bearing : ∀ task, (change task).bearing = task.bearing) :
    Guards (Quiet good origin) (update slot change) :=
  guards_onRoster fun _ holds => (Roster.after_update change).mono
    (fun _ _ is => is ▸ peaceful.alters slot holds bearing) fun _ _ is _ => is ▸ holds

theorem guards_insert (id : TaskId) (function : Function) (parent : Option Slot)
    (mailbox : Mailbox) : Guards (Quiet good origin) (insert id function parent mailbox) := by
  have adds : Guards (Quiet good origin) (do
      let slot ← onRoster (Roster.add (.created id function parent mailbox))
      modify fun scheduler => { scheduler with registry := scheduler.registry.insert id slot }
      pure slot) := by
    refine Guards.bind (guards_onRoster fun _ holds => ?_) fun slot =>
      Guards.bind (guards_modify fun _ => ⟨rfl, rfl, rfl, rfl⟩) fun _ => .pure slot
    exact After.of_ok (Roster.add_eq _ _) (peaceful.adds id function parent mailbox holds)
  cases parent with
  | none => exact adds
  | some parent => exact Guards.bind (guards_update peaceful parent fun _ => rfl) fun _ => adds

theorem guards_insertTask (id : TaskId) (function : Function) (parent : Option TaskId)
    (mailbox : Mailbox) :
    Guards (Quiet good origin) (insertTask id function parent mailbox) := by
  refine Guards.get.bind fun scheduler => ?_
  have inserts : Guards (Quiet good origin) (do
      let parent ← parent.mapM slotOf
      let _ ← insert id function parent mailbox) := by
    have finds : Guards (Quiet good origin) (parent.mapM slotOf) := by
      cases parent with
      | none => exact .pure none
      | some parent => exact (Guards.slotOf parent).bind fun slot => .pure (some slot)
    exact finds.bind fun parent =>
      (guards_insert peaceful id function parent mailbox).bind fun _ => .pure ()
  cases scheduler.registry.contains id with
  | true => exact .throw _
  | false => exact inserts

theorem guards_createTask (function : Function) (parent : Option TaskId) :
    Guards (Quiet good origin) (createTask function parent) :=
  guards_takeId.bind fun id => (guards_openInbox id).bind fun mailbox =>
    (guards_insertTask peaceful id function parent mailbox).bind fun _ => .pure id

theorem guards_schedule (id : TaskId) : Guards (Quiet good origin) (schedule id) := by
  refine (Guards.slotOf id).bind fun slot => (Guards.fetch slot).bind fun task => ?_
  cases task.life with
  | zombie => exact .throw _
  | alive => exact guards_pushTail peaceful slot

theorem guards_spawn (function : Function) (parent : Option TaskId) :
    Guards (Quiet good origin) (spawn function parent) :=
  (guards_createTask peaceful function parent).bind fun id =>
    (guards_schedule peaceful id).bind fun _ => .pure id

theorem guards_spawnChild (function : Function) (parent : Slot) :
    Guards (Quiet good origin) (spawnChild function parent) :=
  guards_takeId.bind fun id => (guards_openInbox id).bind fun mailbox =>
    (guards_insert peaceful id function (some parent) mailbox).bind fun slot =>
      (guards_pushTail peaceful slot).bind fun _ => .pure id

theorem guards_setFlags (id : TaskId) (flags : Flags) :
    Guards (Quiet good origin) (setFlags id flags) :=
  (Guards.slotOf id).bind fun slot => guards_update peaceful slot fun _ => rfl

theorem guards_retain (id : TaskId) : Guards (Quiet good origin) (retain id) :=
  (Guards.slotOf id).bind fun slot => guards_update peaceful slot fun _ => rfl

end

/-! ### Sedate operations -/

section

variable (sedate : Roster.Sedate good)

include sedate

theorem guards_releaseWithin (tasks : Nat) (slot : Slot) :
    Guards (Quiet good origin) (releaseWithin tasks slot) := by
  induction tasks generalizing slot with
  | zero => exact .throw _
  | succ tasks inductionHypothesis =>
    refine (Guards.fetch slot).bind fun task => ?_
    match task.references with
    | 0 => exact .throw _
    | 1 =>
      have drops : Guards (Quiet good origin) (onRoster (Roster.drop slot)) :=
        guards_onRoster fun roster holds =>
          After.of_ok (Roster.drop_eq roster slot) (sedate.drops slot holds)
      refine drops.bind fun _ => Guards.bind (guards_modify fun _ => ⟨rfl, rfl, rfl, rfl⟩)
        fun _ => ?_
      cases task.parent with
      | none => exact .pure ()
      | some parent => exact inductionHypothesis parent
    | left + 2 => exact guards_update sedate.toPeaceful slot fun _ => rfl

theorem guards_releaseSlot (slot : Slot) : Guards (Quiet good origin) (releaseSlot slot) :=
  Guards.get.bind fun _ => guards_releaseWithin sedate _ slot

theorem guards_release (id : TaskId) : Guards (Quiet good origin) (release id) := by
  refine (Guards.slotOf id).bind fun slot => (Guards.fetch slot).bind fun task => ?_
  split
  · exact guards_releaseSlot sedate slot
  · exact .throw _

theorem guards_resumeIf (id : TaskId) (awaited : Awaited) :
    Guards (Quiet good origin) (resumeIf id awaited) := by
  refine Guards.get.bind fun scheduler => ?_
  cases scheduler.registry.find? id with
  | none => exact .pure ()
  | some slot =>
    refine (Guards.fetch slot).bind fun task => ?_
    split
    · exact (guards_onRoster fun _ => sedate.leaves slot).bind fun _ =>
        Guards.bind (guards_update sedate.toPeaceful slot fun _ => rfl) fun _ =>
          guards_pushTail sedate.toPeaceful slot
    · exact .pure ()

theorem guards_wakeWoken : Guards (Quiet good origin) wakeWoken :=
  (guards_onMailroom fun _ => .of_same rfl).bind fun woken =>
    .forM woken fun id => guards_resumeIf sedate id .message

theorem guards_resumeFired (fired : List Firing) : Guards (Quiet good origin) (resumeFired fired) :=
  .forM fired fun firing => guards_resumeIf sedate firing.task (.timer firing.timer)

omit sedate in
theorem guards_fireDue : Guards (Quiet good origin) fireDue := by
  intro scheduler quiet
  refine After.bind (After.get (After.bind (After.set ?_)))
  split
  · exact After.throw fun _ => quiet.beside rfl rfl rfl rfl
  · exact After.pure (quiet.beside rfl rfl rfl rfl)

theorem guards_pollTimers : Guards (Quiet good origin) pollTimers :=
  guards_fireDue.bind fun fired => guards_resumeFired sedate fired

omit sedate in
theorem guards_elapse : Guards (Quiet good origin) elapse := by
  refine guards_modify fun scheduler => ?_
  cases scheduler.agenda.nextDeadline <;> exact ⟨rfl, rfl, rfl, rfl⟩

theorem guards_wait : Guards (Quiet good origin) wait := by
  refine Guards.get.bind fun scheduler => ?_
  cases scheduler.agenda.hasPending with
  | false => exact guards_takeToken.bind fun _ => .pure ()
  | true =>
    have awaits : Guards (Quiet good origin) awaitTimers := by
      refine guards_takeToken.bind fun token => ?_
      cases token with
      | true => exact guards_fireDue
      | false => exact guards_elapse.bind fun _ => guards_fireDue
    exact awaits.bind fun fired => guards_resumeFired sedate fired

theorem guards_rest : Guards (Quiet good origin) rest := by
  refine Guards.get.bind fun scheduler => ?_
  cases scheduler.agenda.hasPending with
  | false => exact .pure ()
  | true => exact guards_elapse.bind fun _ => guards_pollTimers sedate

end

/-! ### After a turn -/

section

variable (placid : Roster.Placid good)

include placid

theorem guards_queue {change : Rostering Unit} (same : ∀ roster : Roster,
    After change roster (fun _ next => roster.SameTasks next) fun _ next => roster.SameTasks next) :
    Guards (Quiet good origin) (onRoster change) :=
  guards_onRoster fun roster holds => placid.after holds (same roster)

theorem guards_leaveLane (slot : Slot) : Guards (Quiet good origin) (leaveLane slot) := by
  refine (Guards.fetch slot).bind fun task => ?_
  cases task.lane with
  | none => exact .pure ()
  | some lane => exact guards_queue placid fun roster => roster.after_remove lane slot

theorem guards_requeue (slot : Slot) : Guards (Quiet good origin) (requeue slot) := by
  refine Guards.get.bind fun scheduler => ?_
  split
  · exact guards_queue placid fun roster => roster.after_rotate .run
  · exact (guards_queue placid fun roster => roster.after_remove .run slot).bind fun _ =>
      guards_queue placid fun roster => roster.after_pushTail .run slot

theorem guards_suspend (slot : Slot) (awaited : Awaited) :
    Guards (Quiet good origin) (suspend slot awaited) :=
  (guards_queue placid fun roster => roster.after_remove .run slot).bind fun _ =>
    Guards.bind (guards_update placid.sedate.toPeaceful slot fun _ => rfl) fun _ =>
      guards_queue placid fun roster => roster.after_pushTail .wait slot

/-- A task that has not ended stays in one of the queues after its turn. -/
theorem guards_settle (slot : Slot) (id : TaskId) (stack : Stack) {status : Status}
    (stays : status.exit? = none) : Guards (Quiet good origin) (settle slot id stack status) := by
  have puts : Guards (Quiet good origin) (putStack slot stack) :=
    guards_update placid.sedate.toPeaceful slot fun _ => rfl
  cases status with
  | yielded => exact puts.bind fun _ => guards_requeue placid slot
  | suspended wait =>
    cases wait with
    | timer after =>
      exact puts.bind fun _ => Guards.bind (.modifyGet fun _ quiet => quiet.beside rfl rfl rfl rfl)
        fun timer => guards_suspend placid slot (.timer timer)
    | message =>
      refine puts.bind fun _ => (Guards.fetch slot).bind fun task => Guards.get.bind fun _ => ?_
      split
      · exact guards_suspend placid slot .message
      · exact guards_requeue placid slot
  | ended values => exact absurd stays nofun
  | faulted fault => exact absurd stays nofun

end

end Scheduler

end TaskMachine
