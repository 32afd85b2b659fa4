/-
What a scheduler refuses, it refuses at once. Whether an operation breaks off
can be told from the state that it begins in: from which tasks are there, which
of them have ended or are in a queue, and how often they are referred to. Every
such condition is looked at before anything is changed. So an operation that
was refused leaves everything as it was, but for a number that a new task would
have had and the inbox that was made for it.
-/

import TaskMachine.Proofs.Session.Releases
import TaskMachine.Scheduler.Report

namespace TaskMachine

theorem Task.state_ne_destroyed (task : Task) : task.state ≠ .destroyed := by
  rw [Task.state]
  split <;> (try split) <;> exact nofun

theorem Task.state_eq_zombie_iff (task : Task) : task.state = .zombie ↔ task.life = .zombie := by
  rw [Task.state]
  cases task.life with
  | zombie => simp
  | alive => cases task.lane with
    | none => cases task.stack.isSome <;> simp
    | some lane => cases lane <;> cases task.stack.isSome <;> simp

namespace Scheduler

/-! ### What is refused -/

/-- The task with a number is in one of the queues. -/
def Enqueued (scheduler : Scheduler) (id : TaskId) : Prop :=
  ∃ slot lane slots, scheduler.registry.find? id = some slot ∧
    scheduler.roster.slots lane = .ok slots ∧ slot ∈ slots

/-- The task with a number is alive, and nothing but its life refers to it. -/
def Unreferred (scheduler : Scheduler) (id : TaskId) : Prop :=
  ∃ task, scheduler.task? id = some task ∧ task.life = .alive ∧ task.references = 1

/-- The parent that a task is to have is gone. -/
def ParentGone (scheduler : Scheduler) (parent : Option TaskId) : Prop :=
  ∃ id, parent = some id ∧ scheduler.state id = .destroyed

/-- When an operation is refused. -/
def Forbids (scheduler : Scheduler) : Operation → Prop
  | .insertTask id _ parent _ =>
    scheduler.registry.contains id = true ∨ scheduler.ParentGone parent
  | .createTask _ parent | .spawn _ parent => scheduler.ParentGone parent
  | .schedule id =>
    scheduler.state id = .destroyed ∨ scheduler.state id = .zombie ∨ scheduler.Enqueued id
  | .setFlags id _ | .retain id => scheduler.state id = .destroyed
  | .release id => scheduler.state id = .destroyed ∨ scheduler.Unreferred id
  | _ => False

/-- Nothing has changed but that numbers may have been handed out, and inboxes made. -/
structure Untouched (next scheduler : Scheduler) : Prop where
  same : next = { scheduler with
    nextId := next.nextId
    mailroom := { scheduler.mailroom with inboxes := next.mailroom.inboxes } }
  nextId : scheduler.nextId.number ≤ next.nextId.number
  inboxes : ∃ made, next.mailroom.inboxes = scheduler.mailroom.inboxes ++ made

/-- An operation breaks off just in a given case, and then it has changed nothing. -/
def Decides {Result : Type} (scheduler : Scheduler) (forbidden : Prop)
    (operation : Scheduling Result) : Prop :=
  After operation scheduler (fun _ _ => ¬ forbidden)
    fun crash next => forbidden ∧ crash.isRefusal = true ∧ next.Untouched scheduler

variable {Other : Type} {scheduler : Scheduler} {forbidden : Prop}
  {lists : Lane → List Slot} {held unscheduled : List TaskId} {slot : Slot} {task : Task}
  {id : TaskId}

theorem Untouched.refl (scheduler : Scheduler) : scheduler.Untouched scheduler :=
  ⟨rfl, Nat.le_refl _, #[], by simp⟩

/-- A number was taken and an inbox made for it, and nothing else was touched. -/
theorem untouched_entered (scheduler : Scheduler) (owner : TaskId) :
    ({ scheduler with
        nextId := scheduler.nextId.next
        mailroom := (scheduler.mailroom.addInbox owner).1 } : Scheduler).Untouched scheduler :=
  ⟨rfl, Nat.le_succ _, #[(owner, .empty)], Array.push_eq_append⟩

/-! ### Which tasks are gone -/

theorem state_eq_destroyed_iff : scheduler.state id = .destroyed ↔ scheduler.task? id = none := by
  rw [state]
  cases scheduler.task? id with
  | none => simp
  | some task => simp [task.state_ne_destroyed]

theorem state_eq_zombie_iff : scheduler.state id = .zombie ↔
    ∃ task, scheduler.task? id = some task ∧ task.life = .zombie := by
  rw [state]
  cases scheduler.task? id with
  | none => simp
  | some task => simp [task.state_eq_zombie_iff]

theorem task?_eq (known : scheduler.registry.find? id = some slot)
    (present : scheduler.roster.task? slot = some task) : scheduler.task? id = some task := by
  rw [task?, known]
  exact present

/-- Once its parent is known, nothing keeps a task from being inserted. -/
theorem after_insert_known (scheduler : Scheduler) (id : TaskId) (function : Function)
    (parent : Option Slot) (mailbox : Mailbox)
    (known : ∀ slot, parent = some slot → ∃ task, scheduler.roster.task? slot = some task) :
    After (insert id function parent mailbox) scheduler (fun _ _ => True) fun _ _ => False := by
  have adds (middle : Scheduler) : After (do
      let slot ← onRoster (Roster.add (.created id function parent mailbox))
      modify fun scheduler => { scheduler with registry := scheduler.registry.insert id slot }
      pure slot) middle (fun _ _ => True) fun _ _ => False :=
    After.bind (after_onRoster (After.of_ok (Roster.add_eq _ _)
      (After.bind (After.modify (After.pure trivial)))))
  cases parent with
  | none => exact adds scheduler
  | some slot =>
    obtain ⟨task, present⟩ := known slot rfl
    exact After.bind (after_update present (adds _))

namespace Sound

variable (sound : scheduler.Sound scheduler [] lists held unscheduled none none)
include sound

/-- A task is gone if no place is known for it. -/
theorem destroyed_iff :
    scheduler.state id = .destroyed ↔ scheduler.registry.find? id = none := by
  rw [state_eq_destroyed_iff]
  cases known : scheduler.registry.find? id with
  | none => simp [task?, known]
  | some slot =>
    obtain ⟨task, present, _⟩ := sound.registered known
    simp [task?_eq known present]

/-- A task that is there says itself whether it is in a queue. -/
theorem enqueued_iff (known : scheduler.registry.find? id = some slot)
    (present : scheduler.roster.task? slot = some task) :
    scheduler.Enqueued id ↔ task.lane.isSome = true := by
  have lines := sound.queued.lines
  constructor
  · rintro ⟨other, lane, slots, same, lists, member⟩
    obtain rfl := Option.some.inj (known.symm.trans same)
    obtain rfl := Except.ok.inj ((lines.slots lane).symm.trans lists)
    rw [(lines.mem_iff present).mp member]
    rfl
  · intro queued
    obtain ⟨lane, queued⟩ := Option.isSome_iff_exists.mp queued
    exact ⟨slot, lane, lists lane, known, lines.slots lane, (lines.mem_iff present).mpr queued⟩

/-! ### Each operation -/

/-- The place of a task is looked up first. -/
theorem decides_slotOf {rest : Slot → Scheduling Other}
    (gone : scheduler.state id = .destroyed → forbidden)
    (there : ∀ slot task, scheduler.registry.find? id = some slot →
      scheduler.roster.task? slot = some task → scheduler.Decides forbidden (rest slot)) :
    scheduler.Decides forbidden (slotOf id >>= rest) := by
  refine After.bind (after_slotOf (fun slot known => ?_) fun missing => ?_)
  · obtain ⟨task, present, _⟩ := sound.registered known
    exact there slot task known present
  · exact ⟨gone (sound.destroyed_iff.mpr missing), rfl, .refl _⟩

/-- If nothing else is looked at, an operation breaks off just if the task is gone. -/
theorem decides_update (change : Task → Task) :
    scheduler.Decides (scheduler.state id = .destroyed) (do
      let slot ← slotOf id
      update slot change) := by
  refine sound.decides_slotOf (fun gone => gone) fun slot task known present =>
    after_update present ?_
  rw [sound.destroyed_iff, known]
  exact nofun

/-- A task is scheduled unless it has ended or is in a queue. -/
theorem decides_schedule (id : TaskId) :
    scheduler.Decides (scheduler.Forbids (.schedule id)) (schedule id) := by
  refine sound.decides_slotOf Or.inl fun slot task known present =>
    After.bind (after_fetch present ?_)
  have there : scheduler.state id ≠ .destroyed := by
    rw [ne_eq, sound.destroyed_iff, known]
    exact nofun
  cases life : task.life with
  | zombie =>
    have ended := state_eq_zombie_iff.mpr ⟨task, task?_eq known present, life⟩
    exact After.throw ⟨Or.inr (Or.inl ended), rfl, .refl _⟩
  | alive =>
    have lives : scheduler.state id ≠ .zombie := fun ended => by
      obtain ⟨found, foundPresent, zombie⟩ := state_eq_zombie_iff.mp ended
      obtain rfl := Option.some.inj ((task?_eq known present).symm.trans foundPresent)
      exact absurd (life.symm.trans zombie) nofun
    have enqueued := sound.enqueued_iff known present
    -- the queue itself looks whether the task is in one, before it is linked to its last task
    cases queued : task.lane with
    | some lane =>
      refine after_onRoster (After.of_error (Roster.pushTail_eq_error .run present queued) ?_)
      exact ⟨Or.inr (Or.inr (enqueued.mpr (by rw [queued]; rfl))), rfl, .refl _⟩
    | none =>
      have idle : scheduler.Idle lists task.id slot := by
        obtain ⟨found, foundPresent, same⟩ := sound.registered known
        obtain rfl := Option.some.inj (present.symm.trans foundPresent)
        refine ⟨by rw [same]; exact known, ⟨task, present, rfl, life⟩, fun lane member => ?_⟩
        rw [sound.queued.lines.mem_iff present, queued] at member
        exact absurd member nofun
      obtain ⟨roster, pushes, _⟩ := sound.join idle fun _ _ member => member
      refine after_onRoster (After.of_ok pushes ?_)
      rintro (gone | ended | member)
      · exact there gone
      · exact lives ended
      · rw [enqueued, queued] at member
        exact absurd member nofun

/-- A reference is taken unless it is the last one of a task that is alive. -/
theorem decides_release (id : TaskId) :
    scheduler.Decides (scheduler.Forbids (.release id)) (release id) := by
  cases known : scheduler.registry.find? id with
  | none =>
    refine After.of_error (release_eq_destroyed known) ⟨Or.inl ?_, rfl, .refl _⟩
    exact sound.destroyed_iff.mpr known
  | some slot =>
    obtain ⟨task, present, _⟩ := sound.registered known
    have positive := sound.counted.referenced present
    by_cases allowed : task.life = .zombie ∨ 1 < task.references
    · refine ((sound.grounded slot).after_release known present allowed).mono
        (fun _ _ _ => ?_) fun _ _ => False.elim
      rintro (gone | ⟨found, foundPresent, alive, last⟩)
      · rw [sound.destroyed_iff, known] at gone
        exact absurd gone nofun
      · obtain rfl := Option.some.inj ((task?_eq known present).symm.trans foundPresent)
        rcases allowed with zombie | more
        · exact absurd (alive.symm.trans zombie) nofun
        · exact absurd last (Nat.ne_of_gt more)
    · obtain ⟨lives, few⟩ := not_or.mp allowed
      have alive : task.life = .alive := by
        cases life : task.life with
        | alive => rfl
        | zombie => exact absurd life lives
      have last : task.references = 1 := Nat.le_antisymm (Nat.le_of_not_lt few) positive
      refine After.of_error (release_eq_overReleased known present alive last)
        ⟨Or.inr ⟨task, task?_eq known present, alive, last⟩, rfl, .refl _⟩

/-- The place of a parent is found unless it is gone. -/
theorem after_parent (parent : Option TaskId) :
    After (parent.mapM slotOf) scheduler
      (fun place next => next = scheduler ∧ ¬ scheduler.ParentGone parent ∧
        ∀ slot, place = some slot → ∃ task, scheduler.roster.task? slot = some task)
      fun crash next => scheduler.ParentGone parent ∧ crash.isRefusal = true ∧
        next = scheduler := by
  cases parent with
  | none => exact After.pure ⟨rfl, fun ⟨_, named, _⟩ => absurd named nofun, nofun⟩
  | some parent =>
    refine After.bind (after_slotOf (fun slot known => After.pure ⟨rfl, ?_, ?_⟩) fun missing => ?_)
    · rintro ⟨other, named, gone⟩
      obtain rfl := Option.some.inj named
      rw [sound.destroyed_iff, known] at gone
      exact absurd gone nofun
    · intro other same
      obtain rfl := Option.some.inj same
      obtain ⟨task, present, _⟩ := sound.registered known
      exact ⟨task, present⟩
    · exact ⟨⟨parent, rfl, sound.destroyed_iff.mpr missing⟩, rfl, rfl⟩

/-- A task is inserted unless its number is in use or its parent is gone. -/
theorem after_insertTask_refused (id : TaskId) (function : Function) (parent : Option TaskId)
    (mailbox : Mailbox) :
    After (insertTask id function parent mailbox) scheduler
      (fun _ _ => ¬ scheduler.Forbids (.insertTask id function parent mailbox))
      fun crash next => scheduler.Forbids (.insertTask id function parent mailbox) ∧
        crash.isRefusal = true ∧ next = scheduler := by
  refine After.bind (After.get ?_)
  cases used : scheduler.registry.contains id with
  | true => exact After.throw ⟨Or.inl used, rfl, rfl⟩
  | false =>
    refine After.bind ((sound.after_parent parent).mono (fun place next found => ?_)
      fun crash next refused => ⟨Or.inr refused.1, refused.2⟩)
    obtain ⟨rfl, there, known⟩ := found
    refine After.bind ((after_insert_known next id function place mailbox known).mono
      (fun _ _ _ => After.pure ?_) fun _ _ => False.elim)
    exact fun forbidden => forbidden.elim (fun again => absurd (used.symm.trans again) nofun) there

theorem decides_insertTask (id : TaskId) (function : Function) (parent : Option TaskId)
    (mailbox : Mailbox) :
    scheduler.Decides (scheduler.Forbids (.insertTask id function parent mailbox))
      (insertTask id function parent mailbox) :=
  (sound.after_insertTask_refused id function parent mailbox).mono (fun _ _ allowed => allowed)
    fun _ _ ⟨forbidden, refusal, same⟩ => ⟨forbidden, refusal, same ▸ .refl _⟩

/-- A task is created unless its parent is gone: its number is not in use. -/
theorem decides_createTask (function : Function) (parent : Option TaskId) :
    scheduler.Decides (scheduler.ParentGone parent) (createTask function parent) := by
  refine After.bind (After.modifyGet (After.bind (After.modifyGet (After.bind ?_))))
  have entered := sound.takeId.mailroom (scheduler.mailroom.addInbox scheduler.nextId).1
  refine (entered.restart.after_insertTask_refused scheduler.nextId function parent _).mono
    (fun _ _ allowed => After.pure fun gone => allowed (Or.inr gone)) ?_
  rintro crash next ⟨used | gone, refusal, rfl⟩
  · rw [Table.contains, sound.unused] at used
    cases used
  · exact ⟨gone, refusal, untouched_entered scheduler scheduler.nextId⟩

/-- A task that was just created can be scheduled. -/
theorem decides_spawn (function : Function) (parent : Option TaskId) :
    scheduler.Decides (scheduler.ParentGone parent) (spawn function parent) := by
  have creates := (sound.after_createTask function parent).and
    (sound.decides_createTask function parent)
  refine After.bind (creates.mono (fun id created made => ?_) fun _ _ refused => refused.2)
  obtain ⟨⟨_, createdSound, slot, idle⟩, allowed⟩ := made
  have schedules := createdSound.after_schedule fun other differ member =>
    (List.mem_cons.mp member).resolve_left differ
  refine After.bind (schedules.mono (fun _ _ _ => After.pure allowed) fun _ _ refused => ?_)
  exact absurd idle (refused.2 slot)

end Sound

end Scheduler

namespace Session

open Scheduler

variable {session : Session} {operation : Operation}

/-- Whether an operation in which no task has a turn breaks off can be told beforehand. -/
theorem decides_perform {lists : Lane → List Slot}
    (sound : session.scheduler.Sound session.scheduler [] lists session.held session.unscheduled
      none none) (quiet : operation.givesTurns = false) :
    session.scheduler.Decides (session.scheduler.Forbids operation) operation.perform := by
  have drops {Result : Type} {forbidden : Prop} {operation : Scheduling Result}
      (decides : session.scheduler.Decides forbidden operation) :
      session.scheduler.Decides forbidden (do let _ ← operation) :=
    After.bind (decides.imp fun _ _ allowed => After.pure allowed)
  have succeeds {Result : Type} {success : Result → Scheduler → Prop}
      {operation : Scheduling Result}
      (after : After operation session.scheduler success fun _ _ => False) :
      session.scheduler.Decides False operation :=
    after.mono (fun _ _ _ => id) fun _ _ => False.elim
  have talks {Result : Type} (change : Mailroom → Result × Mailroom) :
      session.scheduler.Decides False (onMailroom change) :=
    after_onMailroom fun _ _ => id
  cases operation with
  | createTask function parent => exact drops (sound.decides_createTask function parent)
  | spawn function parent => exact drops (sound.decides_spawn function parent)
  | takeId => exact drops (After.modifyGet id)
  | openInbox owner => exact drops (talks _)
  | insertTask id function parent mailbox =>
    exact sound.decides_insertTask id function parent mailbox
  | schedule id => exact sound.decides_schedule id
  | setFlags id flags => exact sound.decides_update fun task => { task with flags }
  | watch id watcher => exact drops (succeeds (sound.after_watch id watcher))
  | retain id =>
    exact sound.decides_update fun task => { task with references := task.references + 1 }
  | release id => exact sound.decides_release id
  | send receiver value sender =>
    refine drops (After.bind (After.get ?_))
    cases session.scheduler.mailbox? receiver with
    | none => exact After.pure id
    | some mailbox => exact After.bind ((talks _).imp fun _ _ _ => After.pure id)
  | post mailbox message => exact talks fun room => ((), room.send mailbox message)
  | wake id => exact talks fun room => ((), room.wake id)
  | unpark => exact talks fun room => ((), room.unpark)
  | park => exact drops (talks _)
  | advanceClock duration => exact After.modify id
  | wait => exact succeeds sound.after_wait
  | rest => exact succeeds sound.after_rest
  | step | tick | run passes => exact absurd quiet nofun

/-- An operation in which no task has a turn breaks off just if it is forbidden, whatever the
embedder holds; then the tasks, the queues, the numbers of the tasks, the timers and who was woken
are as they were. -/
theorem Reachable.refusals (reachable : session.Reachable) (quiet : operation.givesTurns = false) :
    ((∃ crash next, operation.perform session.scheduler = .error crash next) ↔
      session.scheduler.Forbids operation) ∧
    ∀ crash next, operation.perform session.scheduler = .error crash next →
      crash.isRefusal = true ∧ next.Untouched session.scheduler := by
  obtain ⟨lists, sound⟩ := reachable.sound
  have decides := decides_perform sound quiet
  refine ⟨⟨fun ⟨crash, next, breaks⟩ => (decides.error breaks).1, fun forbidden => ?_⟩,
    fun crash next breaks => (decides.error breaks).2⟩
  cases performs : operation.perform session.scheduler with
  | ok result next => exact absurd forbidden (decides.ok performs)
  | error crash next => exact ⟨crash, next, rfl⟩

/-- A child of a task that never was is refused, and so is to release a task that nobody holds. One
that has ended can have another child. -/
theorem bereaved_refusals :
    (∃ crash next, (Operation.spawn default (some ⟨9⟩)).perform bereaved.scheduler =
      .error crash next ∧ next.Untouched bereaved.scheduler) ∧
    (∃ crash next, (Operation.release ⟨4⟩).perform bereaved.scheduler = .error crash next ∧
      next.Untouched bereaved.scheduler) ∧
    ¬ ∃ crash next, (Operation.createTask default (some ⟨2⟩)).perform bereaved.scheduler =
      .error crash next := by
  obtain ⟨spawns, spawned⟩ := bereaved_reachable.refusals
    (show (Operation.spawn default (some ⟨9⟩)).givesTurns = false from rfl)
  obtain ⟨releases, released⟩ := bereaved_reachable.refusals
    (show (Operation.release ⟨4⟩).givesTurns = false from rfl)
  obtain ⟨creates, _⟩ := bereaved_reachable.refusals
    (show (Operation.createTask default (some ⟨2⟩)).givesTurns = false from rfl)
  have ready : (bereaved.scheduler.task? ⟨4⟩).map (fun task => (task.life, task.references)) =
      some (.alive, 1) := by decide +kernel
  obtain ⟨task, present, seen⟩ := Option.map_eq_some_iff.mp ready
  obtain ⟨crash, next, breaks⟩ := spawns.mpr ⟨⟨9⟩, rfl, by decide +kernel⟩
  obtain ⟨refusal, last, refuses⟩ := releases.mpr
    (Or.inr ⟨task, present, congrArg Prod.fst seen, congrArg Prod.snd seen⟩)
  refine ⟨⟨crash, next, breaks, (spawned crash next breaks).2⟩,
    ⟨refusal, last, refuses, (released refusal last refuses).2⟩, fun breaks => ?_⟩
  obtain ⟨parent, named, gone⟩ := creates.mp breaks
  obtain rfl := Option.some.inj named
  exact absurd gone (by decide +kernel)

end Session

end TaskMachine
