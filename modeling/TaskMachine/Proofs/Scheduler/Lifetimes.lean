/-
Tasks come and go, and the scheduler stays sound. To release a task that a
reference is owed to cannot break off: there is a reference to take, and on the
way from a task to its parent and so on every task is there. Only tasks that
have ended are destroyed on that way.
-/

import TaskMachine.Proofs.Scheduler.Sound
import TaskMachine.Scheduler.Lifetime

namespace TaskMachine.Scheduler

variable {Result : Type} {success : Result → Scheduler → Prop} {failure : Crash → Scheduler → Prop}
  {origin scheduler : Scheduler} {ended : List Slot} {lists : Lane → List Slot}
  {held unscheduled : List TaskId} {running owed : Option Slot} {slot : Slot} {task : Task}

/-- An operation was refused, which leaves a scheduler as sound as it was. -/
def Refused (origin : Scheduler) (ended : List Slot) (lists : Lane → List Slot)
    (held unscheduled : List TaskId) (crash : Crash) (scheduler : Scheduler) : Prop :=
  crash.isRefusal = true ∧ scheduler.Sound origin ended lists held unscheduled none none

/-- A task is alive and in no queue. -/
structure Idle (scheduler : Scheduler) (lists : Lane → List Slot) (id : TaskId) (slot : Slot) :
    Prop where
  known : scheduler.registry.find? id = some slot
  alive : ∃ task, scheduler.roster.task? slot = some task ∧ task.id = id ∧ task.life = .alive
  apart : ∀ lane, slot ∉ lists lane

namespace Sound

/-- A registered task is there. -/
theorem registered (sound : scheduler.Sound origin ended lists held unscheduled running owed)
    {id : TaskId} (known : scheduler.registry.find? id = some slot) :
    ∃ task, scheduler.roster.task? slot = some task ∧ task.id = id :=
  sound.counted.registered.mp known

/-! ### Creation -/

/-- The next number is in use nowhere. -/
theorem unused (sound : scheduler.Sound origin ended lists held unscheduled running owed) :
    scheduler.registry.find? scheduler.nextId = none := by
  cases known : scheduler.registry.find? scheduler.nextId with
  | none => rfl
  | some slot =>
    obtain ⟨task, present, same⟩ := sound.registered known
    have below := sound.counted.numbered present
    rw [same] at below
    exact absurd below (Nat.lt_irrefl _)

theorem takeId (sound : scheduler.Sound origin ended lists held unscheduled running owed) :
    ({ scheduler with nextId := scheduler.nextId.next } : Scheduler).Sound origin ended lists held
      unscheduled running owed :=
  ⟨sound.counted.grow (Nat.le_succ _), sound.queued, sound.oneShot,
    sound.since.later rfl ⟨[], rfl⟩ fun _ task present alive =>
      ⟨task, present, alive, rfl, List.Subset.refl _⟩⟩

/-- A task comes whose parent was given a reference before. -/
theorem push {id : TaskId} {function : Function} {parent : Option Slot} {mailbox : Mailbox}
    (sound : scheduler.Sound origin ended lists held unscheduled running parent)
    (fresh : scheduler.registry.find? id = none) (numbered : id.number < scheduler.nextId.number)
    (parentKnown : ∀ slot, parent = some slot → ∃ found, scheduler.roster.task? slot = some found) :
    ({ scheduler with
        roster := { scheduler.roster with
          tasks := scheduler.roster.tasks.push (some (.created id function parent mailbox)) }
        registry := scheduler.registry.insert id scheduler.roster.tasks.size } : Scheduler).Sound
      origin ended lists held (id :: unscheduled) running none where
  counted := sound.counted.push fresh rfl rfl numbered parentKnown
  queued := sound.queued.push rfl rfl rfl rfl
  oneShot := sound.oneShot
  since := sound.since.later rfl ⟨[], rfl⟩ fun slot task present alive => by
    exact ⟨task, Roster.task?_push_of_present present, alive, rfl, List.Subset.refl _⟩

theorem after_insert {id : TaskId} {function : Function} {parent : Option Slot} {mailbox : Mailbox}
    (sound : scheduler.Sound origin ended lists held unscheduled running none)
    (fresh : scheduler.registry.find? id = none) (numbered : id.number < scheduler.nextId.number)
    (parentKnown : ∀ slot, parent = some slot → ∃ found, scheduler.roster.task? slot = some found) :
    After (insert id function parent mailbox) scheduler
      (fun slot next => next.Sound origin ended lists held (id :: unscheduled) running none ∧
        next.Idle lists id slot) fun _ _ => False := by
  have adds {middle : Scheduler}
      (sound : middle.Sound origin ended lists held unscheduled running parent)
      (fresh : middle.registry.find? id = none) (numbered : id.number < middle.nextId.number)
      (parentKnown : ∀ slot, parent = some slot → ∃ found, middle.roster.task? slot = some found) :
      After (do
        let slot ← onRoster (Roster.add (.created id function parent mailbox))
        modify fun scheduler => { scheduler with registry := scheduler.registry.insert id slot }
        pure slot) middle
        (fun slot next => next.Sound origin ended lists held (id :: unscheduled) running none ∧
          next.Idle lists id slot) fun _ _ => False := by
    refine After.bind (after_onRoster (After.of_ok (Roster.add_eq _ _) ?_))
    refine After.bind (After.modify (After.pure ⟨sound.push fresh numbered parentKnown, ?_⟩))
    refine ⟨Table.find?_insert_self _ _ _, ⟨.created id function parent mailbox, ?_, rfl, rfl⟩,
      fun lane member => ?_⟩
    · exact (Roster.task?_push _ _ _).trans (if_pos rfl)
    · exact Nat.lt_irrefl _ ((sound.queued.lines lane).lt_size member)
  cases parent with
  | none => exact adds sound fresh numbered parentKnown
  | some parent =>
    obtain ⟨found, present⟩ := parentKnown parent rfl
    refine After.bind (after_update present ?_)
    have lent := sound.recount (sound.counted.borrow present) (fun _ => rfl)
      fun _ => List.Subset.refl _
    refine adds lent fresh numbered fun slot same => ?_
    obtain rfl := Option.some.inj same
    exact Roster.task?_alter_present _ _ present

/-- A task can be inserted under a number that was handed out, unless it is in use. -/
theorem after_insertTask {id : TaskId} {function : Function} {parent : Option TaskId}
    {mailbox : Mailbox} (sound : scheduler.Sound origin ended lists held unscheduled none none)
    (numbered : id.number < scheduler.nextId.number) :
    After (insertTask id function parent mailbox) scheduler
      (fun _ next => next.Sound origin ended lists held (id :: unscheduled) none none ∧
        ∃ slot, next.Idle lists id slot) (Refused origin ended lists held unscheduled) := by
  refine After.bind (After.get ?_)
  cases known : scheduler.registry.find? id with
  | some slot =>
    simp only [Table.contains, known]
    exact After.throw ⟨rfl, sound⟩
  | none =>
    simp only [Table.contains, known, Option.isSome_none, Bool.false_eq_true, if_false]
    have inserts (parent : Option Slot)
        (parentKnown : ∀ slot, parent = some slot →
          ∃ found, scheduler.roster.task? slot = some found) :
        After (do
          let _ ← insert id function parent mailbox
          pure ()) scheduler
          (fun _ next => next.Sound origin ended lists held (id :: unscheduled) none none ∧
            ∃ slot, next.Idle lists id slot) (Refused origin ended lists held unscheduled) := by
      refine After.bind ((sound.after_insert known numbered parentKnown).mono ?_
        fun _ _ => False.elim)
      exact fun slot next inserted => After.pure ⟨inserted.1, slot, inserted.2⟩
    cases parent with
    | none => exact inserts none fun _ same => absurd same (by simp)
    | some parent =>
      refine After.bind (After.bind (after_slotOf (fun slot registered => ?_)
        fun _ => ⟨rfl, sound⟩))
      refine After.pure (inserts (some slot) fun other same => ?_)
      obtain rfl := Option.some.inj same
      obtain ⟨found, present, _⟩ := sound.registered registered
      exact ⟨found, present⟩

/-- A new task can be created, unless its parent is gone. -/
theorem after_createTask (sound : scheduler.Sound origin ended lists held unscheduled none none)
    (function : Function) (parent : Option TaskId) :
    After (createTask function parent) scheduler
      (fun id next => id = scheduler.nextId ∧
        next.Sound origin ended lists held (id :: unscheduled) none none ∧
        ∃ slot, next.Idle lists id slot) (Refused origin ended lists held unscheduled) := by
  refine After.bind (After.modifyGet (After.bind (after_onMailroom fun mailbox room => ?_)))
  refine After.bind (((sound.takeId.mailroom room).after_insertTask (Nat.lt_succ_self _)).imp ?_)
  exact fun _ next inserted => After.pure ⟨rfl, inserted⟩

/-! ### Joining the run queue -/

/-- A task in no queue joins the run queue. -/
theorem join {unscheduledNow : List TaskId} {id : TaskId}
    (sound : scheduler.Sound origin ended lists held unscheduled running none)
    (idle : scheduler.Idle lists id slot)
    (kept : ∀ other, other ≠ id → other ∈ unscheduled → other ∈ unscheduledNow) :
    ∃ roster, Roster.pushTail .run slot scheduler.roster = .ok ⟨⟩ roster ∧
      ({ scheduler with roster } : Scheduler).Sound origin ended
        (Function.update lists .run (lists .run ++ [slot])) held unscheduledNow running none := by
  obtain ⟨task, present, rfl, alive⟩ := idle.alive
  obtain ⟨roster, pushes, same, queued⟩ := sound.queued.join present alive idle.apart
    fun place found differ foundPresent => kept found.id fun same =>
      differ (sound.counted.eq_of_id present foundPresent same)
  exact ⟨roster, pushes, sound.rearrange (same.map Task.seen fun _ => rfl) queued⟩

/-- A task in no queue can be scheduled, and only such a task. -/
theorem after_schedule {unscheduledNow : List TaskId} {id : TaskId}
    (sound : scheduler.Sound origin ended lists held unscheduled none none)
    (kept : ∀ other, other ≠ id → other ∈ unscheduled → other ∈ unscheduledNow) :
    After (schedule id) scheduler
      (fun _ next => next.Settled origin ended held unscheduledNow)
      fun crash next => Refused origin ended lists held unscheduled crash next ∧
        ∀ slot, ¬ scheduler.Idle lists id slot := by
  refine After.bind (after_slotOf (fun slot known => ?_) fun missing =>
    ⟨⟨rfl, sound⟩, fun slot idle => ?_⟩)
  · obtain ⟨task, present, rfl⟩ := sound.registered known
    refine After.bind (after_fetch present ?_)
    by_cases idle : scheduler.Idle lists task.id slot
    · obtain ⟨found, foundPresent, _, alive⟩ := idle.alive
      obtain rfl := Option.some.inj (present.symm.trans foundPresent)
      obtain ⟨roster, pushes, joined⟩ := sound.join idle kept
      rw [alive]
      exact after_onRoster (After.of_ok pushes ⟨_, joined⟩)
    · have never (other : Slot) : ¬ scheduler.Idle lists task.id other := fun again => by
        obtain rfl := Option.some.inj (known.symm.trans again.known)
        exact idle again
      cases life : task.life with
      | zombie => exact After.throw ⟨⟨rfl, sound⟩, never⟩
      | alive =>
        cases queued : task.lane with
        | none =>
          refine absurd ⟨known, ⟨task, present, rfl, life⟩, fun lane member => ?_⟩ idle
          rw [sound.queued.lines.mem_iff present, queued] at member
          exact absurd member nofun
        | some lane =>
          exact after_onRoster (After.of_error (Roster.pushTail_eq_error .run present queued)
            ⟨⟨rfl, sound⟩, never⟩)
  · rw [idle.known] at missing
    exact absurd missing nofun

/-- A new task can be created and scheduled, unless its parent is gone. -/
theorem after_spawn (sound : scheduler.Sound origin ended lists held unscheduled none none)
    (function : Function) (parent : Option TaskId) :
    After (spawn function parent) scheduler
      (fun _ next => next.Settled origin ended held unscheduled)
      (Refused origin ended lists held unscheduled) := by
  refine After.bind ((sound.after_createTask function parent).imp fun id created made => ?_)
  obtain ⟨rfl, createdSound, slot, idle⟩ := made
  have schedules := createdSound.after_schedule fun other differ member =>
    (List.mem_cons.mp member).resolve_left differ
  refine After.bind (schedules.mono ?_ ?_)
  · exact fun _ _ scheduled => After.pure scheduled
  · exact fun _ _ refused => absurd idle (refused.2 slot)

/-- In its turn a task can create a child, which joins the run queue. -/
theorem after_spawnChild (sound : scheduler.Sound origin ended lists held unscheduled running none)
    (present : scheduler.roster.task? slot = some task) (function : Function) :
    After (spawnChild function slot) scheduler
      (fun _ next => ∃ child, next.Sound origin ended
        (Function.update lists .run (lists .run ++ [child])) held unscheduled running none)
      fun _ _ => False := by
  refine After.bind (After.modifyGet (After.bind (after_onMailroom fun mailbox room => ?_)))
  refine After.bind (((sound.takeId.mailroom room).after_insert sound.unused (Nat.lt_succ_self _)
    fun other same => ?_).imp fun child inserted made => ?_)
  · obtain rfl := Option.some.inj same
    exact ⟨task, present⟩
  · obtain ⟨roster, pushes, joined⟩ := made.1.join made.2
      fun other differ member => (List.mem_cons.mp member).resolve_left differ
    exact After.bind (after_onRoster (After.of_ok pushes (After.pure ⟨_, joined⟩)))

/-! ### References -/

/-- A task that gives up its last reference, and is destroyed, is in no queue. -/
theorem lane_eq_none_of_last
    (sound : scheduler.Sound origin ended lists held unscheduled running (some slot))
    (present : scheduler.roster.task? slot = some task) (last : task.references = 1) :
    task.lane = none := by
  obtain ⟨-, zombie⟩ := sound.counted.drop present last
  cases inLane : task.lane with
  | none => rfl
  | some lane =>
    have member : slot ∈ lists lane := (sound.queued.lines.mem_iff present).mpr inLane
    obtain ⟨found, again, alive, -⟩ := sound.queued.present member
    obtain rfl := Option.some.inj (present.symm.trans again)
    exact absurd (zombie.symm.trans alive) nofun

/-- The reference that is owed is taken, and the tasks that lose their last one are destroyed. -/
theorem after_releaseWithin {tasks : Nat}
    (sound : scheduler.Sound origin ended lists held unscheduled running (some slot))
    (present : scheduler.roster.task? slot = some task) (enough : slot < tasks) :
    After (releaseWithin tasks slot) scheduler
      (fun _ next => next.Sound origin ended lists held unscheduled running none)
      fun _ _ => False := by
  induction tasks generalizing scheduler slot task with
  | zero => exact absurd enough (Nat.not_lt_zero slot)
  | succ tasks inductionHypothesis =>
    have positive := sound.counted.referenced present
    refine After.bind (after_fetch present ?_)
    match count : task.references with
    | 0 => rw [count] at positive; exact absurd positive (Nat.lt_irrefl 0)
    | 1 =>
      obtain ⟨counted, zombie⟩ := sound.counted.drop present count
      have dropped : ({ scheduler with
          roster := scheduler.roster.setTask slot none
          registry := scheduler.registry.erase task.id } : Scheduler).Sound origin ended lists held
          unscheduled running task.parent := by
        refine ⟨counted, sound.queued.drop present zombie, sound.oneShot,
          sound.since.later rfl ⟨[], rfl⟩ fun other found foundPresent alive => ?_⟩
        refine ⟨found, Roster.task?_drop_of_present ?_ foundPresent, alive, rfl,
          List.Subset.refl _⟩
        rintro rfl
        rw [present] at foundPresent
        rw [Option.some.inj foundPresent, alive] at zombie
        exact absurd zombie nofun
      refine After.bind (after_onRoster (After.of_ok (Roster.drop_eq _ slot) ?_))
      refine After.bind (After.modify ?_)
      cases own : task.parent with
      | none =>
        rw [own] at dropped
        exact After.pure dropped
      | some parent =>
        rw [own] at dropped
        obtain ⟨sooner, found, foundPresent⟩ := sound.counted.parent present own
        exact inductionHypothesis dropped
          (Roster.task?_drop_of_present (Nat.ne_of_lt sooner) foundPresent)
          (Nat.lt_of_lt_of_le sooner (Nat.le_of_lt_succ enough))
    | left + 2 =>
      refine after_update present ?_
      exact sound.recount (sound.counted.repay present count) (fun _ => rfl)
        fun _ => List.Subset.refl _

theorem after_releaseSlot
    (sound : scheduler.Sound origin ended lists held unscheduled running (some slot))
    (present : scheduler.roster.task? slot = some task) :
    After (releaseSlot slot) scheduler
      (fun _ next => next.Sound origin ended lists held unscheduled running none)
      fun _ _ => False := by
  refine After.bind (After.get ?_)
  exact sound.after_releaseWithin present
    (Nat.lt_succ_of_lt (Roster.lt_size_of_task?_eq_some present))

/-- A task is held once more. -/
theorem after_retain (sound : scheduler.Sound origin ended lists held unscheduled none none)
    (id : TaskId) :
    After (retain id) scheduler
      (fun _ next => next.Sound origin ended lists (id :: held) unscheduled none none)
      (Refused origin ended lists held unscheduled) := by
  refine After.bind (after_slotOf (fun slot known => ?_) fun _ => ⟨rfl, sound⟩)
  obtain ⟨task, present, rfl⟩ := sound.registered known
  refine after_update present ?_
  exact sound.recount (sound.counted.hold present) (fun _ => rfl) fun _ => List.Subset.refl _

/-- A task that is held can be released. -/
theorem after_release (sound : scheduler.Sound origin ended lists held unscheduled none none)
    {id : TaskId} (member : id ∈ held) :
    After (release id) scheduler
      (fun _ next => next.Sound origin ended lists (held.erase id) unscheduled none none)
      fun _ _ => False := by
  obtain ⟨slot, known⟩ := sound.counted.held member
  obtain ⟨task, present, rfl⟩ := sound.registered known
  have references := sound.counted.references present
  have positive := List.count_pos_iff.mpr member
  have allowed : task.life = .zombie ∨ 1 < task.references := by
    cases life : task.life with
    | zombie => exact Or.inl rfl
    | alive =>
      rw [life] at references
      simp only [Life.count] at references
      exact Or.inr (by omega)
  have unheld :
      scheduler.Sound origin ended lists (held.erase task.id) unscheduled none (some slot) :=
    ⟨sound.counted.unhold present member, sound.queued, sound.oneShot, sound.since⟩
  refine After.bind (after_slotOf (fun other same => ?_) fun missing => ?_)
  · rw [known] at same
    obtain rfl := Option.some.inj same
    refine After.bind (after_fetch present ?_)
    rw [if_pos allowed]
    exact unheld.after_releaseSlot present
  · exact absurd (known.symm.trans missing) (by simp)

/-! ### Options and watchers -/

theorem after_setFlags (sound : scheduler.Sound origin ended lists held unscheduled none none)
    (id : TaskId) (flags : Flags) :
    After (setFlags id flags) scheduler
      (fun _ next => next.Sound origin ended lists held unscheduled none none)
      (Refused origin ended lists held unscheduled) := by
  refine After.bind (after_slotOf (fun slot known => ?_) fun _ => ⟨rfl, sound⟩)
  obtain ⟨task, present, _⟩ := sound.registered known
  refine after_update present ?_
  exact sound.recount (sound.counted.alter slot fun _ => rfl) (fun _ => rfl)
    fun _ => List.Subset.refl _

theorem after_watch (sound : scheduler.Sound origin ended lists held unscheduled none none)
    (id : TaskId) (watcher : Nat) :
    After (watch id watcher) scheduler
      (fun _ next => next.Sound origin ended lists held unscheduled none none)
      fun _ _ => False := by
  refine After.bind (After.get ?_)
  cases known : scheduler.registry.find? id with
  | none => exact After.pure sound
  | some slot =>
    refine After.bind (After.get ?_)
    cases present : scheduler.roster.task? slot with
    | none => exact After.pure sound
    | some task =>
      cases life : task.life with
      | zombie =>
        simp only [life]
        exact After.pure sound
      | alive =>
        simp only [life]
        refine After.bind (after_update present (After.pure ?_))
        exact sound.recount (sound.counted.alter slot fun _ => rfl) (fun _ => rfl)
          fun _ => List.subset_append_left _ _

end Sound

end TaskMachine.Scheduler
