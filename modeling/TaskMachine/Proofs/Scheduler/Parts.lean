/-
What the operations do that touch one part of a scheduler. Each says what holds
afterwards by what holds of that part, and that nothing else is changed.
-/

import TaskMachine.Proofs.Roster.Places
import TaskMachine.Scheduler.Basic

namespace TaskMachine.Scheduler

variable {Result : Type} {scheduler : Scheduler} {success : Result → Scheduler → Prop}
  {failure : Crash → Scheduler → Prop} {slot : Slot} {task : Task}

theorem after_onRoster {change : Rostering Result}
    (after : After change scheduler.roster
      (fun result roster => success result { scheduler with roster })
      fun crash roster => failure crash { scheduler with roster }) :
    After (onRoster change) scheduler success failure := by
  cases runs : change scheduler.roster with
  | ok result roster =>
    refine After.of_ok ?_ (after.ok runs)
    rw [onRoster, runs]
  | error crash roster =>
    refine After.of_error ?_ (after.error runs)
    rw [onRoster, runs]

theorem after_reading {read : Scheduler → Except Crash Result} {result : Result}
    (reads : read scheduler = .ok result) (succeeds : success result scheduler) :
    After (reading read) scheduler success failure := by
  refine After.bind (After.get ?_)
  rw [reads]
  exact After.pure succeeds

theorem after_reading_any {read : Scheduler → Except Crash Result}
    (succeeds : ∀ result, read scheduler = .ok result → success result scheduler)
    (fails : ∀ crash, failure crash scheduler) : After (reading read) scheduler success failure := by
  cases reads : read scheduler with
  | ok result => exact after_reading reads (succeeds result reads)
  | error crash =>
    refine After.bind (After.get ?_)
    rw [reads]
    exact After.throw (fails crash)

theorem after_fetch {success : Task → Scheduler → Prop}
    (present : scheduler.roster.task? slot = some task) (succeeds : success task scheduler) :
    After (fetch slot) scheduler success failure :=
  after_onRoster (After.of_ok (Roster.fetch_eq present) succeeds)

theorem after_update {success : Unit → Scheduler → Prop} {change : Task → Task}
    (present : scheduler.roster.task? slot = some task)
    (succeeds : success ⟨⟩ { scheduler with roster := scheduler.roster.alter slot change }) :
    After (update slot change) scheduler success failure :=
  after_onRoster (After.of_ok (Roster.update_eq present change) succeeds)

theorem after_onMailroom {change : Mailroom → Result × Mailroom}
    (succeeds : ∀ result mailroom, success result { scheduler with mailroom }) :
    After (onMailroom change) scheduler success failure := by
  refine After.modifyGet ?_
  exact succeeds _ _

theorem after_slotOf {success : Slot → Scheduler → Prop} {id : TaskId}
    (found : ∀ slot, scheduler.registry.find? id = some slot → success slot scheduler)
    (missing : scheduler.registry.find? id = none → failure (.destroyed id) scheduler) :
    After (slotOf id) scheduler success failure := by
  refine After.bind (After.get ?_)
  cases known : scheduler.registry.find? id with
  | none => exact After.throw (missing known)
  | some slot => exact After.pure (found slot known)

/-- What the embedder sends when it is told something changes the mailroom and nothing else. -/
theorem after_notify (scheduler : Scheduler) (notice : Notice) :
    After (notify notice) scheduler
      (fun _ next => ∃ mailroom,
        next = { scheduler with notices := notice :: scheduler.notices, mailroom })
      fun _ _ => False := by
  refine After.bind (After.modify (After.bind (After.get ?_)))
  refine After.forM (fun letter _ middle reached => ?_) ⟨scheduler.mailroom, rfl⟩
  obtain ⟨_, rfl⟩ := reached
  exact after_onMailroom fun _ mailroom => ⟨mailroom, rfl⟩

end TaskMachine.Scheduler
