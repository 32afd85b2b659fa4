/-
Between two operations the timers that are still to fire and the tasks that wait
for them correspond one to one. So no timer is left over and none is lost: a task
that waits for a timer goes on at the first poll whose time has reached the
deadline and at no other moment, if it does not end before that; and nothing is
left to do just when both queues are empty.
-/

import TaskMachine.Proofs.Scheduler.Polls
import TaskMachine.Proofs.Session.Basic
import TaskMachine.Scheduler.Report

namespace TaskMachine

/-- Whether the timers are polled in an operation. -/
def Operation.polls : Operation → Bool
  | tick | wait | rest | run _ => true
  | _ => false

namespace Session

variable {session next : Session} {operation : Operation}

/-- The timers are right after an operation, this is what has become of those that waited, and if
the timers were polled, all that were due have fired. -/
structure Minded (session : Session) (operation : Operation) (next : Scheduler) : Prop where
  timed : next.Timed []
  slumber : next.Slumber session.scheduler (operation.polls = true)
  served : operation.polls = true → next.Served session.scheduler

theorem minded_of_undisturbed {next : Scheduler} (timed : session.scheduler.Timed [])
    (unpolled : operation.polls = false) (same : next.Undisturbed session.scheduler) :
    session.Minded operation next :=
  ⟨same.timed timed, same.slumber, fun polls => absurd (unpolled.symm.trans polls) nofun⟩

/-- To release a task disturbs nobody who waits for a timer. -/
theorem after_release_undisturbed {lists : Lane → List Slot} {id : TaskId}
    (sound : session.scheduler.Sound session.scheduler [] lists session.held session.unscheduled
      none none) (held : id ∈ session.held) :
    After (Scheduler.release id) session.scheduler
      (fun _ next => next.Undisturbed session.scheduler) fun _ _ => False := by
  have placed : Scheduler.Preserves (·.roster.Placed session.scheduler.roster) True
      (Scheduler.release id) :=
    (Scheduler.indifferent_placed session.scheduler.roster).stable.preserves_release id
  have released : After (Scheduler.release id) session.scheduler
      (fun _ next => ∃ slot, session.scheduler.Released slot next) fun _ _ => True := by
    refine After.bind (Scheduler.after_slotOf (fun slot _ => ?_) fun _ => trivial)
    refine After.bind (Scheduler.after_onRoster (Roster.after_fetch (fun task _ => ?_)
      fun _ => trivial))
    split
    · exact (Scheduler.after_releaseSlot_released slot session.scheduler).imp fun _ _ released =>
        ⟨slot, released⟩
    · exact After.throw trivial
  refine (((sound.after_release held).and released).and (placed _ (.refl _))).mono
    (fun _ next known => ?_) fun _ _ broken => broken.1.1
  obtain ⟨⟨soundNow, slot, roster, registry, rfl, outlived, _⟩, placed⟩ := known
  refine ⟨placed, rfl, rfl, fun other => ?_⟩
  exact (sound.nap?_of_outlived outlived soundNow.since other).trans (if_neg List.not_mem_nil)

/-- Every operation minds the timers. -/
theorem after_perform_minded (sound : session.Sound) (timed : session.scheduler.Timed [])
    (operation : Operation) (permitted : session.Permits operation) :
    After operation.perform session.scheduler (fun _ => session.Minded operation)
      fun crash next => crash ≠ .endless → session.Minded operation next := by
  obtain ⟨lists, sound⟩ := sound
  have steady := Scheduler.steady_undisturbed session.scheduler
  have tokenless := Scheduler.tokenless_undisturbed session.scheduler
  have quiet {operation : Operation} (unpolled : operation.polls = false)
      (preserves : Scheduler.Preserves (·.Undisturbed session.scheduler) True operation.perform) :
      After operation.perform session.scheduler (fun _ => session.Minded operation)
        fun crash next => crash ≠ .endless → session.Minded operation next :=
    (preserves _ (.refl _)).mono (fun _ _ same => minded_of_undisturbed timed unpolled same)
      fun _ _ same _ => minded_of_undisturbed timed unpolled (same trivial)
  have drops {Result : Type} {operation : Scheduling Result}
      (preserves : Scheduler.Preserves (·.Undisturbed session.scheduler) True operation) :
      Scheduler.Preserves (·.Undisturbed session.scheduler) True (do let _ ← operation) :=
    preserves.bind fun _ => .pure ()
  cases operation with
  | createTask function parent =>
    exact quiet rfl (drops (steady.preserves_createTask function parent))
  | spawn function parent => exact quiet rfl (drops (steady.preserves_spawn function parent))
  | takeId => exact quiet rfl (drops steady.preserves_takeId)
  | openInbox owner => exact quiet rfl (drops (steady.preserves_openInbox owner))
  | insertTask id function parent mailbox =>
    refine quiet rfl fun scheduler same => Scheduler.Steady.after_insertTask same
      fun parent roster _ lent => ?_
    have lends := steady.lends same lent
    exact ⟨lends.placed.push _, lends.agenda, lends.clock, fun slot =>
      (Roster.nap?_push _ rfl slot).trans (lends.naps slot)⟩
  | schedule id => exact quiet rfl (steady.preserves_schedule id)
  | setFlags id flags => exact quiet rfl (steady.preserves_setFlags id flags)
  | watch id watcher => exact quiet rfl (drops (steady.preserves_watch id watcher))
  | retain id => exact quiet rfl (steady.preserves_retain id)
  | release id =>
    exact (after_release_undisturbed sound permitted).mono
      (fun _ _ same => minded_of_undisturbed timed rfl same) fun _ _ => False.elim
  | send id value sender => exact quiet rfl (drops (steady.preserves_send id value sender))
  | post mailbox message => exact quiet rfl (steady.preserves_post mailbox message)
  | wake id => exact quiet rfl (steady.preserves_wake id)
  | unpark => exact quiet rfl tokenless.preserves_unpark
  | park => exact quiet rfl (drops tokenless.preserves_takeToken)
  | advanceClock duration =>
    obtain ⟨timedNow, slumber⟩ := timed.elapse (Nat.le_add_right session.scheduler.clock duration)
    exact After.modify ⟨timedNow, slumber, nofun⟩
  | step =>
    have steps : After Scheduler.step session.scheduler
        (fun _ next => next.Rested session.scheduler session.held session.unscheduled False)
        fun _ _ => True := sound.after_step_rested timed
    refine After.bind ((sound.after_step_settled.and steps).mono
      (fun _ _ known => After.pure ?_) fun _ _ known ends => absurd known.1.1 ends)
    exact ⟨known.2.timed, known.2.slumber.mono False.elim, nofun⟩
  | tick =>
    refine After.bind ((sound.after_tick.and (sound.after_tick_polled timed)).mono
      (fun _ _ known => After.pure ?_) fun _ _ known ends => absurd known.1.1 ends)
    obtain ⟨_, polled, _⟩ := known
    exact ⟨polled.timed, polled.slumber.mono fun _ => rfl, fun _ => polled.served⟩
  | wait =>
    refine (sound.after_wait.and (sound.after_wait_polled timed)).mono (fun _ _ known => ?_)
      fun _ _ known => known.1.elim
    exact ⟨known.2.timed, known.2.slumber.mono fun _ => rfl, fun _ => known.2.served⟩
  | rest =>
    refine (sound.after_rest.and (sound.after_rest_polled timed)).mono (fun _ _ known => ?_)
      fun _ _ known => known.1.elim
    exact ⟨known.2.timed, known.2.slumber.mono fun _ => rfl, fun _ => known.2.served⟩
  | run passes =>
    refine After.bind ((sound.after_runWithin.and (sound.after_runWithin_polled timed)).mono
      (fun _ _ known => After.pure ?_) fun _ _ known ends => absurd known.1 ends)
    obtain ⟨_, rested, idle⟩ := known
    exact ⟨rested.timed, rested.slumber.mono fun _ => rfl, fun _ timer _ _ _ =>
      rested.timed.pending_eq_none idle timer⟩

theorem Step.minded (steps : session.Step operation next) (sound : session.Sound)
    (timed : session.scheduler.Timed []) : session.Minded operation next.scheduler := by
  cases steps with
  | success permitted succeeds =>
    exact (after_perform_minded sound timed operation permitted).ok succeeds
  | refusal permitted breaks ends =>
    exact (after_perform_minded sound timed operation permitted).error breaks ends

theorem Reachable.timed (reachable : session.Reachable) : session.scheduler.Timed [] := by
  induction reachable with
  | start config patience respond =>
    exact ⟨⟨.empty, Agenda.agrees_empty⟩, fun slot firing nap => absurd nap nofun,
      fun timer entry pending => absurd pending nofun, nofun⟩
  | step reachable steps inductionHypothesis =>
    exact (steps.minded reachable.sound inductionHypothesis).timed

/-- What becomes of a task that waits for a timer. -/
theorem Minded.sleeper (minded : session.Minded operation next.scheduler) {slot : Slot}
    {task : Task} {timer : TimerId} {entry : Timer}
    (sound : next.Sound)
    (present : session.scheduler.roster.task? slot = some task)
    (sleeps : task.awaited = some (.timer timer))
    (pending : session.scheduler.agenda.pending.find? timer = some entry) :
    (operation.polls = true ∧ entry.deadline ≤ next.scheduler.clock ∨
        next.scheduler.roster.Gone slot →
      next.scheduler.agenda.pending.find? timer = none ∧
        ∀ other later, next.scheduler.roster.task? other = some later →
          later.awaited ≠ some (.timer timer)) ∧
    (¬ (operation.polls = true ∧ entry.deadline ≤ next.scheduler.clock ∨
        next.scheduler.roster.Gone slot) →
      next.scheduler.agenda.pending.find? timer = some entry ∧
        ∃ later, next.scheduler.roster.task? slot = some later ∧ later.id = task.id ∧
          later.lane = some .wait ∧ later.awaited = some (.timer timer)) := by
  obtain ⟨lists, sound⟩ := sound
  have nap : session.scheduler.roster.nap? slot = some ⟨timer, task.id⟩ :=
    Roster.nap?_eq_some_iff.mpr ⟨task, present, sleeps, rfl⟩
  have become := minded.slumber.sleeps slot _ entry nap pending
  refine ⟨fun past => ?_, fun early => ?_⟩
  · have fired : next.scheduler.agenda.pending.find? timer = none := by
      rcases past with ⟨polls, due⟩ | gone
      · exact minded.served polls timer entry pending due
      · rcases become with ⟨still, _⟩ | ⟨missing, _⟩
        · obtain ⟨later, laterPresent, awaits, _⟩ := Roster.nap?_eq_some_iff.mp still
          have waits := (sound.queued.stands laterPresent).awaits.mp (awaits ▸ rfl)
          have alive := (sound.queued.stands laterPresent).alive waits
          exact absurd ((gone.2 later laterPresent).symm.trans alive) nofun
        · exact missing
    refine ⟨fired, fun other later laterPresent awaits => ?_⟩
    have again : next.scheduler.roster.nap? other = some ⟨timer, later.id⟩ :=
      Roster.nap?_eq_some_iff.mpr ⟨later, laterPresent, awaits, rfl⟩
    obtain ⟨_, found, _⟩ := (minded.timed.naps other _ again).resolve_left List.not_mem_nil
    exact absurd (fired.symm.trans found) nofun
  · rcases become with ⟨still, same⟩ | ⟨_, why⟩
    · obtain ⟨later, laterPresent, awaits, id⟩ := Roster.nap?_eq_some_iff.mp still
      have waits := (sound.queued.stands laterPresent).awaits.mp (awaits ▸ rfl)
      exact ⟨same, later, laterPresent, id,
        (sound.queued.lines.mem_iff laterPresent).mp waits, awaits⟩
    · exact absurd why.symm early

/-- The timers that are still to fire are just those that tasks in the wait queue wait for, one
timer for one task, and each tells its task; and nothing is left to do just when both queues are
empty, which is what a pass answers too. A task that waits for a timer waits through every operation
but one that ends it, when its timer is cancelled, or that polls the timers when the deadline has
come, when it goes on. -/
theorem Reachable.sleepers (reachable : session.Reachable) :
    (∃ run wait, session.scheduler.roster.slots .run = .ok run ∧
      session.scheduler.roster.slots .wait = .ok wait ∧
      (∀ timer id,
        (∃ entry, session.scheduler.agenda.pending.find? timer = some entry ∧ entry.task = id) ↔
          ∃ slot ∈ wait, ∃ task, session.scheduler.roster.task? slot = some task ∧
            task.awaited = some (.timer timer) ∧ task.id = id) ∧
      (∀ slot other task found timer, session.scheduler.roster.task? slot = some task →
        session.scheduler.roster.task? other = some found → task.awaited = some (.timer timer) →
          found.awaited = some (.timer timer) → other = slot) ∧
      (session.scheduler.isIdle = true ↔ run = [] ∧ wait = [])) ∧
    (∀ left next, Scheduler.tick session.scheduler = .ok left next →
      (left = .idle ↔ next.roster.slots .run = .ok [] ∧ next.roster.slots .wait = .ok [])) ∧
    ∀ operation next, session.Step operation next → ∀ slot task timer entry,
      session.scheduler.roster.task? slot = some task → task.awaited = some (.timer timer) →
      session.scheduler.agenda.pending.find? timer = some entry →
        (operation.polls = true ∧ entry.deadline ≤ next.scheduler.clock ∨
            next.scheduler.roster.Gone slot →
          next.scheduler.agenda.pending.find? timer = none ∧
            ∀ other later, next.scheduler.roster.task? other = some later →
              later.awaited ≠ some (.timer timer)) ∧
        (¬ (operation.polls = true ∧ entry.deadline ≤ next.scheduler.clock ∨
            next.scheduler.roster.Gone slot) →
          next.scheduler.agenda.pending.find? timer = some entry ∧
            ∃ later, next.scheduler.roster.task? slot = some later ∧ later.id = task.id ∧
              later.lane = some .wait ∧ later.awaited = some (.timer timer)) := by
  have timed := reachable.timed
  obtain ⟨lists, sound⟩ := reachable.sound
  have lines := sound.queued.lines
  refine ⟨⟨lists .run, lists .wait, lines.slots .run, lines.slots .wait,
    fun timer id => sound.pending_iff timed, fun slot other task found timer present otherPresent =>
      sound.eq_of_awaited timed present otherPresent, ?_⟩, fun left next ticks => ?_,
    fun operation next steps slot task timer entry present sleeps pending => ?_⟩
  · rw [Scheduler.isIdle, decide_eq_true_iff]
    exact sound.idle_iff timed
  · obtain ⟨polled, rfl⟩ := (sound.after_tick_polled timed).ok ticks
    obtain ⟨listsNow, soundNow⟩ := polled.settled
    rw [soundNow.idle_iff polled.timed, soundNow.queued.lines.slots,
      soundNow.queued.lines.slots, Except.ok.injEq, Except.ok.injEq]
  · exact (steps.minded reachable.sound timed).sleeper (reachable.step steps).sound present
      sleeps pending

/-- A program that waits for a timer. -/
def dozing : Function :=
  { (default : Function) with
    constants := #[.number 0]
    code := #[Instruction.sleep constantBase] }

/-- A task waits for a timer. -/
def napping : Session :=
  ((start .standard 0 fun _ => []).continued (.spawn dozing none)).continued .tick

theorem napping_reachable : napping.Reachable := by
  refine .continued (.continued (.start _ _ _) trivial ?_) trivial ?_ <;> decide +kernel

/-- The timer is to tell the task, which is not woken by a message. -/
theorem napping_sleepers : napping.scheduler.isIdle = false ∧
    ∃ entry, napping.scheduler.agenda.pending.find? ⟨1⟩ = some entry ∧ entry.task = ⟨1⟩ ∧
      (napping.continued (.send ⟨1⟩ .nil none)).scheduler.agenda.pending.find? ⟨1⟩ = some entry ∧
      ∃ later, (napping.continued (.send ⟨1⟩ .nil none)).scheduler.roster.task? 0 = some later ∧
        later.lane = some .wait ∧ later.awaited = some (.timer ⟨1⟩) := by
  obtain ⟨⟨run, wait, _, waits, timers, _, idle⟩, _, sleeper⟩ := napping_reachable.sleepers
  have waitIs : (napping.scheduler.roster.slots .wait).toOption = some [0] := by decide +kernel
  rw [waits] at waitIs
  obtain rfl := Option.some.inj waitIs
  have asleep : (napping.scheduler.roster.task? 0).map (fun task => (task.id, task.awaited)) =
      some (⟨1⟩, some (.timer ⟨1⟩)) := by decide +kernel
  obtain ⟨task, present, known⟩ := Option.map_eq_some_iff.mp asleep
  obtain ⟨id, sleeps⟩ := Prod.mk.inj known
  obtain ⟨entry, pending, tells⟩ := (timers ⟨1⟩ ⟨1⟩).mpr ⟨0, by simp, task, present, sleeps, id⟩
  have steps : napping.Step (.send ⟨1⟩ .nil none) (napping.continued (.send ⟨1⟩ .nil none)) :=
    step_continued trivial (by decide +kernel)
  have alive : ((napping.continued (.send ⟨1⟩ .nil none)).scheduler.roster.task? 0).map Task.life =
      some .alive := by decide +kernel
  obtain ⟨same, later, laterPresent, _, queued, awaits⟩ :=
    (sleeper _ _ steps 0 task ⟨1⟩ entry present sleeps pending).2 (by
      rintro (⟨polls, _⟩ | gone)
      · exact absurd polls nofun
      · obtain ⟨found, foundPresent, lives⟩ := Option.map_eq_some_iff.mp alive
        exact absurd ((gone.2 found foundPresent).symm.trans lives) nofun)
  refine ⟨Bool.eq_false_iff.mpr fun nothing => ?_, entry, pending, tells, same, later,
    laterPresent, queued, awaits⟩
  exact absurd (idle.mp nothing).2 nofun

end Session

end TaskMachine
