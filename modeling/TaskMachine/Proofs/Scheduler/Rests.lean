/-
Whoever ends or begins to wait tends the timers. A task that ends takes its timer
with it, and a task that begins to wait gets one of its own. If a task goes on
that waited for a timer, that timer has fired, and nobody else goes on.
-/

import TaskMachine.Proofs.Scheduler.Passes
import TaskMachine.Proofs.Scheduler.Sleepers

namespace TaskMachine.Scheduler

variable {scheduler middle origin next final : Scheduler} {fired remaining : List Firing}
  {polled : Prop} {ended behind : List Slot} {lists : Lane → List Slot}
  {held unscheduled : List TaskId} {running owed : Option Slot} {slot : Slot} {task : Task}
  {lane : Lane} {firing : Firing} {endings : List (Slot × Exit)}

/-! ### Endings -/

/-- A task that is in a queue ends. -/
theorem Sound.after_endTask_rested
    (sound : scheduler.Sound origin ended lists held unscheduled running none)
    (timed : scheduler.Timed []) (member : slot ∈ lists lane)
    (turn : ∀ {place}, running = some place → place = slot) (exit : Exit) :
    After (endTask slot exit) scheduler
      (fun _ next => next.Rested scheduler held unscheduled polled) fun _ _ => True := by
  have placed : Preserves (·.roster.Placed scheduler.roster) True (endTask slot exit) :=
    (indifferent_placed scheduler.roster).stable.preserves_endTask slot exit
  refine ((sound.restart.after_endTask member turn exit).and (placed scheduler (.refl _))).mono
    (fun _ next known => ?_) fun _ _ _ => trivial
  obtain ⟨⟨soundNow, departed⟩, placed⟩ := known
  exact ⟨departed.tended sound timed soundNow.since placed, _, soundNow.restart⟩

/-- Tasks that are in queues end, one after another. -/
theorem Endings.rests (ends : scheduler.Endings endings final)
    (sound : scheduler.Sound origin ended lists held unscheduled none none)
    (timed : scheduler.Timed []) (distinct : (endings.map Prod.fst).Nodup)
    (queued : ∀ slot ∈ endings.map Prod.fst, ∃ lane, slot ∈ lists lane) :
    final.Rested scheduler held unscheduled polled := by
  have pending (scheduler : Scheduler) (deathsPending : Bool) :
      ({ scheduler with deathsPending } : Scheduler).Undisturbed scheduler :=
    ⟨.refl _, rfl, rfl, fun _ => rfl⟩
  induction ends generalizing origin ended lists with
  | done scheduler deathsPending =>
    have looked : ({ scheduler with deathsPending } : Scheduler).Sound origin ended lists held
        unscheduled none none := sound.congr rfl rfl rfl sound.oneShot rfl ⟨[], rfl⟩
    exact ⟨(pending scheduler deathsPending).tended timed, lists, looked.restart⟩
  | @one scheduler middle final slot exit rest deathsPending ends _ inductionHypothesis =>
    have looked : ({ scheduler with deathsPending } : Scheduler).Sound origin ended lists held
        unscheduled none none := sound.congr rfl rfl rfl sound.oneShot rfl ⟨[], rfl⟩
    have same := pending scheduler deathsPending
    obtain ⟨apart, distinctRest⟩ := List.nodup_cons.mp distinct
    obtain ⟨lane, member⟩ := queued slot List.mem_cons_self
    obtain ⟨soundNow, _⟩ := (looked.after_endTask member nofun exit).ok ends
    have rested : middle.Rested { scheduler with deathsPending } held unscheduled polled :=
      (looked.after_endTask_rested (same.timed timed) member nofun exit).ok ends
    refine (inductionHypothesis soundNow rested.timed distinctRest fun other inside => ?_).trans
      (rested.toTended.trans (same.tended timed) timed) timed
    obtain ⟨otherLane, among⟩ := queued other (List.mem_cons_of_mem _ inside)
    refine ⟨otherLane, Roster.mem_without.mpr ⟨among, ?_⟩⟩
    rw [List.mem_singleton]
    rintro rfl
    exact apart inside

/-- A task ends and then all orphans do, if something still refers to it. -/
theorem Sound.after_close_rested
    (sound : scheduler.Sound origin ended lists held unscheduled running none)
    (timed : scheduler.Timed []) (member : slot ∈ lists lane)
    (turn : ∀ {place}, running = some place → place = slot) (exit : Exit) :
    After (do endTask slot exit; sweepOrphans) scheduler
      (fun _ next => next.Rested scheduler held unscheduled polled) fun _ _ => True := by
  refine (sound.after_close member turn exit).mono (fun _ next closed => ?_) fun _ _ _ => trivial
  obtain ⟨left, swept, ends, _, sweeping, _⟩ := closed
  have rested : left.Rested scheduler held unscheduled polled :=
    (sound.after_endTask_rested timed member turn exit).ok ends
  have order : (swept.reverse.map (·, Exit.orphaned)).map Prod.fst = swept.reverse := by
    rw [List.map_map]
    exact List.map_id _
  refine (sweeping.endings.rests sweeping.began rested.timed ?_ fun other inside => ?_).trans
    rested.toTended timed
  · rw [order]
    exact List.nodup_reverse.mpr sweeping.distinct
  · rw [order, List.mem_reverse] at inside
    obtain ⟨task, lane, present, queued⟩ := (sweeping.orphans other inside).queued
    exact ⟨lane, (sweeping.began.queued.lines.mem_iff present).mpr queued⟩

/-! ### Turns -/

/-- A task that does not wait for a timer begins to wait for a new one. -/
theorem after_suspend_timer (timed : scheduler.Timed [])
    (present : scheduler.roster.task? slot = some task)
    (awake : scheduler.roster.nap? slot = none) (after : Nat) :
    After (do
      let timer ← startTimer after none task.id
      suspend slot (.timer timer)) scheduler
      (fun _ next => next.Tended scheduler polled) fun _ _ => True :=
  After.bind (After.modifyGet ((after_suspend _ slot _).imp fun _ _ rewaited =>
    rewaited.tended timed present awake))

/-- A task that does not wait for a timer begins to wait for a message. -/
theorem after_suspend_message (timed : scheduler.Timed [])
    (awake : scheduler.roster.nap? slot = none) :
    After (suspend slot .message) scheduler (fun _ next => next.Tended scheduler polled)
      fun _ _ => True := by
  refine (after_suspend scheduler slot .message).imp fun _ next rewaited => ?_
  have same : next.Undisturbed scheduler := by
    refine ⟨rewaited.placed, by rw [rewaited.rest], by rw [rewaited.rest], fun other => ?_⟩
    rw [rewaited.nap?]
    split
    · rename_i is
      rw [is, awake]
      cases scheduler.roster.task? slot <;> rfl
    · rfl
  exact same.tended timed

/-- The task that has had its turn stays, waits or ends. -/
theorem Sound.after_settle_tended
    (sound : scheduler.Sound origin ended lists held unscheduled (some slot) none)
    (timed : scheduler.Timed []) (present : scheduler.roster.task? slot = some task)
    (stack : Stack) (status : Status) :
    After (settle slot task.id stack status) scheduler
      (fun _ next => next.Tended scheduler polled) fun _ _ => True := by
  have steady := steady_undisturbed scheduler
  have member : slot ∈ lists .run := List.mem_of_head? (sound.queued.turn rfl)
  have awake := sound.nap?_eq_none (sound.queued.lines.apart member (by decide))
  have turn {place : Slot} (same : some slot = some place) : place = slot :=
    (Option.some.inj same).symm
  have finishes (exit : Exit) : After (do endTask slot exit; sweepOrphans) scheduler
      (fun _ next => next.Tended scheduler polled) fun _ _ => True :=
    (sound.after_close_rested timed member turn exit).imp fun _ _ rested => rested.toTended
  -- When the task has its stack back, nothing else has changed yet.
  have puts {operation : Scheduling Unit}
      (goesOn : ∀ ready : Scheduler, ready.Undisturbed scheduler →
        ready.roster.task? slot = some (task.arm stack) →
          After operation ready (fun _ next => next.Tended scheduler polled) fun _ _ => True) :
      After (do putStack slot stack; operation) scheduler
        (fun _ next => next.Tended scheduler polled) fun _ _ => True := by
    refine After.bind (after_update present (goesOn _ ?_ ?_))
    · exact steady.alter slot (.refl scheduler) (fun _ => rfl) (fun _ => rfl) (fun _ => rfl)
        fun _ => id
    · exact (Roster.task?_alter_of_present present _ slot).trans (if_pos rfl)
  have stays (ready : Scheduler) (same : ready.Undisturbed scheduler) : After (requeue slot) ready
      (fun _ next => next.Tended scheduler polled) fun _ _ => True := by
    have requeues : Preserves (·.Undisturbed scheduler) True (requeue slot) :=
      steady.preserves_requeue slot
    exact (requeues ready same).mono (fun _ _ same => same.tended timed) fun _ _ _ => trivial
  cases status with
  | yielded => exact puts fun ready same _ => stays ready same
  | suspended wait =>
    cases wait with
    | timer after =>
      refine puts fun ready same there => ?_
      refine (after_suspend_timer (same.timed timed) there ((same.naps slot).trans awake)
        after).imp fun _ _ tended => tended.trans (same.tended timed) timed
    | message =>
      refine puts fun ready same there => After.bind (after_fetch there (After.bind
        (After.get ?_)))
      split
      · exact (after_suspend_message (same.timed timed) ((same.naps slot).trans awake)).imp
          fun _ _ tended => tended.trans (same.tended timed) timed
      · exact stays ready same
  | ended values => exact finishes (.returned values)
  | faulted fault => exact finishes (.faulted fault)

/-- The task at the head of the run queue has its turn. -/
theorem Sound.after_runTurn_rested
    (sound : scheduler.Sound origin ended lists held unscheduled none none)
    (timed : scheduler.Timed []) (split : lists .run = slot :: behind)
    (cared : ¬ scheduler.roster.Bereft slot) :
    After (runTurn slot) scheduler (fun _ next => next.Rested scheduler held unscheduled polled)
      fun _ _ => True := by
  have first : (lists .run).head? = some slot := by rw [split, List.head?_cons]
  have steady := steady_undisturbed scheduler
  have tends : After (runTurn slot) scheduler (fun _ next => next.Tended scheduler polled)
      fun _ _ => True := by
    obtain ⟨task, present, alive, _⟩ := sound.queued.present (List.mem_of_head? first)
    obtain ⟨stack, mans⟩ : ∃ stack, task.stack = some stack :=
      Option.isSome_iff_exists.mp ((sound.queued.stands present).manned.mpr ⟨alive, nofun⟩)
    have disarmed : (scheduler.manned slot).Undisturbed scheduler :=
      steady.alter slot (.refl scheduler) (fun _ => rfl) (fun _ => rfl) (fun _ => rfl) fun _ => id
    have keeps : Stack.Keeps (hostFor slot) (·.Undisturbed scheduler)
        fun _ next => True → next.Undisturbed scheduler := steady.keeps slot
    refine after_runTurn_of_executes present mans ?_
    refine ((sound.restart.after_execute first stack).and (keeps.after_execute
      scheduler.config.execLimit scheduler.patience stack disarmed)).mono
      (fun outcome middle known => ?_) fun _ _ _ => trivial
    obtain ⟨⟨⟨spawned, midTurn⟩, _⟩, same, _⟩ := known
    cases outcome with
    | none => exact After.throw trivial
    | some outcome =>
      obtain ⟨found, foundPresent, _, id, _⟩ :=
        midTurn.since.alive slot task present alive List.not_mem_nil
      rw [← id]
      exact (midTurn.after_settle_tended (same.timed timed) foundPresent outcome.1 outcome.2).imp
        fun _ _ tended => tended.trans (same.tended timed) timed
  refine ((sound.after_runTurn split cared).and tends).mono (fun _ next known => ?_)
    fun _ _ _ => trivial
  obtain ⟨⟨_, turned, _⟩, tended⟩ := known
  obtain ⟨_, listsNow, soundNow⟩ := turned.settled
  exact ⟨tended, listsNow, soundNow.restart⟩

theorem Sound.after_step_rested
    (sound : scheduler.Sound origin ended lists held unscheduled none none)
    (timed : scheduler.Timed []) :
    After step scheduler (fun _ next => next.Rested scheduler held unscheduled polled)
      fun _ _ => True := by
  cases split : lists .run with
  | nil =>
    refine After.bind (After.get ?_)
    rw [sound.head, split]
    exact After.pure ⟨(Undisturbed.refl scheduler).tended timed, lists, sound.restart⟩
  | cons slot rest =>
    have member : slot ∈ lists .run := by rw [split]; exact List.mem_cons_self
    have first : scheduler.roster.run.head = some slot := by
      rw [sound.head, split, List.head?_cons]
    by_cases bereft : scheduler.roster.Bereft slot
    · have finishes : scheduler.Finishes slot .orphaned scheduler := .bereft first bereft
      exact (finishes.after_step sound (sound.after_close_rested timed member nofun .orphaned)).imp
        fun _ _ stepped => stepped.2
    · exact (sound.after_step_of_turns first bereft
        (sound.after_runTurn_rested timed split bereft)).imp fun _ _ stepped => stepped.2

/-- Turns are given. -/
theorem Sound.after_stepMany_rested {turns : Nat}
    (sound : scheduler.Sound origin ended lists held unscheduled none none)
    (timed : scheduler.Timed []) :
    After (stepMany turns) scheduler (fun _ next => next.Rested scheduler held unscheduled polled)
      fun _ _ => True := by
  induction turns generalizing scheduler origin ended lists with
  | zero => exact After.pure ⟨(Undisturbed.refl scheduler).tended timed, lists, sound.restart⟩
  | succ turns inductionHypothesis =>
    have steps : After step scheduler
        (fun _ next => next.Rested scheduler held unscheduled polled) fun _ _ => True :=
      sound.after_step_rested timed
    refine After.bind (steps.imp fun more middle rested => ?_)
    cases more with
    | false => exact After.pure rested
    | true =>
      obtain ⟨listsNow, soundNow⟩ := rested.settled
      exact After.bind ((inductionHypothesis soundNow rested.timed).imp fun _ _ restedNow =>
        After.pure (restedNow.trans rested.toTended timed))

/-! ### Waiting tasks that go on -/

/-- The task with a given number goes on if it waits for a given thing, and nobody else does. -/
structure Roused (scheduler origin : Scheduler) (id : TaskId) (awaited : Awaited) : Prop where
  placed : scheduler.roster.Placed origin.roster
  agenda : scheduler.agenda = origin.agenda
  clock : scheduler.clock = origin.clock
  naps : ∀ slot, scheduler.roster.nap? slot = (origin.roster.nap? slot).filter fun firing =>
    ¬ (firing.task = id ∧ awaited = .timer firing.timer)

theorem Sound.after_resumeIf_roused
    (sound : scheduler.Sound origin ended lists held unscheduled running owed) (id : TaskId)
    (awaited : Awaited) :
    After (resumeIf id awaited) scheduler (fun _ next => next.Roused scheduler id awaited)
      fun _ _ => True := by
  -- Who waits for another thing, or has another number, stays.
  have stays {slot : Slot} (other : ∀ firing, scheduler.roster.nap? slot = some firing →
      ¬ (firing.task = id ∧ awaited = .timer firing.timer)) :
      scheduler.roster.nap? slot = (scheduler.roster.nap? slot).filter fun firing =>
        ¬ (firing.task = id ∧ awaited = .timer firing.timer) := by
    cases nap : scheduler.roster.nap? slot with
    | none => rfl
    | some firing => rw [Option.filter_some, if_pos (decide_eq_true (other firing nap))]
  refine After.bind (After.get ?_)
  cases known : scheduler.registry.find? id with
  | none =>
    refine After.pure ⟨.refl _, rfl, rfl, fun slot => stays fun firing nap same => ?_⟩
    obtain ⟨task, present, _, is⟩ := Roster.nap?_eq_some_iff.mp nap
    have registered := sound.counted.registered.mpr ⟨task, present, is.trans same.1⟩
    exact absurd (known.symm.trans registered) nofun
  | some slot =>
    obtain ⟨task, present, rfl⟩ := sound.registered known
    have alone {other : Slot} {firing : Firing} (nap : scheduler.roster.nap? other = some firing)
        (same : firing.task = task.id) : other = slot := by
      obtain ⟨found, foundPresent, _, is⟩ := Roster.nap?_eq_some_iff.mp nap
      exact sound.counted.eq_of_id present foundPresent (is.trans same)
    refine After.bind (after_fetch present ?_)
    by_cases waits : task.awaited = some awaited
    · rw [if_pos waits]
      refine (after_resume scheduler slot).imp fun _ next rewaited => ⟨rewaited.placed,
        by rw [rewaited.rest], by rw [rewaited.rest], fun other => ?_⟩
      rw [rewaited.nap?]
      by_cases is : other = slot
      · rw [if_pos is, present, is]
        refine (Option.filter_eq_none_iff.mpr fun firing nap => ?_).symm
        obtain ⟨found, foundPresent, sleeps, id⟩ := Roster.nap?_eq_some_iff.mp nap
        obtain rfl := Option.some.inj (present.symm.trans foundPresent)
        simp [id, Option.some.inj (waits.symm.trans sleeps)]
      · rw [if_neg is]
        exact stays fun firing nap same => is (alone nap same.1)
    · rw [if_neg waits]
      refine After.pure ⟨.refl _, rfl, rfl, fun other => stays fun firing nap same => waits ?_⟩
      obtain rfl := alone nap same.1
      obtain ⟨found, foundPresent, sleeps, _⟩ := Roster.nap?_eq_some_iff.mp nap
      obtain rfl := Option.some.inj (present.symm.trans foundPresent)
      rw [sleeps, same.2]

/-- Nobody who waits for a timer goes on for a message. -/
theorem Roused.undisturbed {id : TaskId} (roused : next.Roused scheduler id .message) :
    next.Undisturbed scheduler := by
  refine ⟨roused.placed, roused.agenda, roused.clock, fun slot => ?_⟩
  rw [roused.naps]
  cases scheduler.roster.nap? slot <;> simp

/-- One of the tasks whose timers have fired goes on. -/
theorem Roused.timed (roused : next.Roused scheduler firing.task (.timer firing.timer))
    (timed : scheduler.Timed (firing :: remaining)) :
    next.Timed remaining ∧ next.Slumber scheduler polled := by
  have naps {slot : Slot} {found : Firing} : next.roster.nap? slot = some found ↔
      scheduler.roster.nap? slot = some found ∧ found ≠ firing := by
    obtain ⟨timer, task⟩ := firing
    obtain ⟨other, told⟩ := found
    rw [roused.naps, Option.filter_eq_some_iff]
    simp only [decide_not, Bool.not_eq_true', decide_eq_false_iff_not, ne_eq, Firing.mk.injEq,
      Awaited.timer.injEq]
    rw [and_comm (a := told = task), eq_comm (a := timer)]
  have apart {timer : TimerId} {entry : Timer}
      (pending : scheduler.agenda.pending.find? timer = some entry) : timer ≠ firing.timer := by
    rintro rfl
    exact absurd ((timed.past firing List.mem_cons_self).symm.trans pending) nofun
  refine ⟨⟨roused.agenda ▸ timed.agrees, fun slot found nap => ?_, fun timer entry pending => ?_,
    fun found member => ?_⟩, roused.placed, Nat.le_of_eq roused.clock.symm, by rw [roused.agenda],
    fun timer _ missing => ?_, fun slot found entry nap pending => Or.inl ⟨?_, ?_⟩⟩
  · obtain ⟨before, differ⟩ := naps.mp nap
    rw [roused.agenda]
    exact (timed.naps slot found before).imp_left fun member =>
      (List.mem_cons.mp member).resolve_left differ
  · rw [roused.agenda] at pending
    obtain ⟨slot, nap⟩ := timed.timers timer entry pending
    refine ⟨slot, naps.mpr ⟨nap, ?_⟩⟩
    rintro rfl
    exact apart pending rfl
  · rw [roused.agenda]
    exact timed.past found (List.mem_cons_of_mem _ member)
  · rw [roused.agenda, missing]
  · refine naps.mpr ⟨nap, ?_⟩
    rintro rfl
    exact apart pending rfl
  · rw [roused.agenda, pending]

/-- To look who was woken disturbs nobody who waits for a timer. -/
theorem Sound.after_wakeWoken_undisturbed
    (sound : scheduler.Sound origin ended lists held unscheduled none none) :
    After wakeWoken scheduler (fun _ next => next.Undisturbed scheduler) fun _ _ => True := by
  have steady := steady_undisturbed scheduler
  refine After.bind (after_onMailroom fun woken room => ?_)
  have same : ({ scheduler with mailroom := room } : Scheduler).Undisturbed scheduler :=
    ⟨.refl _, rfl, rfl, fun _ => rfl⟩
  have rouses : After (woken.forM fun id => resumeIf id .message)
      ({ scheduler with mailroom := room } : Scheduler)
      (fun _ next => next.Settled origin ended held unscheduled ∧ next.Undisturbed scheduler)
      fun _ _ => True := by
    refine After.forM (fun id _ middle known => ?_) ⟨⟨lists, sound.mailroom room⟩, same⟩
    obtain ⟨⟨_, soundNow⟩, sameNow⟩ := known
    refine ((soundNow.after_resumeIf id .message).and
      (soundNow.after_resumeIf_roused id .message)).mono (fun _ next roused => ?_)
      fun _ _ _ => trivial
    exact ⟨roused.1, roused.2.undisturbed.trans sameNow⟩
  exact rouses.imp fun _ _ known => known.2

/-- The tasks whose timers have fired go on. -/
theorem Sound.after_resumeFired_rested
    (sound : scheduler.Sound origin ended lists held unscheduled none none)
    (timed : scheduler.Timed fired) :
    After (resumeFired fired) scheduler
      (fun _ next => next.Rested scheduler held unscheduled True ∧
        next.agenda = scheduler.agenda ∧ next.clock = scheduler.clock) fun _ _ => True := by
  induction fired generalizing scheduler origin ended lists with
  | nil =>
    exact After.pure ⟨⟨(Undisturbed.refl scheduler).tended timed, lists, sound.restart⟩, rfl, rfl⟩
  | cons firing rest inductionHypothesis =>
    refine After.bind (((sound.after_resumeIf firing.task (.timer firing.timer)).and
      (sound.after_resumeIf_roused firing.task (.timer firing.timer))).mono
      (fun _ middle known => ?_) fun _ _ _ => trivial)
    obtain ⟨⟨_, soundNow⟩, roused⟩ := known
    obtain ⟨timedNow, slumber⟩ : middle.Timed rest ∧ middle.Slumber scheduler True :=
      roused.timed timed
    refine (inductionHypothesis soundNow timedNow).imp fun _ next known => ?_
    obtain ⟨rested, agenda, clock⟩ := known
    exact ⟨⟨⟨rested.timed, rested.slumber.trans slumber timed,
      Or.inl trivial⟩, rested.settled⟩, agenda.trans roused.agenda,
      clock.trans roused.clock⟩

end TaskMachine.Scheduler
