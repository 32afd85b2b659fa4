/-
To poll fires the timers that are due, and then their tasks go on, one after
another. So a task that waits for a timer is neither forgotten nor woken too
soon: when a poll is over, no timer that was to fire is due, and the tasks of
those that are not due still wait.
-/

import TaskMachine.Proofs.Scheduler.Rests

namespace TaskMachine.Scheduler

variable {scheduler middle origin next : Scheduler} {fired : List Firing} {polled : Prop}
  {ended : List Slot} {lists : Lane → List Slot} {held unscheduled : List TaskId}
  {running owed : Option Slot}

/-! ### Polls -/

/-- No timer is still to fire that is due. -/
def Punctual (scheduler : Scheduler) : Prop :=
  ∀ timer entry, scheduler.agenda.pending.find? timer = some entry →
    scheduler.clock < entry.deadline

/-- No timer is still to fire that was to fire before and is due. -/
def Served (scheduler origin : Scheduler) : Prop :=
  ∀ timer entry, origin.agenda.pending.find? timer = some entry →
    entry.deadline ≤ scheduler.clock → scheduler.agenda.pending.find? timer = none

theorem Punctual.served (punctual : scheduler.Punctual)
    (slumber : scheduler.Slumber origin polled) (timed : origin.Timed []) :
    scheduler.Served origin := by
  intro timer entry pending due
  obtain ⟨slot, nap⟩ := timed.timers timer entry pending
  rcases slumber.sleeps slot _ entry nap pending with ⟨_, same⟩ | ⟨missing, _⟩
  · exact absurd (punctual timer entry same) (Nat.not_lt.mpr due)
  · exact missing

/-- As long as no time goes by, what was served stays so. -/
theorem Served.later (served : middle.Served origin) (slumber : middle.Slumber origin polled)
    (timed : origin.Timed fired) (rested : scheduler.Tended middle False) :
    scheduler.Served origin := by
  intro timer entry pending due
  obtain ⟨_, agrees⟩ := timed.agrees
  have clock := rested.clock.resolve_left id
  refine rested.slumber.spent timer ((agrees.number_le pending).trans slumber.last) ?_
  exact served timer entry pending (clock ▸ due)

/-- If no timer is still to fire, all were served. -/
theorem Timed.pending_eq_none (timed : scheduler.Timed fired)
    (idle : scheduler.agenda.hasPending = false) (timer : TimerId) :
    scheduler.agenda.pending.find? timer = none := by
  obtain ⟨ledger, agrees⟩ := timed.agrees
  rw [← agrees.alarms_eq_none]
  cases known : ledger.alarms timer with
  | none => rfl
  | some alarm =>
    rw [agrees.hasPending_iff.mpr ⟨timer, alarm, known⟩] at idle
    exact absurd idle nofun

/-- Time may go by where the timers are polled. -/
theorem Timed.elapse (timed : scheduler.Timed []) {clock : Nat} (later : scheduler.clock ≤ clock) :
    ({ scheduler with clock } : Scheduler).Timed [] ∧
      ({ scheduler with clock } : Scheduler).Slumber scheduler polled :=
  ⟨⟨timed.agrees, timed.naps, timed.timers, timed.past⟩, .refl _, later, Nat.le_refl _,
    fun _ _ missing => missing, fun _ _ _ nap pending => Or.inl ⟨nap, pending⟩⟩

/-- The timers that were due have fired, and their tasks are still to go on. -/
structure Fired (scheduler origin : Scheduler) (held unscheduled : List TaskId)
    (fired : List Firing) : Prop where
  settled : ∃ lists, scheduler.Sound scheduler [] lists held unscheduled none none
  timed : scheduler.Timed fired
  slumber : scheduler.Slumber origin True
  punctual : scheduler.Punctual

/-- What the timers are like after a poll. -/
structure Polled (scheduler origin : Scheduler) (held unscheduled : List TaskId) : Prop
    extends Rested scheduler origin held unscheduled True where
  served : scheduler.Served origin

/-- The timers that are due fire. -/
theorem Sound.after_fireDue_fired
    (sound : scheduler.Sound origin ended lists held unscheduled none none)
    (timed : scheduler.Timed []) :
    After fireDue scheduler (fun fired next => next.Fired scheduler held unscheduled fired)
      fun _ _ => True := by
  obtain ⟨ledger, agrees⟩ := timed.agrees
  obtain ⟨after, last, left, told⟩ := agrees.fireDue_once sound.oneShot scheduler.clock
  have kept {timer : TimerId} {entry : Timer} :
      (scheduler.agenda.fireDue scheduler.clock).agenda.pending.find? timer = some entry ↔
        scheduler.agenda.pending.find? timer = some entry ∧ scheduler.clock < entry.deadline := by
    rw [left, Option.filter_eq_some_iff, decide_eq_true_iff]
  have gone {timer : TimerId} {entry : Timer}
      (pending : scheduler.agenda.pending.find? timer = some entry)
      (due : entry.deadline ≤ scheduler.clock) :
      (scheduler.agenda.fireDue scheduler.clock).agenda.pending.find? timer = none := by
    rw [left, pending, Option.filter_some, if_neg (by simpa using due)]
  have fires : After fireDue scheduler
      (fun fired next => next.Timed fired ∧ next.Slumber scheduler True ∧ next.Punctual)
      fun _ _ => True := by
    refine After.bind (After.get (After.bind (After.set ?_)))
    split
    · exact After.throw trivial
    · refine After.pure ⟨⟨after, fun slot firing nap => ?_, fun timer entry pending => ?_,
        fun firing member => ?_⟩, ⟨.refl _, Nat.le_refl _, Nat.le_of_eq last.symm,
          fun timer _ missing => ?_, fun slot firing entry nap pending => ?_⟩,
        fun timer entry pending => (kept.mp pending).2⟩
      · obtain ⟨entry, pending, task⟩ :=
          (timed.naps slot firing nap).resolve_left List.not_mem_nil
        rcases Nat.lt_or_ge scheduler.clock entry.deadline with early | due
        · exact Or.inr ⟨entry, kept.mpr ⟨pending, early⟩, task⟩
        · exact Or.inl ((told firing).mpr ⟨entry, pending, task, due⟩)
      · exact timed.timers timer entry (kept.mp pending).1
      · obtain ⟨entry, pending, _, due⟩ := (told firing).mp member
        exact gone pending due
      · show (scheduler.agenda.fireDue scheduler.clock).agenda.pending.find? timer = none
        rw [left, missing, Option.filter_none]
      · rcases Nat.lt_or_ge scheduler.clock entry.deadline with early | due
        · exact Or.inl ⟨nap, kept.mpr ⟨pending, early⟩⟩
        · exact Or.inr ⟨gone pending due, Or.inr ⟨trivial, due⟩⟩
  refine (sound.after_fireDue.and fires).mono (fun _ next known => ?_) fun _ _ _ => trivial
  obtain ⟨soundNow, timedNow, slumber, punctual⟩ := known
  exact ⟨⟨lists, soundNow.restart⟩, timedNow, slumber, punctual⟩

theorem Fired.since (fires : next.Fired middle held unscheduled fired)
    (first : middle.Slumber scheduler True) (timed : scheduler.Timed []) :
    next.Fired scheduler held unscheduled fired :=
  ⟨fires.settled, fires.timed, fires.slumber.trans first timed, fires.punctual⟩

/-- When timers have fired, their tasks go on. -/
theorem after_fire_polled (timed : scheduler.Timed []) {fires : Scheduling (List Firing)}
    (after : After fires scheduler
      (fun fired next => next.Fired scheduler held unscheduled fired) fun _ _ => True) :
    After (fires >>= resumeFired) scheduler (fun _ next => next.Polled scheduler held unscheduled)
      fun _ _ => True := by
  refine After.bind (after.imp fun fired middle known => ?_)
  obtain ⟨⟨listsNow, soundNow⟩, timedNow, slumber, punctual⟩ := known
  refine (soundNow.after_resumeFired_rested timedNow).imp fun _ next known => ?_
  obtain ⟨rested, agenda, clock⟩ := known
  have slumberNow : next.Slumber scheduler True := rested.slumber.trans slumber timed
  have punctualNow : next.Punctual := fun timer entry pending => by
    rw [clock]
    exact punctual timer entry (agenda ▸ pending)
  exact ⟨⟨⟨rested.timed, slumberNow, Or.inl trivial⟩, rested.settled⟩,
    punctualNow.served slumberNow timed⟩

/-! ### Passes and sleep -/

/-- A pass polls the timers before it gives turns. -/
theorem Sound.after_tick_polled
    (sound : scheduler.Sound origin ended lists held unscheduled none none)
    (timed : scheduler.Timed []) :
    After tick scheduler
      (fun left next => next.Polled scheduler held unscheduled ∧ left = next.outlook)
      fun _ _ => True := by
  refine After.bind ((sound.after_wakeWoken.and sound.after_wakeWoken_undisturbed).mono
    (fun _ woken known => ?_) fun _ _ _ => trivial)
  obtain ⟨⟨listsNow, soundNow⟩, same⟩ := known
  refine After.bind ((after_fire_polled (same.timed timed)
    (soundNow.after_fireDue_fired (same.timed timed))).imp fun _ polled rested => ?_)
  obtain ⟨listsThen, soundThen⟩ := rested.settled
  have turns (count : Nat) : After (stepMany count) polled
      (fun _ next => next.Rested polled held unscheduled False) fun _ _ => True :=
    soundThen.after_stepMany_rested rested.timed
  refine After.bind (After.get (After.bind ((turns _).imp fun _ next restedNow => ?_)))
  refine After.bind (After.get (After.pure ⟨⟨?_, ?_⟩, rfl⟩))
  · have slumber : next.Slumber polled True := restedNow.slumber.mono fun _ => trivial
    exact ⟨⟨restedNow.timed, slumber.trans (rested.slumber.trans same.slumber timed) timed,
      Or.inl trivial⟩, restedNow.settled⟩
  · have served := rested.served.later rested.slumber (same.timed timed) restedNow.toTended
    intro timer entry pending due
    exact served timer entry (same.agenda ▸ pending) due

/-- Time goes by until the next timer is due, or no time does. -/
theorem after_elapse (scheduler : Scheduler) :
    After elapse scheduler
      (fun _ next => ∃ clock, scheduler.clock ≤ clock ∧ next = { scheduler with clock })
      fun _ _ => False := by
  refine After.modify ?_
  cases scheduler.agenda.nextDeadline with
  | none => exact ⟨scheduler.clock, Nat.le_refl _, rfl⟩
  | some deadline => exact ⟨_, Nat.le_max_left _ _, rfl⟩

/-- The timers that are due after some time fire. -/
theorem Sound.after_elapse_fired
    (sound : scheduler.Sound origin ended lists held unscheduled none none)
    (timed : scheduler.Timed []) :
    After (do Scheduler.elapse; fireDue) scheduler
      (fun fired next => next.Fired scheduler held unscheduled fired) fun _ _ => True := by
  refine After.bind ((after_elapse scheduler).mono (fun _ later known => ?_) fun _ _ => False.elim)
  obtain ⟨clock, grows, rfl⟩ := known
  have soundNow : ({ scheduler with clock } : Scheduler).Sound origin ended lists held unscheduled
      none none := sound.congr rfl rfl rfl sound.oneShot rfl ⟨[], rfl⟩
  obtain ⟨timedNow, slumber⟩ : ({ scheduler with clock } : Scheduler).Timed [] ∧
      ({ scheduler with clock } : Scheduler).Slumber scheduler True := timed.elapse grows
  exact (soundNow.after_fireDue_fired timedNow).imp fun _ _ fires => fires.since slumber timed

/-- The token of the thread plays no part but that it may keep time from going by. -/
theorem Sound.after_awaitTimers_fired
    (sound : scheduler.Sound origin ended lists held unscheduled none none)
    (timed : scheduler.Timed []) :
    After awaitTimers scheduler
      (fun fired next => next.Fired scheduler held unscheduled fired) fun _ _ => True := by
  refine After.bind (after_onMailroom fun token room => ?_)
  have same : ({ scheduler with mailroom := room } : Scheduler).Undisturbed scheduler :=
    ⟨.refl _, rfl, rfl, fun _ => rfl⟩
  have soundNow := sound.mailroom room
  cases token with
  | true =>
    exact (soundNow.after_fireDue_fired (same.timed timed)).imp fun _ _ fires =>
      fires.since same.slumber timed
  | false =>
    exact (soundNow.after_elapse_fired (same.timed timed)).imp fun _ _ fires =>
      fires.since same.slumber timed

/-- If no timer is to fire, there is nothing to poll. -/
theorem Undisturbed.unpolled (same : next.Undisturbed scheduler)
    (sound : next.Sound origin ended lists held unscheduled none none)
    (timed : scheduler.Timed []) (idle : scheduler.agenda.hasPending = false) :
    next.Polled scheduler held unscheduled := by
  refine ⟨⟨same.tended timed, lists, sound.restart⟩, fun timer entry pending => ?_⟩
  exact absurd ((timed.pending_eq_none idle timer).symm.trans pending) nofun

theorem Sound.after_wait_polled
    (sound : scheduler.Sound origin ended lists held unscheduled none none)
    (timed : scheduler.Timed []) :
    After wait scheduler (fun _ next => next.Polled scheduler held unscheduled)
      fun _ _ => True := by
  refine After.bind (After.get ?_)
  cases idle : scheduler.agenda.hasPending with
  | true =>
    exact after_fire_polled timed (sound.after_awaitTimers_fired timed)
  | false =>
    refine After.bind (after_onMailroom fun _ room => After.pure ?_)
    have same : ({ scheduler with mailroom := room } : Scheduler).Undisturbed scheduler :=
      ⟨.refl _, rfl, rfl, fun _ => rfl⟩
    exact same.unpolled (sound.mailroom room) timed idle

theorem Sound.after_rest_polled
    (sound : scheduler.Sound origin ended lists held unscheduled none none)
    (timed : scheduler.Timed []) :
    After rest scheduler (fun _ next => next.Polled scheduler held unscheduled)
      fun _ _ => True := by
  refine After.bind (After.get ?_)
  cases idle : scheduler.agenda.hasPending with
  | true =>
    exact after_fire_polled timed (sound.after_elapse_fired timed)
  | false => exact After.pure ((Undisturbed.refl scheduler).unpolled sound timed idle)

/-- Nothing is left to do just if no task can run, none waits, and no timer is to fire. -/
theorem outlook_eq_idle_iff : scheduler.outlook = .idle ↔ scheduler.roster.run.length = 0 ∧
    scheduler.roster.wait.length = 0 ∧ scheduler.agenda.hasPending = false := by
  rw [outlook]
  split
  · rename_i runs
    exact iff_of_false nofun fun idle => runs idle.1
  · rename_i quiet
    have stopped : scheduler.roster.run.length = 0 := not_not.mp quiet
    split
    · rename_i waits
      refine iff_of_false nofun fun idle => ?_
      rw [idle.2.1, idle.2.2] at waits
      simp at waits
    · rename_i nothing
      simp only [not_or, not_not, Bool.not_eq_true] at nothing
      exact iff_of_true rfl ⟨stopped, nothing⟩

/-- Nothing is left to do just when both queues are empty. -/
theorem Sound.idle_iff
    (sound : scheduler.Sound origin ended lists held unscheduled running owed)
    (timed : scheduler.Timed []) :
    scheduler.outlook = .idle ↔ lists .run = [] ∧ lists .wait = [] := by
  have runs : scheduler.roster.run.length = (lists .run).length :=
    congrArg Ends.length (sound.queued.lines .run).ends
  have waits : scheduler.roster.wait.length = (lists .wait).length :=
    congrArg Ends.length (sound.queued.lines .wait).ends
  rw [outlook_eq_idle_iff, runs, waits, List.length_eq_zero_iff, List.length_eq_zero_iff]
  refine ⟨fun idle => ⟨idle.1, idle.2.1⟩, fun empty => ⟨empty.1, empty.2, ?_⟩⟩
  obtain ⟨ledger, agrees⟩ := timed.agrees
  refine Bool.eq_false_iff.mpr fun left => ?_
  obtain ⟨timer, alarm, known⟩ := agrees.hasPending_iff.mp left
  obtain ⟨slot, nap⟩ := timed.timers timer _ (agrees.find? known)
  have outside : slot ∉ lists .wait := empty.2 ▸ List.not_mem_nil
  exact absurd ((sound.nap?_eq_none outside).symm.trans nap) nofun

/-- A run that has an end leaves no timer to fire. -/
theorem Sound.after_runWithin_polled {passes : Nat}
    (sound : scheduler.Sound origin ended lists held unscheduled none none)
    (timed : scheduler.Timed []) :
    After (runWithin passes) scheduler
      (fun _ next => next.Rested scheduler held unscheduled True ∧
        next.agenda.hasPending = false) fun _ _ => True := by
  induction passes generalizing scheduler origin ended lists with
  | zero => exact After.throw trivial
  | succ passes inductionHypothesis =>
    refine After.bind ((sound.after_tick_polled timed).imp fun left ticked known => ?_)
    obtain ⟨polled, is⟩ := known
    have goesOn {middle : Scheduler} (rested : middle.Rested scheduler held unscheduled True) :
        After (runWithin passes) middle
          (fun _ next => next.Rested scheduler held unscheduled True ∧
            next.agenda.hasPending = false) fun _ _ => True := by
      obtain ⟨listsNow, soundNow⟩ := rested.settled
      exact (inductionHypothesis soundNow rested.timed).imp fun _ _ known =>
        ⟨known.1.trans rested.toTended timed, known.2⟩
    cases left with
    | busy => exact goesOn polled.toRested
    | idle => exact After.pure ⟨polled.toRested, (outlook_eq_idle_iff.mp is.symm).2.2⟩
    | waiting =>
      refine After.bind (After.get ?_)
      cases idle : ticked.agenda.hasPending with
      | true =>
        obtain ⟨listsNow, soundNow⟩ := polled.settled
        refine After.bind ((soundNow.after_rest_polled polled.timed).imp fun _ rested known => ?_)
        exact goesOn (known.toRested.trans polled.toTended timed)
      | false =>
        refine After.bind (After.get ?_)
        cases ticked.mailroom.woken.isEmpty with
        | true => exact After.pure ⟨polled.toRested, idle⟩
        | false => exact goesOn polled.toRested

end TaskMachine.Scheduler
