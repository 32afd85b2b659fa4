/-
Timers and the tasks that wait for them. `Timed` says that they correspond: who
waits for a timer is whom it tells, and the other way round; only timers that
have fired are amiss until their tasks have gone on. `Slumber` says what has
become of those that waited before. Each still waits, and its timer is still to
fire; or the timer is not, because the task has ended, or because the timer was
due when the timers were polled.

Most operations leave the timers, the time and what tasks wait for as they are.
That is `Undisturbed`, and every operation that is steady keeps it.
-/

import TaskMachine.Proofs.Agenda.Once
import TaskMachine.Proofs.Scheduler.Preserved
import TaskMachine.Proofs.Scheduler.Sweeps
import TaskMachine.Proofs.Scheduler.Waiting

namespace TaskMachine.Scheduler

/-- The timers that are still to fire are those that tasks wait for, if it were not for those that
have fired. -/
structure Timed (scheduler : Scheduler) (fired : List Firing) : Prop where
  agrees : ∃ ledger, scheduler.agenda.Agrees ledger
  naps : ∀ slot firing, scheduler.roster.nap? slot = some firing → firing ∈ fired ∨
    ∃ entry, scheduler.agenda.pending.find? firing.timer = some entry ∧ entry.task = firing.task
  timers : ∀ timer entry, scheduler.agenda.pending.find? timer = some entry →
    ∃ slot, scheduler.roster.nap? slot = some ⟨timer, entry.task⟩
  past : ∀ firing ∈ fired, scheduler.agenda.pending.find? firing.timer = none

/-- What has become of those that waited for timers. -/
structure Slumber (scheduler origin : Scheduler) (polled : Prop) : Prop where
  placed : scheduler.roster.Placed origin.roster
  clock : origin.clock ≤ scheduler.clock
  last : origin.agenda.last ≤ scheduler.agenda.last
  /-- The numbers of timers are not used again. -/
  spent : ∀ timer, timer.number ≤ origin.agenda.last →
    origin.agenda.pending.find? timer = none → scheduler.agenda.pending.find? timer = none
  sleeps : ∀ slot firing entry, origin.roster.nap? slot = some firing →
    origin.agenda.pending.find? firing.timer = some entry →
      scheduler.roster.nap? slot = some firing ∧
          scheduler.agenda.pending.find? firing.timer = some entry ∨
        scheduler.agenda.pending.find? firing.timer = none ∧
          (scheduler.roster.Gone slot ∨ polled ∧ entry.deadline ≤ scheduler.clock)

/-- The timers are right, and this is what has become of those that waited. Time goes by only where
the timers are polled. -/
structure Tended (scheduler origin : Scheduler) (polled : Prop) : Prop where
  timed : scheduler.Timed []
  slumber : scheduler.Slumber origin polled
  clock : polled ∨ scheduler.clock = origin.clock

/-- A scheduler is sound, and its timers are tended. -/
structure Rested (scheduler origin : Scheduler) (held unscheduled : List TaskId) (polled : Prop) :
    Prop extends Tended scheduler origin polled where
  settled : ∃ lists, scheduler.Sound scheduler [] lists held unscheduled none none

/-- The timers, the time and what tasks wait for are the same. -/
structure Undisturbed (scheduler origin : Scheduler) : Prop where
  placed : scheduler.roster.Placed origin.roster
  agenda : scheduler.agenda = origin.agenda
  clock : scheduler.clock = origin.clock
  naps : ∀ slot, scheduler.roster.nap? slot = origin.roster.nap? slot

variable {scheduler middle origin next left : Scheduler} {fired : List Firing} {polled also : Prop}
  {ended : List Slot} {lists : Lane → List Slot} {held unscheduled : List TaskId}
  {running owed : Option Slot} {slot : Slot} {lane : Lane} {exit : Exit}

/-- Whatever is done, places are not used again. -/
theorem indifferent_placed (roster : Roster) : Indifferent (·.roster.Placed roster) where
  beside := fun placed same _ _ _ => same ▸ placed
  arrange := fun placed same => placed.arrange same
  alter := fun slot _ placed _ life => placed.alter slot life
  number := fun placed => placed
  born := fun _ _ _ placed => placed.push _
  leave := fun {_ slot _} _ placed => placed.drop slot

/-! ### What is undisturbed -/

theorem Undisturbed.refl (scheduler : Scheduler) : scheduler.Undisturbed scheduler :=
  ⟨.refl _, rfl, rfl, fun _ => rfl⟩

theorem Undisturbed.trans (second : scheduler.Undisturbed middle)
    (first : middle.Undisturbed origin) : scheduler.Undisturbed origin :=
  ⟨second.placed.trans first.placed, second.agenda.trans first.agenda,
    second.clock.trans first.clock, fun slot => (second.naps slot).trans (first.naps slot)⟩

theorem steady_undisturbed (origin : Scheduler) : Steady (·.Undisturbed origin) where
  beside := fun same beside =>
    ⟨beside.roster ▸ same.placed, beside.agenda.trans same.agenda, beside.clock.trans same.clock,
      fun slot => beside.roster ▸ same.naps slot⟩
  opens := fun _ same => ⟨same.placed, same.agenda, same.clock, same.naps⟩
  sends := fun _ _ same => ⟨same.placed, same.agenda, same.clock, same.naps⟩
  receives := fun _ same => ⟨same.placed, same.agenda, same.clock, same.naps⟩
  wakes := fun _ same => ⟨same.placed, same.agenda, same.clock, same.naps⟩
  arrange := fun same tasks => ⟨same.placed.arrange tasks, same.agenda,
    same.clock, fun slot => (tasks.nap? slot).trans (same.naps slot)⟩
  alter := fun slot _ same id _ awaited life =>
    ⟨same.placed.alter slot life, same.agenda, same.clock,
      fun other => (Roster.nap?_alter _ slot id awaited other).trans (same.naps other)⟩
  number := fun same => ⟨same.placed, same.agenda, same.clock, same.naps⟩
  born := fun _ _ same =>
    ⟨same.placed.push _, same.agenda, same.clock,
      fun slot => (Roster.nap?_push _ rfl slot).trans (same.naps slot)⟩

theorem tokenless_undisturbed (origin : Scheduler) : Tokenless (·.Undisturbed origin) :=
  fun _ _ same => ⟨same.placed, same.agenda, same.clock, same.naps⟩

theorem Undisturbed.timed (same : scheduler.Undisturbed origin) (timed : origin.Timed fired) :
    scheduler.Timed fired where
  agrees := same.agenda ▸ timed.agrees
  naps := fun slot firing nap => by
    rw [same.agenda]
    exact timed.naps slot firing ((same.naps slot).symm.trans nap)
  timers := fun timer entry pending => by
    rw [same.agenda] at pending
    obtain ⟨slot, nap⟩ := timed.timers timer entry pending
    exact ⟨slot, (same.naps slot).trans nap⟩
  past := same.agenda ▸ timed.past

theorem Undisturbed.slumber (same : scheduler.Undisturbed origin) :
    scheduler.Slumber origin polled where
  placed := same.placed
  clock := Nat.le_of_eq same.clock.symm
  last := by rw [same.agenda]
  spent := fun _ _ missing => same.agenda ▸ missing
  sleeps := fun slot _ _ nap pending => Or.inl ⟨(same.naps slot).trans nap, same.agenda ▸ pending⟩

/-! ### One thing after another -/

theorem Slumber.mono (slumber : scheduler.Slumber origin polled) (weaker : polled → also) :
    scheduler.Slumber origin also :=
  { slumber with
    sleeps := fun slot firing entry nap pending =>
      (slumber.sleeps slot firing entry nap pending).imp_right fun ⟨missing, why⟩ =>
        ⟨missing, why.imp_right fun ⟨polls, due⟩ => ⟨weaker polls, due⟩⟩ }

/-- What becomes of those that wait, one thing after another. -/
theorem Slumber.trans (second : scheduler.Slumber middle polled)
    (first : middle.Slumber origin polled) (timed : origin.Timed fired) :
    scheduler.Slumber origin polled where
  placed := second.placed.trans first.placed
  clock := first.clock.trans second.clock
  last := first.last.trans second.last
  spent := fun timer numbered missing =>
    second.spent timer (numbered.trans first.last) (first.spent timer numbered missing)
  sleeps := fun slot firing entry nap pending => by
    obtain ⟨_, agrees⟩ := timed.agrees
    rcases first.sleeps slot firing entry nap pending with ⟨still, same⟩ | ⟨missing, why⟩
    · exact second.sleeps slot firing entry still same
    · refine Or.inr ⟨second.spent _ ((agrees.number_le pending).trans first.last) missing, ?_⟩
      exact why.imp (second.placed.gone slot) fun ⟨polls, due⟩ => ⟨polls, due.trans second.clock⟩

theorem Undisturbed.tended (same : scheduler.Undisturbed origin) (timed : origin.Timed []) :
    scheduler.Tended origin polled :=
  ⟨same.timed timed, same.slumber, Or.inr same.clock⟩

theorem Tended.trans (second : scheduler.Tended middle polled)
    (first : middle.Tended origin polled) (timed : origin.Timed []) :
    scheduler.Tended origin polled where
  timed := second.timed
  slumber := second.slumber.trans first.slumber timed
  clock := second.clock.elim Or.inl fun same => first.clock.imp_right same.trans

theorem Rested.trans (second : scheduler.Rested middle held unscheduled polled)
    (first : middle.Tended origin polled) (timed : origin.Timed []) :
    scheduler.Rested origin held unscheduled polled :=
  ⟨second.toTended.trans first timed, second.settled⟩

/-! ### A task that ends -/

/-- A task that is not in the wait queue does not wait for a timer. -/
theorem Sound.nap?_eq_none
    (sound : scheduler.Sound origin ended lists held unscheduled running owed)
    (apart : slot ∉ lists .wait) : scheduler.roster.nap? slot = none := by
  cases present : scheduler.roster.task? slot with
  | none => exact Roster.nap?_eq_none present
  | some task =>
    rw [Roster.nap?_eq present]
    refine Task.nap?_of_awaited_eq_none (Option.not_isSome_iff_eq_none.mp fun awaits => apart ?_)
    exact (sound.queued.stands present).awaits.mp awaits

/-- Two tasks do not have the same number. -/
theorem Sound.eq_of_nap? (sound : scheduler.Sound origin ended lists held unscheduled running owed)
    {other : Slot} {firing found : Firing} (nap : scheduler.roster.nap? slot = some firing)
    (otherNap : scheduler.roster.nap? other = some found) (same : found.task = firing.task) :
    other = slot := by
  obtain ⟨task, present, _, id⟩ := Roster.nap?_eq_some_iff.mp nap
  obtain ⟨another, otherPresent, _, otherId⟩ := Roster.nap?_eq_some_iff.mp otherNap
  exact sound.counted.eq_of_id present otherPresent ((otherId.trans same).trans id.symm)

/-- The timers that are still to fire are just those that tasks in the wait queue wait for, and each
tells its task. -/
theorem Sound.pending_iff (sound : scheduler.Sound origin ended lists held unscheduled running owed)
    (timed : scheduler.Timed []) {timer : TimerId} {id : TaskId} :
    (∃ entry, scheduler.agenda.pending.find? timer = some entry ∧ entry.task = id) ↔
      ∃ slot ∈ lists .wait, ∃ task, scheduler.roster.task? slot = some task ∧
        task.awaited = some (.timer timer) ∧ task.id = id := by
  constructor
  · rintro ⟨entry, pending, rfl⟩
    obtain ⟨slot, nap⟩ := timed.timers timer entry pending
    refine ⟨slot, ?_, Roster.nap?_eq_some_iff.mp nap⟩
    by_contra outside
    exact absurd ((sound.nap?_eq_none outside).symm.trans nap) nofun
  · rintro ⟨slot, _, task, present, sleeps, rfl⟩
    have nap : scheduler.roster.nap? slot = some ⟨timer, task.id⟩ :=
      Roster.nap?_eq_some_iff.mpr ⟨task, present, sleeps, rfl⟩
    exact (timed.naps slot _ nap).resolve_left List.not_mem_nil

/-- Two tasks do not wait for the same timer. -/
theorem Sound.eq_of_awaited
    (sound : scheduler.Sound origin ended lists held unscheduled running owed)
    (timed : scheduler.Timed []) {other : Slot} {task found : Task} {timer : TimerId}
    (present : scheduler.roster.task? slot = some task)
    (otherPresent : scheduler.roster.task? other = some found)
    (sleeps : task.awaited = some (.timer timer)) (too : found.awaited = some (.timer timer)) :
    other = slot := by
  have nap : scheduler.roster.nap? slot = some ⟨timer, task.id⟩ :=
    Roster.nap?_eq_some_iff.mpr ⟨task, present, sleeps, rfl⟩
  have otherNap : scheduler.roster.nap? other = some ⟨timer, found.id⟩ :=
    Roster.nap?_eq_some_iff.mpr ⟨found, otherPresent, too, rfl⟩
  obtain ⟨entry, pending, tells⟩ := (timed.naps slot _ nap).resolve_left List.not_mem_nil
  obtain ⟨same, samePending, tellsToo⟩ :=
    (timed.naps other _ otherNap).resolve_left List.not_mem_nil
  obtain rfl := Option.some.inj (pending.symm.trans samePending)
  exact sound.eq_of_nap? nap otherNap (tellsToo.symm.trans tells)

/-- Who has not ended waits for what it waited for. -/
theorem Sound.nap?_of_outlived
    (sound : scheduler.Sound origin ended lists held unscheduled running owed)
    {endedNow : List Slot} (outlived : scheduler.roster.Outlived next.roster endedNow)
    (since : next.Since scheduler endedNow) (slot : Slot) :
    next.roster.nap? slot = if slot ∈ endedNow then none else scheduler.roster.nap? slot := by
  cases present : next.roster.task? slot with
  | some later =>
    rw [Roster.nap?_eq present]
    obtain ⟨earlier, earlierPresent, core⟩ := outlived slot later present
    by_cases gone : slot ∈ endedNow
    · rw [if_pos gone] at core ⊢
      have awake : later.core.awaited = none := congrArg Task.awaited core
      exact Task.nap?_of_awaited_eq_none awake
    · rw [if_neg gone] at core ⊢
      have same : later.core.nap? = earlier.core.nap? := congrArg Task.nap? core
      rw [Roster.nap?_eq earlierPresent]
      exact same
  | none =>
    rw [Roster.nap?_eq_none present]
    split
    · rfl
    · rename_i apart
      cases earlierPresent : scheduler.roster.task? slot with
      | none => exact (Roster.nap?_eq_none earlierPresent).symm
      | some earlier =>
        cases life : earlier.life with
        | zombie =>
          exact (sound.nap?_eq_none (sound.queued.apart earlierPresent life .wait)).symm
        | alive =>
          obtain ⟨later, laterPresent, _⟩ := since.alive slot earlier earlierPresent life apart
          exact absurd (present.symm.trans laterPresent) nofun

/-- If a task ends and its timer is cancelled, the timers are right, and the other tasks that wait
still do. -/
theorem Departed.tended (departed : scheduler.Departed slot exit next)
    (sound : scheduler.Sound origin ended lists held unscheduled running owed)
    (timed : scheduler.Timed []) (since : next.Since scheduler [slot])
    (placed : next.roster.Placed scheduler.roster) : next.Tended scheduler polled := by
  have naps := sound.nap?_of_outlived departed.outlived since
  simp only [List.mem_singleton] at naps
  have agenda := departed.agenda
  cases nap : scheduler.roster.nap? slot with
  | none =>
    rw [agendaWithout, nap] at agenda
    have same : next.Undisturbed scheduler := by
      refine ⟨placed, agenda, departed.clock, fun other => ?_⟩
      rw [naps]
      split
      · rename_i is
        rw [is, nap]
      · rfl
    exact same.tended timed
  | some firing =>
    simp only [agendaWithout, nap] at agenda
    obtain ⟨own, ownPending, ownTask⟩ := (timed.naps slot firing nap).resolve_left List.not_mem_nil
    have pending {timer : TimerId} (differ : timer ≠ firing.timer) :
        next.agenda.pending.find? timer = scheduler.agenda.pending.find? timer := by
      rw [agenda]
      exact Table.find?_erase_other _ differ
    have cancelled : next.agenda.pending.find? firing.timer = none := by
      rw [agenda]
      exact Table.find?_erase_self _ _
    -- No other task waits for the timer that is cancelled.
    have apart {other : Slot} {found : Firing} (differ : other ≠ slot)
        (otherNap : scheduler.roster.nap? other = some found) : found.timer ≠ firing.timer := by
      intro is
      obtain ⟨entry, entryPending, task⟩ :=
        (timed.naps other found otherNap).resolve_left List.not_mem_nil
      rw [is, ownPending] at entryPending
      obtain rfl := Option.some.inj entryPending
      exact differ (sound.eq_of_nap? nap otherNap (task.symm.trans ownTask))
    refine ⟨⟨?_, fun other found otherNap => Or.inr ?_, fun timer entry entryPending => ?_,
      fun _ member => absurd member List.not_mem_nil⟩,
      ⟨placed, Nat.le_of_eq departed.clock.symm, ?_, fun timer _ missing => ?_,
        fun other found entry otherNap entryPending => ?_⟩, Or.inr departed.clock⟩
    · obtain ⟨ledger, agrees⟩ := timed.agrees
      exact ⟨_, agenda ▸ agrees.cancel firing.timer⟩
    · rw [naps] at otherNap
      split at otherNap
      · exact absurd otherNap (Option.some_ne_none found).symm
      · rename_i differ
        rw [pending (apart differ otherNap)]
        exact (timed.naps other found otherNap).resolve_left List.not_mem_nil
    · have differ : timer ≠ firing.timer := by
        rintro rfl
        exact Option.some_ne_none entry (entryPending.symm.trans cancelled)
      rw [pending differ] at entryPending
      obtain ⟨other, otherNap⟩ := timed.timers timer entry entryPending
      refine ⟨other, ?_⟩
      rw [naps, if_neg, otherNap]
      rintro rfl
      exact differ (congrArg Firing.timer (Option.some.inj (otherNap.symm.trans nap)))
    · rw [agenda]
      exact Nat.le_refl _
    · by_cases is : timer = firing.timer
      · rw [is, cancelled]
      · rw [pending is, missing]
    · by_cases is : other = slot
      · subst is
        obtain rfl := Option.some.inj (nap.symm.trans otherNap)
        refine Or.inr ⟨cancelled, Or.inl ⟨?_, fun later present => ?_⟩⟩
        · obtain ⟨task, present, _⟩ := Roster.nap?_eq_some_iff.mp nap
          exact Nat.lt_of_lt_of_le (Roster.lt_size_of_task?_eq_some present) placed.size
        · exact departed.outlived.zombie (List.mem_singleton.mpr rfl) present
      · refine Or.inl ⟨?_, ?_⟩
        · rw [naps, if_neg is, otherNap]
        · rw [pending (apart is otherNap), entryPending]

/-! ### A task that begins to wait or goes on -/

/-- One task waits for something else, and all others wait for what they waited for. -/
theorem Rewaited.nap? {awaited : Option Awaited} (rewaited : scheduler.Rewaited slot awaited next)
    (other : Slot) : next.roster.nap? other =
      if other = slot then (scheduler.roster.task? slot).bind fun task => (task.await awaited).nap?
      else scheduler.roster.nap? other := by
  rw [rewaited.tasks.nap?, Roster.nap?, Roster.task?_alter]
  split
  · rename_i is
    rw [is, Option.bind_map]
    rfl
  · rfl

theorem Rewaited.placed {awaited : Option Awaited}
    (rewaited : scheduler.Rewaited slot awaited next) :
    next.roster.Placed scheduler.roster := by
  have altered : (scheduler.roster.alter slot (·.await awaited)).Placed scheduler.roster :=
    (Roster.Placed.refl _).alter slot fun _ ended => ended
  exact altered.arrange rewaited.tasks

/-- A task that did not wait for a timer begins to wait for one that was just started for it. -/
theorem Rewaited.tended {task : Task} {after : Nat} (timed : scheduler.Timed [])
    (present : scheduler.roster.task? slot = some task) (awake : scheduler.roster.nap? slot = none)
    (rewaited : ({ scheduler with
      agenda := (scheduler.agenda.start scheduler.clock after none task.id).1 } :
        Scheduler).Rewaited slot (some (.timer ⟨scheduler.agenda.last + 1⟩)) next) :
    next.Tended scheduler polled := by
  obtain ⟨ledger, agrees⟩ := timed.agrees
  have naps (other : Slot) : next.roster.nap? other =
      if other = slot then some ⟨⟨scheduler.agenda.last + 1⟩, task.id⟩
      else scheduler.roster.nap? other := by
    rw [rewaited.nap?, present]
    rfl
  have agenda : next.agenda =
      (scheduler.agenda.start scheduler.clock after none task.id).1 := by rw [rewaited.rest]
  have clock : next.clock = scheduler.clock := by rw [rewaited.rest]
  have fresh : next.agenda.pending.find? ⟨scheduler.agenda.last + 1⟩ =
      some ⟨task.id, (Agenda.later? scheduler.clock after).getD (scheduler.clock + Agenda.farOff),
        none⟩ := by
    rw [agenda]
    exact Table.find?_insert_self _ _ _
  have pending {timer : TimerId} (differ : timer ≠ ⟨scheduler.agenda.last + 1⟩) :
      next.agenda.pending.find? timer = scheduler.agenda.pending.find? timer := by
    rw [agenda]
    exact Table.find?_insert_other _ _ differ
  have older {timer : TimerId} (numbered : timer.number ≤ scheduler.agenda.last) :
      timer ≠ ⟨scheduler.agenda.last + 1⟩ := by
    rintro rfl
    exact Nat.not_succ_le_self _ numbered
  refine ⟨⟨⟨_, agenda ▸ agrees.start scheduler.clock after none task.id⟩,
    fun other firing nap => Or.inr ?_, fun timer entry entryPending => ?_,
    fun _ member => absurd member List.not_mem_nil⟩,
    ⟨rewaited.placed, Nat.le_of_eq clock.symm, ?_, fun timer numbered missing => ?_,
      fun other firing entry nap entryPending => Or.inl ⟨?_, ?_⟩⟩, Or.inr clock⟩
  · rw [naps] at nap
    split at nap
    · obtain rfl := Option.some.inj nap
      exact ⟨_, fresh, rfl⟩
    · obtain ⟨entry, entryPending, is⟩ :=
        (timed.naps other firing nap).resolve_left List.not_mem_nil
      rw [pending (older (agrees.number_le entryPending))]
      exact ⟨entry, entryPending, is⟩
  · by_cases is : timer = ⟨scheduler.agenda.last + 1⟩
    · rw [is, fresh] at entryPending
      refine ⟨slot, ?_⟩
      rw [naps, if_pos rfl, is, ← Option.some.inj entryPending]
    · rw [pending is] at entryPending
      obtain ⟨other, nap⟩ := timed.timers timer entry entryPending
      refine ⟨other, ?_⟩
      rw [naps, if_neg, nap]
      rintro rfl
      exact absurd (awake.symm.trans nap) nofun
  · rw [agenda]
    exact Nat.le_succ _
  · rw [pending (older numbered), missing]
  · rw [naps, if_neg, nap]
    rintro rfl
    exact absurd (awake.symm.trans nap) nofun
  · rw [pending (older (agrees.number_le entryPending)), entryPending]

end TaskMachine.Scheduler
