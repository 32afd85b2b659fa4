/-
A pass keeps the scheduler sound. Tasks that were woken and those whose timers
are due go from the wait queue to the run queue, and then each task there gets a
turn. Since no timer has a period, firing them cannot break off.
-/

import TaskMachine.Proofs.Scheduler.Turns
import TaskMachine.Scheduler.Tick

namespace TaskMachine

namespace Agenda

/-- A glance at an agenda without periods leaves one, and does not overflow. -/
theorem OneShot.glance {agenda : Agenda} (oneShot : agenda.OneShot) (now : Nat) :
    match agenda.glance now with
    | .nothing => True
    | .dropped next => next.OneShot
    | .fired next _ => next.OneShot
    | .overflow _ => False := by
  rw [Agenda.glance]
  cases agenda.line with
  | nil => trivial
  | cons timer rest =>
    cases found : agenda.pending.find? timer with
    | none =>
      simp only [found]
      exact oneShot
    | some entry =>
      by_cases early : now < entry.deadline
      · simp only [found, early, if_true]
      · simp only [found, early, if_false, oneShot timer entry found]
        exact oneShot.cancel timer

theorem OneShot.fireWithin {agenda : Agenda} (oneShot : agenda.OneShot) (now glances : Nat) :
    (agenda.fireWithin now glances).agenda.OneShot ∧
      (agenda.fireWithin now glances).overflowed = false := by
  induction glances generalizing agenda with
  | zero => exact ⟨oneShot, rfl⟩
  | succ glances inductionHypothesis =>
    have sees := oneShot.glance now
    rw [Agenda.fireWithin]
    cases glance : agenda.glance now with
    | nothing => exact ⟨oneShot, rfl⟩
    | dropped next =>
      rw [glance] at sees
      exact inductionHypothesis sees
    | fired next firing =>
      rw [glance] at sees
      exact inductionHypothesis sees
    | overflow next =>
      rw [glance] at sees
      exact sees.elim

end Agenda

namespace Scheduler

variable {origin scheduler : Scheduler} {ended : List Slot} {lists : Lane → List Slot}
  {held unscheduled : List TaskId} {slot : Slot} {task : Task}

namespace Sound

/-! ### Waiting tasks that go on -/

theorem after_resumeIf (sound : scheduler.Sound origin ended lists held unscheduled none none)
    (id : TaskId) (awaited : Awaited) :
    After (resumeIf id awaited) scheduler
      (fun _ next => next.Settled origin ended held unscheduled) fun _ _ => False := by
  refine After.bind (After.get ?_)
  cases known : scheduler.registry.find? id with
  | none => exact After.pure ⟨lists, sound⟩
  | some slot =>
    obtain ⟨task, present, _⟩ := sound.registered known
    refine After.bind (after_fetch present ?_)
    by_cases waits : task.awaited = some awaited
    · rw [if_pos waits]
      have member : slot ∈ lists .wait :=
        (sound.queued.stands present).awaits.mp (by rw [waits]; rfl)
      have differ : Lane.run ≠ Lane.wait := nofun
      exact (sound.transfer member differ none (iff_of_false nofun nofun)).imp
        fun _ _ moved => ⟨_, moved⟩
    · rw [if_neg waits]
      exact After.pure ⟨lists, sound⟩

/-- Any tasks can go on, one after another. -/
theorem after_resumeAll {Item : Type} (items : List Item) (id : Item → TaskId)
    (awaited : Item → Awaited)
    (sound : scheduler.Sound origin ended lists held unscheduled none none) :
    After (items.forM fun item => resumeIf (id item) (awaited item)) scheduler
      (fun _ next => next.Settled origin ended held unscheduled) fun _ _ => False := by
  refine After.forM (fun item _ middle settled => ?_) ⟨lists, sound⟩
  obtain ⟨listsNow, soundNow⟩ := settled
  exact soundNow.after_resumeIf (id item) (awaited item)

theorem after_wakeWoken (sound : scheduler.Sound origin ended lists held unscheduled none none) :
    After wakeWoken scheduler (fun _ next => next.Settled origin ended held unscheduled)
      fun _ _ => False := by
  refine After.bind (after_onMailroom fun woken room => ?_)
  exact (sound.mailroom room).after_resumeAll woken id fun _ => .message

/-! ### Timers -/

theorem after_fireDue (sound : scheduler.Sound origin ended lists held unscheduled none none) :
    After fireDue scheduler
      (fun _ next => next.Sound origin ended lists held unscheduled none none)
      fun _ _ => False := by
  obtain ⟨oneShot, fits⟩ := sound.oneShot.fireWithin scheduler.clock
    (3 * scheduler.agenda.line.length + 1)
  refine After.bind (After.get (After.bind (After.set ?_)))
  have fits' : (scheduler.agenda.fireDue scheduler.clock).overflowed = false := fits
  rw [fits']
  exact After.pure (sound.timers oneShot)

theorem after_resumeFired (sound : scheduler.Sound origin ended lists held unscheduled none none)
    (fired : List Firing) :
    After (resumeFired fired) scheduler (fun _ next => next.Settled origin ended held unscheduled)
      fun _ _ => False :=
  sound.after_resumeAll fired Firing.task fun firing => .timer firing.timer

theorem after_pollTimers (sound : scheduler.Sound origin ended lists held unscheduled none none) :
    After pollTimers scheduler (fun _ next => next.Settled origin ended held unscheduled)
      fun _ _ => False :=
  After.bind (sound.after_fireDue.imp fun fired _ soundNow => soundNow.after_resumeFired fired)

/-! ### Passes -/

theorem after_tick (sound : scheduler.Sound origin ended lists held unscheduled none none) :
    After tick scheduler (fun _ next => ∃ ended, next.Settled origin ended held unscheduled)
      (Endless origin) := by
  refine After.bind (sound.after_wakeWoken.mono (fun _ woken settled => ?_) fun _ _ => False.elim)
  obtain ⟨listsNow, soundNow⟩ := settled
  refine After.bind (soundNow.after_pollTimers.mono (fun _ polled settled => ?_)
    fun _ _ => False.elim)
  obtain ⟨listsThen, soundThen⟩ := settled
  refine After.bind (After.get (After.bind ((soundThen.after_stepMany _).imp
    fun _ next settled => ?_)))
  exact After.bind (After.get (After.pure settled))

theorem elapse (sound : scheduler.Sound origin ended lists held unscheduled none none) :
    After elapse scheduler
      (fun _ next => next.Sound origin ended lists held unscheduled none none)
      fun _ _ => False := by
  refine After.modify ?_
  cases scheduler.agenda.nextDeadline with
  | none => exact sound
  | some deadline => exact sound.congr rfl rfl rfl sound.oneShot rfl ⟨[], rfl⟩

theorem after_takeToken (sound : scheduler.Sound origin ended lists held unscheduled none none) :
    After takeToken scheduler
      (fun _ next => next.Sound origin ended lists held unscheduled none none)
      fun _ _ => False :=
  after_onMailroom fun _ room => sound.mailroom room

theorem after_awaitTimers (sound : scheduler.Sound origin ended lists held unscheduled none none) :
    After awaitTimers scheduler
      (fun _ next => next.Sound origin ended lists held unscheduled none none)
      fun _ _ => False := by
  refine After.bind (sound.after_takeToken.imp fun token _ soundNow => ?_)
  cases token with
  | true => exact soundNow.after_fireDue
  | false => exact After.bind (soundNow.elapse.imp fun _ _ soundThen => soundThen.after_fireDue)

theorem after_wait (sound : scheduler.Sound origin ended lists held unscheduled none none) :
    After wait scheduler (fun _ next => next.Settled origin ended held unscheduled)
      fun _ _ => False := by
  refine After.bind (After.get ?_)
  cases scheduler.agenda.hasPending with
  | true => exact After.bind (sound.after_awaitTimers.imp fun fired _ soundNow =>
      soundNow.after_resumeFired fired)
  | false => exact After.bind (sound.after_takeToken.imp fun _ _ soundNow =>
      After.pure ⟨lists, soundNow⟩)

theorem after_rest (sound : scheduler.Sound origin ended lists held unscheduled none none) :
    After rest scheduler (fun _ next => next.Settled origin ended held unscheduled)
      fun _ _ => False := by
  refine After.bind (After.get ?_)
  cases scheduler.agenda.hasPending with
  | true => exact After.bind (sound.elapse.imp fun _ _ soundNow => soundNow.after_pollTimers)
  | false => exact After.pure ⟨lists, sound⟩

/-- A run goes on as long as it is let, and stops when nothing is left to do. -/
theorem after_runWithin {passes : Nat}
    (sound : scheduler.Sound origin ended lists held unscheduled none none) :
    After (runWithin passes) scheduler
      (fun _ next => ∃ ended, next.Settled origin ended held unscheduled)
      fun crash _ => crash = .endless := by
  induction passes generalizing scheduler ended lists with
  | zero => exact After.throw rfl
  | succ passes inductionHypothesis =>
    refine After.bind (sound.after_tick.mono (fun left middle settled => ?_)
      fun _ _ endless => endless.1)
    obtain ⟨endedNow, listsNow, soundNow⟩ := settled
    cases left with
    | busy => exact inductionHypothesis soundNow
    | idle => exact After.pure ⟨endedNow, listsNow, soundNow⟩
    | waiting =>
      refine After.bind (After.get ?_)
      by_cases pending : middle.agenda.hasPending = true
      · simp only [pending, if_true]
        refine After.bind (soundNow.after_rest.mono (fun _ rested settled => ?_)
          fun _ _ => False.elim)
        obtain ⟨listsThen, soundThen⟩ := settled
        exact inductionHypothesis soundThen
      · simp only [pending]
        refine After.bind (After.get ?_)
        cases middle.mailroom.woken.isEmpty with
        | true => exact After.pure ⟨endedNow, listsNow, soundNow⟩
        | false => exact inductionHypothesis soundNow

end Sound

end Scheduler

end TaskMachine
