/-
What happens in a pass. The tasks that stand in the run queue when a pass begins
are ready, and they get one turn each, in the order in which they stand. Orphans
that a sweep takes out of the queue before they had theirs get none.

How many turns a pass has is settled when it begins, and not again when ready
tasks are swept out. The turns that they would have had are given to others, to
tasks that have had theirs or have joined the queue in the meantime, as long as
there are any. Only if no ready task is swept out, a pass is one turn for each
ready task and none for others.
-/

import Mathlib.Data.List.Nodup
import TaskMachine.Proofs.Session.Basic

namespace TaskMachine

namespace Scheduler

/-- Turns are given to the tasks at some places, one after another. If the parent of a task has
ended, the task ends in its turn. -/
inductive Pass : Scheduler → List Slot → Scheduler → Prop
  | done (scheduler : Scheduler) : Pass scheduler [] scheduler
  | turn {scheduler middle final : Scheduler} {slot : Slot} {others : List Slot}
      (first : scheduler.roster.run.head = some slot)
      (steps : step scheduler = .ok true middle) (rest : Pass middle others final) :
      Pass scheduler (slot :: others) final

/-- A pass over ready tasks: those that had their turns, and then those that had further turns. -/
structure Round (scheduler : Scheduler) (ready served further : List Slot) (final : Scheduler) :
    Prop where
  pass : scheduler.Pass (served ++ further) final
  once : ready.Nodup
  /-- The tasks had their turns in the order in which they stood. -/
  sublist : served.Sublist ready
  /-- Who had none was swept out. -/
  orphaned : ∀ slot ∈ ready, slot ∉ served → slot ∉ further ∧ final.Orphaned scheduler slot
  /-- There are as many turns as ready tasks, unless nobody is left to have one. -/
  length_le : (served ++ further).length ≤ ready.length
  spent : (served ++ further).length < ready.length → final.roster.run.head = none

variable {origin scheduler final : Scheduler} {ended waiting joined ready turns served further :
  List Slot} {lists : Lane → List Slot} {held unscheduled : List TaskId} {slot : Slot}

/-- If no ready task was swept out, each has had one turn, and nobody else has had one. -/
theorem Round.whole (round : scheduler.Round ready served further final)
    (nobody : ∀ slot ∈ ready, ¬ final.Orphaned scheduler slot) :
    served = ready ∧ further = [] := by
  have all : ready ⊆ served := fun slot member => by
    by_contra absent
    exact nobody slot member (round.orphaned slot member absent).2
  have same : served = ready :=
    round.sublist.eq_of_length_le (List.subperm_of_subset round.once all).length_le
  refine ⟨same, List.length_eq_zero_iff.mp ?_⟩
  have within := round.length_le
  rw [List.length_append, same] at within
  omega

/-! ### Who has ended has no turn -/

/-- There was a task at a place, and it has ended as an orphan. -/
def Fallen (scheduler origin : Scheduler) (slot : Slot) : Prop :=
  slot < scheduler.roster.tasks.size ∧ scheduler.Orphaned origin slot

theorem indifferent_size (bound : Nat) :
    Indifferent fun scheduler => bound ≤ scheduler.roster.tasks.size where
  beside := fun within roster _ _ _ => by rwa [roster]
  arrange := fun within same => within.trans (Nat.le_of_eq same.1.symm)
  alter := fun slot _ within _ _ => by rwa [Roster.size_alter]
  number := fun within => within
  born := fun _ _ _ within => within.trans (by simp [entered])
  leave := fun _ within => by rwa [Roster.size_setTask]

/-- Who has ended stays so, and those who were told stay told. -/
theorem indifferent_fallen (origin : Scheduler) (slot : Slot) :
    Indifferent (Fallen · origin slot) where
  beside := fun {scheduler next} fallen roster _ _ told => by
    obtain ⟨recent, notices⟩ := told
    rw [Fallen, roster]
    refine ⟨fallen.1, fun task present => ?_, fun task present alive watcher watches => ?_⟩
    · rw [roster] at present
      exact fallen.2.ended task present
    · rw [notices]
      exact List.mem_append_right _ (fallen.2.told task present alive watcher watches)
  arrange := fun fallen same => by
    refine ⟨(indifferent_size _).arrange fallen.1 same, fun task present => ?_, fallen.2.told⟩
    obtain ⟨earlier, earlierPresent, is⟩ := same.symm.present present
    have life : earlier.unplaced.life = task.unplaced.life := congrArg Task.life is
    exact life.symm.trans (fallen.2.ended earlier earlierPresent)
  alter := fun other change fallen id life => by
    refine ⟨(indifferent_size _).alter other fallen.1 id life, fun task present => ?_,
      fallen.2.told⟩
    rw [Roster.task?_alter] at present
    split at present
    · obtain ⟨earlier, earlierPresent, rfl⟩ := Option.map_eq_some_iff.mp present
      exact life earlier (fallen.2.ended earlier earlierPresent)
    · exact fallen.2.ended task present
  number := fun fallen => ⟨fallen.1, fallen.2.ended, fallen.2.told⟩
  born := fun function parent mailbox fallen => by
    refine ⟨(indifferent_size _).born function parent mailbox fallen.1, fun task present => ?_,
      fallen.2.told⟩
    rcases Roster.of_task?_push present with ⟨last, _⟩ | before
    · exact absurd last (Nat.ne_of_lt fallen.1)
    · exact fallen.2.ended task before
  leave := fun present fallen => by
    refine ⟨(indifferent_size _).leave present fallen.1, fun task found => ?_, fallen.2.told⟩
    exact fallen.2.ended task (Roster.of_task?_drop found).2

/-- Who was in the run queue before a step, and has ended as an orphan in it, has fallen. -/
theorem Sound.fallen_of_step
    (sound : scheduler.Sound scheduler [] lists held unscheduled none none)
    (member : slot ∈ lists .run) {more : Bool} (steps : step scheduler = .ok more final)
    (orphaned : final.Orphaned origin slot) : final.Fallen origin slot := by
  obtain ⟨task, present, _⟩ := sound.queued.present member
  exact ⟨(indifferent_size _).of_step (Roster.lt_size_of_task?_eq_some present) steps, orphaned⟩

/-- A task that has ended has no turn in a pass. -/
theorem Pass.fallen (pass : scheduler.Pass turns final)
    (sound : scheduler.Sound scheduler [] lists held unscheduled none none)
    (fallen : scheduler.Fallen origin slot) : slot ∉ turns ∧ final.Fallen origin slot := by
  induction pass generalizing lists with
  | done scheduler => exact ⟨List.not_mem_nil, fallen⟩
  | turn first steps _ inductionHypothesis =>
    obtain ⟨_, listsNow, soundNow⟩ := sound.after_step_settled.ok steps
    obtain ⟨apart, fallenThen⟩ := inductionHypothesis soundNow.restart
      ((indifferent_fallen origin slot).of_step fallen steps)
    refine ⟨fun member => ?_, fallenThen⟩
    rcases List.mem_cons.mp member with rfl | later
    · obtain ⟨task, present, alive, _⟩ :=
        sound.queued.present (List.mem_of_head? (sound.head.symm.trans first))
      exact absurd (alive.symm.trans (fallen.2.ended task present)) nofun
    · exact apart later

/-! ### A pass -/

/-- If there are as many turns as tasks that wait for theirs, all of them have one, one after
another, but those that are swept out. -/
theorem Pass.serves (pass : scheduler.Pass turns final)
    (sound : scheduler.Sound origin ended lists held unscheduled none none)
    (stands : lists .run = waiting ++ joined) (apart : ∀ slot ∈ waiting, slot ∉ ended)
    (enough : waiting.length ≤ turns.length ∨ final.roster.run.head = none) :
    ∃ served further, turns = served ++ further ∧ served.Sublist waiting ∧
      ∀ slot ∈ waiting, slot ∉ served → slot ∉ turns ∧ final.Orphaned origin slot := by
  induction pass generalizing ended lists waiting joined with
  | done scheduler =>
    have nobody : waiting = [] := by
      rcases enough with short | empty
      · exact List.length_eq_zero_iff.mp (Nat.le_zero.mp short)
      · rw [sound.head, List.head?_eq_none_iff, stands] at empty
        exact (List.append_eq_nil_iff.mp empty).1
    subst nobody
    exact ⟨[], [], rfl, List.Sublist.refl _, fun _ member => absurd member List.not_mem_nil⟩
  | @turn scheduler middle final slot others first steps rest inductionHypothesis =>
    cases waiting with
    | nil =>
      exact ⟨[], slot :: others, rfl, List.Sublist.refl _,
        fun _ member => absurd member List.not_mem_nil⟩
    | cons next waiting =>
      rw [sound.head, stands, List.cons_append, List.head?_cons] at first
      obtain rfl := Option.some.inj first
      rcases sound.after_step.ok steps with ⟨_, more, _⟩ | ⟨_, behind, split, _, _, turned, _⟩
      · exact absurd more nofun
      rw [stands, List.cons_append] at split
      obtain ⟨rfl, rfl⟩ := List.cons.inj split
      obtain ⟨endedNow, listsNow, swept, joinedNow, soundNow, standsNow, orphaned, onlyThose, _⟩ :=
        turned
      rw [List.filter_append, List.append_assoc] at standsNow
      have stillWaits (other : Slot) :
          other ∈ waiting.filter (· ∉ swept) ↔ other ∈ waiting ∧ other ∉ swept := by simp
      obtain ⟨served, further, is, sublist, each⟩ := inductionHypothesis soundNow standsNow
        (fun other member inEnded => by
          obtain ⟨waits, stays⟩ := (stillWaits other).mp member
          exact (onlyThose other (List.mem_append_left _ waits) inEnded).elim stays
            (apart other (List.mem_cons_of_mem _ waits)))
        (enough.imp_left fun short => (List.length_filter_le _ _).trans
          (Nat.le_of_succ_le_succ short))
      refine ⟨next :: served, further, congrArg (next :: ·) is,
        (sublist.trans List.filter_sublist).cons_cons next, fun other member absent => ?_⟩
      rw [List.mem_cons, not_or] at absent
      have waits : other ∈ waiting := (List.mem_cons.mp member).resolve_left absent.1
      rw [List.mem_cons, not_or, and_assoc]
      refine ⟨absent.1, ?_⟩
      by_cases gone : other ∈ swept
      · have inRun : other ∈ lists .run := by
          rw [stands]
          exact List.mem_append_left _ member
        have fallen := sound.restart.fallen_of_step inRun steps
          (orphaned other (List.mem_append_left _ waits) gone (apart other member))
        obtain ⟨none, fallenThen⟩ := rest.fallen soundNow.restart fallen
        exact ⟨none, fallenThen.2⟩
      · exact each other ((stillWaits other).mpr ⟨waits, gone⟩) absent.2

/-- So many steps are a pass, and only if nobody is left to have a turn there are fewer. -/
theorem Sound.after_stepMany_pass
    (sound : scheduler.Sound origin ended lists held unscheduled none none) (steps : Nat) :
    After (stepMany steps) scheduler
      (fun _ final => ∃ turns, scheduler.Pass turns final ∧ turns.length ≤ steps ∧
        (turns.length < steps → final.roster.run.head = none))
      (Endless origin) := by
  induction steps generalizing scheduler ended lists with
  | zero => exact After.pure ⟨[], .done scheduler, Nat.le_refl 0, fun short => absurd short nofun⟩
  | succ steps inductionHypothesis =>
    have after := sound.after_step
    cases runs : step scheduler with
    | error crash middle =>
      exact After.bind (After.of_error runs (after.error runs))
    | ok more middle =>
      refine After.bind (After.of_ok runs ?_)
      rcases after.ok runs with ⟨empty, rfl, rfl⟩ | ⟨slot, behind, split, rfl, _, turned, _⟩
      · refine After.pure ⟨[], .done middle, Nat.zero_le _, fun _ => ?_⟩
        rw [sound.head, empty, List.head?_nil]
      · obtain ⟨endedNow, listsNow, soundNow⟩ := turned.settled
        refine After.bind ((inductionHypothesis soundNow).imp fun _ final passes => ?_)
        obtain ⟨turns, pass, within, spent⟩ := passes
        have first : scheduler.roster.run.head = some slot := by
          rw [sound.head, split, List.head?_cons]
        exact After.pure ⟨slot :: turns, .turn first runs pass, Nat.succ_le_succ within,
          fun short => spent (Nat.lt_of_succ_lt_succ short)⟩

/-- A pass is what as many steps are. -/
theorem Pass.stepMany_eq (pass : scheduler.Pass turns final) :
    stepMany turns.length scheduler = .ok turns.length final := by
  induction pass with
  | done scheduler => rfl
  | @turn scheduler middle final slot others first steps rest inductionHypothesis =>
    have continues : stepMany (others.length + 1) scheduler =
        (do let more ← stepMany others.length; pure (more + 1)) middle := by
      show (step >>= _) scheduler = _
      rw [bind_apply, steps]
      rfl
    rw [List.length_cons, continues, bind_apply, inductionHypothesis]
    rfl

/-- A pass of as many turns as tasks stand in the run queue is what a tick does in the end. -/
theorem Pass.tick_eq {woken polled : Scheduler} (pass : polled.Pass turns final)
    (wakes : wakeWoken scheduler = .ok ⟨⟩ woken) (polls : pollTimers woken = .ok ⟨⟩ polled)
    (length : polled.roster.run.length = turns.length) :
    tick scheduler = .ok final.outlook final := by
  show (wakeWoken >>= _) scheduler = _
  rw [bind_apply, wakes]
  show (pollTimers >>= _) woken = _
  rw [bind_apply, polls]
  show (stepMany polled.roster.run.length >>= _) polled = _
  rw [length, bind_apply, pass.stepMany_eq]
  rfl

/-- A scheduler gives turns to the tasks that are ready. -/
theorem Sound.after_pass
    (sound : scheduler.Sound scheduler [] lists held unscheduled none none) :
    After (stepMany scheduler.roster.run.length) scheduler
      (fun _ final => ∃ served further, scheduler.Round (lists .run) served further final)
      (Endless scheduler) := by
  have length : scheduler.roster.run.length = (lists .run).length :=
    congrArg Ends.length (sound.queued.lines .run).ends
  rw [length]
  refine (sound.after_stepMany_pass _).imp fun _ final passes => ?_
  obtain ⟨turns, pass, within, spent⟩ := passes
  obtain ⟨served, further, rfl, sublist, each⟩ := pass.serves sound (List.append_nil _).symm
    (fun _ _ => List.not_mem_nil) ((Nat.lt_or_ge _ _).symm.imp_right spent)
  refine ⟨served, further, pass, (sound.queued.lines .run).distinct, sublist,
    fun slot member absent => ?_, within, spent⟩
  obtain ⟨none, orphaned⟩ := each slot member absent
  exact ⟨fun late => none (List.mem_append_right _ late), orphaned⟩

end Scheduler

namespace Session

variable {session : Session}

/-- First the woken tasks and those whose timers are due go on. Then turns are given to the tasks
that stand in the run queue. Only without a limit this may have no end. -/
theorem Reachable.rounds (reachable : session.Reachable) :
    ∃ woken polled ready, Scheduler.wakeWoken session.scheduler = .ok ⟨⟩ woken ∧
      Scheduler.pollTimers woken = .ok ⟨⟩ polled ∧ polled.roster.slots .run = .ok ready ∧
      ((∃ served further final, Scheduler.tick session.scheduler = .ok final.outlook final ∧
          polled.Round ready served further final) ∨
        session.scheduler.config.execLimit = 0 ∧
          ∃ final, Scheduler.tick session.scheduler = .error .endless final) := by
  obtain ⟨lists, sound⟩ := reachable.sound
  cases wakes : Scheduler.wakeWoken session.scheduler with
  | error crash woken => exact (sound.after_wakeWoken.error wakes).elim
  | ok _ woken =>
    obtain ⟨listsNow, soundNow⟩ := sound.after_wakeWoken.ok wakes
    cases polls : Scheduler.pollTimers woken with
    | error crash polled => exact (soundNow.after_pollTimers.error polls).elim
    | ok _ polled =>
      obtain ⟨listsThen, soundThen⟩ := soundNow.after_pollTimers.ok polls
      refine ⟨woken, polled, listsThen .run, rfl, polls, soundThen.queued.lines.slots .run, ?_⟩
      have after : After Scheduler.tick session.scheduler
          (fun left final => left = final.outlook ∧
            ∃ served further, polled.Round (listsThen .run) served further final)
          (Scheduler.Endless polled) := by
        refine After.bind (After.of_ok wakes (After.bind (After.of_ok polls ?_)))
        refine After.bind (After.get (After.bind (soundThen.restart.after_pass.imp
          fun _ final round => ?_)))
        exact After.bind (After.get (After.pure ⟨rfl, round⟩))
      cases ticks : Scheduler.tick session.scheduler with
      | error crash final =>
        obtain ⟨rfl, unlimited⟩ := after.error ticks
        exact Or.inr ⟨soundThen.since.config ▸ unlimited, final, rfl⟩
      | ok left final =>
        obtain ⟨rfl, served, further, round⟩ := after.ok ticks
        exact Or.inl ⟨served, further, final, rfl, round⟩

/-! ### Passes at work -/

/-- A program that gives up its turn, again and again. -/
def yielding : Function :=
  { (default : Function) with code := #[Instruction.yieldNow, Instruction.jump (-2)] }

/-- A program that gives up its turn after it has received a message, again and again. -/
def attending : Function :=
  { (default : Function) with
    code := #[Instruction.receive 0, Instruction.yieldNow, Instruction.jump (-2)] }

/-- One task waits for a message, which has come in the meantime. Another can run. -/
def steady : Session :=
  ((((start .standard 0 fun _ => []).continued (.spawn attending none)).continued
    (.spawn yielding none)).continued .step).continued (.send ⟨1⟩ .nil none)

theorem steady_reachable : steady.Reachable := by
  refine .continued (.continued (.continued (.continued (.start _ _ _) trivial ?_) trivial ?_)
    trivial ?_) trivial ?_ <;> decide +kernel

/-- Both are ready, the one that waited behind the other. Neither ends, and so each has one turn. -/
theorem steady_rounds : ∃ polled final : Scheduler,
    Scheduler.tick steady.scheduler = .ok final.outlook final ∧
    polled.roster.slots .run = .ok [1, 0] ∧ polled.Pass [1, 0] final := by
  have before : (stateAfter Scheduler.pollTimers
      (stateAfter Scheduler.wakeWoken steady.scheduler)).roster.slots .run = .ok [1, 0] := by
    decide +kernel
  have lives : ∀ slot ∈ [1, 0],
      ((stateAfter Scheduler.tick steady.scheduler).roster.task? slot).map Task.life =
        some .alive := by decide +kernel
  obtain ⟨woken, polled, ready, wakes, polls, stands, round | endless⟩ := steady_reachable.rounds
  · obtain ⟨served, further, final, ticks, round⟩ := round
    rw [stateAfter_of_ok wakes, stateAfter_of_ok polls, stands] at before
    obtain rfl : ready = [1, 0] := Except.ok.inj before
    rw [stateAfter_of_ok ticks] at lives
    obtain ⟨rfl, rfl⟩ := round.whole fun slot member orphaned => by
      obtain ⟨task, present, alive⟩ := Option.map_eq_some_iff.mp (lives slot member)
      exact absurd (alive.symm.trans (orphaned.ended task present)) nofun
    exact ⟨polled, final, ticks, stands, round.pass⟩
  · exact absurd endless.1 (by decide +kernel)

/-- Three tasks can run. The second is a child of the first, which returns at once, and the third
gives up its turn, again and again. -/
def crowded : Session :=
  (((start .standard 0 fun _ => []).continued (.spawn returning none)).continued
    (.spawn returning (some ⟨1⟩))).continued (.spawn yielding none)

theorem crowded_reachable : crowded.Reachable := by
  refine .continued (.continued (.continued (.start _ _ _) trivial ?_) trivial ?_) trivial ?_ <;>
    decide +kernel

/-- The child is swept out, and in its stead the third task has a second turn. -/
theorem crowded_turns : crowded.Reachable ∧ ∃ woken polled final : Scheduler,
    Scheduler.wakeWoken crowded.scheduler = .ok ⟨⟩ woken ∧
    Scheduler.pollTimers woken = .ok ⟨⟩ polled ∧ polled.roster.slots .run = .ok [0, 1, 2] ∧
    polled.Pass [0, 2, 2] final ∧ Scheduler.tick crowded.scheduler = .ok final.outlook final := by
  have wakes : Scheduler.wakeWoken crowded.scheduler = .ok ⟨⟩ _ :=
    eq_ok_of_answer? (by decide +kernel)
  have polls : Scheduler.pollTimers (stateAfter Scheduler.wakeWoken crowded.scheduler) =
      .ok ⟨⟩ _ := eq_ok_of_answer? (by decide +kernel)
  have pass : (stateAfter Scheduler.pollTimers
      (stateAfter Scheduler.wakeWoken crowded.scheduler)).Pass [0, 2, 2] _ :=
    .turn (by decide +kernel) (eq_ok_of_answer? (by decide +kernel))
      (.turn (by decide +kernel) (eq_ok_of_answer? (by decide +kernel))
        (.turn (by decide +kernel) (eq_ok_of_answer? (by decide +kernel)) (.done _)))
  have stands : (stateAfter Scheduler.pollTimers
      (stateAfter Scheduler.wakeWoken crowded.scheduler)).roster.slots .run = .ok [0, 1, 2] := by
    decide +kernel
  exact ⟨crowded_reachable, _, _, _, wakes, polls, stands, pass,
    pass.tick_eq wakes polls (by decide +kernel)⟩

end Session

end TaskMachine
