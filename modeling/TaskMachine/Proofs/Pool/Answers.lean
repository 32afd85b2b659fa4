/-
Who gets an answer from a pool that has shut down. Every completion is filled, or
owed by a thread, or late; a thread that has stopped owes nothing. So when all
have stopped, just the late ones are not filled, and nobody ever fills them. No
completion is late if nobody was about to send a task when the shutdown began.
-/

import TaskMachine.Proofs.Pool.Crowd

namespace TaskMachine

/-- The handle of somebody who has sent a task. -/
def Errand.Progress.handle? : Errand.Progress → Option Handle
  | sent handle | told handle | returned handle => some handle
  | _ => none

namespace Crowd

/-- Every completion is filled, owed by a thread or late, and the late ones are not filled. -/
structure Orderly (crowd : Crowd) : Prop where
  balanced : ∀ thread books, crowd.pool.books? thread = some books →
    books.Balanced crowd.late crowd.pool.completions.size
  answered : ∀ completion < crowd.pool.completions.size,
    crowd.pool.result? completion = none → completion ∈ crowd.late ∨
      ∃ thread books, crowd.pool.books? thread = some books ∧ books.Owes completion
  unanswered : ∀ completion ∈ crowd.late,
    completion < crowd.pool.completions.size ∧ crowd.pool.result? completion = none
  handles : ∀ errand ∈ crowd.errands, ∀ handle, errand.progress.handle? = some handle →
    handle.completion < crowd.pool.completions.size
  joined : ∀ thread books, crowd.stage.HasJoined thread →
    crowd.pool.books? thread = some books → books.phase = .stopped

variable {crowd next : Crowd} {pool : Pool} {worker : Worker} {number thread : Nat}

/-- At the start the books of every thread are those of a new one. -/
theorem eq_of_books?_start {threads patience : Nat} {config : Config}
    {respond : List Notice → List Parcel} {thread : Nat} {books : Books}
    (own : (start threads config patience respond).pool.books? thread = some books) :
    books = (Worker.new config patience).books := by
  obtain ⟨worker, present, rfl⟩ := Option.map_eq_some_iff.mp own
  have present : (Array.replicate (max threads 1) (Worker.new config patience))[thread]? =
    some worker := present
  rw [Array.getElem?_replicate] at present
  split at present
  · rw [← Option.some.inj present]
  · exact absurd present nofun

theorem orderly_start (threads : Nat) (config : Config) (patience : Nat)
    (respond : List Notice → List Parcel) :
    (start threads config patience respond).Orderly where
  balanced := fun thread books own => by
    obtain rfl := eq_of_books?_start own
    refine ⟨trivial, fun completion owed => ?_, fun _ member => absurd member List.not_mem_nil,
      fun _ member => absurd member List.not_mem_nil, fun _ => nofun, nofun⟩
    rcases owed with ⟨_, member, _⟩ | ⟨promise, promised⟩ | filling
    · exact absurd member List.not_mem_nil
    · exact absurd promised (by simp [Worker.books, Worker.new])
    · exact absurd filling nofun
  answered := fun _ below => absurd below (Nat.not_lt_zero _)
  unanswered := fun _ member => absurd member List.not_mem_nil
  handles := fun _ member => absurd member List.not_mem_nil
  joined := fun _ _ joined => joined.elim

/-! ### What leaves the threads alone -/

theorem Orderly.of_same (orderly : crowd.Orderly) (same : crowd.pool.SameBooks pool) :
    ({ crowd with pool } : Crowd).Orderly where
  balanced := fun thread books own => by
    show books.Balanced crowd.late pool.completions.size
    rw [same.completions]
    exact orderly.balanced thread books ((same.books thread).symm.trans own)
  answered := fun completion below missing => by
    have before := orderly.answered completion (same.completions ▸ below)
      ((same.results completion).symm.trans missing)
    exact before.imp_right fun ⟨thread, books, own, owed⟩ =>
      ⟨thread, books, (same.books thread).trans own, owed⟩
  unanswered := fun completion late => by
    obtain ⟨below, missing⟩ := orderly.unanswered completion late
    exact ⟨same.completions ▸ below, (same.results completion).trans missing⟩
  handles := fun errand member handle has =>
    same.completions ▸ orderly.handles errand member handle has
  joined := fun thread books joined own =>
    orderly.joined thread books joined ((same.books thread).symm.trans own)

/-- It plays no part who holds the list. -/
theorem Orderly.hold (orderly : crowd.Orderly) (holder : Option Nat) :
    ({ crowd with holder } : Crowd).Orderly :=
  ⟨orderly.balanced, orderly.answered, orderly.unanswered, orderly.handles, orderly.joined⟩

/-- Whoever spawns a task and goes on has no other handle than before, or one for a completion that
there is. -/
theorem Orderly.setProgress (orderly : crowd.Orderly) (number : Nat) (progress : Errand.Progress)
    (fits : ∀ handle, progress.handle? = some handle →
      handle.completion < crowd.pool.completions.size) :
    (crowd.setProgress number progress).Orderly := by
  refine ⟨orderly.balanced, orderly.answered, orderly.unanswered,
    fun errand member handle has => ?_, orderly.joined⟩
  rcases mem_setProgress member with before | is
  · exact orderly.handles errand before handle has
  · exact fits handle (is ▸ has)

/-- A shutdown goes on when a thread has stopped. -/
theorem Orderly.setStage (orderly : crowd.Orderly) {stage : Stage}
    (joined : ∀ thread worker, stage.HasJoined thread →
      crowd.pool.workers[thread]? = some worker →
        crowd.stage.HasJoined thread ∨ worker.phase = .stopped) :
    ({ crowd with stage } : Crowd).Orderly := by
  refine ⟨orderly.balanced, orderly.answered, orderly.unanswered, orderly.handles,
    fun thread books has own => ?_⟩
  obtain ⟨worker, working, rfl⟩ := Option.map_eq_some_iff.mp own
  rcases joined thread worker has working with before | stopped
  · exact orderly.joined thread worker.books before own
  · exact stopped

/-! ### A task that is sent -/

/-- Of the completions that are late when a task was sent, this one is new, if its thread was about
to close. -/
theorem mem_late_iff {phase : Phase} {late before : List Nat} {completion other : Nat}
    (tardy : late =
      match phase with
      | .closing => completion :: before
      | _ => before) : other ∈ late ↔ other ∈ before ∨ phase = .closing ∧ other = completion := by
  rw [tardy]
  cases phase with
  | closing => rw [List.mem_cons, or_comm, eq_self_iff_true, true_and]
  | _ => exact (or_iff_left fun both => absurd both.1 nofun).symm

/-- The completion of a task that is sent has no outcome, and its thread owes it. -/
theorem Orderly.told {handle : Handle} {late : List Nat} (orderly : crowd.Orderly)
    (present : crowd.pool.workers[thread]? = some worker)
    (told : crowd.pool.Told thread worker handle pool)
    (tardy : late =
      match worker.phase with
      | .closing => handle.completion :: crowd.late
      | _ => crowd.late) :
    ({ crowd with pool, late } : Crowd).Orderly := by
  obtain ⟨command, completion, books⟩ := told.books
  have own : crowd.pool.books? thread = some worker.books := by
    rw [Pool.books?, present, Option.map_some]
  have beyond {other : Nat} (below : other < crowd.pool.completions.size) :
      other < pool.completions.size := told.completions ▸ Nat.lt_succ_of_lt below
  have older {other : Nat} (below : other < crowd.pool.completions.size) :
      other ∈ late ↔ other ∈ crowd.late :=
    (mem_late_iff tardy).trans
      (or_iff_left fun both => Nat.ne_of_lt below (both.2.trans told.fresh))
  have new : handle.completion ∈ late ↔ worker.phase = .closing := by
    have fresh : handle.completion ∉ crowd.late := fun late =>
      absurd (orderly.unanswered _ late).1 (by rw [told.fresh]; exact Nat.lt_irrefl _)
    rw [mem_late_iff tardy, or_iff_right fresh, and_iff_left rfl]
  have grown {thread : Nat} {books : Books} (own : crowd.pool.books? thread = some books) :
      books.Balanced late (crowd.pool.completions.size + 1) :=
    (orderly.balanced thread books own).grow fun _ below => older below
  have theirs : pool.books? thread =
      some { worker.books with commands := worker.commands ++ [command] } :=
    (books thread).trans (if_pos rfl)
  refine ⟨fun other found has => ?_, fun place below missing => ?_, fun place member => ?_,
    fun errand member found has => beyond (orderly.handles errand member found has),
    fun other found joined has => ?_⟩
  · show found.Balanced late pool.completions.size
    rw [told.completions]
    rw [books] at has
    split at has
    · rw [← Option.some.inj has]
      refine (grown own).told told.isOpen ?_ ?_
      · rw [completion, told.fresh]
        exact Nat.lt_succ_self _
      · rw [completion]
        exact new
    · exact grown has
  · rcases Nat.lt_succ_iff_lt_or_eq.mp (told.completions ▸ below) with below | is
    · have before := orderly.answered place below ((told.results place).symm.trans missing)
      rcases before with tardy | ⟨other, found, has, owed⟩
      · exact Or.inl ((older below).mpr tardy)
      · refine Or.inr ?_
        by_cases same : other = thread
        · subst same
          obtain rfl := Option.some.inj (own.symm.trans has)
          refine ⟨other, _, theirs, owed.imp_left fun owes => ?_⟩
          obtain ⟨sent, member, is⟩ := owes
          exact ⟨sent, List.mem_append_left _ member, is⟩
        · exact ⟨other, found, (books other).trans ((if_neg same).trans has), owed⟩
    · refine Or.inr ⟨thread, _, theirs, Or.inl ⟨command, ?_, ?_⟩⟩
      · exact List.mem_append_right _ (List.mem_singleton.mpr rfl)
      · rw [completion, told.fresh, is]
  · by_cases is : place = handle.completion
    · subst is
      refine ⟨told.completions ▸ told.fresh ▸ Nat.lt_succ_self _, (told.results _).trans ?_⟩
      rw [told.fresh, Pool.result?, Array.getElem?_eq_none (Nat.le_refl _)]
      rfl
    · have before : place ∈ crowd.late :=
        ((mem_late_iff tardy).mp member).resolve_right fun both => is both.2
      obtain ⟨below, missing⟩ := orderly.unanswered place before
      exact ⟨beyond below, (told.results place).trans missing⟩
  · rw [books] at has
    split at has
    · rename_i is
      subst is
      rw [← Option.some.inj has]
      exact orderly.joined other worker.books joined own
    · exact orderly.joined other found joined has

/-! ### A thread that makes a step -/

/-- A thread fills what it owes, or owes it still. -/
theorem Orderly.turned {books : Books} {filled : Option (Nat × Outcome)} (orderly : crowd.Orderly)
    (working : crowd.pool.workers[thread]? = some worker)
    (turned : crowd.pool.Turned thread books filled pool)
    (turn : Books.Turn crowd.pool.stopping worker.books books filled) :
    ({ crowd with pool } : Crowd).Orderly := by
  have own : crowd.pool.books? thread = some worker.books := by
    rw [Pool.books?, working, Option.map_some]
  have balanced := orderly.balanced thread worker.books own
  refine ⟨fun other found has => ?_, fun completion below missing => ?_, fun completion late => ?_,
    fun errand member handle has => ?_, fun other found joined has => ?_⟩
  · show found.Balanced crowd.late pool.completions.size
    rw [turned.completions]
    rw [turned.books] at has
    split at has
    · rw [← Option.some.inj has]
      exact turn.balanced balanced
    · exact orderly.balanced other found has
  · have below : completion < crowd.pool.completions.size := turned.completions ▸ below
    obtain ⟨before, unfilled⟩ := turned.unfilled below missing
    rcases orderly.answered completion below before with late | ⟨place, found, has, owed⟩
    · exact Or.inl late
    · by_cases is : place = thread
      · subst is
        obtain rfl := Option.some.inj (own.symm.trans has)
        rcases turn.kept balanced owed with owed | ⟨outcome, given⟩ | late
        · exact Or.inr ⟨place, books, (turned.books place).trans (if_pos rfl), owed⟩
        · exact absurd given (unfilled outcome)
        · exact Or.inl late
      · exact Or.inr ⟨place, found, (turned.books place).trans ((if_neg is).trans has), owed⟩
  · obtain ⟨below, missing⟩ := orderly.unanswered completion late
    refine ⟨turned.completions.symm ▸ below, ?_⟩
    have results := turned.results completion
    cases filled with
    | none => exact results.trans missing
    | some given =>
      obtain ⟨place, outcome⟩ := given
      refine results.trans ((if_neg fun both => ?_).trans missing)
      rw [both.1] at late
      exact (turn.fills balanced).2 late
  · exact turned.completions.symm ▸ orderly.handles errand member handle has
  · rw [turned.books] at has
    split at has
    · rename_i is
      subst is
      exact absurd (orderly.joined other worker.books joined own) turn.not_stopped
    · exact orderly.joined other found joined has

/-! ### All acts -/

/-- Nobody comes to a handle but by sending a task. -/
theorem Follows.handle?_eq {stopping : Bool} {before after : Errand.Progress}
    (follows : Follows stopping before after) {handle : Handle}
    (has : after.handle? = some handle) : before.handle? = some handle := by
  cases follows with
  | look => split at has <;> exact absurd has nofun
  | hold | giveUp => exact absurd has nofun
  | tell found | letGo found => exact has

theorem Orderly.effect (orderly : crowd.Orderly) (effect : Effect crowd next) : next.Orderly := by
  cases effect with
  | asks function =>
    refine ⟨orderly.balanced, orderly.answered, orderly.unanswered,
      fun errand member handle has => ?_, orderly.joined⟩
    rcases List.mem_append.mp member with before | new
    · exact orderly.handles errand before handle has
    · rw [List.mem_singleton.mp new] at has
      exact absurd has nofun
  | @proceeds number errand progress pool holder present follows same =>
    refine ((orderly.of_same same).setProgress number progress fun handle has => ?_).hold holder
    have before := orderly.handles errand (List.mem_of_getElem? present) handle
    exact same.completions.symm ▸ before (follows.handle?_eq has)
  | @sends number _ _ _ handle pool _ _ working told =>
    refine (orderly.told working told rfl).setProgress number (.sent handle) fun found is => ?_
    rw [← Option.some.inj is, told.fresh]
    exact told.completions ▸ Nat.lt_succ_self _
  | begins =>
    exact ⟨orderly.balanced, orderly.answered, orderly.unanswered, orderly.handles,
      fun _ _ joined => joined.elim⟩
  | closes _ _ same joined => exact (orderly.setStage joined).of_same same
  | turns working turned turn => exact orderly.turned working turned turn
  | other same => exact orderly.of_same same

theorem Reachable.orderly (reachable : crowd.Reachable) : crowd.Orderly := by
  induction reachable with
  | start threads config patience respond => exact orderly_start threads config patience respond
  | act _ acts inductionHypothesis => exact inductionHypothesis.effect (effect_act acts)

/-! ### A shutdown that nobody overlaps -/

/-- Before a shutdown has begun no thread refuses tasks, so none is sent too late. -/
structure Timely (crowd : Crowd) : Prop where
  unbegun : crowd.stage = .running → crowd.pool.stopping = false
  late : crowd.pool.stopping = false → crowd.late = []
  phases : crowd.pool.stopping = false → ∀ thread books,
    crowd.pool.books? thread = some books → books.phase ≠ .draining ∧ books.phase ≠ .closing

theorem Timely.effect (timely : crowd.Timely) (orderly : crowd.Orderly)
    (effect : Effect crowd next) : next.Timely := by
  have same {pool : Pool} (same : crowd.pool.SameBooks pool) :
      ({ crowd with pool } : Crowd).Timely :=
    ⟨fun running => same.stopping.trans (timely.unbegun running),
      fun goesOn => timely.late (same.stopping.symm.trans goesOn),
      fun goesOn thread books own => timely.phases (same.stopping.symm.trans goesOn) thread books
        ((same.books thread).symm.trans own)⟩
  cases effect with
  | asks => exact ⟨timely.unbegun, timely.late, timely.phases⟩
  | proceeds _ _ _ alike => exact ⟨(same alike).unbegun, (same alike).late, (same alike).phases⟩
  | @sends _ thread _ worker handle pool _ _ working told =>
    have own : crowd.pool.books? thread = some worker.books := by
      rw [Pool.books?, working, Option.map_some]
    refine ⟨fun running => told.stopping.trans (timely.unbegun running), fun goesOn => ?_,
      fun goesOn other books has => ?_⟩
    · have before := told.stopping.symm.trans goesOn
      have takes := (timely.phases before thread worker.books own).2
      show (match worker.phase with
        | .closing => handle.completion :: crowd.late
        | _ => crowd.late) = []
      split
      · rename_i closing
        exact absurd closing takes
      · exact timely.late before
    · have phases := timely.phases (told.stopping.symm.trans goesOn)
      obtain ⟨_, _, changed⟩ := told.books
      rw [changed] at has
      split at has
      · rw [← Option.some.inj has]
        exact phases thread worker.books own
      · exact phases other books has
  | begins =>
    refine ⟨fun running => ?_, fun goesOn => absurd goesOn Bool.false_ne_true.symm,
      fun goesOn => absurd goesOn Bool.false_ne_true.symm⟩
    cases running
  | closes _ goesOn alike =>
    exact ⟨fun running => absurd running goesOn, (same alike).late, (same alike).phases⟩
  | @turns thread worker books filled pool working turned turn =>
    have own : crowd.pool.books? thread = some worker.books := by
      rw [Pool.books?, working, Option.map_some]
    refine ⟨fun running => turned.stopping.trans (timely.unbegun running),
      fun goesOn => timely.late (turned.stopping.symm.trans goesOn),
      fun goesOn other found has => ?_⟩
    have before := turned.stopping.symm.trans goesOn
    rw [turned.books] at has
    split at has
    · rw [← Option.some.inj has]
      rw [before] at turn
      exact turn.goesOn (orderly.balanced thread worker.books own).plain
        (timely.phases before thread worker.books own)
    · exact timely.phases before other found has
  | other alike => exact same alike

theorem Reachable.timely (reachable : crowd.Reachable) : crowd.Timely := by
  induction reachable with
  | start threads config patience respond =>
    refine ⟨fun _ => rfl, fun _ => rfl, fun _ thread books own => ?_⟩
    rw [eq_of_books?_start own]
    exact ⟨nofun, nofun⟩
  | act reachable acts inductionHypothesis =>
    exact inductionHypothesis.effect reachable.orderly (effect_act acts)

/-- A shutdown has begun, no task was sent too late, and none will be. -/
structure Calm (crowd : Crowd) : Prop where
  stopping : crowd.pool.stopping = true
  late : crowd.late = []
  errands : ∀ errand ∈ crowd.errands, errand.progress ≠ .looked ∧ errand.progress ≠ .holding

theorem Calm.effect (calm : crowd.Calm) (effect : Effect crowd next) : next.Calm := by
  cases effect with
  | asks function =>
    refine ⟨calm.stopping, calm.late, fun errand member => ?_⟩
    rcases List.mem_append.mp member with before | new
    · exact calm.errands errand before
    · rw [List.mem_singleton.mp new]
      exact ⟨nofun, nofun⟩
  | @proceeds _ errand _ _ _ present follows same =>
    refine ⟨same.stopping.trans calm.stopping, calm.late, fun found member => ?_⟩
    rcases mem_setProgress member with before | is
    · exact calm.errands found before
    · rw [is]
      have before := calm.errands errand (List.mem_of_getElem? present)
      generalize errand.progress = earlier at follows before
      cases follows with
      | look =>
        rw [calm.stopping]
        exact ⟨nofun, nofun⟩
      | hold => exact absurd rfl before.1
      | giveUp | tell | letGo => exact ⟨nofun, nofun⟩
  | sends present holding =>
    exact absurd holding (calm.errands _ (List.mem_of_getElem? present)).2
  | begins => exact ⟨rfl, calm.late, calm.errands⟩
  | closes _ _ same => exact ⟨same.stopping.trans calm.stopping, calm.late, calm.errands⟩
  | turns _ turned => exact ⟨turned.stopping.trans calm.stopping, calm.late, calm.errands⟩
  | other same => exact ⟨same.stopping.trans calm.stopping, calm.late, calm.errands⟩

theorem Calm.run {acts : List Act} (calm : crowd.Calm) (runs : crowd.run acts = some next) :
    next.Calm := by
  induction acts generalizing crowd with
  | nil =>
    obtain rfl := Option.some.inj runs
    exact calm
  | cons act rest inductionHypothesis =>
    obtain ⟨middle, acts, runs⟩ := Option.bind_eq_some_iff.mp runs
    exact inductionHypothesis (calm.effect (effect_act acts)) runs

theorem Reachable.run {acts : List Act} (reachable : crowd.Reachable)
    (runs : crowd.run acts = some next) : next.Reachable := by
  induction acts generalizing crowd with
  | nil =>
    obtain rfl := Option.some.inj runs
    exact reachable
  | cons act rest inductionHypothesis =>
    obtain ⟨middle, acts, runs⟩ := Option.bind_eq_some_iff.mp runs
    exact inductionHypothesis (reachable.act acts) runs

/-! ### Who gets an answer -/

/-- When all threads have stopped, just those handles have no outcome whose tasks were sent too
late, and they never have one. There is none of them if nobody was about to send a task when the
shutdown began. -/
theorem Reachable.unanswered_iff_late (reachable : crowd.Reachable) :
    (crowd.stage = .finished → ∀ errand ∈ crowd.errands, ∀ handle,
      errand.progress = .returned handle →
        (crowd.pool.result? handle.completion = none ↔ handle.completion ∈ crowd.late)) ∧
    (crowd.stage = .running →
      (∀ errand ∈ crowd.errands, errand.progress ≠ .looked ∧ errand.progress ≠ .holding) →
        ∀ acts last, crowd.run (.shutDown :: acts) = some last → last.stage = .finished →
          ∀ errand ∈ last.errands, ∀ handle, errand.progress = .returned handle →
            ∃ outcome, last.pool.result? handle.completion = some outcome) := by
  have known {crowd : Crowd} (reachable : crowd.Reachable) (finished : crowd.stage = .finished)
      {errand : Errand} (member : errand ∈ crowd.errands) {handle : Handle}
      (returned : errand.progress = .returned handle) :
      crowd.pool.result? handle.completion = none ↔ handle.completion ∈ crowd.late := by
    have orderly := reachable.orderly
    have below := orderly.handles errand member handle (returned ▸ rfl)
    refine ⟨fun missing => ?_, fun late => (orderly.unanswered _ late).2⟩
    refine (orderly.answered _ below missing).resolve_right ?_
    rintro ⟨thread, books, own, owed⟩
    have stopped := orderly.joined thread books (finished ▸ trivial) own
    exact (orderly.balanced thread books own).not_owes stopped owed
  refine ⟨fun finished errand member handle returned => known reachable finished member returned,
    fun running quiet acts last runs finished errand member handle returned => ?_⟩
  obtain ⟨middle, begins, goesOn⟩ := Option.bind_eq_some_iff.mp runs
  have begun : middle.Calm := by
    have acts : crowd.shutDown = some middle := begins
    rw [Crowd.shutDown, running] at acts
    obtain rfl := Option.some.inj acts
    exact ⟨rfl, reachable.timely.late (reachable.timely.unbegun running), quiet⟩
  have answered := known (reachable.run runs) finished member returned
  rw [(begun.run goesOn).late] at answered
  exact Option.ne_none_iff_exists'.mp fun missing =>
    absurd (answered.mp missing) List.not_mem_nil

/-- Two tasks are spawned while the pool shuts down. Both have looked before the flag is raised. One
is sent before the thread sees the flag, and the other when the thread has refused the first and is
about to close. -/
def crossing : List Act :=
  [.ask default, .ask default, .proceed 0 0, .proceed 1 0, .proceed 0 0, .proceed 0 0, .proceed 0 0,
    .proceed 0 0, .proceed 1 0, .shutDown, .turn 0, .turn 0, .turn 0, .proceed 1 0, .turn 0,
    .turn 0, .proceed 1 0, .proceed 1 0, .shutDown, .shutDown, .shutDown, .shutDown, .shutDown]

/-- The pool then has stopped, and both have their handles. -/
theorem exists_crossed : ∃ crowd : Crowd, crowd.Reachable ∧ crowd.stage = .finished ∧
    crowd.late = [1] ∧
    crowd.errands.map Errand.progress =
      [.returned ⟨⟨1⟩, 0, ⟨0⟩, 0⟩, .returned ⟨⟨2⟩, 0, ⟨1⟩, 1⟩] := by
  have known : ((start 1 .standard 0 fun _ => []).run crossing).map
      (fun crowd => (crowd.stage, crowd.late, crowd.errands.map Errand.progress)) =
      some (.finished, [1], [.returned ⟨⟨1⟩, 0, ⟨0⟩, 0⟩, .returned ⟨⟨2⟩, 0, ⟨1⟩, 1⟩]) := by
    decide +kernel
  obtain ⟨crowd, runs, is⟩ := Option.map_eq_some_iff.mp known
  obtain ⟨finished, late, errands⟩ : crowd.stage = .finished ∧ crowd.late = [1] ∧ _ := by
    simpa using is
  exact ⟨crowd, (Reachable.start _ _ _ _).run runs, finished, late, errands⟩

/-- A task is spawned. -/
def arriving : List Act :=
  [.ask default, .proceed 0 0, .proceed 0 0, .proceed 0 0, .proceed 0 0, .proceed 0 0]

/-- The thread refuses the task and stops, and the shutdown comes to its end. -/
def leaving : List Act :=
  [.turn 0, .turn 0, .turn 0, .turn 0, .turn 0, .shutDown, .shutDown, .shutDown, .shutDown,
    .shutDown]

/-- The first of two tasks has an outcome, and the second has none. If one is spawned before the
shutdown, it has an outcome. -/
theorem crossed_answers :
    (∃ crowd : Crowd, crowd.Reachable ∧ crowd.stage = .finished ∧
      crowd.errands.map Errand.progress =
        [.returned ⟨⟨1⟩, 0, ⟨0⟩, 0⟩, .returned ⟨⟨2⟩, 0, ⟨1⟩, 1⟩] ∧
      crowd.pool.result? 0 ≠ none ∧ crowd.pool.result? 1 = none) ∧
    ∃ crowd last : Crowd, crowd.Reachable ∧ crowd.run (.shutDown :: leaving) = some last ∧
      last.stage = .finished ∧ last.errands.map Errand.progress = [.returned ⟨⟨1⟩, 0, ⟨0⟩, 0⟩] ∧
      ∃ outcome, last.pool.result? 0 = some outcome := by
  refine ⟨?_, ?_⟩
  · obtain ⟨crowd, reachable, finished, late, errands⟩ := exists_crossed
    have answers := reachable.unanswered_iff_late.1 finished
    have first : .returned ⟨⟨1⟩, 0, ⟨0⟩, 0⟩ ∈ crowd.errands.map Errand.progress := by
      rw [errands]
      exact List.mem_cons_self
    have second : .returned ⟨⟨2⟩, 0, ⟨1⟩, 1⟩ ∈ crowd.errands.map Errand.progress := by
      rw [errands]
      exact List.mem_cons_of_mem _ List.mem_cons_self
    obtain ⟨errand, member, returned⟩ := List.mem_map.mp first
    obtain ⟨other, otherMember, otherReturned⟩ := List.mem_map.mp second
    refine ⟨crowd, reachable, finished, errands, ?_, ?_⟩
    · rw [ne_eq, answers errand member _ returned, late]
      decide
    · exact (answers other otherMember _ otherReturned).mpr (by rw [late]; decide)
  · have known : ((start 1 .standard 0 fun _ => []).run arriving).map
        (fun crowd => (crowd.stage, crowd.errands.map Errand.progress,
          (crowd.run (.shutDown :: leaving)).map
            fun last => (last.stage, last.errands.map Errand.progress))) =
        some (.running, [.returned ⟨⟨1⟩, 0, ⟨0⟩, 0⟩],
          some (.finished, [.returned ⟨⟨1⟩, 0, ⟨0⟩, 0⟩])) := by decide +kernel
    obtain ⟨crowd, arrives, is⟩ := Option.map_eq_some_iff.mp known
    obtain ⟨running, is⟩ := Prod.mk.inj is
    obtain ⟨arrived, is⟩ := Prod.mk.inj is
    obtain ⟨last, leaves, is⟩ := Option.map_eq_some_iff.mp is
    obtain ⟨finished, left⟩ := Prod.mk.inj is
    have reachable : crowd.Reachable := (Reachable.start _ _ _ _).run arrives
    have quiet : ∀ errand ∈ crowd.errands, errand.progress ≠ .looked ∧
        errand.progress ≠ .holding := by
      intro errand member
      have among := List.mem_map_of_mem (f := Errand.progress) member
      rw [arrived] at among
      rw [List.mem_singleton.mp among]
      exact ⟨nofun, nofun⟩
    have first : .returned ⟨⟨1⟩, 0, ⟨0⟩, 0⟩ ∈ last.errands.map Errand.progress := by
      rw [left]
      exact List.mem_cons_self
    obtain ⟨errand, member, returned⟩ := List.mem_map.mp first
    exact ⟨crowd, last, reachable, leaves, finished, left, reachable.unanswered_iff_late.2 running
      quiet leaving last leaves finished errand member _ returned⟩

/-- It is not so that all who have handles have outcomes in the end. -/
theorem not_all_answered : ¬ ∀ crowd : Crowd, crowd.Reachable → crowd.stage = .finished →
    ∀ errand ∈ crowd.errands, ∀ handle, errand.progress = .returned handle →
      ∃ outcome, crowd.pool.result? handle.completion = some outcome := by
  intro all
  obtain ⟨crowd, reachable, finished, late, errands⟩ := exists_crossed
  have second : .returned ⟨⟨2⟩, 0, ⟨1⟩, 1⟩ ∈ crowd.errands.map Errand.progress := by
    rw [errands]
    exact List.mem_cons_of_mem _ List.mem_cons_self
  obtain ⟨errand, member, returned⟩ := List.mem_map.mp second
  obtain ⟨outcome, answered⟩ := all crowd reachable finished errand member _ returned
  have missing := (reachable.orderly.unanswered 1 (by rw [late]; decide)).2
  exact absurd (missing.symm.trans answered) nofun

end Crowd

end TaskMachine
