/-
The references to tasks are exact, and lifetimes follow from them. Between two
operations a task has one reference for its life, one for each of its children
that is still there, and one for each time that the embedder holds it. Since a
task without references is not there, a task that has ended is there just as
long as a child of it or the embedder refers to it.

A task that is alive is not taken away: it is given an exit first, whether
somebody watches it or not. That is said move by move, since a task can come, end
and go in one operation. A move ends one task at most, which stays where it is
until the next one; all others that are alive stay so (`Move.since`).
-/

import TaskMachine.Proofs.Session.Reports

namespace TaskMachine

namespace Moment

/-! ### Who ends in a move -/

section

variable {operation : Operation} {scheduler next : Scheduler} {events : List Event}
  {slot place : Slot} {task : Task} {id : TaskId} {exit given : Exit}

theorem mem_endings : slot ∈ endings events ↔ ∃ id exit, .ended slot id exit ∈ events := by
  constructor
  · intro ends
    obtain ⟨event, member, isAt⟩ := List.mem_filterMap.mp ends
    cases event with
    | ended place id exit =>
      obtain rfl := Option.some.inj isAt
      exact ⟨id, exit, member⟩
    | _ => cases isAt
  · rintro ⟨id, exit, member⟩
    exact List.mem_filterMap.mpr ⟨_, member, rfl⟩

/-- Nobody ends in what the embedder asks for. -/
theorem endings_of_served (served : Served operation scheduler events next) :
    endings events = [] := by
  cases served with
  | quietly | watched => rfl
  | delivered letters => exact (Moment.plain (plain_posted _ _)).1

/-- Nobody ends in an instruction after which the execution goes on. -/
theorem endings_of_instructed (instructed : scheduler.Instructed slot events next) :
    endings events = [] := by
  cases instructed with
  | alone | spawned | received => rfl
  | invoked => exact (Moment.plain (plain_posted _ _)).1

theorem endings_departed (scheduler : Scheduler) (slot : Slot) (task : Task) (exit : Exit) :
    endings (departed scheduler slot task exit) = [slot] :=
  congrArg (slot :: ·) (Moment.plain (plain_posted _ _)).1

theorem eq_of_mem_departed (member : .ended place id given ∈ departed scheduler slot task exit) :
    place = slot ∧ id = task.id ∧ given = exit := by
  rcases List.mem_cons.mp member with same | posts
  · injection same with places ids exits
    exact ⟨places, ids, exits⟩
  · exact (plain_posted _ _ _ posts).elim

end

section

variable {moment next : Moment} {events more : List Event} {slot : Slot} {task : Task}
  {id : TaskId} {exit : Exit}

/-- Whoever is alive stays so in a move, but for the task that it ends. -/
theorem Move.since (moves : Move Session.Permits moment events next)
    (standing : moment.Standing) :
    next.session.scheduler.Since moment.session.scheduler (endings events) := by
  cases moves with
  | @serve session operation scheduler permitted quiet performs =>
    have steps : session.Step operation _ := .success permitted performs
    obtain ⟨ended, nobody, lists, sound⟩ := steps.sound standing
    rw [endings_of_served ((after_serve quiet).ok performs), ← nobody quiet]
    exact sound.since
  | @refuse session operation crash scheduler permitted quiet breaks refusal =>
    have steps : session.Step operation _ := .refusal permitted breaks fun endless => by
      rw [endless] at refusal
      exact absurd refusal nofun
    obtain ⟨ended, nobody, lists, sound⟩ := steps.sound standing
    rw [nobody quiet] at sound
    exact sound.since
  | tend chore performs =>
    obtain ⟨lists, sound⟩ := (chore.after_perform standing).ok performs
    exact sound.since
  | @begin session slot task stack first cared present mans =>
    obtain ⟨lists, sound⟩ := standing
    exact (sound.rearrange (Roster.map_alter _ slot Task.seen_disarm)
      (sound.queued.disarm (sound.head.symm.trans first))).since
  | @instruct session slot id stack after cost scheduler steps =>
    obtain ⟨⟨lists, sound⟩, -⟩ := standing
    obtain ⟨listsNow, soundNow⟩ := sound_of_step sound steps
    rw [endings_of_instructed (.of_step steps)]
    exact soundNow.since
  | preempt settles =>
    obtain ⟨⟨lists, sound⟩, -⟩ := standing
    obtain ⟨listsNow, soundNow⟩ := settled_of_settle sound rfl settles
    exact soundNow.since
  | pause steps stays settles =>
    obtain ⟨⟨lists, sound⟩, -⟩ := standing
    obtain ⟨_, middleSound⟩ := sound_of_step sound steps
    obtain ⟨listsNow, soundNow⟩ := settled_of_settle middleSound stays settles
    exact soundNow.since
  | @finish session slot id stack after status exit task middle scheduler steps exits departs =>
    have alone : endings (.rested slot :: departed middle slot task exit) = [slot] :=
      endings_departed middle slot task exit
    rw [alone]
    exact (standing.finish steps exits departs).since
  | orphan stands bereft departs =>
    rw [endings_departed]
    exact (standing.orphan stands bereft departs).since
  | @close session slot task exit middle scheduler reports releases =>
    obtain ⟨⟨lists, sound⟩, endedPresent, -⟩ := standing
    obtain ⟨-, rfl⟩ := (Scheduler.after_report task exit _).ok reports
    rw [(Moment.plain (plain_posted _ _)).1]
    exact (((sound.mailroom (session.scheduler.mailroom.deliver
      (session.scheduler.roster.exitReport task exit))).after_releaseSlot endedPresent).ok
        releases).since

/-- Whoever ends in a move was alive, and is still there, in the middle of its ending. -/
theorem Move.ended (moves : Move Session.Permits moment events next) (standing : moment.Standing)
    (member : .ended slot id exit ∈ events) :
    (∃ before, moment.session.scheduler.roster.task? slot = some before ∧
      before.life = .alive ∧ before.id = id) ∧
    ∃ task, next.phase = .ending slot task exit ∧ task.id = id ∧
      next.session.scheduler.roster.task? slot = some task.ended := by
  have nobody {Conclusion : Prop} (none : endings events = []) : Conclusion :=
    absurd (none ▸ mem_endings.mpr ⟨id, exit, member⟩) List.not_mem_nil
  have falls {session : Session} {task : Task} {scheduler : Scheduler}
      (fallen : Fallen session slot task exit scheduler) (same : id = task.id) :
      ∃ before, session.scheduler.roster.task? slot = some before ∧ before.life = .alive ∧
        before.id = id := by
    obtain ⟨before, present, alive, unplaced⟩ := fallen.earlier
    have ids : task.unplaced.id = before.unplaced.id := by rw [unplaced]
    exact ⟨before, present, alive, ids.symm.trans same.symm⟩
  cases moves with
  | serve permitted quiet performs =>
    exact nobody (endings_of_served ((after_serve quiet).ok performs))
  | instruct steps => exact nobody (endings_of_instructed (.of_step steps))
  | finish steps exits departs =>
    obtain ⟨rfl, same, rfl⟩ := eq_of_mem_departed ((List.mem_cons.mp member).resolve_left nofun)
    have fallen := standing.finish steps exits departs
    exact ⟨falls fallen same, _, rfl, same.symm, fallen.standing.2.1⟩
  | orphan stands bereft departs =>
    obtain ⟨rfl, same, rfl⟩ := eq_of_mem_departed member
    have fallen := standing.orphan stands bereft departs
    exact ⟨falls fallen same, _, rfl, same.symm, fallen.standing.2.1⟩
  | close => exact nobody (Moment.plain (plain_posted _ _)).1
  | refuse | tend | begin | preempt | pause => exact nobody rfl

/-- A move after which no exit is to be reported has ended nobody. -/
theorem Move.endings_eq_nil (moves : Move Session.Permits moment events next)
    (standing : moment.Standing) (rests : next.phase = .between) : endings events = [] := by
  refine List.eq_nil_iff_forall_not_mem.mpr fun slot ends => ?_
  obtain ⟨id, exit, member⟩ := mem_endings.mp ends
  obtain ⟨-, task, ending, -⟩ := moves.ended standing member
  exact absurd (rests.symm.trans ending) nofun

/-- A task that is alive is not taken away by a move: it is still there, alive or with an exit. -/
theorem Move.stays (moves : Move Session.Permits moment events next) (standing : moment.Standing)
    (present : moment.session.scheduler.roster.task? slot = some task)
    (alive : task.life = .alive) :
    ∃ later, next.session.scheduler.roster.task? slot = some later ∧ later.id = task.id ∧
      (later.life = .alive ∨ ∃ exit, .ended slot task.id exit ∈ events) := by
  by_cases ends : slot ∈ endings events
  · obtain ⟨id, exit, member⟩ := mem_endings.mp ends
    obtain ⟨⟨found, again, _, was⟩, later, _, is, presentNow⟩ := moves.ended standing member
    obtain rfl := Option.some.inj (present.symm.trans again)
    exact ⟨later.ended, presentNow, is.trans was.symm, Or.inr ⟨exit, was ▸ member⟩⟩
  · obtain ⟨later, presentNow, aliveNow, id, _⟩ :=
      (moves.since standing).alive slot task present alive ends
    exact ⟨later, presentNow, id, Or.inl aliveNow⟩

/-! ### What becomes of the tasks that are alive -/

/-- Whoever was alive still is, unless it is among those that have ended. -/
theorem Runs.since (runs : Runs Session.Permits moment events next) (standing : moment.Standing) :
    next.Standing ∧
      next.session.scheduler.Since moment.session.scheduler (endings events) := by
  induction runs with
  | none => exact ⟨standing, .refl _⟩
  | move _ moves inductionHypothesis =>
    obtain ⟨standingNow, since⟩ := inductionHypothesis
    rw [endings_append]
    exact ⟨moves.standing standingNow, since.trans (moves.since standingNow)⟩

/-- Whoever was alive still is, or was given an exit. -/
theorem Runs.stays (runs : Runs Session.Permits moment events next) (standing : moment.Standing)
    (present : moment.session.scheduler.roster.task? slot = some task)
    (alive : task.life = .alive) :
    (∃ later, next.session.scheduler.roster.task? slot = some later ∧ later.id = task.id ∧
      later.life = .alive) ∨ ∃ exit, .ended slot task.id exit ∈ events := by
  induction runs with
  | none => exact Or.inl ⟨task, present, rfl, alive⟩
  | move runs moves inductionHypothesis =>
    rcases inductionHypothesis with ⟨middle, middlePresent, id, middleAlive⟩ | ⟨exit, member⟩
    · obtain ⟨later, laterPresent, same, aliveOrEnded⟩ :=
        moves.stays (runs.since standing).1 middlePresent middleAlive
      rcases aliveOrEnded with laterAlive | ⟨exit, member⟩
      · exact Or.inl ⟨later, laterPresent, same.trans id, laterAlive⟩
      · exact Or.inr ⟨exit, List.mem_append_right _ (id ▸ member)⟩
    · exact Or.inr ⟨exit, List.mem_append_left _ member⟩

/-- What has become of the tasks that were alive in a session, if this has happened since. -/
structure Fates (session : Session) (events : List Event) (moment : Moment) : Prop where
  /-- Those that are not among the ended are as alive as they were, and the watchers of the others
  were told. -/
  since : moment.session.scheduler.Since session.scheduler (endings events)
  /-- Nobody ends twice. -/
  once : (endings events).Nodup
  /-- Each is alive and was not given an exit, or was given one and is not alive. -/
  exits : ∀ slot task, session.scheduler.roster.task? slot = some task → task.life = .alive →
    (slot ∉ endings events ∧ ∃ later, moment.session.scheduler.roster.task? slot = some later ∧
      later.id = task.id ∧ later.life = .alive) ∨
    (∃ exit, .ended slot task.id exit ∈ events) ∧
      ¬ ∃ later, moment.session.scheduler.roster.task? slot = some later ∧ later.life = .alive
  /-- And whoever is alive now, whether it was there before or has come since, is not taken away by
  what comes next: it is still there, alive or with an exit. -/
  stays : ∀ more next, Move Session.Permits moment more next →
    ∀ slot task, moment.session.scheduler.roster.task? slot = some task → task.life = .alive →
      ∃ later, next.session.scheduler.roster.task? slot = some later ∧ later.id = task.id ∧
        (later.life = .alive ∨ ∃ exit, .ended slot task.id exit ∈ more)

/-- What has become of the tasks can be told at any moment. -/
theorem Reached.fates {before : List Event} {session : Session}
    (reached : Reached Session.Permits before ⟨session, .between⟩)
    (runs : Runs Session.Permits ⟨session, .between⟩ events moment) :
    Fates session events moment := by
  obtain ⟨standing, since⟩ := runs.since reached.standing
  have ledger := (reached.runs runs).ledger
  have alive_apart {slot : Slot} {later : Task}
      (present : moment.session.scheduler.roster.task? slot = some later)
      (alive : later.life = .alive) : slot ∉ endings events := by
    have apart := (ledger.minds.1 slot later present alive).2
    rw [endings_append] at apart
    exact fun member => apart (List.mem_append_right _ member)
  refine ⟨since, ?_, fun slot task present alive => ?_,
    fun _ _ moves _ _ present alive => moves.stays standing present alive⟩
  · have once := ledger.once
    rw [endings_append] at once
    exact once.of_append_right
  · rcases runs.stays reached.standing present alive with ⟨later, presentNow, id, aliveNow⟩ | ended
    · exact Or.inl ⟨alive_apart presentNow aliveNow, later, presentNow, id, aliveNow⟩
    · refine Or.inr ⟨ended, ?_⟩
      rintro ⟨later, presentNow, aliveNow⟩
      obtain ⟨exit, member⟩ := ended
      exact alive_apart presentNow aliveNow (mem_endings.mpr ⟨_, exit, member⟩)

end

end Moment

namespace Session

/-- A session is reached by moves. -/
theorem Reachable.reached {session : Session} (reachable : session.Reachable) :
    ∃ events, Moment.Reached Permits events ⟨session, .between⟩ := by
  induction reachable with
  | start config patience respond => exact ⟨[], config, patience, respond, .none⟩
  | step _ steps inductionHypothesis =>
    obtain ⟨events, reached⟩ := inductionHypothesis
    obtain ⟨more, runs⟩ := reached.standing.runs steps
    exact ⟨events ++ more, reached.runs runs⟩

/-- An operation is made of moves, and nobody ends in one that gives no turns. -/
theorem Reachable.runs {session next : Session} {operation : Operation}
    (reachable : session.Reachable) (steps : session.Step operation next) :
    ∃ events, Moment.Runs Permits ⟨session, .between⟩ events ⟨next, .between⟩ ∧
      (operation.givesTurns = false → Moment.endings events = []) := by
  obtain ⟨before, reached⟩ := reachable.reached
  cases gives : operation.givesTurns with
  | true =>
    obtain ⟨events, runs⟩ := reached.standing.runs steps
    exact ⟨events, runs, nofun⟩
  | false =>
    obtain ⟨events, moves⟩ := reached.standing.moves steps gives
    exact ⟨events, .move .none moves, fun _ => moves.endings_eq_nil reached.standing rfl⟩

/-- The references to every task are counted exactly: a task that has ended is there only if a child
or the embedder refers to it, and every parent and every task that is held is there. No task that is
alive is taken away: it is given an exit first, and that only in an operation in which tasks get
turns. -/
theorem Reachable.accounts {session : Session} (reachable : session.Reachable) :
    (∀ slot task, session.scheduler.roster.task? slot = some task →
      task.references = task.life.count + (session.scheduler.roster.children slot).card +
        session.held.count task.id ∧
      (task.life = .zombie →
        (session.scheduler.roster.children slot).Nonempty ∨ task.id ∈ session.held) ∧
      ∀ parent, task.parent = some parent →
        ∃ found, session.scheduler.roster.task? parent = some found) ∧
    (∀ id ∈ session.held, ∃ task, session.scheduler.task? id = some task) ∧
    (∀ operation next, session.Step operation next →
      ∃ events, Moment.Runs Permits ⟨session, .between⟩ events ⟨next, .between⟩ ∧
        (operation.givesTurns = false → Moment.endings events = [])) ∧
    ∀ events moment, Moment.Runs Permits ⟨session, .between⟩ events moment →
      Moment.Fates session events moment := by
  obtain ⟨lists, sound⟩ := id reachable.sound
  obtain ⟨before, reached⟩ := reachable.reached
  refine ⟨fun slot task present => ?_, fun id member => ?_, fun _ _ steps => reachable.runs steps,
    fun _ _ runs => reached.fates runs⟩
  · have references := sound.counted.references present
    rw [if_neg nofun] at references
    refine ⟨references, fun ended => ?_, fun parent own => ?_⟩
    · have positive := sound.counted.referenced present
      rw [references, ended] at positive
      by_cases childless : (session.scheduler.roster.children slot).card = 0
      · right
        rw [childless] at positive
        exact List.count_pos_iff.mp (by simpa [Life.count] using positive)
      · exact Or.inl (Finset.card_pos.mp (Nat.pos_of_ne_zero childless))
    · exact (sound.counted.parent present own).2
  · obtain ⟨slot, known⟩ := sound.counted.held member
    obtain ⟨task, present, _⟩ := sound.registered known
    exact ⟨task, by rw [Scheduler.task?, known]; exact present⟩

/-- Before its tasks have run. Nobody watches the second one, which has a child. -/
def expecting : Session :=
  ((((start .standard 0 fun _ => []).continued (.spawn listening none)).continued
    (.retain ⟨1⟩)).continued (.spawn default none)).continued (.createTask default (some ⟨2⟩))

/-- The task that has ended has one reference left, and that is its child's. Before it was alive and
nobody watched it; in the run in between it was given an exit. -/
theorem bereaved_accounts :
    (∃ task, bereaved.scheduler.roster.task? 1 = some task ∧
      task.life = .zombie ∧ task.references = 1 ∧
      (bereaved.scheduler.roster.children 1).card = 1) ∧
    (∃ task, expecting.scheduler.roster.task? 1 = some task ∧ task.watchers = []) ∧
    ∃ next events exit, expecting.Step (.run 2) next ∧
      Moment.Runs Permits ⟨expecting, .between⟩ events ⟨next, .between⟩ ∧
      .ended 1 ⟨2⟩ exit ∈ events := by
  refine ⟨?_, ?_⟩
  · have known : (bereaved.scheduler.roster.task? 1).map Task.account =
        some (⟨2⟩, none, 1, .zombie) := by decide +kernel
    obtain ⟨task, present, account⟩ := Option.map_eq_some_iff.mp known
    simp only [Task.account, Prod.mk.injEq] at account
    obtain ⟨id, _, references, life⟩ := account
    have unheld : bereaved.held.count ⟨2⟩ = 0 := by decide +kernel
    have counted := (bereaved_reachable.accounts.1 1 task present).1
    rw [references, life, id, unheld, Life.count] at counted
    exact ⟨task, present, life, references, by omega⟩
  · have reachable : expecting.Reachable := by
      refine .continued (.continued (.continued (.continued (.start _ _ _)
        trivial ?_) trivial ?_) trivial ?_) trivial ?_ <;> decide +kernel
    have before : (expecting.scheduler.roster.task? 1).map
        (fun task => (task.id, task.life, task.watchers)) = some (⟨2⟩, .alive, []) := by
      decide +kernel
    obtain ⟨task, present, is⟩ := Option.map_eq_some_iff.mp before
    simp only [Prod.mk.injEq] at is
    obtain ⟨id, alive, unwatched⟩ := is
    obtain ⟨next, steps, after⟩ : ∃ next, expecting.Step (.run 2) next ∧
        (next.scheduler.roster.task? 1).map Task.life = some .zombie :=
      ⟨_, step_continued trivial (by decide +kernel), by decide +kernel⟩
    obtain ⟨-, -, runs, fates⟩ := reachable.accounts
    obtain ⟨events, run, -⟩ := runs (.run 2) next steps
    rcases (fates events _ run).exits 1 task present alive with ⟨-, later, now, -, lives⟩ | ended
    · rw [now, Option.map_some, lives] at after
      cases after
    · obtain ⟨⟨exit, member⟩, -⟩ := ended
      exact ⟨⟨task, present, unwatched⟩, next, events, exit, steps, run,
        id ▸ member⟩

end Session

end TaskMachine
