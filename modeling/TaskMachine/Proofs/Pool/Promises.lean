/-
What a thread has promised, beside the tasks of its scheduler. Each task that it
has taken in has one watcher, which is the number of its promise, and no other
task of the scheduler has any. So a promise comes due when the task has ended, and
only then; and while the thread keeps what has come due, the promises that are
left are those of the tasks that have not ended. When the thread closes, all that
are left come due at once.

`PromisesAgree` says this of a thread, and `Stride.promisesAgree` that every step
keeps it. The numbers of tasks that are on their way to a thread are known to
nobody else until it takes them in.
-/

import TaskMachine.Proofs.Pool.Intake
import TaskMachine.Proofs.Pool.Tallies
import TaskMachine.Proofs.Session.Refusals

namespace TaskMachine

/-! ### Where a thread is -/

/-- Whether a thread has stopped, and has dropped its scheduler. -/
def Phase.hasStopped : Phase → Bool
  | stopped | crashed _ => true
  | _ => false

/-- Whether a thread has its scheduler, and has kept all that had come due. -/
def Phase.isBetween : Phase → Bool
  | counting .. | filling .. | stopped | crashed _ => false
  | _ => true

theorem Phase.Onward.due_eq_nil {phase : Phase} (onward : phase.Onward) : phase.due = [] := by
  cases phase with
  | counting | filling => exact onward.elim
  | _ => rfl

theorem Phase.idle_of_isBetween {phase : Phase} (between : phase.isBetween = true) :
    phase.due = [] ∧ phase.aim.hasStopped = false := by
  cases phase with
  | counting | filling | stopped | crashed => exact absurd between nofun
  | _ => exact ⟨rfl, rfl⟩

theorem Phase.idle_of_hasStopped {phase : Phase} (stopped : phase.hasStopped = true) :
    phase.due = [] ∧ phase.aim.hasStopped = true := by
  cases phase with
  | stopped | crashed => exact ⟨rfl, rfl⟩
  | _ => exact absurd stopped nofun

namespace Scheduler

variable {scheduler origin : Scheduler} {ended : List Slot} {nextId later id : TaskId}

/-- The tasks and the timers of a scheduler are as they should be, if the numbers before this one
were handed out. -/
def Fit (scheduler : Scheduler) (nextId : TaskId) : Prop :=
  ∃ lists, scheduler.roster.Counted scheduler.registry nextId [] none ∧
    scheduler.roster.Queued lists none [] ∧ scheduler.agenda.OneShot

theorem Settled.fit (settled : scheduler.Settled origin ended [] []) :
    scheduler.Fit scheduler.nextId := by
  obtain ⟨lists, sound⟩ := settled
  exact ⟨lists, sound.counted, sound.queued, sound.oneShot⟩

theorem Fit.settled (fit : scheduler.Fit scheduler.nextId) :
    scheduler.Settled scheduler [] [] [] := by
  obtain ⟨lists, counted, queued, oneShot⟩ := fit
  exact ⟨lists, counted, queued, oneShot, Since.refl scheduler⟩

/-- More numbers may have been handed out. -/
theorem Fit.grow (fit : scheduler.Fit nextId) (grows : nextId.number ≤ later.number) :
    scheduler.Fit later := by
  obtain ⟨lists, counted, queued, oneShot⟩ := fit
  exact ⟨lists, counted.grow grows, queued, oneShot⟩

theorem Fit.lt_of_lives (fit : scheduler.Fit nextId) (lives : scheduler.Lives id) :
    id.number < nextId.number := by
  obtain ⟨_, counted, _⟩ := fit
  obtain ⟨slot, task, present, rfl, _⟩ := lives
  exact counted.numbered present

theorem Watches.lives {watcher : Nat} (watches : scheduler.Watches id watcher) :
    scheduler.Lives id := by
  obtain ⟨slot, task, present, same, alive, _⟩ := watches
  exact ⟨slot, task, present, same, alive⟩

/-- What can be told of a task is whether it has ended. -/
theorem Fit.lives_iff (fit : scheduler.Fit nextId) :
    scheduler.Lives id ↔ scheduler.state id ≠ .zombie ∧ scheduler.state id ≠ .destroyed := by
  obtain ⟨lists, counted, _⟩ := fit
  rw [Ne, Ne, state_eq_zombie_iff, state_eq_destroyed_iff]
  constructor
  · rintro ⟨slot, task, present, rfl, alive⟩
    have found := task?_eq (counted.registered.mpr ⟨task, present, rfl⟩) present
    refine ⟨fun ⟨other, there, zombie⟩ => ?_, fun gone => absurd (found.symm.trans gone) nofun⟩
    obtain rfl := Option.some.inj (found.symm.trans there)
    exact absurd (alive.symm.trans zombie) nofun
  · rintro ⟨lives, there⟩
    obtain ⟨task, found⟩ := Option.ne_none_iff_exists'.mp there
    obtain ⟨slot, known, present⟩ := Option.bind_eq_some_iff.mp found
    obtain ⟨other, otherPresent, same⟩ := counted.registered.mp known
    obtain rfl := Option.some.inj (present.symm.trans otherPresent)
    refine ⟨slot, task, present, same, ?_⟩
    cases life : task.life with
    | alive => rfl
    | zombie => exact absurd ⟨task, found, life⟩ lives

end Scheduler

/-! ### What a thread has promised -/

namespace Worker

/-- The promise was not counted off, and it has not come due. -/
def Stands (worker : Worker) (counted : List Nat) (promise completion : Nat) : Prop :=
  completion ∉ counted ∧ promise ∉ worker.phase.due.map Prod.fst

/-- The promises that stand are those of tasks that have not ended. -/
structure PromisesMatch (worker : Worker) (taken : List (TaskId × Nat)) (counted : List Nat)
    (nextId : TaskId) : Prop where
  fit : worker.scheduler.Fit nextId
  unborn : ∀ command ∈ worker.commands, ¬ worker.scheduler.Lives command.id
  watches : ∀ id promise, worker.scheduler.Watches id promise ↔
    worker.scheduler.Lives id ∧ ∃ completion, taken[promise]? = some (id, completion)
  stands : ∀ (promise : Nat) id completion, taken[promise]? = some (id, completion) →
    (worker.Stands counted promise completion ↔ worker.scheduler.Lives id)

/-- The promises match the tasks until the thread closes, and then none of them stands. -/
structure PromisesAgree (worker : Worker) (taken : List (TaskId × Nat)) (counted : List Nat)
    (nextId : TaskId) : Prop where
  numbered : ∀ task ∈ taken, task.1.number < nextId.number
  coming : ∀ command ∈ worker.commands, command.id.number < nextId.number ∧
    command.id ∉ taken.map Prod.fst
  distinct : (worker.commands.map Command.id).Nodup
  matching : worker.phase.aim.hasStopped = false → worker.PromisesMatch taken counted nextId
  closed : worker.phase.aim.hasStopped = true → ∀ (promise : Nat) id completion,
    taken[promise]? = some (id, completion) → ¬ worker.Stands counted promise completion

variable {worker later : Worker} {taken : List (TaskId × Nat)} {counted countedLater : List Nat}
  {nextId laterId : TaskId}

/-- The tasks stay as they are, and so do the promises that stand. -/
theorem PromisesAgree.alike (agree : worker.PromisesAgree taken counted nextId)
    (roster : later.scheduler.roster = worker.scheduler.roster)
    (registry : later.scheduler.registry = worker.scheduler.registry)
    (agenda : later.scheduler.agenda = worker.scheduler.agenda)
    (commands : later.commands.Sublist worker.commands)
    (aim : later.phase.aim.hasStopped = worker.phase.aim.hasStopped)
    (grows : nextId.number ≤ laterId.number)
    (stands : ∀ (promise : Nat) id completion, taken[promise]? = some (id, completion) →
      (later.Stands countedLater promise completion ↔ worker.Stands counted promise completion)) :
    later.PromisesAgree taken countedLater laterId where
  numbered := fun task member => Nat.lt_of_lt_of_le (agree.numbered task member) grows
  coming := fun command member => by
    obtain ⟨numbered, fresh⟩ := agree.coming command (commands.subset member)
    exact ⟨Nat.lt_of_lt_of_le numbered grows, fresh⟩
  distinct := (commands.map Command.id).nodup agree.distinct
  matching := fun stays => by
    have matching := agree.matching (aim ▸ stays)
    have lives (id : TaskId) : later.scheduler.Lives id ↔ worker.scheduler.Lives id := by
      rw [Scheduler.Lives, Scheduler.Lives, roster]
    have fit := matching.fit.grow grows
    rw [Scheduler.Fit, ← roster, ← registry, ← agenda] at fit
    refine ⟨fit, fun command member => ?_, fun id promise => ?_,
      fun promise id completion there => ?_⟩
    · rw [lives]
      exact matching.unborn command (commands.subset member)
    · rw [lives, ← matching.watches, Scheduler.Watches, Scheduler.Watches, roster]
    · rw [lives, stands promise id completion there]
      exact matching.stands promise id completion there
  closed := fun stops promise id completion there => by
    rw [stands promise id completion there]
    exact agree.closed (aim ▸ stops) promise id completion there

/-- A task is sent, whose number is new. -/
theorem PromisesAgree.sent (agree : worker.PromisesAgree taken counted nextId) {command : Command}
    (fresh : command.id = nextId) (mailroom : Mailroom) :
    (worker.sent mailroom command).PromisesAgree taken counted nextId.next := by
  have older {id : TaskId} (numbered : id.number < nextId.number) : id ≠ command.id := by
    rintro rfl
    exact Nat.lt_irrefl _ (fresh ▸ numbered)
  have grows : nextId.number ≤ nextId.next.number := Nat.le_succ _
  refine ⟨fun task member => Nat.lt_of_lt_of_le (agree.numbered task member) grows,
    fun other member => ?_, ?_, fun stays => ?_, agree.closed⟩
  · rcases List.mem_append.mp member with earlier | now
    · obtain ⟨numbered, unknown⟩ := agree.coming other earlier
      exact ⟨Nat.lt_of_lt_of_le numbered grows, unknown⟩
    · rw [List.mem_singleton.mp now]
      refine ⟨fresh ▸ Nat.lt_succ_self _, fun known => ?_⟩
      obtain ⟨task, taken, same⟩ := List.mem_map.mp known
      exact older (agree.numbered task taken) same
  · show ((worker.commands ++ [command]).map Command.id).Nodup
    rw [List.map_append, List.map_singleton]
    refine agree.distinct.append (List.pairwise_singleton _ _) (List.disjoint_singleton.mpr ?_)
    intro known
    obtain ⟨other, member, same⟩ := List.mem_map.mp known
    exact older (agree.coming other member).1 same
  · have matching := agree.matching stays
    refine ⟨matching.fit.grow grows, fun other member lives => ?_, matching.watches,
      matching.stands⟩
    rcases List.mem_append.mp member with earlier | now
    · exact matching.unborn other earlier lives
    · exact older (matching.fit.lt_of_lives lives) (congrArg Command.id (List.mem_singleton.mp now))

/-- A thread at the start. -/
theorem promisesAgree_new (config : Config) (patience : Nat) :
    (Worker.new config patience).PromisesAgree [] [] .first := by
  have nobody (id : TaskId) : ¬ (Scheduler.new config patience).Lives id := by
    rintro ⟨slot, task, present, _⟩
    exact absurd present nofun
  refine ⟨fun _ member => absurd member List.not_mem_nil,
    fun _ member => absurd member List.not_mem_nil, List.nodup_nil, fun _ => ?_, nofun⟩
  have fit : (Scheduler.new config patience).Fit .first :=
    ⟨fun _ => [], Roster.counted_empty, Roster.queued_empty, fun _ _ found => absurd found nofun⟩
  refine ⟨fit, fun _ member => absurd member List.not_mem_nil, fun id promise => ?_, nofun⟩
  exact iff_of_false (fun watches => nobody id watches.lives) fun watches => nobody id watches.1

/-- A thread whose promises have all come due. -/
theorem PromisesAgree.abandon (agree : worker.PromisesAgree taken counted nextId)
    (tallied : worker.Tallied taken counted) {phase : Phase} (stops : phase.aim.hasStopped = true)
    (grows : nextId.number ≤ laterId.number) (scheduler : Scheduler) :
    ({ worker with scheduler }.abandon phase).PromisesAgree taken counted laterId where
  numbered := fun task member => Nat.lt_of_lt_of_le (agree.numbered task member) grows
  coming := fun command member => absurd member List.not_mem_nil
  distinct := List.nodup_nil
  matching := fun stays => absurd (stops.symm.trans stays) nofun
  closed := fun _ promise id completion there stands => by
    obtain ⟨within, _⟩ := List.getElem?_eq_some_iff.mp there
    refine stands.2 (List.mem_map.mpr ⟨(promise, .error .shutdown), ?_, rfl⟩)
    refine List.mem_map.mpr ⟨promise, List.mem_range.mpr ?_, rfl⟩
    exact tallied.size_promises ▸ within

/-- The first of the promises that have come due is struck out. -/
theorem PromisesAgree.strikes (agree : worker.PromisesAgree taken counted nextId) {promise : Nat}
    {outcome : Outcome} {due : List (Nat × Outcome)} {next : Phase}
    (counts : worker.phase = .counting ((promise, outcome) :: due) next)
    (left : ∀ (other : Nat) id completion, taken[other]? = some (id, completion) →
      (completion ∉ countedLater ↔ completion ∉ counted ∧ other ≠ promise))
    (phase : Phase) (later : phase.due = due) (aim : phase.aim = next.aim)
    (promises : Array (Option Nat)) (executing : Nat) :
    ({ worker with promises, executing, phase } : Worker).PromisesAgree taken countedLater
      nextId := by
  refine agree.alike rfl rfl rfl (List.Sublist.refl _) ?_ (Nat.le_refl _)
    fun other id completion there => ?_
  · rw [counts]
    exact congrArg Phase.hasStopped aim
  · show _ ∧ _ ∉ phase.due.map Prod.fst ↔ _
    rw [later, left other id completion there, Stands, counts]
    show _ ↔ completion ∉ counted ∧ other ∉ promise :: due.map Prod.fst
    rw [List.mem_cons, not_or, and_assoc]

/-- The tasks have gone on, and the promises of those that have ended have come due. -/
theorem PromisesAgree.passes {before next : Scheduler}
    (agree : worker.PromisesAgree taken counted nextId)
    (matching : worker.PromisesMatch taken counted nextId) (idle : worker.phase.due = [])
    (same : before.roster = worker.scheduler.roster) (numbers : before.nextId = nextId)
    (succeeds : next.Succeeds before) (fit : next.Fit next.nextId) {phase : Phase}
    (goesOn : phase.aim.hasStopped = false)
    (due : ∀ promise, promise ∈ phase.due.map Prod.fst ↔
      ∃ id, before.Watches id promise ∧ ¬ next.Lives id) :
    ({ worker with scheduler := next, phase } : Worker).PromisesAgree taken counted
      next.nextId := by
  have livesBefore (id : TaskId) : before.Lives id ↔ worker.scheduler.Lives id := by
    rw [Scheduler.Lives, Scheduler.Lives, same]
  have watchesBefore (id : TaskId) (promise : Nat) :
      before.Watches id promise ↔ worker.scheduler.Watches id promise := by
    rw [Scheduler.Watches, Scheduler.Watches, same]
  have grows : nextId.number ≤ next.nextId.number := numbers ▸ succeeds.numbers
  have lived {id : TaskId} (old : id.number < nextId.number) (lives : next.Lives id) :
      worker.scheduler.Lives id :=
    (livesBefore id).mp (succeeds.lives id (numbers.symm ▸ old) lives)
  refine ⟨fun task member => Nat.lt_of_lt_of_le (agree.numbered task member) grows,
    fun command member => ?_, agree.distinct, fun _ => ?_,
    fun stops => absurd (stops.symm.trans goesOn) nofun⟩
  · obtain ⟨numbered, fresh⟩ := agree.coming command member
    exact ⟨Nat.lt_of_lt_of_le numbered grows, fresh⟩
  refine ⟨fit, fun command member lives => ?_, fun id promise => ?_,
    fun promise id completion there => ?_⟩
  · exact matching.unborn command member (lived (agree.coming command member).1 lives)
  · show next.Watches id promise ↔ next.Lives id ∧ _
    rw [succeeds.watches, watchesBefore, matching.watches]
    constructor
    · exact fun ⟨⟨_, there⟩, lives⟩ => ⟨lives, there⟩
    · rintro ⟨lives, completion, there⟩
      have old := agree.numbered _ (List.mem_of_getElem? there)
      exact ⟨⟨lived old lives, completion, there⟩, lives⟩
  · have stood := matching.stands promise id completion there
    constructor
    · rintro ⟨uncounted, early⟩
      by_contra gone
      have lives := stood.mp ⟨uncounted, idle ▸ List.not_mem_nil⟩
      have watches := (matching.watches id promise).mpr ⟨lives, completion, there⟩
      exact early ((due promise).mpr ⟨id, (watchesBefore id promise).mpr watches, gone⟩)
    · intro lives
      have old := agree.numbered _ (List.mem_of_getElem? there)
      refine ⟨(stood.mpr (lived old lives)).1, fun member => ?_⟩
      obtain ⟨other, watches, gone⟩ := (due promise).mp member
      obtain ⟨_, _, otherThere⟩ :=
        (matching.watches other promise).mp ((watchesBefore other promise).mp watches)
      obtain ⟨rfl, _⟩ := Prod.mk.inj (Option.some.inj (there.symm.trans otherThere))
      exact gone lives

/-- A task that is taken in has not ended, and its watcher is the number of its promise. -/
theorem PromisesMatch.takesIn {before next : Scheduler} {command : Command} {rest : List Command}
    (matching : worker.PromisesMatch taken counted nextId)
    (tallied : worker.Tallied taken counted) (commands : worker.commands = command :: rest)
    (idle : worker.phase.due = []) (fresh : command.id ∉ taken.map Prod.fst)
    (apart : command.id ∉ rest.map Command.id)
    (same : before.roster = worker.scheduler.roster)
    (took : next.TookIn before command.id worker.promises.size)
    (promises : Array (Option Nat)) (executing total : Nat) :
    PromisesMatch { worker with scheduler := next, commands := rest, promises, executing, total }
      (taken ++ [(command.id, command.completion)]) counted next.nextId := by
  have lives (id : TaskId) : next.Lives id ↔ worker.scheduler.Lives id ∨ id = command.id := by
    rw [took.lives, Scheduler.Lives, same]
    rfl
  have other {promise completion : Nat} {id : TaskId}
      (there : taken[promise]? = some (id, completion)) : id ≠ command.id := by
    rintro rfl
    exact fresh (List.mem_map_of_mem (f := Prod.fst) (List.mem_of_getElem? there))
  refine ⟨took.settled.fit, fun later member alive => ?_, fun id promise => ?_,
    fun promise id completion there => ?_⟩
  · rcases (lives later.id).mp alive with earlier | now
    · exact matching.unborn later (commands ▸ List.mem_cons_of_mem _ member) earlier
    · exact apart (now ▸ List.mem_map_of_mem member)
  · show next.Watches id promise ↔ next.Lives id ∧ _
    rw [took.watches, lives, Scheduler.Watches, same]
    constructor
    · rintro (earlier | ⟨rfl, rfl⟩)
      · obtain ⟨alive, completion, there⟩ := (matching.watches id promise).mp earlier
        exact ⟨Or.inl alive, completion, getElem?_append_one_eq_some_iff.mpr (Or.inl there)⟩
      · exact ⟨Or.inr rfl, command.completion,
          getElem?_append_one_eq_some_iff.mpr (Or.inr ⟨tallied.size_promises, rfl⟩)⟩
    · rintro ⟨alive, completion, there⟩
      rcases getElem?_append_one_eq_some_iff.mp there with earlier | ⟨rfl, is⟩
      · have alive := alive.resolve_right (other earlier)
        exact Or.inl ((matching.watches id promise).mpr ⟨alive, completion, earlier⟩)
      · exact Or.inr ⟨(Prod.mk.inj is).1, tallied.size_promises.symm⟩
  · rcases getElem?_append_one_eq_some_iff.mp there with earlier | ⟨rfl, is⟩
    · exact (matching.stands promise id completion earlier).trans
        ((lives id).trans (or_iff_left (other earlier))).symm
    · obtain ⟨rfl, rfl⟩ := Prod.mk.inj is
      refine iff_of_true ⟨fun member => ?_, ?_⟩ ((lives command.id).mpr (Or.inr rfl))
      · exact tallied.fresh command (commands ▸ List.mem_cons_self) (tallied.among member)
      · show _ ∉ worker.phase.due.map Prod.fst
        rw [idle]
        exact List.not_mem_nil

/-- A task is taken in. -/
theorem PromisesAgree.takesIn {before next : Scheduler} {command : Command} {rest : List Command}
    (agree : worker.PromisesAgree taken counted nextId) (tallied : worker.Tallied taken counted)
    (commands : worker.commands = command :: rest) (phase : worker.phase = .receiving)
    (same : before.roster = worker.scheduler.roster) (numbers : before.nextId = nextId)
    (took : next.TookIn before command.id worker.promises.size)
    (promises : Array (Option Nat)) (executing total : Nat) :
    PromisesAgree { worker with scheduler := next, commands := rest, promises, executing, total }
      (taken ++ [(command.id, command.completion)]) counted next.nextId := by
  have idle : worker.phase.due = [] ∧ worker.phase.aim.hasStopped = false := by
    rw [phase]
    exact ⟨rfl, rfl⟩
  obtain ⟨numbered, fresh⟩ := agree.coming command (commands ▸ List.mem_cons_self)
  have distinct := agree.distinct
  rw [commands, List.map_cons, List.nodup_cons] at distinct
  have matching := (agree.matching idle.2).takesIn tallied commands idle.1 fresh distinct.1 same
    took promises executing total
  refine ⟨?_, ?_, distinct.2, fun _ => matching,
    fun stops => absurd (stops.symm.trans idle.2) nofun⟩
  · rw [took.nextId, numbers]
    intro task member
    rcases List.mem_append.mp member with earlier | now
    · exact agree.numbered task earlier
    · exact List.mem_singleton.mp now ▸ numbered
  · rw [took.nextId, numbers]
    intro other member
    obtain ⟨numbered, unknown⟩ := agree.coming other (commands ▸ List.mem_cons_of_mem _ member)
    refine ⟨numbered, fun known => ?_⟩
    rw [List.map_append, List.mem_append, List.map_singleton, List.mem_singleton] at known
    rcases known with earlier | now
    · exact unknown earlier
    · exact distinct.1 (List.mem_map.mpr ⟨other, member, now⟩)

end Worker

/-! ### Steps -/

/-- The promises that come due are those that somebody who has ended was watched by. -/
theorem Pool.mem_due_endings {notices : List Notice} {promise : Nat} :
    promise ∈ (Pool.endings notices.reverse).map Prod.fst ↔
      ∃ id exit, Notice.ended promise id exit ∈ notices := by
  constructor
  · intro member
    obtain ⟨due, comes, rfl⟩ := List.mem_map.mp member
    obtain ⟨notice, told, is⟩ := List.mem_filterMap.mp comes
    cases notice with
    | ended watcher id exit =>
      obtain rfl := Option.some.inj is
      exact ⟨id, exit, List.mem_reverse.mp told⟩
    | invoked => exact absurd is nofun
  · rintro ⟨id, exit, told⟩
    refine List.mem_map.mpr ⟨(promise, exit.outcome), ?_, rfl⟩
    exact List.mem_filterMap.mpr ⟨_, List.mem_reverse.mpr told, rfl⟩

variable {pool : Pool} {index : Nat} {worker after : Worker} {nextId : TaskId}
  {deed : Option Pool.Deed} {taken : List (TaskId × Nat)} {counted : List Nat}

theorem Worker.PromisesMatch.settled (matching : worker.PromisesMatch taken counted pool.nextId)
    (index : Nat) :
    (pool.readied index worker.scheduler).Settled (pool.readied index worker.scheduler) [] [] [] :=
  Scheduler.Fit.settled
    (show (pool.readied index worker.scheduler).Fit pool.nextId from matching.fit)

/-- A thread takes the first of the tasks in that were sent to it. -/
theorem Worker.PromisesAgree.after_takeIn (agree : worker.PromisesAgree taken counted pool.nextId)
    (phase : worker.phase = .receiving) {command : Command} {rest : List Command}
    (next : worker.commands = command :: rest) :
    After (Pool.takeIn command worker.promises.size) (pool.readied index worker.scheduler)
      (fun _ later => later.TookIn (pool.readied index worker.scheduler) command.id
        worker.promises.size)
      fun _ later => later.nextId = pool.nextId := by
  have matching := agree.matching (by rw [phase]; rfl)
  have numbered := (agree.coming command (next ▸ List.mem_cons_self)).1
  exact Scheduler.after_takeIn (matching.settled index) numbered _

/-- A crash takes no number back. -/
theorem Worker.PromisesAgree.grows (agree : worker.PromisesAgree taken counted pool.nextId)
    {crash : Crash} {scheduler : Scheduler}
    (breaks : worker.Breaks (pool.readied index worker.scheduler) crash scheduler) :
    pool.nextId.number ≤ scheduler.nextId.number := by
  have lasting : Scheduler.Lasting (·.Descends (pool.readied index worker.scheduler)) True :=
    (Scheduler.indifferent_descends _).lasting
  rcases breaks with ⟨command, rest, phase, next, breaks⟩ | ⟨phase, breaks⟩ | ⟨phase, breaks⟩ |
    ⟨phase, breaks⟩
  · have same := (agree.after_takeIn phase next).error breaks
    exact Nat.le_of_eq (congrArg TaskId.number same.symm)
  · exact ((lasting.preserves_tick _ (.refl _)).error breaks trivial).numbers
  · exact ((lasting.preserves_wait lasting.tokenless _ (.refl _)).error breaks trivial).numbers
  · exact ((lasting.tokenless.preserves_takeToken _ (.refl _)).error breaks trivial).numbers

/-- A thread lets its tasks run or time go by. -/
theorem Worker.PromisesMatch.goes (matching : worker.PromisesMatch taken counted pool.nextId)
    {operation : Operation} {next : Scheduler} (idly : ∀ session, Moment.Idly session operation)
    (performs : operation.perform (pool.readied index worker.scheduler) = .ok ⟨⟩ next) :
    next.Succeeds (pool.readied index worker.scheduler) ∧ next.Fit next.nextId ∧
      (operation.givesTurns = false → ∀ id,
        (pool.readied index worker.scheduler).Lives id → next.Lives id) := by
  let session : Session := ⟨pool.readied index worker.scheduler, [], []⟩
  have sound : session.Sound := matching.settled index
  obtain ⟨succeeds, settled, lives⟩ := Session.succeeds_of_idly sound rfl (idly session) performs
  exact ⟨succeeds, settled.fit, lives⟩

/-- A thread makes a pass. What comes due then are the promises of the tasks that have ended. -/
theorem Worker.PromisesAgree.ticks (agree : worker.PromisesAgree taken counted pool.nextId)
    (phase : worker.phase = .ticking) {left : Tick} {next : Scheduler}
    (runs : Scheduler.tick (pool.readied index worker.scheduler) = .ok left next) :
    pool.nextId.number ≤ next.nextId.number ∧
      Worker.PromisesAgree
        { worker with
          scheduler := next
          phase := .counting (Pool.endings next.notices.reverse) (Pool.phaseAfter left) }
        taken counted next.nextId := by
  have matching := agree.matching (by rw [phase]; rfl)
  have performs : Operation.tick.perform (pool.readied index worker.scheduler) = .ok ⟨⟩ next := by
    rw [Operation.perform, bind_apply, runs]
    rfl
  obtain ⟨succeeds, fit, _⟩ := matching.goes (fun _ => Or.inl rfl) performs
  have same : (pool.readied index worker.scheduler).roster = worker.scheduler.roster := rfl
  refine ⟨succeeds.numbers, agree.passes matching (by rw [phase]; rfl) same rfl succeeds fit ?_
    fun promise => Pool.mem_due_endings.trans (succeeds.told promise)⟩
  cases left <;> rfl

/-- A thread wakes up. No task has ended in the meantime. -/
theorem Worker.PromisesAgree.wakes (agree : worker.PromisesAgree taken counted pool.nextId)
    (phase : worker.phase = .waiting ∨ worker.phase = .parked) {operation : Operation}
    {next : Scheduler} (quiet : operation = .wait ∨ operation = .park)
    (performs : operation.perform (pool.readied index worker.scheduler) = .ok ⟨⟩ next) :
    pool.nextId.number ≤ next.nextId.number ∧
      ({ worker with scheduler := next, phase := .checking } : Worker).PromisesAgree taken counted
        next.nextId := by
  have idle : worker.phase.due = [] ∧ worker.phase.aim.hasStopped = false := by
    rcases phase with phase | phase <;> rw [phase] <;> exact ⟨rfl, rfl⟩
  have still : operation.givesTurns = false := by rcases quiet with rfl | rfl <;> rfl
  have matching := agree.matching idle.2
  obtain ⟨succeeds, fit, lives⟩ := matching.goes (fun _ => Or.inr quiet) performs
  have same : (pool.readied index worker.scheduler).roster = worker.scheduler.roster := rfl
  refine ⟨succeeds.numbers,
    agree.passes matching idle.1 same rfl succeeds fit rfl fun promise => ?_⟩
  exact iff_of_false List.not_mem_nil fun ⟨id, watches, gone⟩ =>
    gone (lives still id watches.lives)

/-- Whatever a thread does, its promises and its tasks go on to agree. -/
theorem Stride.promisesAgree (stride : Stride pool index worker after nextId deed)
    (orderly : worker.phase.Orderly) (tallied : worker.Tallied taken counted)
    (agree : worker.PromisesAgree taken counted pool.nextId) :
    pool.nextId.number ≤ nextId.number ∧
      after.PromisesAgree (taken ++ (deed.bind (Pool.Deed.taken? index)).toList)
        (counted ++ (deed.bind (Pool.Deed.counted? index)).toList) nextId := by
  have idly {later : Worker} {nextId : TaskId} (grows : pool.nextId.number ≤ nextId.number ∧
      later.PromisesAgree taken counted nextId) : pool.nextId.number ≤ nextId.number ∧
        later.PromisesAgree (taken ++ []) (counted ++ []) nextId := by
    rwa [List.append_nil, List.append_nil]
  have still {commands : List Command} {phase : Phase} (fewer : commands.Sublist worker.commands)
      (aim : phase.aim.hasStopped = worker.phase.aim.hasStopped)
      (due : phase.due = worker.phase.due) :
      pool.nextId.number ≤ pool.nextId.number ∧
        ({ worker with commands, phase } : Worker).PromisesAgree taken counted pool.nextId := by
    refine ⟨Nat.le_refl _, agree.alike rfl rfl rfl fewer aim (Nat.le_refl _) ?_⟩
    intro promise id completion _
    rw [Worker.Stands, Worker.Stands, due]
  cases stride with
  | looks phase =>
    refine idly (still (List.Sublist.refl _) ?_ ?_) <;>
    · rw [phase]
      split <;> rfl
  | receives phase | drained phase | fills phase =>
    exact idly (still (List.Sublist.refl _) (by rw [phase]; rfl) (by rw [phase]; rfl))
  | @goesOn next phase =>
    have onward : next.Onward := by
      rw [phase] at orderly
      exact orderly
    exact idly (still (List.Sublist.refl _) (by rw [phase]; rfl)
      (by rw [phase, onward.due_eq_nil]; rfl))
  | drains phase next =>
    exact idly (still (next ▸ List.sublist_cons_self _ _) rfl rfl)
  | @skips promise _ due next phase kept =>
    refine idly ⟨Nat.le_refl _, agree.strikes phase (fun other id completion there => ?_)
      (.counting due next) rfl rfl worker.promises worker.executing⟩
    refine (and_iff_left_of_imp fun uncounted => ?_).symm
    rintro rfl
    exact absurd (kept.symm.trans (tallied.promised_iff.mpr ⟨⟨id, there⟩, uncounted⟩)) nofun
  | @countsOff promise completion outcome due next phase promised =>
    obtain ⟨⟨id, there⟩, uncounted⟩ := tallied.promised_iff.mp promised
    rw [Pool.toList_counted]
    show _ ∧ Worker.PromisesAgree _ (taken ++ []) _ _
    rw [List.append_nil]
    refine ⟨Nat.le_refl _, agree.strikes phase (fun other another found otherThere => ?_)
      (.filling completion outcome due next) rfl rfl _ _⟩
    rw [List.mem_append, List.mem_singleton, not_or]
    refine and_congr_right fun _ => not_congr ⟨?_, ?_⟩
    · rintro rfl
      exact tallied.eq_of_completion otherThere there
    · rintro rfl
      exact (Prod.mk.inj (Option.some.inj (otherThere.symm.trans there))).2
  | takesIn phase next runs =>
    have took := (agree.after_takeIn phase next).ok runs
    rw [Pool.toList_took]
    show _ ∧ Worker.PromisesAgree _ _ (counted ++ []) _
    rw [List.append_nil]
    have same : (pool.readied index worker.scheduler).roster = worker.scheduler.roster := rfl
    exact ⟨Nat.le_of_eq (congrArg TaskId.number took.nextId.symm),
      agree.takesIn tallied next phase same rfl took _ _ _⟩
  | ticks phase runs => exact idly (agree.ticks phase runs)
  | waits phase runs => exact idly (agree.wakes (Or.inl phase) (Or.inl rfl) runs)
  | @wakes _ scheduler phase runs =>
    have performs : Operation.park.perform (pool.readied index worker.scheduler) =
        .ok ⟨⟩ scheduler := by
      rw [Operation.perform, bind_apply, runs]
      rfl
    exact idly (agree.wakes (Or.inr phase) (Or.inr rfl) performs)
  | closes phase =>
    exact idly ⟨Nat.le_refl _, agree.abandon tallied rfl (Nat.le_refl _) _⟩
  | crashes breaks =>
    have grows := agree.grows breaks
    exact idly ⟨grows, agree.abandon tallied rfl grows _⟩

end TaskMachine
