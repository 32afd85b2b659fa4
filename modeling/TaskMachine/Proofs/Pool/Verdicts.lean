/-
That an outcome is given once, and to all who wait for it. Each completion is in
the hands of one thread, or of none any more, and changes them at most from the
task that was sent to the promise, and from the promise to the step that fills it.
So it is filled once. Whoever asks leaves a waker in it or sees the outcome, never
neither, since what a poll does is one step; the wakers that were left when it is
filled are those of all who have asked, and each is there once.

`RecordAgrees` is what every happening preserves, and `Recorded.filled_once` is what follows.
-/

import Mathlib.Data.List.Perm.Subperm
import TaskMachine.Proofs.Pool.Deeds

namespace TaskMachine

/-! ### Who is to fill a completion -/

/-- The completions that a thread is to fill: those of the tasks that were sent to it, those that
it has promised to fill, and the one that it is about to fill. -/
def Worker.owing (worker : Worker) : List Nat :=
  worker.commands.map Command.completion ++
    (worker.promises.toList.filterMap id ++ worker.phase.filling?.toList)

theorem Worker.mem_owing_of_promised {worker : Worker} {promise completion : Nat}
    (promised : worker.promises[promise]?.join = some completion) : completion ∈ worker.owing := by
  have member := Array.mem_of_getElem? (Option.join_eq_some_iff.mp promised)
  refine List.mem_append_right _ (List.mem_append_left _ ?_)
  exact List.mem_filterMap.mpr ⟨some completion, Array.mem_toList_iff.mpr member, rfl⟩

theorem Worker.perm_owing_sent (worker : Worker) (mailroom : Mailroom) (command : Command) :
    (worker.sent mailroom command).owing.Perm (command.completion :: worker.owing) := by
  show ((worker.commands ++ [command]).map Command.completion ++ _).Perm _
  rw [List.map_append, List.map_singleton, List.append_assoc]
  exact List.perm_middle

variable {pool : Pool} {index : Nat} {worker after : Worker} {nextId : TaskId}
  {deed : Option Pool.Deed}

theorem Worker.SameButMailroom.same_owing {later : Worker}
    (alike : worker.SameButMailroom later) :
    later.phase = worker.phase ∧ later.owing = worker.owing := by
  obtain ⟨_, rfl⟩ := alike
  exact ⟨rfl, rfl⟩

theorem Phase.Onward.filling?_eq_none {phase : Phase} (onward : phase.Onward) :
    phase.filling? = none := by
  cases phase with
  | checking | waiting | parked | stopped | crashed => rfl
  | _ => exact onward.elim

/-- A promise that is counted off is one promise less. -/
theorem perm_filterMap_set {promises : List (Option Nat)} {promise completion : Nat}
    (promised : promises[promise]? = some (some completion)) :
    (promises.filterMap id).Perm (completion :: (promises.set promise none).filterMap id) := by
  induction promises generalizing promise with
  | nil => exact absurd promised nofun
  | cons first rest inductionHypothesis =>
    cases promise with
    | zero =>
      obtain rfl := Option.some.inj promised
      exact .refl _
    | succ promise =>
      have perm := inductionHypothesis promised
      cases first with
      | none => exact perm
      | some other => exact (perm.cons other).trans (.swap completion other _)

theorem Worker.Breaks.filling?_eq_none {before scheduler : Scheduler} {crash : Crash}
    (breaks : worker.Breaks before crash scheduler) : worker.phase.filling? = none := by
  rcases breaks with ⟨_, _, phase, _⟩ | ⟨phase, _⟩ | ⟨phase, _⟩ | ⟨phase, _⟩ <;> rw [phase] <;> rfl

/-- A step makes no new debts, and a completion that is filled is one less. -/
theorem Stride.owing (stride : Stride pool index worker after nextId deed)
    (orderly : worker.phase.Orderly) :
    (((deed.bind Pool.Deed.filled?).toList.map Prod.fst) ++ after.owing).Subperm worker.owing := by
  have same {later : Worker} (commands : later.commands = worker.commands)
      (promises : later.promises = worker.promises)
      (filling : later.phase.filling? = worker.phase.filling?) :
      later.owing.Subperm worker.owing := by
    rw [Worker.owing, Worker.owing, commands, promises, filling]
  have closes (idle : worker.phase.filling? = none) {scheduler : Scheduler} {next : Phase} :
      (({ worker with scheduler }.abandon next).owing).Subperm worker.owing := by
    rw [Worker.owing, Worker.owing, idle]
    exact (List.sublist_append_right _ _).subperm
  cases stride with
  | looks phase =>
    refine same rfl rfl ?_
    rw [phase]
    dsimp only
    split <;> rfl
  | receives phase | ticks phase | skips phase | waits phase | wakes phase | drained phase =>
    exact same rfl rfl (by rw [phase]; rfl)
  | goesOn phase =>
    have onward : (Phase.counting [] _).Orderly := phase ▸ orderly
    exact same rfl rfl (onward.filling?_eq_none.trans (by rw [phase]; rfl))
  | @takesIn command rest scheduler phase next =>
    have idle : worker.phase.filling? = none := by rw [phase]; rfl
    refine List.Perm.subperm ?_
    show (rest.map Command.completion ++
      ((worker.promises.push (some command.completion)).toList.filterMap id ++
        worker.phase.filling?.toList)).Perm _
    rw [Worker.owing, next, idle, Array.toList_push, List.filterMap_append, Option.toList_none,
      List.append_nil, List.append_nil, ← List.append_assoc]
    exact List.perm_append_comm
  | @countsOff promise completion outcome due next phase promised =>
    have idle : worker.phase.filling? = none := by rw [phase]; rfl
    have there := Option.join_eq_some_iff.mp promised
    rw [← Array.getElem?_toList] at there
    refine List.Perm.subperm ?_
    show (worker.commands.map Command.completion ++
      ((worker.promises.setIfInBounds promise none).toList.filterMap id ++ [completion])).Perm _
    rw [Worker.owing, idle, Option.toList_none, List.append_nil, Array.toList_setIfInBounds]
    refine (List.perm_append_left_iff _).mpr ?_
    exact List.perm_append_comm.trans (perm_filterMap_set there).symm
  | @fills completion outcome due next phase =>
    have filling : worker.phase.filling? = some completion := by rw [phase]; rfl
    refine List.Perm.subperm ?_
    show ([completion] ++ (worker.commands.map Command.completion ++
      (worker.promises.toList.filterMap id ++ []))).Perm _
    rw [Worker.owing, filling, List.append_nil,
      ← List.append_assoc (worker.commands.map Command.completion) _ (some completion).toList]
    exact List.perm_append_comm
  | drains phase next =>
    refine List.Perm.subperm ?_
    rw [Worker.owing, Worker.owing, next]
    exact .refl _
  | closes phase => exact closes (by rw [phase]; rfl)
  | crashes breaks => exact closes breaks.filling?_eq_none

namespace Pool

theorem nodup_of_subperm {some all : List Nat} (subperm : some.Subperm all) (once : all.Nodup) :
    some.Nodup := by
  obtain ⟨part, perm, sublist⟩ := subperm
  exact perm.nodup_iff.mp (sublist.nodup once)

/-- No completion is in the hands of two threads, or twice in the hands of one, and those that are
in the hands of a thread are not filled. -/
structure Apart (pool : Pool) : Prop where
  orderly : ∀ (thread : Nat) worker, pool.workers[thread]? = some worker → worker.phase.Orderly
  once : ∀ (thread : Nat) worker, pool.workers[thread]? = some worker → worker.owing.Nodup
  apart : ∀ (thread other : Nat) worker another, pool.workers[thread]? = some worker →
    pool.workers[other]? = some another → thread ≠ other → worker.owing.Disjoint another.owing
  unfilled : ∀ (thread : Nat) worker, pool.workers[thread]? = some worker →
    ∀ completion ∈ worker.owing, ∃ slot : Completion,
      pool.completions[completion]? = some slot ∧ slot.result = none

variable {next : Pool} {deed : Option Deed} {completion : Nat}

theorem Apart.lt_size (apart : pool.Apart) (present : pool.workers[index]? = some worker)
    (owes : completion ∈ worker.owing) : completion < pool.completions.size := by
  obtain ⟨slot, there, _⟩ := apart.unfilled index worker present completion owes
  exact (Array.getElem?_eq_some_iff.mp there).1

theorem getElem?_fill_other {other : Nat} {outcome : Outcome} (differ : completion ≠ other) :
    (pool.fill completion outcome).completions[other]? = pool.completions[other]? := by
  rw [fill]
  cases pool.completions[completion]? with
  | none => rfl
  | some slot => exact Array.getElem?_setIfInBounds_ne differ

/-- Threads may owe less, and what they owe may still not be filled. -/
theorem Apart.of_subperm (apart : pool.Apart)
    (fewer : ∀ (thread : Nat) later, next.workers[thread]? = some later →
      later.phase.Orderly ∧ ∃ worker, pool.workers[thread]? = some worker ∧
        later.owing.Subperm worker.owing)
    (unfilled : ∀ (thread : Nat) later, next.workers[thread]? = some later →
      ∀ completion ∈ later.owing, ∃ slot : Completion,
        next.completions[completion]? = some slot ∧ slot.result = none) : next.Apart where
  orderly := fun thread later there => (fewer thread later there).1
  once := fun thread later there => by
    obtain ⟨_, worker, present, subperm⟩ := fewer thread later there
    exact nodup_of_subperm subperm (apart.once thread worker present)
  apart := fun thread other later another there otherThere differ completion owes owesToo => by
    obtain ⟨_, worker, present, subperm⟩ := fewer thread later there
    obtain ⟨_, before, presentToo, subpermToo⟩ := fewer other another otherThere
    exact apart.apart thread other worker before present presentToo differ
      (subperm.subset owes) (subpermToo.subset owesToo)
  unfilled := unfilled

theorem UpdatesThread.fewer {thread : Nat} {later : Worker}
    (present : pool.workers[index]? = some worker)
    (stride : Stride pool index worker after nextId deed)
    (updates : pool.UpdatesThread index after nextId (deed.bind Deed.filled?) next)
    (apart : pool.Apart)
    (there : next.workers[thread]? = some later) :
    later.phase.Orderly ∧ (∃ earlier, pool.workers[thread]? = some earlier ∧
      later.owing.Subperm earlier.owing) ∧
      ∀ given ∈ deed.bind Deed.filled?, given.1 ∈ worker.owing ∧ given.1 ∉ later.owing := by
  have orderly := apart.orderly index worker present
  have owing := stride.owing orderly
  have given {given : Nat × Outcome} (fills : given ∈ deed.bind Deed.filled?) :
      given.1 ∈ worker.owing ∧ given.1 ∉ after.owing := by
    rw [Option.mem_def.mp fills] at owing
    have nodup := nodup_of_subperm owing (apart.once index worker present)
    exact ⟨owing.subset List.mem_cons_self, (List.nodup_cons.mp nodup).1⟩
  by_cases own : thread = index
  · subst own
    obtain rfl := Option.some.inj (there.symm.trans updates.own)
    exact ⟨stride.orderly orderly,
      ⟨worker, present, ((List.sublist_append_right _ _).subperm).trans owing⟩,
      fun _ fills => given fills⟩
  · obtain ⟨earlier, presentToo, alike⟩ := updates.other own there
    obtain ⟨phase, same⟩ := alike.same_owing
    refine ⟨phase ▸ apart.orderly thread earlier presentToo,
      ⟨earlier, presentToo, same ▸ .refl _⟩, fun pair fills => ?_⟩
    refine ⟨(given fills).1, same ▸ fun owes => ?_⟩
    exact apart.apart index thread worker earlier present presentToo (Ne.symm own)
      (given fills).1 owes

/-- A thread to which a task was sent has its completion besides. -/
theorem owing_of_sent {thread other : Nat} {worker later : Worker} {mailroom : Mailroom}
    {command : Command} (present : pool.workers[thread]? = some worker)
    (there : (pool.workers.setIfInBounds thread (worker.sent mailroom command))[other]? =
      some later) :
    ∃ earlier, pool.workers[other]? = some earlier ∧ later.phase = earlier.phase ∧
      later.owing.Perm (if other = thread then command.completion :: earlier.owing
        else earlier.owing) := by
  obtain ⟨within, _⟩ := Array.getElem?_eq_some_iff.mp present
  by_cases own : other = thread
  · subst own
    rw [Array.getElem?_setIfInBounds_self_of_lt within] at there
    obtain rfl := Option.some.inj there
    exact ⟨worker, present, rfl, if_pos rfl ▸ worker.perm_owing_sent mailroom command⟩
  · rw [Array.getElem?_setIfInBounds_ne (Ne.symm own)] at there
    exact ⟨later, there, rfl, if_neg own ▸ .refl _⟩

/-- A task is sent, with a completion that nobody had before. -/
theorem Apart.sends {thread : Nat} {worker : Worker} {mailroom : Mailroom} {command : Command}
    {nextId : TaskId} (apart : pool.Apart) (present : pool.workers[thread]? = some worker)
    (fresh : command.completion = pool.completions.size) :
    ({ pool with nextId, completions := pool.completions.push .empty }.setWorker thread
      (worker.sent mailroom command)).Apart := by
  have unused {other : Nat} {earlier : Worker} (there : pool.workers[other]? = some earlier) :
      command.completion ∉ earlier.owing := fun owes =>
    absurd (fresh ▸ apart.lt_size there owes) (Nat.lt_irrefl _)
  refine ⟨fun other later there => ?_, fun other later there => ?_,
    fun other third later last there thirdThere differ completion owes owesToo => ?_,
    fun other later there completion owes => ?_⟩
  · obtain ⟨earlier, presentToo, phase, _⟩ := owing_of_sent present there
    exact phase ▸ apart.orderly other earlier presentToo
  · obtain ⟨earlier, presentToo, _, perm⟩ := owing_of_sent present there
    have once := apart.once other earlier presentToo
    refine perm.nodup_iff.mpr ?_
    split
    · exact List.nodup_cons.mpr ⟨unused presentToo, once⟩
    · exact once
  · obtain ⟨earlier, presentToo, _, perm⟩ := owing_of_sent present there
    obtain ⟨before, presentThird, _, permThird⟩ := owing_of_sent present thirdThere
    have owes := perm.subset owes
    have owesToo := permThird.subset owesToo
    have apart := apart.apart other third earlier before presentToo presentThird differ
    split at owes <;> split at owesToo
    · exact differ (by rw [‹other = _›, ‹third = _›])
    · rcases List.mem_cons.mp owes with rfl | owes
      · exact unused presentThird owesToo
      · exact apart owes owesToo
    · rcases List.mem_cons.mp owesToo with rfl | owesToo
      · exact unused presentToo owes
      · exact apart owes owesToo
    · exact apart owes owesToo
  · obtain ⟨earlier, presentToo, _, perm⟩ := owing_of_sent present there
    have owes := perm.subset owes
    show ∃ slot : Completion, (pool.completions.push .empty)[completion]? = some slot ∧ _
    by_cases is : completion = command.completion
    · rw [is, fresh]
      exact ⟨.empty, Array.getElem?_push_size, rfl⟩
    · have owes : completion ∈ earlier.owing := by
        split at owes
        · exact (List.mem_cons.mp owes).resolve_left is
        · exact owes
      obtain ⟨slot, found, unfilled⟩ := apart.unfilled other earlier presentToo completion owes
      refine ⟨slot, ?_, unfilled⟩
      rw [Array.getElem?_push, if_neg (fresh ▸ is)]
      exact found

/-- Whatever happens, no completion gets into the hands of two threads. -/
theorem Apart.happened (apart : pool.Apart) (happened : pool.Happened deed next) : next.Apart := by
  cases happened with
  | @turns thread worker after nextId deed _ present stride updates =>
    refine apart.of_subperm (fun other later there => ?_)
      fun other later there completion owes => ?_
    · obtain ⟨orderly, fewer, _⟩ := updates.fewer present stride apart there
      exact ⟨orderly, fewer⟩
    · obtain ⟨_, ⟨earlier, presentToo, subperm⟩, given⟩ := updates.fewer present stride apart there
      obtain ⟨slot, found, unfilled⟩ :=
        apart.unfilled other earlier presentToo completion (subperm.subset owes)
      refine ⟨slot, ?_, unfilled⟩
      rw [updates.completions]
      cases filled : deed.bind Deed.filled? with
      | none => exact found
      | some pair =>
        have differ : pair.1 ≠ completion := fun is => (given pair filled).2 (is ▸ owes)
        exact (getElem?_fill_other differ).trans found
  | sends present _ fresh => exact apart.sends present fresh
  | @polls completion waker slot present =>
    refine apart.of_subperm
      (fun thread later there => ⟨apart.orderly thread later there, later, there, .refl _⟩)
      fun thread later there other owes => ?_
    obtain ⟨before, found, unfilled⟩ := apart.unfilled thread later there other owes
    dsimp only
    by_cases is : completion = other
    · subst is
      obtain rfl := Option.some.inj (present.symm.trans found)
      obtain ⟨within, _⟩ := Array.getElem?_eq_some_iff.mp present
      exact ⟨_, Array.getElem?_setIfInBounds_self_of_lt within,
        (slot.result_poll waker).trans unfilled⟩
    · exact ⟨before, (Array.getElem?_setIfInBounds_ne is).trans found, unfilled⟩
  | looks => exact apart
  | passes same _ completions =>
    refine apart.of_subperm (fun thread later there => ?_) fun thread later there other owes => ?_
    · obtain ⟨worker, present, alike⟩ := same thread later there
      obtain ⟨phase, same⟩ := alike.same_owing
      exact ⟨phase ▸ apart.orderly thread worker present, worker, present, same ▸ .refl _⟩
    · obtain ⟨worker, present, alike⟩ := same thread later there
      rw [completions]
      exact apart.unfilled thread worker present other (alike.same_owing.2 ▸ owes)

/-! ### What is told about a completion -/

/-- A completion was not filled, so nobody who asked for it was told an outcome. The wakers are
those of all who asked with one, and each is there once. -/
structure Unanswered (deeds : List Deed) (completion : Nat) (wakers : List Nat) : Prop where
  unfilled : ∀ outcome called, .completed completion outcome called ∉ deeds
  answers : ∀ waker answer, .asked completion waker answer ∈ deeds → answer = none
  once : wakers.Nodup
  left : ∀ waker, waker ∈ wakers ↔ .asked completion (some waker) none ∈ deeds

/-- A completion was filled once, and the wakers of all who had asked before were called then, each
once. Everybody who asked later was told the outcome. -/
def Answered (deeds : List Deed) (completion : Nat) (outcome : Outcome) : Prop :=
  ∃ before wakers after, deeds = before ++ .completed completion outcome wakers :: after ∧
    Unanswered before completion wakers ∧
    (∀ other called, .completed completion other called ∉ after) ∧
    ∀ waker answer, .asked completion waker answer ∈ after → answer = some outcome

/-- The slot of a completion is what the record says. -/
def Agrees (deeds : List Deed) (completion : Nat) (slot : Completion) : Prop :=
  match slot.result with
  | none => Unanswered deeds completion slot.pending
  | some outcome => slot.pending = [] ∧ Answered deeds completion outcome

variable {deeds : List Deed} {done : Deed} {slot : Completion} {outcome : Outcome}
  {wakers : List Nat}

theorem mem_concat_other {other : Deed} (named : other.slot? = some completion)
    (differs : done.slot? ≠ some completion) : other ∈ deeds ++ [done] ↔ other ∈ deeds := by
  rw [List.mem_append, List.mem_singleton, or_iff_left]
  rintro rfl
  exact differs named

theorem Unanswered.other (unanswered : Unanswered deeds completion wakers)
    (differs : done.slot? ≠ some completion) :
    Unanswered (deeds ++ [done]) completion wakers where
  unfilled := fun outcome called =>
    (mem_concat_other rfl differs).not.mpr (unanswered.unfilled outcome called)
  answers := fun waker answer asked =>
    unanswered.answers waker answer ((mem_concat_other rfl differs).mp asked)
  once := unanswered.once
  left := fun waker => (unanswered.left waker).trans (mem_concat_other rfl differs).symm

theorem Answered.concat (answered : Answered deeds completion outcome)
    (agrees : (∀ other called, done ≠ .completed completion other called) ∧
      ∀ waker answer, done = .asked completion waker answer → answer = some outcome) :
    Answered (deeds ++ [done]) completion outcome := by
  obtain ⟨before, wakers, after, rfl, unanswered, unfilled, answers⟩ := answered
  refine ⟨before, wakers, after ++ [done], by rw [List.append_assoc, List.cons_append], unanswered,
    fun other called member => ?_, fun waker answer member => ?_⟩
  · rcases List.mem_append.mp member with earlier | now
    · exact unfilled other called earlier
    · exact agrees.1 other called (List.mem_singleton.mp now).symm
  · rcases List.mem_append.mp member with earlier | now
    · exact answers waker answer earlier
    · exact agrees.2 waker answer (List.mem_singleton.mp now).symm

/-- What is done elsewhere plays no part. -/
theorem Agrees.other (agrees : Agrees deeds completion slot)
    (differs : done.slot? ≠ some completion) : Agrees (deeds ++ [done]) completion slot := by
  rw [Agrees] at agrees ⊢
  cases result : slot.result with
  | none =>
    rw [result] at agrees
    exact Unanswered.other agrees differs
  | some outcome =>
    rw [result] at agrees
    refine ⟨agrees.1, agrees.2.concat ⟨fun other called is => ?_, fun waker answer is => ?_⟩⟩
    · exact differs (is ▸ rfl)
    · exact absurd (is ▸ rfl) differs

/-- A completion of its own for a task of which nothing was said. -/
theorem agrees_empty (unknown : ∀ deed ∈ deeds, deed.slot? ≠ some completion) :
    Agrees deeds completion .empty where
  unfilled := fun _ _ member => unknown _ member rfl
  answers := fun _ _ member => absurd rfl (unknown _ member)
  once := List.nodup_nil
  left := fun _ => iff_of_false List.not_mem_nil fun member => unknown _ member rfl

/-- The completion is filled. -/
theorem Agrees.completed (agrees : Agrees deeds completion slot) (unfilled : slot.result = none)
    (outcome : Outcome) :
    Agrees (deeds ++ [.completed completion outcome slot.pending]) completion
      (slot.complete outcome).1 := by
  rw [Agrees, unfilled] at agrees
  exact ⟨rfl, deeds, slot.pending, [], rfl, agrees, fun _ _ => List.not_mem_nil, nofun⟩

/-- Somebody asks, and its waker is left if it has one. -/
theorem Unanswered.asked {waker : Option Nat} {more : List Nat}
    (unanswered : Unanswered deeds completion wakers) (once : more.Nodup)
    (left : ∀ other, other ∈ more ↔ other ∈ wakers ∨ waker = some other) :
    Unanswered (deeds ++ [.asked completion waker none]) completion more where
  unfilled := fun outcome called member => by
    rcases List.mem_append.mp member with earlier | now
    · exact unanswered.unfilled outcome called earlier
    · exact absurd (List.mem_singleton.mp now) nofun
  answers := fun waker answer member => by
    rcases List.mem_append.mp member with earlier | now
    · exact unanswered.answers waker answer earlier
    · injection List.mem_singleton.mp now
  once := once
  left := fun other => by
    rw [left, unanswered.left, List.mem_append, List.mem_singleton, Deed.asked.injEq]
    refine or_congr_right ⟨fun is => ⟨rfl, is.symm, rfl⟩, fun is => is.2.1.symm⟩

/-- Somebody looks. -/
theorem Agrees.looked (agrees : Agrees deeds completion slot) :
    Agrees (deeds ++ [.asked completion none slot.result]) completion slot := by
  rw [Agrees] at agrees ⊢
  cases result : slot.result with
  | none =>
    rw [result] at agrees
    exact agrees.asked agrees.once fun other => (or_iff_left nofun).symm
  | some outcome =>
    rw [result] at agrees
    refine ⟨agrees.1, agrees.2.concat ⟨nofun, fun waker answer is => ?_⟩⟩
    injection is with _ _ is
    exact is.symm

/-- Somebody asks and leaves a waker. -/
theorem Agrees.polled (agrees : Agrees deeds completion slot) (waker : Nat) :
    Agrees (deeds ++ [.asked completion (some waker) slot.result]) completion
      (slot.poll waker).1 := by
  rw [Agrees] at agrees ⊢
  rw [slot.result_poll]
  cases result : slot.result with
  | none =>
    rw [result] at agrees
    rw [Completion.poll, result]
    dsimp only
    split
    · rename_i there
      refine agrees.asked agrees.once fun other => (or_iff_left_of_imp fun is => ?_).symm
      exact Option.some.inj is ▸ there
    · rename_i missing
      refine agrees.asked (List.nodup_append.mpr ?_) fun other => ?_
      · refine ⟨agrees.once, List.pairwise_singleton _ waker, fun other member _ is differs => ?_⟩
        exact missing (List.mem_singleton.mp is ▸ differs ▸ member)
      · rw [List.mem_append, List.mem_singleton, Option.some.injEq, eq_comm]
  | some outcome =>
    rw [result] at agrees
    rw [Completion.poll, result]
    refine ⟨agrees.1, agrees.2.concat ⟨nofun, fun waker answer is => ?_⟩⟩
    injection is with _ _ is
    exact is.symm

/-! ### What every happening preserves -/

/-- What is done to a completion is known from the record, and so are the wakers that were
called. -/
structure RecordAgrees (deeds : List Deed) (pool : Pool) : Prop where
  apart : pool.Apart
  known : ∀ deed ∈ deeds, deed.completion < pool.completions.size
  agrees : ∀ (completion : Nat) slot, pool.completions[completion]? = some slot →
    Agrees deeds completion slot
  called : pool.called.reverse = deeds.flatMap Deed.called

/-- Nothing is done. -/
theorem RecordAgrees.still (record : RecordAgrees deeds pool) (apart : next.Apart)
    (completions : next.completions = pool.completions) (called : next.called = pool.called) :
    RecordAgrees (deeds ++ (none : Option Deed).toList) next := by
  rw [Option.toList_none, List.append_nil]
  exact ⟨apart, completions ▸ record.known, completions ▸ record.agrees, called ▸ record.called⟩

/-- Something is done that changes no completion. -/
theorem RecordAgrees.elsewhere (record : RecordAgrees deeds pool) (apart : next.Apart)
    (completions : next.completions = pool.completions) (called : next.called = pool.called)
    (within : done.completion < pool.completions.size) (unnamed : done.slot? = none)
    (silent : done.called = []) : RecordAgrees (deeds ++ [done]) next := by
  refine ⟨apart, fun deed member => ?_, fun completion slot there => ?_, ?_⟩
  · rw [completions]
    rcases List.mem_append.mp member with earlier | now
    · exact record.known deed earlier
    · exact List.mem_singleton.mp now ▸ within
  · exact (record.agrees completion slot (completions ▸ there)).other (unnamed ▸ nofun)
  · rw [called, record.called, List.flatMap_append, List.flatMap_singleton, silent, List.append_nil]

/-- One completion changes. -/
def Changes (pool : Pool) (completion : Nat) (changed : Completion) (next : Pool) : Prop :=
  next.completions.size = pool.completions.size ∧
    ∀ other : Nat, next.completions[other]? =
      if other = completion then some changed else pool.completions[other]?

theorem changes_setIfInBounds {changed : Completion} (within : completion < pool.completions.size)
    (is : next.completions = pool.completions.setIfInBounds completion changed) :
    pool.Changes completion changed next := by
  refine ⟨is ▸ Array.size_setIfInBounds, fun other => ?_⟩
  rw [is]
  split
  · rename_i same
    rw [same, Array.getElem?_setIfInBounds_self_of_lt within]
  · rename_i differs
    exact Array.getElem?_setIfInBounds_ne (Ne.symm differs)

/-- Something is done to one completion. -/
theorem RecordAgrees.alter {changed : Completion} (record : RecordAgrees deeds pool)
    (apart : next.Apart)
    (named : done.slot? = some completion) (within : completion < pool.completions.size)
    (completions : pool.Changes completion changed next)
    (agrees : Agrees (deeds ++ [done]) completion changed)
    (called : next.called.reverse = pool.called.reverse ++ done.called) :
    RecordAgrees (deeds ++ [done]) next where
  apart := apart
  known := fun deed member => by
    rw [completions.1]
    rcases List.mem_append.mp member with earlier | now
    · exact record.known deed earlier
    · rw [List.mem_singleton.mp now, Deed.completion_of_slot? named]
      exact within
  agrees := fun other slot there => by
    rw [completions.2] at there
    split at there
    · rename_i is
      rw [is, ← Option.some.inj there]
      exact agrees
    · rename_i differs
      refine (record.agrees other slot there).other fun is => differs ?_
      exact Option.some.inj (is.symm.trans named)
  called := by
    rw [called, record.called, List.flatMap_append, List.flatMap_singleton]

/-- A thread fills a completion that it owes. -/
theorem RecordAgrees.fills (record : RecordAgrees deeds pool) (apart : next.Apart)
    (present : pool.workers[index]? = some worker) (owes : completion ∈ worker.owing)
    (updates : pool.UpdatesThread index after nextId (some (completion, outcome)) next) :
    RecordAgrees (deeds ++ [.completed completion outcome (pool.pending completion)]) next := by
  obtain ⟨slot, found, unfilled⟩ := record.apart.unfilled index worker present completion owes
  obtain ⟨within, _⟩ := Array.getElem?_eq_some_iff.mp found
  have left : pool.pending completion = slot.pending := by rw [pending, found]
  rw [left]
  refine record.alter apart rfl within (changes_setIfInBounds within ?_)
    ((record.agrees completion slot found).completed unfilled outcome) ?_
  · rw [updates.completions]
    show (pool.fill completion outcome).completions = _
    rw [fill, found]
  · rw [updates.called]
    show (pool.fill completion outcome).called.reverse = _
    rw [fill, found]
    exact List.reverse_append.trans (congrArg (_ ++ ·) (List.reverse_reverse _))

/-- A completion comes, which nothing was done with yet. -/
theorem RecordAgrees.sends (record : RecordAgrees deeds pool) (apart : next.Apart)
    (completions : next.completions = pool.completions.push .empty)
    (called : next.called = pool.called) : RecordAgrees deeds next := by
  refine ⟨apart, fun deed member => ?_, fun completion slot there => ?_, called ▸ record.called⟩
  · rw [completions, Array.size_push]
    exact Nat.lt_succ_of_lt (record.known deed member)
  · rw [completions, Array.getElem?_push] at there
    split at there
    · rename_i new
      obtain rfl := Option.some.inj there
      refine agrees_empty fun deed member named => ?_
      have within := record.known deed member
      rw [Deed.completion_of_slot? named, new] at within
      exact Nat.lt_irrefl _ within
    · exact record.agrees completion slot there

/-- Whatever happens, the record says what is done to completions. -/
theorem RecordAgrees.happened {deed : Option Deed} (record : RecordAgrees deeds pool)
    (happened : pool.Happened deed next) : RecordAgrees (deeds ++ deed.toList) next := by
  have apart := record.apart.happened happened
  cases happened with
  | @turns thread worker after nextId deed _ present stride updates =>
    have owing := stride.owing (record.apart.orderly thread worker present)
    cases stride with
    | fills | drains => exact record.fills apart present (owing.subset List.mem_cons_self) updates
    | takesIn _ next =>
      refine record.elsewhere apart updates.completions updates.called
        (record.apart.lt_size present ?_) rfl rfl
      exact List.mem_append_left _ (next ▸ List.mem_cons_self)
    | countsOff _ promised =>
      exact record.elsewhere apart updates.completions updates.called
        (record.apart.lt_size present (Worker.mem_owing_of_promised promised)) rfl rfl
    | _ => exact record.still apart updates.completions updates.called
  | sends =>
    rw [Option.toList_none, List.append_nil]
    exact record.sends apart rfl rfl
  | @polls completion waker slot present =>
    obtain ⟨within, _⟩ := Array.getElem?_eq_some_iff.mp present
    exact record.alter apart rfl within (changes_setIfInBounds within rfl)
      ((record.agrees completion slot present).polled waker) (List.append_nil _).symm
  | @looks completion slot present =>
    obtain ⟨within, _⟩ := Array.getElem?_eq_some_iff.mp present
    refine record.alter apart rfl within ⟨rfl, fun other => ?_⟩
      (record.agrees completion slot present).looked (List.append_nil _).symm
    split
    · rename_i is
      exact is ▸ present
    · rfl
  | passes _ _ completions called => exact record.still apart completions called

theorem Recorded.recordAgrees (recorded : Recorded deeds pool) : RecordAgrees deeds pool := by
  induction recorded with
  | start threads config patience respond =>
    let pool : Pool := { Pool.new threads config patience with respond }
    have fresh {thread : Nat} {worker : Worker} (there : pool.workers[thread]? = some worker) :
        worker.phase = .checking ∧ worker.owing = [] := by
      obtain ⟨_, is⟩ := Option.ite_none_right_eq_some.mp (Array.getElem?_replicate.symm.trans there)
      exact Option.some.inj is ▸ ⟨rfl, rfl⟩
    have idle {thread completion : Nat} {worker : Worker}
        (there : pool.workers[thread]? = some worker) : completion ∉ worker.owing :=
      (fresh there).2 ▸ List.not_mem_nil
    refine ⟨⟨fun thread worker there => ?_, fun thread worker there => ?_,
      fun _ _ worker _ there _ _ completion owes => absurd owes (idle there),
      fun _ _ there completion owes => absurd owes (idle there)⟩,
      fun _ member => absurd member List.not_mem_nil, fun completion slot there => ?_, rfl⟩
    · rw [(fresh there).1]
      trivial
    · rw [(fresh there).2]
      exact List.nodup_nil
    · exact absurd there nofun
  | happen _ happens inductionHypothesis => exact inductionHypothesis.happened (happened happens)

/-- There is an outcome if the completion was filled with it. -/
theorem RecordAgrees.result?_eq_some_iff (record : RecordAgrees deeds pool) :
    pool.result? completion = some outcome ↔
      ∃ wakers, .completed completion outcome wakers ∈ deeds := by
  constructor
  · intro result
    obtain ⟨slot, there, result⟩ := Option.bind_eq_some_iff.mp result
    have agrees := record.agrees completion slot there
    rw [Agrees, result] at agrees
    obtain ⟨_, before, wakers, after, rfl, _⟩ := agrees
    exact ⟨wakers, List.mem_append_right before List.mem_cons_self⟩
  · rintro ⟨wakers, filled⟩
    have within : completion < pool.completions.size := record.known _ filled
    have there := Array.getElem?_eq_getElem within
    have agrees := record.agrees completion _ there
    rw [Agrees] at agrees
    rw [result?, there, Option.bind_some]
    cases result : pool.completions[completion].result with
    | none =>
      rw [result] at agrees
      exact absurd filled (agrees.unfilled outcome wakers)
    | some other =>
      rw [result] at agrees
      obtain ⟨_, before, called, after, rfl, unanswered, unfilled, _⟩ := agrees
      rcases List.mem_append.mp filled with earlier | now
      · exact absurd earlier (unanswered.unfilled outcome wakers)
      · rcases List.mem_cons.mp now with is | later
        · injection is with _ is
          rw [is]
        · exact absurd later (unfilled outcome wakers)

/-- A completion is filled once at most, and its outcome stays what it is. Whoever asks before that
is told of none, and its waker, if it has one, is called when the completion is filled, once; and
whoever asks later is told the outcome. No waker is called otherwise. -/
theorem Recorded.filled_once (recorded : Recorded deeds pool) :
    (∀ completion < pool.completions.size,
      (pool.result? completion = none ∧
        Unanswered deeds completion (pool.pending completion)) ∨
      ∃ outcome, pool.result? completion = some outcome ∧ Answered deeds completion outcome) ∧
    (∀ completion outcome, pool.result? completion = some outcome →
      ∀ happenings more later, pool.happenAll happenings = some (more, later) →
        later.result? completion = some outcome) ∧
    (∀ thread id completion, .took thread id completion ∈ deeds →
      completion < pool.completions.size) ∧
    pool.called.reverse = deeds.flatMap Deed.called := by
  have record := recorded.recordAgrees
  refine ⟨fun completion within => ?_,
    fun completion outcome result happenings more later runs => ?_,
    fun thread id completion took => record.known _ took, record.called⟩
  · have there := Array.getElem?_eq_getElem within
    have agrees := record.agrees completion _ there
    rw [result?, pending, there, Option.bind_some]
    rw [Agrees] at agrees
    cases result : pool.completions[completion].result with
    | none =>
      rw [result] at agrees
      exact Or.inl ⟨rfl, agrees⟩
    | some outcome =>
      rw [result] at agrees
      exact Or.inr ⟨outcome, rfl, agrees.2⟩
  · obtain ⟨wakers, filled⟩ := record.result?_eq_some_iff.mp result
    have later := (recorded.happenAll runs).recordAgrees
    exact later.result?_eq_some_iff.mpr ⟨wakers, List.mem_append_left more filled⟩

/-- A task is sent to a thread, and two wait for its outcome, one of whom asks twice, while the
thread takes it in, runs it and counts it off. -/
def awaiting : List Happening :=
  [.send 0 default, .poll ⟨⟨1⟩, 0, ⟨0⟩, 0⟩ 7, .turn 0, .turn 0, .turn 0, .poll ⟨⟨1⟩, 0, ⟨0⟩, 0⟩ 8,
    .turn 0, .poll ⟨⟨1⟩, 0, ⟨0⟩, 0⟩ 7, .turn 0, .turn 0, .turn 0, .look ⟨⟨1⟩, 0, ⟨0⟩, 0⟩]

/-- The wakers of both are called, each once, and the task has its outcome. -/
theorem awaited_filled : ∃ deeds pool,
    (Pool.new 1 .standard 0).happenAll awaiting = some (deeds, pool) ∧
      pool.called.reverse = [7, 8] ∧
      deeds.flatMap Deed.called = [7, 8] ∧
      ∃ outcome, pool.result? 0 = some outcome ∧ Answered deeds 0 outcome := by
  have known : ((Pool.new 1 .standard 0).happenAll awaiting).map
      (fun happened => (happened.2.completions.size, happened.2.called,
        (happened.2.result? 0).isSome)) = some (1, [8, 7], true) := by decide +kernel
  obtain ⟨⟨deeds, pool⟩, runs, is⟩ := Option.map_eq_some_iff.mp known
  obtain ⟨size, is⟩ := Prod.mk.inj is
  obtain ⟨called, answered⟩ := Prod.mk.inj is
  have called : pool.called = [8, 7] := called
  have size : pool.completions.size = 1 := size
  have recorded : Recorded deeds pool := Recorded.happenAll (.start 1 .standard 0 fun _ => []) runs
  obtain ⟨settled, _, _, calls⟩ := recorded.filled_once
  refine ⟨deeds, pool, runs, by rw [called]; rfl, by rw [← calls, called]; rfl, ?_⟩
  rcases settled 0 (by rw [size]; exact Nat.one_pos) with ⟨missing, _⟩ | found
  · exact absurd (missing ▸ answered : (none : Option Outcome).isSome = true) nofun
  · exact found

end Pool

end TaskMachine
