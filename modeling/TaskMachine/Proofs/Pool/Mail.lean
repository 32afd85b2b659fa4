/-
What a step of one thread leaves of the others. It may put messages into their
mailrooms, wake tasks of theirs, and give them their tokens, and that is all:
`OnlyMailed` says so of all threads but some. Mail takes nothing away. Where a
thread has no token after it, it had none before, and if tasks of it are woken
some were.

An operation with the scheduler of a thread mails other threads first, and then
leaves another state of the thread itself; `operate_eq` says which.
-/

import TaskMachine.Proofs.Scheduler.Listening

namespace TaskMachine

namespace Worker

/-- Whether the thread has its token. -/
abbrev token (worker : Worker) : Bool := worker.scheduler.mailroom.token

/-- The tasks of the thread that were woken. -/
abbrev woken (worker : Worker) : List TaskId := worker.scheduler.mailroom.woken

/-- The mailroom of the thread may be another, and nothing else of it. -/
def SameButMailroom (worker next : Worker) : Prop :=
  ∃ mailroom, next = { worker with scheduler := { worker.scheduler with mailroom } }

/-- The thread has been sent messages, tasks of it have been woken, or it has been given its token,
and nothing else has come of it. -/
structure OnlyMailed (worker next : Worker) : Prop where
  same : worker.SameButMailroom next
  quiet : next.token = false → worker.token = false ∧ (next.woken ≠ [] → worker.woken ≠ [])

variable {worker next last : Worker}

theorem SameButMailroom.refl (worker : Worker) : worker.SameButMailroom worker :=
  ⟨worker.scheduler.mailroom, rfl⟩

theorem SameButMailroom.trans (first : worker.SameButMailroom next)
    (second : next.SameButMailroom last) : worker.SameButMailroom last := by
  obtain ⟨_, rfl⟩ := first
  obtain ⟨mailroom, rfl⟩ := second
  exact ⟨mailroom, rfl⟩

theorem OnlyMailed.refl (worker : Worker) : worker.OnlyMailed worker :=
  ⟨.refl worker, fun none => ⟨none, id⟩⟩

theorem OnlyMailed.trans (first : worker.OnlyMailed next) (second : next.OnlyMailed last) :
    worker.OnlyMailed last where
  same := first.same.trans second.same
  quiet := fun none =>
    have ⟨noneNext, wokenNext⟩ := second.quiet none
    have ⟨noneFirst, wokenFirst⟩ := first.quiet noneNext
    ⟨noneFirst, fun woken => wokenFirst (wokenNext woken)⟩

theorem OnlyMailed.phase (mailed : worker.OnlyMailed next) : next.phase = worker.phase := by
  obtain ⟨⟨_, rfl⟩, _⟩ := mailed
  rfl

theorem OnlyMailed.commands (mailed : worker.OnlyMailed next) :
    next.commands = worker.commands := by
  obtain ⟨⟨_, rfl⟩, _⟩ := mailed
  rfl

end Worker

namespace Pool

/-- Changes the mailroom of a thread. -/
def onMailroom (pool : Pool) (thread : Nat) (change : Mailroom → Mailroom) : Pool :=
  { pool with
    workers := pool.workers.modify thread fun worker =>
      { worker with
        scheduler := { worker.scheduler with mailroom := change worker.scheduler.mailroom } } }

/-- All threads but some have been mailed at most. -/
structure OnlyMailed (apart : Nat → Prop) (pool next : Pool) : Prop where
  stopping : next.stopping = pool.stopping
  size : next.workers.size = pool.workers.size
  each : ∀ thread, ¬ apart thread → ∀ after, next.workers[thread]? = some after →
    ∃ worker, pool.workers[thread]? = some worker ∧ worker.OnlyMailed after

variable {apart : Nat → Prop} {pool middle next : Pool} {index : Nat}

theorem OnlyMailed.of_workers (workers : next.workers = pool.workers)
    (stopping : next.stopping = pool.stopping) : pool.OnlyMailed apart next where
  stopping := stopping
  size := congrArg Array.size workers
  each := fun _ _ after there => ⟨after, workers ▸ there, .refl after⟩

theorem OnlyMailed.trans (first : pool.OnlyMailed apart middle)
    (second : middle.OnlyMailed apart next) : pool.OnlyMailed apart next where
  stopping := second.stopping.trans first.stopping
  size := second.size.trans first.size
  each := fun thread other after there => by
    obtain ⟨between, isBetween, mailedLater⟩ := second.each thread other after there
    obtain ⟨worker, present, mailed⟩ := first.each thread other between isBetween
    exact ⟨worker, present, mailed.trans mailedLater⟩

/-! ### Mailrooms -/

theorem getElem?_onMailroom (pool : Pool) (thread other : Nat) (change : Mailroom → Mailroom) :
    (pool.onMailroom thread change).workers[other]? = (pool.workers[other]?).map fun worker =>
      if thread = other then
        { worker with
          scheduler := { worker.scheduler with mailroom := change worker.scheduler.mailroom } }
      else worker := by
  show (pool.workers.modify thread _)[other]? = _
  rw [Array.getElem?_modify]
  split
  · rfl
  · rw [Option.map_id']

theorem same_onMailroom {thread other : Nat} {change : Mailroom → Mailroom} {later : Worker}
    (there : (pool.onMailroom thread change).workers[other]? = some later) :
    ∃ worker, pool.workers[other]? = some worker ∧ worker.SameButMailroom later := by
  rw [getElem?_onMailroom] at there
  obtain ⟨worker, present, rfl⟩ := Option.map_eq_some_iff.mp there
  refine ⟨worker, present, ?_⟩
  split
  · exact ⟨_, rfl⟩
  · exact .refl worker

theorem onlyMailed_onMailroom_self (pool : Pool) (thread : Nat) (change : Mailroom → Mailroom) :
    pool.OnlyMailed (· = thread) (pool.onMailroom thread change) where
  stopping := rfl
  size := Array.size_modify
  each := fun other differ after there => by
    rw [getElem?_onMailroom] at there
    obtain ⟨worker, present, rfl⟩ := Option.map_eq_some_iff.mp there
    rw [if_neg (Ne.symm differ)]
    exact ⟨worker, present, .refl worker⟩

/-- To change the mailroom of a thread is to mail it, if that takes no token and wakes no task
without giving one. -/
theorem onlyMailed_onMailroom_of_quiet (pool : Pool) (thread : Nat) {change : Mailroom → Mailroom}
    (quiet : ∀ room, (change room).token = false →
      room.token = false ∧ ((change room).woken ≠ [] → room.woken ≠ [])) :
    pool.OnlyMailed apart (pool.onMailroom thread change) where
  stopping := rfl
  size := Array.size_modify
  each := fun other _ after there => by
    rw [getElem?_onMailroom] at there
    obtain ⟨worker, present, rfl⟩ := Option.map_eq_some_iff.mp there
    refine ⟨worker, present, ?_⟩
    split
    · exact ⟨⟨_, rfl⟩, quiet _⟩
    · exact .refl worker

theorem onlyMailed_unpark (pool : Pool) (thread : Nat) :
    pool.OnlyMailed apart (pool.unpark thread) :=
  pool.onlyMailed_onMailroom_of_quiet thread fun _ none => absurd none nofun

theorem onlyMailed_deliver (pool : Pool) (parcel : Parcel) :
    pool.OnlyMailed apart (pool.deliver parcel) :=
  pool.onlyMailed_onMailroom_of_quiet parcel.worker fun room =>
    ((Mailroom.Heard.refl room).send parcel.letter.mailbox parcel.letter.message).quiet

theorem onlyMailed_deliverAll (pool : Pool) (parcels : List Parcel) :
    pool.OnlyMailed apart (parcels.foldl deliver pool) := by
  induction parcels generalizing pool with
  | nil => exact .of_workers rfl rfl
  | cons parcel rest inductionHypothesis =>
    exact (pool.onlyMailed_deliver parcel).trans (inductionHypothesis _)

theorem same_deliverAll (pool : Pool) (parcels : List Parcel) :
    (parcels.foldl deliver pool).completions = pool.completions ∧
      (parcels.foldl deliver pool).called = pool.called ∧
      (parcels.foldl deliver pool).nextId = pool.nextId := by
  induction parcels generalizing pool with
  | nil => exact ⟨rfl, rfl, rfl⟩
  | cons parcel rest inductionHypothesis => exact inductionHypothesis (pool.deliver parcel)

/-! ### The thread itself -/

theorem getElem?_setWorker_self (pool : Pool) (within : index < pool.workers.size)
    (worker : Worker) : (pool.setWorker index worker).workers[index]? = some worker :=
  Array.getElem?_setIfInBounds_self_of_lt within

theorem onlyMailed_setWorker (pool : Pool) (index : Nat) (worker : Worker) :
    pool.OnlyMailed (· = index) (pool.setWorker index worker) where
  stopping := rfl
  size := Array.size_setIfInBounds
  each := fun thread other after there => by
    have same : (pool.setWorker index worker).workers[thread]? = pool.workers[thread]? :=
      Array.getElem?_setIfInBounds_ne (Ne.symm other)
    exact ⟨after, same ▸ there, .refl after⟩

theorem same_fill (pool : Pool) (completion : Nat) (outcome : Outcome) :
    (pool.fill completion outcome).workers = pool.workers ∧
      (pool.fill completion outcome).stopping = pool.stopping := by
  rw [fill]
  cases pool.completions[completion]? <;> exact ⟨rfl, rfl⟩

/-- The scheduler of a thread with the time and the numbers of the pool, ready for an operation. -/
def readied (pool : Pool) (index : Nat) (scheduler : Scheduler) : Scheduler :=
  { scheduler with
    clock := pool.clock
    nextId := pool.nextId
    notices := []
    respond := pool.inward index }

/-- The pool after an operation that has left a scheduler so, but for its thread: what the embedder
has sent to others has arrived. -/
def operated (pool : Pool) (index : Nat) (scheduler : Scheduler) : Pool :=
  (pool.outward index scheduler.notices).foldl deliver
    { pool with
      nextId := scheduler.nextId
      notices := invocations scheduler.notices ++ pool.notices }

theorem onlyMailed_operated (pool : Pool) (index : Nat) (scheduler : Scheduler) :
    pool.OnlyMailed apart (pool.operated index scheduler) := by
  have counted : pool.OnlyMailed apart
      { pool with
        nextId := scheduler.nextId
        notices := invocations scheduler.notices ++ pool.notices } := .of_workers rfl rfl
  exact counted.trans (onlyMailed_deliverAll _ _)

theorem same_operated (pool : Pool) (index : Nat) (scheduler : Scheduler) :
    (pool.operated index scheduler).completions = pool.completions ∧
      (pool.operated index scheduler).called = pool.called ∧
      (pool.operated index scheduler).nextId = scheduler.nextId :=
  same_deliverAll
    { pool with
      nextId := scheduler.nextId
      notices := invocations scheduler.notices ++ pool.notices }
    (pool.outward index scheduler.notices)

/-- An operation with the scheduler of a thread leaves another state of the thread: the one that is
said, or that it has closed. -/
theorem operate_eq {α : Type} (pool : Pool) (index : Nat) (worker : Worker)
    (operation : Scheduling α) (next : α → List (Nat × Outcome) → Worker → Worker) :
    ∃ scheduler later,
      pool.operate index worker operation next =
        (pool.operated index scheduler).setWorker index later ∧
      ((∃ answer, operation (pool.readied index worker.scheduler) = .ok answer scheduler ∧
          later = next answer (endings scheduler.notices.reverse) { worker with scheduler }) ∨
        ∃ crash, operation (pool.readied index worker.scheduler) = .error crash scheduler ∧
          later = { worker with scheduler }.abandon (.crashed crash)) := by
  rw [operate]
  split
  · rename_i answer scheduler runs
    exact ⟨scheduler, _, rfl, Or.inl ⟨answer, runs, rfl⟩⟩
  · rename_i crash scheduler runs
    exact ⟨scheduler, _, rfl, Or.inr ⟨crash, runs, rfl⟩⟩

end Pool

end TaskMachine
