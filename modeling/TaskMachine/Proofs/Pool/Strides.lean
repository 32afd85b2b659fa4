/-
One step of a thread, in full. `Stride` says what a step makes of the thread that
makes it, whatever the step is: which operation it has made with its scheduler,
how that went, what became of its promises and of what it counts, and which
completion it fills. `UpdatesThread` says that nothing else of the pool changes
but the mailrooms of other threads, where what the embedder sends arrives.

The steps that a crash breaks off are among them. After a crash the thread has
closed, whatever its scheduler is like. `Pool.stridesTo_of_step` is where a step
is taken apart; what is said of steps elsewhere is read off the stride.
-/

import TaskMachine.Proofs.Pool.Mail

namespace TaskMachine

/-- Whether a thread can be there when it has kept all that had come due. -/
def Phase.Onward : Phase → Prop
  | checking | waiting | parked | stopped | crashed _ => True
  | _ => False

/-- A thread that keeps what has come due goes on or stops, and does nothing else. -/
def Phase.Orderly : Phase → Prop
  | counting _ next | filling _ _ _ next => next.Onward
  | _ => True

theorem Phase.Onward.orderly {phase : Phase} (onward : phase.Onward) : phase.Orderly := by
  cases phase with
  | counting | filling => exact onward.elim
  | _ => trivial

theorem Pool.onward_phaseAfter (left : Tick) : (Pool.phaseAfter left).Onward := by
  cases left <;> trivial

namespace Worker

/-- The operation that a thread makes with its scheduler, from where it is, breaks off. -/
def Breaks (worker : Worker) (before : Scheduler) (crash : Crash) (scheduler : Scheduler) : Prop :=
  (∃ command rest, worker.phase = .receiving ∧ worker.commands = command :: rest ∧
    Pool.takeIn command worker.promises.size before = .error crash scheduler) ∨
  (worker.phase = .ticking ∧ Scheduler.tick before = .error crash scheduler) ∨
  (worker.phase = .waiting ∧ Scheduler.wait before = .error crash scheduler) ∨
  (worker.phase = .parked ∧ Scheduler.takeToken before = .error crash scheduler)

end Worker

namespace Pool

/-- What is done with promises and completions. -/
inductive Deed where
  /-- A thread takes a task in, and promises to fill its completion. -/
  | took (thread : Nat) (id : TaskId) (completion : Nat)
  /-- A thread counts the promise to fill a completion off. -/
  | counted (thread completion : Nat)
  /-- A completion is filled, and wakers are called. -/
  | completed (completion : Nat) (outcome : Outcome) (wakers : List Nat)
  /-- Somebody asks for an outcome, and leaves a waker if there is none and it has one. -/
  | asked (completion : Nat) (waker : Option Nat) (answer : Option Outcome)

/-- The completion that is filled, and the outcome. -/
def Deed.filled? : Deed → Option (Nat × Outcome)
  | completed completion outcome _ => some (completion, outcome)
  | _ => none

/-- The wakers that were left in a completion. -/
def pending (pool : Pool) (completion : Nat) : List Nat :=
  match pool.completions[completion]? with
  | some slot => slot.pending
  | none => []

/-- What a thread does in its next step. A task is taken in unless a crash breaks that off. -/
def nextDeed (pool : Pool) (thread : Nat) (worker : Worker) : Option Deed :=
  match worker.phase with
  | .receiving =>
    match worker.commands with
    | command :: _ =>
      (answer? (takeIn command worker.promises.size) (pool.readied thread worker.scheduler)).map
        fun _ => .took thread command.id command.completion
    | [] => none
  | .counting ((promise, _) :: _) _ =>
    match worker.promises[promise]?.join with
    | some completion => some (.counted thread completion)
    | none => none
  | .filling completion outcome _ _ =>
    some (.completed completion outcome (pool.pending completion))
  | .draining =>
    match worker.commands with
    | command :: _ =>
      some (.completed command.completion (.error .shutdown) (pool.pending command.completion))
    | [] => none
  | _ => none

end Pool

/-- What a step makes of a thread, up to which number the tasks of the pool have come then, and
what is done. -/
inductive Stride (pool : Pool) (index : Nat) (worker : Worker) :
    Worker → TaskId → Option Pool.Deed → Prop
  | looks (phase : worker.phase = .checking) :
      Stride pool index worker
        { worker with phase := if pool.stopping then .draining else .receiving } pool.nextId none
  | receives (phase : worker.phase = .receiving) (empty : worker.commands = []) :
      Stride pool index worker { worker with phase := .ticking } pool.nextId none
  | takesIn {command : Command} {rest : List Command} {scheduler : Scheduler}
      (phase : worker.phase = .receiving) (next : worker.commands = command :: rest)
      (runs : Pool.takeIn command worker.promises.size (pool.readied index worker.scheduler) =
        .ok ⟨⟩ scheduler) :
      Stride pool index worker
        { worker with
          scheduler
          commands := rest
          promises := worker.promises.push (some command.completion)
          executing := worker.executing + 1
          total := worker.total + 1 } scheduler.nextId
        (some (.took index command.id command.completion))
  | ticks {left : Tick} {scheduler : Scheduler} (phase : worker.phase = .ticking)
      (runs : Scheduler.tick (pool.readied index worker.scheduler) = .ok left scheduler) :
      Stride pool index worker
        { worker with
          scheduler
          phase := .counting (Pool.endings scheduler.notices.reverse) (Pool.phaseAfter left) }
        scheduler.nextId none
  | goesOn {next : Phase} (phase : worker.phase = .counting [] next) :
      Stride pool index worker { worker with phase := next } pool.nextId none
  | skips {promise : Nat} {outcome : Outcome} {due : List (Nat × Outcome)} {next : Phase}
      (phase : worker.phase = .counting ((promise, outcome) :: due) next)
      (kept : worker.promises[promise]?.join = none) :
      Stride pool index worker { worker with phase := .counting due next } pool.nextId none
  | countsOff {promise completion : Nat} {outcome : Outcome} {due : List (Nat × Outcome)}
      {next : Phase} (phase : worker.phase = .counting ((promise, outcome) :: due) next)
      (promised : worker.promises[promise]?.join = some completion) :
      Stride pool index worker
        { worker with
          promises := worker.promises.setIfInBounds promise none
          executing := worker.executing - 1
          phase := .filling completion outcome due next } pool.nextId
        (some (.counted index completion))
  | fills {completion : Nat} {outcome : Outcome} {due : List (Nat × Outcome)} {next : Phase}
      (phase : worker.phase = .filling completion outcome due next) :
      Stride pool index worker { worker with phase := .counting due next } pool.nextId
        (some (.completed completion outcome (pool.pending completion)))
  | waits {scheduler : Scheduler} (phase : worker.phase = .waiting)
      (runs : Scheduler.wait (pool.readied index worker.scheduler) = .ok ⟨⟩ scheduler) :
      Stride pool index worker { worker with scheduler, phase := .checking } scheduler.nextId none
  | wakes {token : Bool} {scheduler : Scheduler} (phase : worker.phase = .parked)
      (runs : Scheduler.takeToken (pool.readied index worker.scheduler) = .ok token scheduler) :
      Stride pool index worker { worker with scheduler, phase := .checking } scheduler.nextId none
  | drains {command : Command} {rest : List Command} (phase : worker.phase = .draining)
      (next : worker.commands = command :: rest) :
      Stride pool index worker { worker with commands := rest } pool.nextId
        (some (.completed command.completion (.error .shutdown)
          (pool.pending command.completion)))
  | drained (phase : worker.phase = .draining) (empty : worker.commands = []) :
      Stride pool index worker { worker with phase := .closing } pool.nextId none
  | closes (phase : worker.phase = .closing) :
      Stride pool index worker (worker.abandon .stopped) pool.nextId none
  | crashes {crash : Crash} {scheduler : Scheduler}
      (breaks : worker.Breaks (pool.readied index worker.scheduler) crash scheduler) :
      Stride pool index worker ({ worker with scheduler }.abandon (.crashed crash))
        scheduler.nextId none

variable {pool : Pool} {index : Nat} {worker after : Worker} {nextId : TaskId}
  {deed : Option Pool.Deed}

theorem Stride.orderly (stride : Stride pool index worker after nextId deed)
    (orderly : worker.phase.Orderly) : after.phase.Orderly := by
  cases stride with
  | looks =>
    dsimp only
    split <;> trivial
  | receives | waits | wakes | drained | closes | crashes => trivial
  | takesIn | drains => exact orderly
  | ticks => exact Pool.onward_phaseAfter _
  | goesOn phase =>
    rw [phase] at orderly
    exact orderly.orderly
  | skips phase | countsOff phase | fills phase =>
    rw [phase] at orderly
    exact orderly

namespace Pool

/-- A thread has come to another state, and a completion may have been filled. Of the other threads
only the mailrooms have changed. -/
structure UpdatesThread (pool : Pool) (index : Nat) (after : Worker) (nextId : TaskId)
    (filled : Option (Nat × Outcome)) (next : Pool) : Prop where
  own : next.workers[index]? = some after
  others : pool.OnlyMailed (· = index) next
  nextId : next.nextId = nextId
  completions : next.completions =
    match filled with
    | some (completion, outcome) => (pool.fill completion outcome).completions
    | none => pool.completions
  called : next.called =
    match filled with
    | some (completion, outcome) => (pool.fill completion outcome).called
    | none => pool.called

/-- A thread makes a stride, in which this is done, and the pool is another then. -/
def StridesTo (pool : Pool) (index : Nat) (worker : Worker) (deed : Option Deed) (next : Pool) :
    Prop :=
  ∃ after nextId, Stride pool index worker after nextId deed ∧
    pool.UpdatesThread index after nextId (deed.bind Deed.filled?) next

variable {next : Pool} {filled : Option (Nat × Outcome)}

/-- Another thread was there before, with another mailroom at most. -/
theorem UpdatesThread.other (updates : pool.UpdatesThread index after nextId filled next)
    {thread : Nat} {later : Worker} (differ : thread ≠ index)
    (there : next.workers[thread]? = some later) :
    ∃ worker, pool.workers[thread]? = some worker ∧ worker.SameButMailroom later := by
  obtain ⟨worker, present, mailed⟩ := updates.others.each thread differ later there
  exact ⟨worker, present, mailed.same⟩

section

variable (within : index < pool.workers.size)
include within

/-- The state of one thread changes. -/
theorem updatesThread_setWorker (later : Worker) :
    pool.UpdatesThread index later pool.nextId none (pool.setWorker index later) where
  own := getElem?_setWorker_self pool within later
  others := onlyMailed_setWorker pool index later
  nextId := rfl
  completions := rfl
  called := rfl

/-- A completion is filled besides. -/
theorem updatesThread_fill (later : Worker) (completion : Nat) (outcome : Outcome) :
    pool.UpdatesThread index later pool.nextId (some (completion, outcome))
      ((pool.setWorker index later).fill completion outcome) := by
  obtain ⟨workers, stopping⟩ := same_fill (pool.setWorker index later) completion outcome
  obtain ⟨nextId, completions, called⟩ :
      ((pool.setWorker index later).fill completion outcome).nextId = pool.nextId ∧
        ((pool.setWorker index later).fill completion outcome).completions =
          (pool.fill completion outcome).completions ∧
        ((pool.setWorker index later).fill completion outcome).called =
          (pool.fill completion outcome).called := by
    have same : (pool.setWorker index later).completions = pool.completions := rfl
    rw [fill, fill, same]
    cases pool.completions[completion]? <;> exact ⟨rfl, rfl, rfl⟩
  refine ⟨?_, (onlyMailed_setWorker pool index later).trans (.of_workers workers stopping),
    nextId, completions, called⟩
  rw [workers]
  exact getElem?_setWorker_self pool within later

/-- An operation with the scheduler of a thread is made, or breaks off. -/
theorem updatesThread_operate {α : Type} (before : Worker) (operation : Scheduling α)
    (goesOn : α → List (Nat × Outcome) → Worker → Worker) :
    ∃ scheduler later, pool.UpdatesThread index later scheduler.nextId none
        (pool.operate index before operation goesOn) ∧
      ((∃ answer, operation (pool.readied index before.scheduler) = .ok answer scheduler ∧
          later = goesOn answer (endings scheduler.notices.reverse) { before with scheduler }) ∨
        ∃ crash, operation (pool.readied index before.scheduler) = .error crash scheduler ∧
          later = { before with scheduler }.abandon (.crashed crash)) := by
  obtain ⟨scheduler, later, is, outcome⟩ := pool.operate_eq index before operation goesOn
  obtain ⟨completions, called, nextId⟩ := pool.same_operated index scheduler
  have told : pool.OnlyMailed (· = index) (pool.operated index scheduler) :=
    pool.onlyMailed_operated index scheduler
  refine ⟨scheduler, later, ?_, outcome⟩
  rw [is]
  exact ⟨getElem?_setWorker_self _ (told.size ▸ within) later,
    told.trans (onlyMailed_setWorker _ index later), nextId, completions, called⟩

/-- Nothing but the state of the thread changes. -/
theorem stridesTo_setWorker {later : Worker} (quiet : deed.bind Deed.filled? = none)
    (stride : Stride pool index worker later pool.nextId deed) :
    pool.StridesTo index worker deed (pool.setWorker index later) := by
  refine ⟨later, pool.nextId, stride, ?_⟩
  rw [quiet]
  exact updatesThread_setWorker within later

/-- The thread makes an operation with its scheduler. -/
theorem stridesTo_operate {α : Type} {before : Worker} {operation : Scheduling α}
    {goesOn : α → List (Nat × Outcome) → Worker → Worker} (quiet : deed.bind Deed.filled? = none)
    (succeeds : ∀ answer scheduler,
      operation (pool.readied index before.scheduler) = .ok answer scheduler →
        Stride pool index worker
          (goesOn answer (endings scheduler.notices.reverse) { before with scheduler })
          scheduler.nextId deed)
    (breaks : ∀ crash scheduler,
      operation (pool.readied index before.scheduler) = .error crash scheduler →
        Stride pool index worker ({ before with scheduler }.abandon (.crashed crash))
          scheduler.nextId deed) :
    pool.StridesTo index worker deed (pool.operate index before operation goesOn) := by
  obtain ⟨scheduler, later, updates, outcome⟩ :=
    updatesThread_operate within before operation goesOn
  refine ⟨later, scheduler.nextId, ?_, by rwa [quiet]⟩
  rcases outcome with ⟨answer, runs, rfl⟩ | ⟨crash, fails, rfl⟩
  · exact succeeds answer scheduler runs
  · exact breaks crash scheduler fails

end

/-- Every step is a stride of the thread that makes it. -/
theorem stridesTo_of_step (present : pool.workers[index]? = some worker)
    (steps : pool.step index = some next) :
    pool.StridesTo index worker (pool.nextDeed index worker) next := by
  have within : index < pool.workers.size := (Array.getElem?_eq_some_iff.mp present).1
  rw [step, present] at steps
  obtain ⟨scheduler, commands, isOpen, phase, promises, executing, total⟩ := worker
  simp only [Option.bind_eq_bind, Option.bind_some] at steps
  cases phase with
  | checking =>
    obtain rfl := Option.some.inj steps
    exact stridesTo_setWorker within rfl (.looks rfl)
  | receiving =>
    cases commands with
    | nil =>
      obtain rfl := Option.some.inj steps
      exact stridesTo_setWorker within rfl (.receives rfl rfl)
    | cons command rest =>
      obtain rfl := Option.some.inj steps
      refine stridesTo_operate within ?_ (fun _ _ runs => ?_) fun _ _ breaks => ?_
      · cases answers : answer? (takeIn command promises.size) (pool.readied index scheduler) <;>
          simp only [nextDeed, answers] <;> rfl
      · simp only [nextDeed, answer?, runs]
        exact .takesIn rfl rfl runs
      · simp only [nextDeed, answer?, breaks]
        exact .crashes (Or.inl ⟨command, rest, rfl, rfl, breaks⟩)
  | ticking =>
    obtain rfl := Option.some.inj steps
    exact stridesTo_operate within rfl (fun _ _ runs => .ticks rfl runs)
      fun _ _ breaks => .crashes (Or.inr (Or.inl ⟨rfl, breaks⟩))
  | counting due after =>
    cases due with
    | nil =>
      obtain rfl := Option.some.inj steps
      exact stridesTo_setWorker within rfl (.goesOn rfl)
    | cons first due =>
      cases promised : promises[first.1]?.join with
      | none =>
        simp only [promised] at steps
        obtain rfl := Option.some.inj steps
        simp only [nextDeed, promised]
        exact stridesTo_setWorker within rfl (.skips rfl promised)
      | some completion =>
        simp only [promised] at steps
        obtain rfl := Option.some.inj steps
        simp only [nextDeed, promised]
        exact stridesTo_setWorker within rfl (.countsOff rfl promised)
  | filling completion outcome due after =>
    obtain rfl := Option.some.inj steps
    exact ⟨_, _, .fills rfl, updatesThread_fill within _ completion outcome⟩
  | waiting =>
    dsimp only at steps
    split at steps
    · obtain rfl := Option.some.inj steps
      exact stridesTo_operate within rfl (fun _ _ runs => .waits rfl runs)
        fun _ _ breaks => .crashes (Or.inr (Or.inr (Or.inl ⟨rfl, breaks⟩)))
    · cases steps
  | parked =>
    dsimp only at steps
    split at steps
    · obtain rfl := Option.some.inj steps
      exact stridesTo_operate within rfl (fun _ _ runs => .wakes rfl runs)
        fun _ _ breaks => .crashes (Or.inr (Or.inr (Or.inr ⟨rfl, breaks⟩)))
    · cases steps
  | draining =>
    cases commands with
    | nil =>
      obtain rfl := Option.some.inj steps
      exact stridesTo_setWorker within rfl (.drained rfl rfl)
    | cons command rest =>
      obtain rfl := Option.some.inj steps
      exact ⟨_, _, .drains rfl rfl, updatesThread_fill within _ command.completion _⟩
  | closing =>
    obtain rfl := Option.some.inj steps
    exact stridesTo_setWorker within rfl (.closes rfl)
  | stopped | crashed => cases steps

end Pool

end TaskMachine
