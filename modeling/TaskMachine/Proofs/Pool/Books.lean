/-
What the steps of a thread do to the completions that it has to fill. The `Books`
of a thread are what decides about them: the tasks that were sent to it, whether
it is open, its promises, and where it is. `Turn` says what one step can do to
the books and which completion it fills; whatever the scheduler of the thread
does in it plays no part, except that it says which promises come due. A stride
that no crash breaks off is such a turn.
-/

import TaskMachine.Proofs.Pool.Strides

namespace TaskMachine

/-- What decides about the completions that a thread has to fill. -/
structure Books where
  commands : List Command
  isOpen : Bool
  phase : Phase
  promises : Array (Option Nat)

/-- The books of a thread. -/
def Worker.books (worker : Worker) : Books :=
  ⟨worker.commands, worker.isOpen, worker.phase, worker.promises⟩

/-- Where a thread goes when all is kept that has come due. -/
def Phase.aim : Phase → Phase
  | counting _ next | filling _ _ _ next => next.aim
  | phase => phase

/-- Whether a crash stops the thread, or has stopped it. -/
def Worker.fails (worker : Worker) : Bool :=
  match worker.phase.aim with
  | .crashed _ => true
  | _ => false

/-- The promises of a thread that closes, which all come due. -/
def Books.allDue (books : Books) : List (Nat × Outcome) :=
  (List.range books.promises.size).map fun promise => (promise, .error .shutdown)

namespace Books

/-- What a thread does in one step that is not stopped by a crash, and what it fills. -/
inductive Turn (stopping : Bool) : Books → Books → Option (Nat × Outcome) → Prop
  | look {books : Books} (phase : books.phase = .checking) :
      Turn stopping books
        { books with phase := if stopping then .draining else .receiving } none
  | receive {books : Books} (phase : books.phase = .receiving) (empty : books.commands = []) :
      Turn stopping books { books with phase := .ticking } none
  | takeIn {books : Books} {command : Command} {rest : List Command}
      (phase : books.phase = .receiving) (next : books.commands = command :: rest) :
      Turn stopping books
        { books with
          commands := rest
          promises := books.promises.push (some command.completion) } none
  | tick {books : Books} (phase : books.phase = .ticking) (due : List (Nat × Outcome))
      (left : Tick) :
      Turn stopping books { books with phase := .counting due (Pool.phaseAfter left) } none
  | counted {books : Books} {next : Phase} (phase : books.phase = .counting [] next) :
      Turn stopping books { books with phase := next } none
  | skip {books : Books} {promise : Nat} {outcome : Outcome} {due : List (Nat × Outcome)}
      {next : Phase} (phase : books.phase = .counting ((promise, outcome) :: due) next)
      (kept : books.promises[promise]?.join = none) :
      Turn stopping books { books with phase := .counting due next } none
  | countOff {books : Books} {promise completion : Nat} {outcome : Outcome}
      {due : List (Nat × Outcome)} {next : Phase}
      (phase : books.phase = .counting ((promise, outcome) :: due) next)
      (promised : books.promises[promise]?.join = some completion) :
      Turn stopping books
        { books with
          promises := books.promises.setIfInBounds promise none
          phase := .filling completion outcome due next } none
  | fill {books : Books} {completion : Nat} {outcome : Outcome} {due : List (Nat × Outcome)}
      {next : Phase} (phase : books.phase = .filling completion outcome due next) :
      Turn stopping books { books with phase := .counting due next } (some (completion, outcome))
  | wake {books : Books} (phase : books.phase = .waiting ∨ books.phase = .parked) :
      Turn stopping books { books with phase := .checking } none
  | drain {books : Books} {command : Command} {rest : List Command}
      (phase : books.phase = .draining) (next : books.commands = command :: rest) :
      Turn stopping books { books with commands := rest }
        (some (command.completion, .error .shutdown))
  | drained {books : Books} (phase : books.phase = .draining) (empty : books.commands = []) :
      Turn stopping books { books with phase := .closing } none
  | close {books : Books} (phase : books.phase = .closing) :
      Turn stopping books
        { books with
          commands := []
          isOpen := false
          phase := .counting books.allDue .stopped } none

end Books

namespace Pool

/-- The books of a thread. -/
def books? (pool : Pool) (index : Nat) : Option Books := pool.workers[index]?.map Worker.books

/-- No outcome and none of the books has changed. -/
structure SameBooks (pool next : Pool) : Prop where
  books : ∀ index, next.books? index = pool.books? index
  results : ∀ completion, next.result? completion = pool.result? completion
  completions : next.completions.size = pool.completions.size
  stopping : next.stopping = pool.stopping
  size : next.workers.size = pool.workers.size

/-- The books of one thread are others, and a completion may have been filled. -/
structure Turned (pool : Pool) (index : Nat) (books : Books) (filled : Option (Nat × Outcome))
    (next : Pool) : Prop where
  books : ∀ other, next.books? other = if other = index then some books else pool.books? other
  results : ∀ completion, next.result? completion =
    match filled with
    | some (given, outcome) =>
      if completion = given ∧ given < pool.completions.size then some outcome
      else pool.result? completion
    | none => pool.result? completion
  stopping : next.stopping = pool.stopping
  size : next.workers.size = pool.workers.size
  completions : next.completions.size = pool.completions.size

variable {pool middle next : Pool} {index : Nat} {worker : Worker} {books : Books}

theorem SameBooks.refl (pool : Pool) : pool.SameBooks pool :=
  ⟨fun _ => rfl, fun _ => rfl, rfl, rfl, rfl⟩

theorem SameBooks.trans (first : pool.SameBooks middle) (second : middle.SameBooks next) :
    pool.SameBooks next :=
  ⟨fun index => (second.books index).trans (first.books index),
    fun completion => (second.results completion).trans (first.results completion),
    second.completions.trans first.completions, second.stopping.trans first.stopping,
    second.size.trans first.size⟩

/-- A change of the scheduler of a thread is not one of the books. -/
theorem sameBooks_modify (pool : Pool) (index : Nat) {change : Worker → Worker}
    (same : ∀ worker, (change worker).books = worker.books) :
    pool.SameBooks { pool with workers := pool.workers.modify index change } where
  books := fun other => by
    show (pool.workers.modify index change)[other]?.map Worker.books = _
    rw [Array.getElem?_modify, books?]
    split
    · rw [Option.map_map]
      exact congrFun (congrArg Option.map (funext same)) _
    · rfl
  results := fun _ => rfl
  completions := rfl
  stopping := rfl
  size := Array.size_modify

theorem sameBooks_unpark (pool : Pool) (index : Nat) : pool.SameBooks (pool.unpark index) :=
  pool.sameBooks_modify index fun _ => rfl

theorem sameBooks_deliver (pool : Pool) (parcel : Parcel) : pool.SameBooks (pool.deliver parcel) :=
  pool.sameBooks_modify parcel.worker fun _ => rfl

theorem sameBooks_poll (pool : Pool) (handle : Handle) (waker : Nat) :
    pool.SameBooks (pool.poll handle waker).1 := by
  rw [Pool.poll]
  cases found : pool.completions[handle.completion]? with
  | none => exact .refl pool
  | some completion =>
    obtain ⟨within, _⟩ := Array.getElem?_eq_some_iff.mp found
    refine ⟨fun _ => rfl, fun other => ?_, Array.size_setIfInBounds, rfl, rfl⟩
    show ((pool.completions.setIfInBounds handle.completion _)[other]?).bind Completion.result = _
    rw [Array.getElem?_setIfInBounds, Pool.result?]
    by_cases is : handle.completion = other
    · rw [if_pos is, if_pos within, ← is, found]
      exact completion.result_poll waker
    · rw [if_neg is]

theorem books?_setWorker (pool : Pool) (within : index < pool.workers.size) (worker : Worker)
    (other : Nat) : (pool.setWorker index worker).books? other =
      if other = index then some worker.books else pool.books? other := by
  show (pool.workers.setIfInBounds index worker)[other]?.map Worker.books = _
  rw [Array.getElem?_setIfInBounds]
  by_cases is : other = index
  · rw [if_pos is.symm, if_pos within, if_pos is]
    rfl
  · rw [if_neg (Ne.symm is), if_neg is]
    rfl

theorem result?_fill (pool : Pool) (completion other : Nat) (outcome : Outcome) :
    (pool.fill completion outcome).result? other =
      if other = completion ∧ completion < pool.completions.size then some outcome
      else pool.result? other := by
  rw [fill]
  cases found : pool.completions[completion]? with
  | none =>
    have beyond := Array.getElem?_eq_none_iff.mp found
    rw [if_neg fun both => Nat.not_lt.mpr beyond both.2]
  | some slot =>
    obtain ⟨within, _⟩ := Array.getElem?_eq_some_iff.mp found
    show ((pool.completions.setIfInBounds completion _)[other]?).bind Completion.result = _
    rw [Array.getElem?_setIfInBounds]
    by_cases is : other = completion
    · rw [if_pos is.symm, if_pos within, if_pos ⟨is, within⟩]
      rfl
    · rw [if_neg (Ne.symm is), if_neg fun both => is both.1]
      rfl

theorem size_fill (pool : Pool) (completion : Nat) (outcome : Outcome) :
    (pool.fill completion outcome).completions.size = pool.completions.size := by
  rw [fill]
  cases pool.completions[completion]? with
  | none => rfl
  | some slot => exact Array.size_setIfInBounds

/-- Mail is not in the books. -/
theorem OnlyMailed.books? {apart : Nat → Prop} (mailed : pool.OnlyMailed apart next) {other : Nat}
    (along : ¬ apart other) : next.books? other = pool.books? other := by
  rw [Pool.books?, Pool.books?]
  cases there : next.workers[other]? with
  | none =>
    have beyond := Array.getElem?_eq_none_iff.mp there
    rw [Array.getElem?_eq_none_iff.mpr (mailed.size ▸ beyond)]
  | some later =>
    obtain ⟨worker, present, ⟨_, rfl⟩, _⟩ := mailed.each other along later there
    rw [present]
    rfl

/-- Where one thread has come to another state, its books are others at most. -/
theorem UpdatesThread.turned {after : Worker} {nextId : TaskId} {filled : Option (Nat × Outcome)}
    (updates : pool.UpdatesThread index after nextId filled next) :
    pool.Turned index after.books filled next where
  books := fun other => by
    by_cases is : other = index
    · rw [if_pos is, is, books?, updates.own]
      rfl
    · rw [if_neg is, updates.others.books? is]
  results := fun other => by
    rw [result?, updates.completions]
    cases filled with
    | none => rfl
    | some given => exact pool.result?_fill given.1 other given.2
  stopping := updates.others.stopping
  size := updates.others.size
  completions := by
    rw [updates.completions]
    cases filled with
    | none => rfl
    | some given => exact pool.size_fill given.1 given.2

/-- What has no outcome afterwards had none before, and it was not filled. -/
theorem Turned.unfilled {filled : Option (Nat × Outcome)} {completion : Nat}
    (turned : pool.Turned index books filled next) (below : completion < pool.completions.size)
    (missing : next.result? completion = none) :
    pool.result? completion = none ∧ ∀ outcome, filled ≠ some (completion, outcome) := by
  have results := turned.results completion
  rw [missing] at results
  cases filled with
  | none => exact ⟨results.symm, nofun⟩
  | some given =>
    simp only at results
    split at results
    · exact absurd results nofun
    · rename_i other
      refine ⟨results.symm, fun outcome is => other ?_⟩
      rw [Option.some.inj is]
      exact ⟨rfl, below⟩

end Pool

/-- A stride that no crash breaks off is a turn of the books. -/
theorem Stride.turn {pool : Pool} {index : Nat} {worker after : Worker} {nextId : TaskId}
    {deed : Option Pool.Deed} (stride : Stride pool index worker after nextId deed)
    (sound : after.fails = false) :
    Books.Turn pool.stopping worker.books after.books (deed.bind Pool.Deed.filled?) := by
  cases stride with
  | looks phase => exact .look phase
  | receives phase empty => exact .receive phase empty
  | takesIn phase next => exact .takeIn phase next
  | ticks phase => exact .tick phase _ _
  | goesOn phase => exact .counted phase
  | skips phase kept => exact .skip phase kept
  | countsOff phase promised => exact .countOff phase promised
  | fills phase => exact .fill phase
  | waits phase => exact .wake (Or.inl phase)
  | wakes phase => exact .wake (Or.inr phase)
  | drains phase next => exact .drain phase next
  | drained phase empty => exact .drained phase empty
  | closes phase => exact .close phase
  | crashes => exact absurd sound nofun

/-- A step of a thread that no crash stops is a turn of its books, and changes no others. -/
theorem Pool.turned_step {pool next : Pool} {index : Nat} {worker : Worker}
    (present : pool.workers[index]? = some worker) (steps : pool.step index = some next)
    (sound : next.workers[index]?.map Worker.fails ≠ some true) :
    ∃ books filled, pool.Turned index books filled next ∧
      Books.Turn pool.stopping worker.books books filled := by
  obtain ⟨after, _, stride, updates⟩ := stridesTo_of_step present steps
  rw [updates.own] at sound
  have goesOn : after.fails = false :=
    eq_false_of_ne_true fun fails => sound (congrArg some fails)
  exact ⟨after.books, _, updates.turned, stride.turn goesOn⟩

end TaskMachine
