/-
A pool that many use at once. Whoever spawns a task looks first whether the pool
shuts down, and only then takes hold of the list of the threads, picks one, sends
the task to it and gives it its token, before it lets go of the list and has a
handle. Whoever shuts the pool down raises the flag first, and then takes the
list away, as soon as nobody holds it; it gives every thread its token and waits
for one after another to stop. Whoever finds that a shutdown has begun leaves it
at that. In between the threads make their steps, which no crash is to stop.

Each of these is an act by itself, and the acts come in any order. When the
threads have all stopped, the tasks have outcomes but for those that were sent
too late: to a thread that had already seen that no task was left to refuse. The
list was still there for one who had looked before the flag was raised, the
thread was still open, and nobody ever answers.
-/

import TaskMachine.Proofs.Pool.Debts

namespace TaskMachine

/-- Sends a task to a thread, as `dispatch` does when it has picked one. -/
def Pool.dispatchTo (pool : Pool) (index : Nat) (function : Function) : Pool × Option Handle :=
  match pool.workers[index]? with
  | none => (pool, none)
  | some worker =>
    let id := pool.nextId
    let counted := { pool with nextId := id.next }
    if worker.isOpen then
      let (mailroom, mailbox) := worker.scheduler.mailroom.addInbox id
      let completion := pool.completions.size
      let told := { worker with
        scheduler := { worker.scheduler with mailroom }
        commands := worker.commands ++ [⟨id, function, mailbox, completion⟩] }
      ({ counted with completions := pool.completions.push .empty }.setWorker index told,
        some ⟨id, index, mailbox, completion⟩)
    else (counted, none)

/-- To send a task is to send it to the least busy thread. -/
theorem Pool.dispatch_eq (pool : Pool) (function : Function) : pool.dispatch function =
    if pool.listed then
      match pool.leastBusy with
      | none => (pool, none)
      | some index => pool.dispatchTo index function
    else (pool, none) := by
  rw [Pool.dispatch]
  by_cases listed : pool.listed = true
  · rw [if_neg (by simp [listed]), if_pos listed]
    cases pool.leastBusy <;> rfl
  · rw [if_pos (by simp [listed]), if_neg listed]

/-- A task was sent to a thread that is open. It has a completion of its own, which has no outcome,
and no other books have changed. -/
structure Pool.Told (pool : Pool) (index : Nat) (worker : Worker) (handle : Handle) (next : Pool) :
    Prop where
  isOpen : worker.isOpen = true
  fresh : handle.completion = pool.completions.size
  books : ∃ command : Command, command.completion = handle.completion ∧
    ∀ other, next.books? other =
      if other = index then
        some { worker.books with commands := worker.commands ++ [command] }
      else pool.books? other
  results : ∀ completion, next.result? completion = pool.result? completion
  completions : next.completions.size = pool.completions.size + 1
  stopping : next.stopping = pool.stopping

/-- A task that is sent is told to the thread, or nothing comes of it. -/
theorem Pool.dispatchTo_told {pool next : Pool} {index : Nat} {worker : Worker}
    {function : Function} {answer : Option Handle} (present : pool.workers[index]? = some worker)
    (sends : pool.dispatchTo index function = (next, answer)) :
    match answer with
    | some handle => pool.Told index worker handle next
    | none => pool.SameBooks next := by
  obtain ⟨within, _⟩ := Array.getElem?_eq_some_iff.mp present
  simp only [Pool.dispatchTo, present] at sends
  split at sends
  · rename_i isOpen
    obtain ⟨rfl, rfl⟩ := Prod.mk.inj sends
    refine ⟨isOpen, rfl, ⟨⟨pool.nextId, function,
        (worker.scheduler.mailroom.addInbox pool.nextId).2, pool.completions.size⟩, rfl,
      fun other => ?_⟩, fun completion => ?_, Array.size_push _, rfl⟩
    · exact Pool.books?_setWorker _ within _ other
    · show ((pool.completions.push .empty)[completion]?).bind Completion.result = _
      rw [Array.getElem?_push, Pool.result?]
      split
      · rename_i is
        rw [is, Array.getElem?_eq_none (Nat.le_refl _)]
        rfl
      · rfl
  · obtain ⟨rfl, rfl⟩ := Prod.mk.inj sends
    exact ⟨fun _ => rfl, fun _ => rfl, rfl, rfl, rfl⟩

/-- How far somebody is who spawns a task. -/
inductive Errand.Progress where
  /-- It is about to look whether the pool shuts down. -/
  | asked
  /-- It has seen no shutdown. -/
  | looked
  /-- It holds the list of the threads. -/
  | holding
  /-- It holds the list, and has sent the task. -/
  | sent (handle : Handle)
  /-- It holds the list, and has given the thread its token. -/
  | told (handle : Handle)
  /-- It has its handle. -/
  | returned (handle : Handle)
  /-- It has learned that the pool shuts down. -/
  | refused
  deriving DecidableEq

/-- What somebody spawns, and how far it is. -/
structure Errand where
  function : Function
  progress : Errand.Progress

/-- How far a shutdown is. -/
inductive Crowd.Stage where
  /-- No shutdown has begun. -/
  | running
  /-- The flag is raised, and the list is not yet taken away. -/
  | begun
  /-- So many threads were given their tokens. -/
  | unparking (count : Nat)
  /-- So many threads have stopped for sure. -/
  | joining (count : Nat)
  /-- All threads have stopped. -/
  | finished
  deriving DecidableEq

/-- A pool with all who have to do with it. -/
structure Crowd where
  pool : Pool
  errands : List Errand
  /-- Who holds the list of the threads. -/
  holder : Option Nat
  stage : Crowd.Stage
  /-- The completions of the tasks that were sent to a thread when it was about to close. -/
  late : List Nat

/-- What can happen. -/
inductive Act where
  /-- Somebody begins to spawn a task. -/
  | ask (function : Function)
  /-- Somebody goes on, and the thread is the one it picks if it sends the task. -/
  | proceed (errand thread : Nat)
  /-- The shutdown goes on, or one begins. -/
  | shutDown
  /-- A thread makes a step. -/
  | turn (thread : Nat)
  /-- Time goes by. -/
  | elapse (duration : Nat)
  /-- Somebody sends a message to a task. -/
  | deliver (parcel : Parcel)
  /-- Somebody asks for an outcome, and leaves a waker. -/
  | poll (handle : Handle) (waker : Nat)

namespace Crowd

/-- A pool that nobody has used. -/
def start (threads : Nat) (config : Config) (patience : Nat)
    (respond : List Notice → List Parcel) : Crowd :=
  { pool := { Pool.new threads config patience with respond }
    errands := []
    holder := none
    stage := .running
    late := [] }

/-- Somebody who spawns a task is further. -/
def setProgress (crowd : Crowd) (errand : Nat) (progress : Errand.Progress) : Crowd :=
  { crowd with errands := crowd.errands.modify errand fun errand => { errand with progress } }

/-- Somebody who holds the list sends a task to a thread. -/
def dispatch (crowd : Crowd) (errand thread : Nat) (function : Function) : Option Crowd := do
  let worker ← crowd.pool.workers[thread]?
  match crowd.pool.dispatchTo thread function with
  | (pool, some handle) =>
    let late := match worker.phase with
      | .closing => handle.completion :: crowd.late
      | _ => crowd.late
    some { crowd.setProgress errand (.sent handle) with pool, late }
  | (pool, none) => some { crowd.setProgress errand .refused with pool, holder := none }

/-- Somebody who spawns a task goes on. -/
def proceed (crowd : Crowd) (number thread : Nat) : Option Crowd := do
  let errand ← crowd.errands[number]?
  match errand.progress with
  | .asked =>
    some (crowd.setProgress number (if crowd.pool.stopping then .refused else .looked))
  | .looked =>
    if crowd.holder.isNone then
      some { crowd.setProgress number .holding with holder := some number }
    else none
  | .holding =>
    if crowd.pool.listed then crowd.dispatch number thread errand.function
    else some { crowd.setProgress number .refused with holder := none }
  | .sent handle =>
    some { crowd.setProgress number (.told handle) with pool := crowd.pool.unpark handle.worker }
  | .told handle => some { crowd.setProgress number (.returned handle) with holder := none }
  | .returned _ | .refused => none

/-- Whoever shuts the pool down goes on. -/
def shutDown (crowd : Crowd) : Option Crowd :=
  match crowd.stage with
  | .running => some { crowd with pool := crowd.pool.beginShutdown, stage := .begun }
  | .begun =>
    if crowd.holder.isNone then
      some { crowd with pool := crowd.pool.unlist, stage := .unparking 0 }
    else none
  | .unparking count =>
    if count < crowd.pool.workers.size then
      some { crowd with pool := crowd.pool.unpark count, stage := .unparking (count + 1) }
    else some { crowd with stage := .joining 0 }
  | .joining count =>
    match crowd.pool.workers[count]? with
    | none => some { crowd with stage := .finished }
    | some worker =>
      match worker.phase with
      | .stopped => some { crowd with stage := .joining (count + 1) }
      | _ => none
  | .finished => none

/-- A thread makes a step, if it can make one and no crash stops it. -/
def turn (crowd : Crowd) (thread : Nat) : Option Crowd := do
  let pool ← crowd.pool.step thread
  if pool.workers[thread]?.map Worker.fails = some true then none else some { crowd with pool }

/-- What is so after an act, if it can happen. -/
def act (crowd : Crowd) : Act → Option Crowd
  | .ask function => some { crowd with errands := crowd.errands ++ [⟨function, .asked⟩] }
  | .proceed errand thread => crowd.proceed errand thread
  | .shutDown => crowd.shutDown
  | .turn thread => crowd.turn thread
  | .elapse duration =>
    some { crowd with pool := { crowd.pool with clock := crowd.pool.clock + duration } }
  | .deliver parcel => some { crowd with pool := crowd.pool.deliver parcel }
  | .poll handle waker => some { crowd with pool := (crowd.pool.poll handle waker).1 }

/-- What is so after some acts, if they can happen. -/
def run (crowd : Crowd) (acts : List Act) : Option Crowd := acts.foldlM act crowd

/-- What can come of a pool that nobody has used. -/
inductive Reachable : Crowd → Prop
  | start (threads : Nat) (config : Config) (patience : Nat)
      (respond : List Notice → List Parcel) : Reachable (start threads config patience respond)
  | act {crowd next : Crowd} {act : Act} (reachable : Reachable crowd)
      (acts : crowd.act act = some next) : Reachable next

/-! ### What an act can do -/

/-- How somebody goes on who spawns a task, if it does not send it. -/
inductive Follows (stopping : Bool) : Errand.Progress → Errand.Progress → Prop
  | look : Follows stopping .asked (if stopping then .refused else .looked)
  | hold : Follows stopping .looked .holding
  | giveUp : Follows stopping .holding .refused
  | tell (handle : Handle) : Follows stopping (.sent handle) (.told handle)
  | letGo (handle : Handle) : Follows stopping (.told handle) (.returned handle)

/-- Whether a thread is known to have stopped. -/
def Stage.HasJoined : Stage → Nat → Prop
  | joining count, thread => thread < count
  | finished, _ => True
  | _, _ => False

/-- What an act can do. -/
inductive Effect (crowd : Crowd) : Crowd → Prop
  | asks (function : Function) :
      Effect crowd { crowd with errands := crowd.errands ++ [⟨function, .asked⟩] }
  | proceeds {number : Nat} {errand : Errand} {progress : Errand.Progress} {pool : Pool}
      (holder : Option Nat) (present : crowd.errands[number]? = some errand)
      (follows : Follows crowd.pool.stopping errand.progress progress)
      (same : crowd.pool.SameBooks pool) :
      Effect crowd { crowd.setProgress number progress with pool, holder }
  | sends {number thread : Nat} {errand : Errand} {worker : Worker} {handle : Handle} {pool : Pool}
      (present : crowd.errands[number]? = some errand) (holding : errand.progress = .holding)
      (working : crowd.pool.workers[thread]? = some worker)
      (told : crowd.pool.Told thread worker handle pool) :
      Effect crowd { crowd.setProgress number (.sent handle) with
        pool
        late := match worker.phase with
          | .closing => handle.completion :: crowd.late
          | _ => crowd.late }
  | begins (running : crowd.stage = .running) :
      Effect crowd { crowd with pool := crowd.pool.beginShutdown, stage := .begun }
  | closes {stage : Stage} {pool : Pool} (begun : crowd.stage ≠ .running)
      (goesOn : stage ≠ .running) (same : crowd.pool.SameBooks pool)
      (joined : ∀ thread worker, stage.HasJoined thread →
        crowd.pool.workers[thread]? = some worker →
          crowd.stage.HasJoined thread ∨ worker.phase = .stopped) :
      Effect crowd { crowd with pool, stage }
  | turns {thread : Nat} {worker : Worker} {books : Books} {filled : Option (Nat × Outcome)}
      {pool : Pool} (working : crowd.pool.workers[thread]? = some worker)
      (turned : crowd.pool.Turned thread books filled pool)
      (turn : Books.Turn crowd.pool.stopping worker.books books filled) :
      Effect crowd { crowd with pool }
  | other {pool : Pool} (same : crowd.pool.SameBooks pool) : Effect crowd { crowd with pool }

variable {crowd next : Crowd} {number thread : Nat} {errand : Errand}

theorem mem_setProgress {progress : Errand.Progress} {found : Errand}
    (member : found ∈ (crowd.setProgress number progress).errands) :
    found ∈ crowd.errands ∨ found.progress = progress := by
  obtain ⟨place, there⟩ := List.mem_iff_getElem?.mp member
  rw [setProgress, List.getElem?_modify] at there
  obtain ⟨before, present, rfl⟩ := Option.map_eq_some_iff.mp there
  split
  · exact Or.inr rfl
  · exact Or.inl (List.mem_iff_getElem?.mpr ⟨place, present⟩)

theorem effect_dispatch (present : crowd.errands[number]? = some errand)
    (holding : errand.progress = .holding)
    (sends : crowd.dispatch number thread errand.function = some next) : Effect crowd next := by
  obtain ⟨worker, working, goes⟩ := Option.bind_eq_some_iff.mp sends
  have known {pool : Pool} {answer : Option Handle}
      (sent : crowd.pool.dispatchTo thread errand.function = (pool, answer)) :=
    Pool.dispatchTo_told working sent
  split at goes
  · rename_i pool handle sent
    obtain rfl := Option.some.inj goes
    exact .sends present holding working (known sent)
  · rename_i pool back
    obtain rfl := Option.some.inj goes
    exact .proceeds none present (holding ▸ .giveUp) (known back)

theorem effect_proceed (proceeds : crowd.proceed number thread = some next) :
    Effect crowd next := by
  obtain ⟨errand, present, goes⟩ := Option.bind_eq_some_iff.mp proceeds
  have same := Pool.SameBooks.refl crowd.pool
  cases progress : errand.progress with
  | asked =>
    simp only [progress] at goes
    obtain rfl := Option.some.inj goes
    exact .proceeds crowd.holder present (progress ▸ .look) same
  | looked =>
    simp only [progress] at goes
    split at goes
    · obtain rfl := Option.some.inj goes
      exact .proceeds (some number) present (progress ▸ .hold) same
    · exact absurd goes nofun
  | holding =>
    simp only [progress] at goes
    split at goes
    · exact effect_dispatch present progress goes
    · obtain rfl := Option.some.inj goes
      exact .proceeds none present (progress ▸ .giveUp) same
  | sent handle =>
    simp only [progress] at goes
    obtain rfl := Option.some.inj goes
    exact .proceeds crowd.holder present (progress ▸ .tell handle)
      (crowd.pool.sameBooks_unpark handle.worker)
  | told handle =>
    simp only [progress] at goes
    obtain rfl := Option.some.inj goes
    exact .proceeds none present (progress ▸ .letGo handle) same
  | returned handle =>
    simp only [progress] at goes
    exact absurd goes nofun
  | refused =>
    simp only [progress] at goes
    exact absurd goes nofun

theorem effect_shutDown (closes : crowd.shutDown = some next) : Effect crowd next := by
  rw [Crowd.shutDown] at closes
  cases stage : crowd.stage with
  | running =>
    simp only [stage] at closes
    obtain rfl := Option.some.inj closes
    exact .begins stage
  | begun =>
    simp only [stage] at closes
    split at closes
    · obtain rfl := Option.some.inj closes
      exact .closes (stage ▸ nofun) nofun ⟨fun _ => rfl, fun _ => rfl, rfl, rfl, rfl⟩
        fun _ _ joined => joined.elim
    · exact absurd closes nofun
  | unparking count =>
    simp only [stage] at closes
    split at closes
    · obtain rfl := Option.some.inj closes
      exact .closes (stage ▸ nofun) nofun (crowd.pool.sameBooks_unpark count)
        fun _ _ joined => joined.elim
    · obtain rfl := Option.some.inj closes
      exact .closes (stage ▸ nofun) nofun (.refl crowd.pool)
        fun _ _ joined => absurd joined (Nat.not_lt_zero _)
  | joining count =>
    simp only [stage] at closes
    cases present : crowd.pool.workers[count]? with
    | none =>
      simp only [present] at closes
      obtain rfl := Option.some.inj closes
      refine .closes (stage ▸ nofun) nofun (.refl crowd.pool) fun thread worker _ there => Or.inl ?_
      obtain ⟨within, _⟩ := Array.getElem?_eq_some_iff.mp there
      rw [stage]
      exact Nat.lt_of_lt_of_le within (Array.getElem?_eq_none_iff.mp present)
    | some worker =>
      simp only [present] at closes
      split at closes
      · rename_i stopped
        obtain rfl := Option.some.inj closes
        refine .closes (stage ▸ nofun) nofun (.refl crowd.pool) fun thread found joined there => ?_
        rcases Nat.lt_succ_iff_lt_or_eq.mp joined with before | rfl
        · exact Or.inl (stage ▸ before)
        · rw [present] at there
          exact Or.inr (Option.some.inj there ▸ stopped)
      · exact absurd closes nofun
  | finished =>
    simp only [stage] at closes
    exact absurd closes nofun

theorem effect_turn (turns : crowd.turn thread = some next) : Effect crowd next := by
  obtain ⟨pool, steps, goes⟩ := Option.bind_eq_some_iff.mp turns
  split at goes
  · exact absurd goes (Option.some_ne_none next).symm
  · rename_i sound
    obtain rfl := Option.some.inj goes
    cases working : crowd.pool.workers[thread]? with
    | none =>
      rw [Pool.step, working] at steps
      exact absurd steps (Option.some_ne_none pool).symm
    | some worker =>
      obtain ⟨books, filled, turned, turn⟩ := Pool.turned_step working steps sound
      exact .turns working turned turn

/-- An act does nothing else. -/
theorem effect_act {act : Act} (acts : crowd.act act = some next) : Effect crowd next := by
  cases act with
  | ask function => exact Option.some.inj acts ▸ .asks function
  | proceed errand thread => exact effect_proceed acts
  | shutDown => exact effect_shutDown acts
  | turn thread => exact effect_turn acts
  | elapse duration =>
    exact Option.some.inj acts ▸ .other ⟨fun _ => rfl, fun _ => rfl, rfl, rfl, rfl⟩
  | deliver parcel => exact Option.some.inj acts ▸ .other (crowd.pool.sameBooks_deliver parcel)
  | poll handle waker =>
    exact Option.some.inj acts ▸ .other (crowd.pool.sameBooks_poll handle waker)

/-! ### One at a time -/

/-- Somebody comes last who spawns a task and is so far. -/
def joining (crowd : Crowd) (function : Function) (progress : Errand.Progress) : Crowd :=
  { crowd with errands := crowd.errands ++ [⟨function, progress⟩] }

theorem setProgress_joining (crowd : Crowd) (function : Function)
    (progress after : Errand.Progress) :
    (crowd.joining function progress).setProgress crowd.errands.length after =
      crowd.joining function after := by
  simp [joining, setProgress, List.modify_eq_take_drop]

/-- How somebody goes on who comes last. -/
theorem proceed_joining (crowd : Crowd) (function : Function) (progress : Errand.Progress)
    (thread : Nat) : (crowd.joining function progress).proceed crowd.errands.length thread =
      match progress with
      | .asked => some (crowd.joining function (if crowd.pool.stopping then .refused else .looked))
      | .looked =>
        if crowd.holder.isNone then
          some (({ crowd with holder := some crowd.errands.length } : Crowd).joining function
            .holding)
        else none
      | .holding =>
        if crowd.pool.listed then
          (crowd.joining function progress).dispatch crowd.errands.length thread function
        else some (({ crowd with holder := none } : Crowd).joining function .refused)
      | .sent handle =>
        some (({ crowd with pool := crowd.pool.unpark handle.worker } : Crowd).joining function
          (.told handle))
      | .told handle =>
        some (({ crowd with holder := none } : Crowd).joining function (.returned handle))
      | .returned _ | .refused => none := by
  have present : (crowd.joining function progress).errands[crowd.errands.length]? =
      some ⟨function, progress⟩ := List.getElem?_concat_length
  rw [proceed, present]
  cases progress <;>
    simp only [Option.bind_eq_bind, Option.bind_some, setProgress_joining] <;> rfl

/-- The acts of somebody who spawns a task while nothing else happens, and nobody holds the list,
are what it is to spawn one. -/
theorem exists_run_spawn (free : crowd.holder = none) {index : Nat} {worker : Worker}
    (least : crowd.pool.leastBusy = some index)
    (working : crowd.pool.workers[index]? = some worker) (function : Function) :
    ∃ steps last, crowd.run
        (.ask function :: List.replicate steps (.proceed crowd.errands.length index)) = some last ∧
      last.pool = (crowd.pool.spawn function).1 ∧ last.holder = none ∧
      last.errands = crowd.errands ++ [⟨function,
        match (crowd.pool.spawn function).2 with
        | some handle => .returned handle
        | none => .refused⟩] := by
  have further {base middle last : Crowd} {steps : Nat}
      (proceeds : base.proceed crowd.errands.length index = some middle)
      (runs : middle.run (List.replicate steps (.proceed crowd.errands.length index)) = some last) :
      base.run (List.replicate (steps + 1) (.proceed crowd.errands.length index)) = some last :=
    Option.bind_eq_some_iff.mpr ⟨middle, proceeds, runs⟩
  have looks : (crowd.joining function .asked).proceed crowd.errands.length index =
      some (crowd.joining function (if crowd.pool.stopping then .refused else .looked)) :=
    proceed_joining crowd function .asked index
  by_cases stopping : crowd.pool.stopping = true
  · rw [if_pos stopping] at looks
    rw [Pool.spawn, if_pos stopping]
    exact ⟨1, _, further looks rfl, rfl, free, rfl⟩
  rw [if_neg stopping] at looks
  have holds : (crowd.joining function .looked).proceed crowd.errands.length index =
      some (({ crowd with holder := some crowd.errands.length } : Crowd).joining function
        .holding) :=
    (proceed_joining crowd function .looked index).trans (if_pos (by rw [free]; rfl))
  have sends := proceed_joining { crowd with holder := some crowd.errands.length } function .holding
    index
  rw [Pool.spawn, if_neg stopping, Pool.dispatch_eq, least]
  by_cases listed : crowd.pool.listed = true
  · rw [if_pos listed]
    dsimp only
    have picks : (({ crowd with holder := some crowd.errands.length } : Crowd).joining function
        .holding).pool.workers[index]? = some worker := working
    simp only [listed, if_true, dispatch, picks, Option.bind_eq_bind, Option.bind_some] at sends
    have same : (({ crowd with holder := some crowd.errands.length } : Crowd).joining function
      .holding).pool = crowd.pool := rfl
    rw [same] at sends
    cases sent : crowd.pool.dispatchTo index function with
    | mk pool answer =>
      rw [sent] at sends
      cases answer with
      | none =>
        simp only [setProgress_joining] at sends
        exact ⟨3, _, further looks (further holds (further sends rfl)), rfl, rfl, rfl⟩
      | some handle =>
        simp only [setProgress_joining] at sends
        -- The number of a completion that is late plays no part for what is done next.
        obtain ⟨late, sends⟩ : ∃ late, (({ crowd with holder := some crowd.errands.length } :
            Crowd).joining function .holding).proceed crowd.errands.length index =
              some (({ crowd with pool, holder := some crowd.errands.length, late } : Crowd).joining
                function (.sent handle)) := ⟨_, sends⟩
        have tells := proceed_joining
          { crowd with pool, holder := some crowd.errands.length, late } function (.sent handle)
          index
        have letsGo := proceed_joining
          { crowd with
            pool := pool.unpark handle.worker
            holder := some crowd.errands.length
            late } function (.told handle) index
        exact ⟨5, _, further looks (further holds (further sends (further tells (further letsGo
          rfl)))), rfl, rfl, rfl⟩
  · simp only [listed] at sends ⊢
    exact ⟨3, _, further looks (further holds (further sends rfl)), rfl, rfl, rfl⟩

theorem run_append (crowd : Crowd) (acts more : List Act) :
    crowd.run (acts ++ more) = (crowd.run acts).bind fun middle => middle.run more :=
  List.foldlM_append

theorem size_workers_unparked (pool : Pool) (count : Nat) :
    ((List.range count).foldl Pool.unpark pool).workers.size = pool.workers.size := by
  induction count with
  | zero => rfl
  | succ count inductionHypothesis =>
    rw [List.range_succ, List.foldl_append]
    exact Array.size_modify.trans inductionHypothesis

/-- The acts of somebody who shuts the pool down while nothing else happens, up to where it begins
to wait, are what it is to shut it down. -/
theorem run_shutDown (running : crowd.stage = .running) (free : crowd.holder = none) :
    crowd.run (List.replicate (crowd.pool.workers.size + 2) .shutDown) = some { crowd with
      pool := crowd.pool.beginShutdown.unlist.unparkAll
      stage := .unparking crowd.pool.workers.size } := by
  have unparks (base : Crowd) (stage : base.stage = .unparking 0) (count : Nat)
      (within : count ≤ base.pool.workers.size) :
      base.run (List.replicate count .shutDown) = some { base with
        pool := (List.range count).foldl Pool.unpark base.pool
        stage := .unparking count } := by
    induction count with
    | zero => rw [← stage]; rfl
    | succ count inductionHypothesis =>
      rw [List.replicate_succ', run_append, inductionHypothesis (Nat.le_of_lt within),
        Option.bind_some, List.range_succ, List.foldl_append]
      have more : count < ((List.range count).foldl Pool.unpark base.pool).workers.size := by
        rw [size_workers_unparked]
        exact within
      show (if count < ((List.range count).foldl Pool.unpark base.pool).workers.size then _
        else _ : Option Crowd).bind _ = _
      rw [if_pos more]
      rfl
  have begins : crowd.shutDown =
      some { crowd with pool := crowd.pool.beginShutdown, stage := .begun } := by
    rw [shutDown, running]
  have unlists : ({ crowd with pool := crowd.pool.beginShutdown, stage := .begun } :
      Crowd).shutDown = some { crowd with
        pool := crowd.pool.beginShutdown.unlist
        stage := .unparking 0 } := by
    simp only [shutDown, free]
    rfl
  exact Option.bind_eq_some_iff.mpr ⟨_, begins, Option.bind_eq_some_iff.mpr ⟨_, unlists,
    unparks { crowd with pool := crowd.pool.beginShutdown.unlist, stage := .unparking 0 } rfl
      crowd.pool.workers.size (Nat.le_refl _)⟩⟩

end Crowd

end TaskMachine
