/-
What is done in a pool, written down as it happens. Threads make their steps, in
whatever order, and others spawn tasks, send messages, shut the pool down and ask
for outcomes, with a waker or without. To wait for an outcome is to ask until
there is one. A step can do one thing with a promise or a completion at most:
make a promise for a task that is taken in, count one off, or fill a completion;
and this, and what was answered to whom, is the record.

More can happen here than in a `Crowd`: tasks are sent to any thread at any time,
and threads can be stopped by a crash. So what holds of every record holds in
every crowd; `Crowd.Reachable.recorded` says so.
-/

import TaskMachine.Proofs.Pool.Crowd
import TaskMachine.Proofs.Pool.Strides

namespace TaskMachine

namespace Pool

/-! ### What a deed is about -/

/-- The completion that something is done with. -/
def Deed.completion : Deed → Nat
  | took _ _ completion | counted _ completion | completed completion _ _
  | asked completion _ _ => completion

/-- The completion that is filled or asked for. -/
def Deed.slot? : Deed → Option Nat
  | completed completion _ _ | asked completion _ _ => some completion
  | took .. | counted .. => none

/-- The wakers that are called. -/
def Deed.called : Deed → List Nat
  | completed _ _ wakers => wakers
  | _ => []

theorem Deed.completion_of_slot? {deed : Deed} {completion : Nat}
    (named : deed.slot? = some completion) : deed.completion = completion := by
  cases deed with
  | took | counted => exact absurd named nofun
  | completed | asked => exact Option.some.inj named

/-! ### What is recorded -/

/-- What can happen in a pool. -/
inductive Happening where
  /-- A thread makes a step. -/
  | turn (thread : Nat)
  /-- A task is sent to a thread. -/
  | send (thread : Nat) (function : Function)
  /-- A thread is given its token. -/
  | unpark (thread : Nat)
  /-- Somebody sends a message to a task. -/
  | deliver (parcel : Parcel)
  /-- Time goes by. -/
  | elapse (duration : Nat)
  /-- The threads can see from now on that the pool shuts down. -/
  | beginShutdown
  /-- The holders forget the threads. -/
  | unlist
  /-- Somebody asks for an outcome, and leaves a waker if there is none yet. -/
  | poll (handle : Handle) (waker : Nat)
  /-- Somebody looks whether there is an outcome. -/
  | look (handle : Handle)

/-- What is done if something happens, and the pool afterwards. Nobody asks for the outcome of a
task that was never sent. -/
def happen (pool : Pool) : Happening → Option (Option Deed × Pool)
  | .turn thread => do
    let worker ← pool.workers[thread]?
    let next ← pool.step thread
    some (pool.nextDeed thread worker, next)
  | .send thread function => some (none, (pool.dispatchTo thread function).1)
  | .unpark thread => some (none, pool.unpark thread)
  | .deliver parcel => some (none, pool.deliver parcel)
  | .elapse duration => some (none, { pool with clock := pool.clock + duration })
  | .beginShutdown => some (none, pool.beginShutdown)
  | .unlist => some (none, pool.unlist)
  | .poll handle waker =>
    if handle.completion < pool.completions.size then
      some (some (.asked handle.completion (some waker) (pool.poll handle waker).2),
        (pool.poll handle waker).1)
    else none
  | .look handle =>
    if handle.completion < pool.completions.size then
      some (some (.asked handle.completion none (pool.result? handle.completion)), pool)
    else none

/-- What is done if some things happen, and the pool afterwards. -/
def happenAll (pool : Pool) : List Happening → Option (List Deed × Pool)
  | [] => some ([], pool)
  | happening :: rest => do
    let (deed, next) ← pool.happen happening
    let (deeds, last) ← next.happenAll rest
    some (deed.toList ++ deeds, last)

/-- What can come of a pool, with the record of what was done. -/
inductive Recorded : List Deed → Pool → Prop
  | start (threads : Nat) (config : Config) (patience : Nat)
      (respond : List Notice → List Parcel) :
      Recorded [] { Pool.new threads config patience with respond }
  | happen {deeds : List Deed} {pool next : Pool} {happening : Happening} {deed : Option Deed}
      (recorded : Recorded deeds pool) (happens : pool.happen happening = some (deed, next)) :
      Recorded (deeds ++ deed.toList) next

variable {deeds : List Deed} {pool next : Pool}

/-! ### Records -/

theorem Recorded.happenAll {happenings : List Happening} {more : List Deed}
    (recorded : Recorded deeds pool) (happen : pool.happenAll happenings = some (more, next)) :
    Recorded (deeds ++ more) next := by
  induction happenings generalizing deeds pool more with
  | nil =>
    obtain ⟨rfl, rfl⟩ := Prod.mk.inj (Option.some.inj happen)
    rwa [List.append_nil]
  | cons happening rest inductionHypothesis =>
    obtain ⟨⟨first, middle⟩, happens, goesOn⟩ := Option.bind_eq_some_iff.mp happen
    obtain ⟨⟨later, last⟩, happensLater, is⟩ := Option.bind_eq_some_iff.mp goesOn
    obtain ⟨rfl, rfl⟩ := Prod.mk.inj (Option.some.inj is)
    rw [← List.append_assoc]
    exact inductionHypothesis (.happen recorded happens) happensLater

/-! ### What a happening can do -/

end Pool

/-- The thread after a task was sent to it. -/
def Worker.sent (worker : Worker) (mailroom : Mailroom) (command : Command) : Worker :=
  { worker with
    scheduler := { worker.scheduler with mailroom }
    commands := worker.commands ++ [command] }

namespace Pool

variable {pool next : Pool}

/-- What happens in a pool, with what is done then. -/
inductive Happened (pool : Pool) : Option Deed → Pool → Prop
  | turns {thread : Nat} {worker after : Worker} {nextId : TaskId}
      {deed : Option Deed} {next : Pool} (present : pool.workers[thread]? = some worker)
      (stride : Stride pool thread worker after nextId deed)
      (updates : pool.UpdatesThread thread after nextId (deed.bind Deed.filled?) next) :
      Happened pool deed next
  | sends {thread : Nat} {worker : Worker} {mailroom : Mailroom} {command : Command}
      (present : pool.workers[thread]? = some worker) (numbered : command.id = pool.nextId)
      (fresh : command.completion = pool.completions.size) :
      Happened pool none
        ({ pool with
            nextId := pool.nextId.next
            completions := pool.completions.push .empty }.setWorker thread
          (worker.sent mailroom command))
  | polls {completion waker : Nat} {slot : Completion}
      (present : pool.completions[completion]? = some slot) :
      Happened pool (some (.asked completion (some waker) slot.result))
        { pool with
          completions := pool.completions.setIfInBounds completion (slot.poll waker).1 }
  | looks {completion : Nat} {slot : Completion}
      (present : pool.completions[completion]? = some slot) :
      Happened pool (some (.asked completion none slot.result)) pool
  | passes {next : Pool}
      (same : ∀ (thread : Nat) later, next.workers[thread]? = some later →
        ∃ worker, pool.workers[thread]? = some worker ∧ worker.SameButMailroom later)
      (nextId : next.nextId = pool.nextId ∨ next.nextId = pool.nextId.next)
      (completions : next.completions = pool.completions) (called : next.called = pool.called) :
      Happened pool none next

/-- A thread may be sent messages or given its token. -/
theorem happened_onMailroom (pool : Pool) (thread : Nat) (change : Mailroom → Mailroom) :
    pool.Happened none (pool.onMailroom thread change) :=
  .passes (fun _ _ there => same_onMailroom there) (Or.inl rfl) rfl rfl

/-- The threads stay as they are. -/
theorem happened_idly (workers : next.workers = pool.workers)
    (nextId : next.nextId = pool.nextId ∨ next.nextId = pool.nextId.next)
    (completions : next.completions = pool.completions) (called : next.called = pool.called) :
    pool.Happened none next :=
  .passes (fun _ later there => ⟨later, workers ▸ there, .refl later⟩) nextId completions called

/-- A task is sent, or nothing comes of it. -/
theorem happened_dispatchTo (pool : Pool) (thread : Nat) (function : Function) :
    pool.Happened none (pool.dispatchTo thread function).1 := by
  rw [dispatchTo]
  cases present : pool.workers[thread]? with
  | none => exact happened_idly rfl (Or.inl rfl) rfl rfl
  | some worker =>
    dsimp only
    split
    · exact .sends present rfl rfl
    · exact happened_idly rfl (Or.inr rfl) rfl rfl

/-- Nothing else happens. -/
theorem happened {happening : Happening} {done : Option Deed}
    (happens : pool.happen happening = some (done, next)) : pool.Happened done next := by
  cases happening with
  | turn thread =>
    obtain ⟨worker, present, goesOn⟩ := Option.bind_eq_some_iff.mp happens
    obtain ⟨later, steps, is⟩ := Option.bind_eq_some_iff.mp goesOn
    obtain ⟨rfl, rfl⟩ := Prod.mk.inj (Option.some.inj is)
    obtain ⟨_, _, stride, updates⟩ := stridesTo_of_step present steps
    exact .turns present stride updates
  | send thread function =>
    obtain ⟨rfl, rfl⟩ := Prod.mk.inj (Option.some.inj happens)
    exact pool.happened_dispatchTo thread function
  | unpark thread =>
    obtain ⟨rfl, rfl⟩ := Prod.mk.inj (Option.some.inj happens)
    exact pool.happened_onMailroom thread Mailroom.unpark
  | deliver parcel =>
    obtain ⟨rfl, rfl⟩ := Prod.mk.inj (Option.some.inj happens)
    exact pool.happened_onMailroom parcel.worker fun room =>
      room.send parcel.letter.mailbox parcel.letter.message
  | elapse duration =>
    obtain ⟨rfl, rfl⟩ := Prod.mk.inj (Option.some.inj happens)
    exact happened_idly rfl (Or.inl rfl) rfl rfl
  | beginShutdown =>
    obtain ⟨rfl, rfl⟩ := Prod.mk.inj (Option.some.inj happens)
    exact happened_idly rfl (Or.inl rfl) rfl rfl
  | unlist =>
    obtain ⟨rfl, rfl⟩ := Prod.mk.inj (Option.some.inj happens)
    exact happened_idly rfl (Or.inl rfl) rfl rfl
  | poll handle waker =>
    obtain ⟨within, is⟩ := Option.ite_none_right_eq_some.mp happens
    obtain ⟨rfl, rfl⟩ := Prod.mk.inj (Option.some.inj is)
    have present := Array.getElem?_eq_getElem within
    rw [poll, present]
    simp only [Completion.poll_answer]
    exact .polls present
  | look handle =>
    obtain ⟨within, is⟩ := Option.ite_none_right_eq_some.mp happens
    obtain ⟨rfl, rfl⟩ := Prod.mk.inj (Option.some.inj is)
    have present := Array.getElem?_eq_getElem within
    rw [result?, present]
    exact .looks present

/-- The pool is the same, or something has happened in it. -/
def MayBecome (pool next : Pool) : Prop :=
  next = pool ∨ ∃ happening deed, pool.happen happening = some (deed, next)

theorem mayBecome_poll (pool : Pool) (handle : Handle) (waker : Nat) :
    pool.MayBecome (pool.poll handle waker).1 := by
  by_cases within : handle.completion < pool.completions.size
  · exact Or.inr ⟨.poll handle waker, _, if_pos within⟩
  · refine Or.inl ?_
    rw [poll, Array.getElem?_eq_none (Nat.le_of_not_lt within)]

end Pool

namespace Crowd

variable {crowd next : Crowd} {number thread : Nat}

/-! ### What the acts of a crowd do to its pool -/

/-- To send a task is one happening, whether it is taken or not. -/
theorem mayBecome_dispatch {function : Function}
    (sends : crowd.dispatch number thread function = some next) :
    crowd.pool.MayBecome next.pool := by
  obtain ⟨worker, _, goes⟩ := Option.bind_eq_some_iff.mp sends
  refine Or.inr ⟨.send thread function, none, ?_⟩
  rw [Pool.happen]
  split at goes <;>
  · rename_i sent
    obtain rfl := Option.some.inj goes
    rw [sent]

/-- Whoever spawns a task looks and waits, sends it, and gives the token. -/
theorem mayBecome_proceed (proceeds : crowd.proceed number thread = some next) :
    crowd.pool.MayBecome next.pool := by
  obtain ⟨errand, _, goes⟩ := Option.bind_eq_some_iff.mp proceeds
  cases progress : errand.progress with
  | asked | told =>
    simp only [progress] at goes
    obtain rfl := Option.some.inj goes
    exact Or.inl rfl
  | looked =>
    simp only [progress] at goes
    obtain ⟨_, is⟩ := Option.ite_none_right_eq_some.mp goes
    obtain rfl := Option.some.inj is
    exact Or.inl rfl
  | holding =>
    simp only [progress] at goes
    split at goes
    · exact mayBecome_dispatch goes
    · obtain rfl := Option.some.inj goes
      exact Or.inl rfl
  | sent handle =>
    simp only [progress] at goes
    obtain rfl := Option.some.inj goes
    exact Or.inr ⟨.unpark handle.worker, none, rfl⟩
  | returned handle | refused =>
    simp only [progress] at goes
    exact absurd goes nofun

/-- Each stage of a shutdown is a happening, but for the wait for the threads. -/
theorem mayBecome_shutDown (closes : crowd.shutDown = some next) :
    crowd.pool.MayBecome next.pool := by
  rw [shutDown] at closes
  cases stage : crowd.stage with
  | running =>
    simp only [stage] at closes
    obtain rfl := Option.some.inj closes
    exact Or.inr ⟨.beginShutdown, none, rfl⟩
  | begun =>
    simp only [stage] at closes
    obtain ⟨_, is⟩ := Option.ite_none_right_eq_some.mp closes
    obtain rfl := Option.some.inj is
    exact Or.inr ⟨.unlist, none, rfl⟩
  | unparking count =>
    simp only [stage] at closes
    split at closes
    · obtain rfl := Option.some.inj closes
      exact Or.inr ⟨.unpark count, none, rfl⟩
    · obtain rfl := Option.some.inj closes
      exact Or.inl rfl
  | joining count =>
    simp only [stage] at closes
    cases present : crowd.pool.workers[count]? with
    | none =>
      simp only [present] at closes
      obtain rfl := Option.some.inj closes
      exact Or.inl rfl
    | some worker =>
      simp only [present] at closes
      split at closes
      · obtain rfl := Option.some.inj closes
        exact Or.inl rfl
      · exact absurd closes (Option.some_ne_none next).symm
  | finished =>
    simp only [stage] at closes
    exact absurd closes (Option.some_ne_none next).symm

theorem mayBecome_turn (turns : crowd.turn thread = some next) :
    crowd.pool.MayBecome next.pool := by
  obtain ⟨pool, steps, goes⟩ := Option.bind_eq_some_iff.mp turns
  split at goes
  · exact absurd goes nofun
  · obtain rfl := Option.some.inj goes
    obtain ⟨worker, present, _⟩ := Option.bind_eq_some_iff.mp steps
    refine Or.inr ⟨.turn thread, crowd.pool.nextDeed thread worker, ?_⟩
    rw [Pool.happen, present, steps]
    rfl

/-- An act changes nothing of the pool, or only as something that can happen in it. -/
theorem mayBecome_act {act : Act} (acts : crowd.act act = some next) :
    crowd.pool.MayBecome next.pool := by
  cases act with
  | ask function =>
    obtain rfl := Option.some.inj acts
    exact Or.inl rfl
  | proceed number thread => exact mayBecome_proceed acts
  | shutDown => exact mayBecome_shutDown acts
  | turn thread => exact mayBecome_turn acts
  | elapse duration =>
    obtain rfl := Option.some.inj acts
    exact Or.inr ⟨.elapse duration, none, rfl⟩
  | deliver parcel =>
    obtain rfl := Option.some.inj acts
    exact Or.inr ⟨.deliver parcel, none, rfl⟩
  | poll handle waker =>
    obtain rfl := Option.some.inj acts
    exact crowd.pool.mayBecome_poll handle waker

/-- Whatever comes of a crowd, its pool has a record. -/
theorem Reachable.recorded (reachable : crowd.Reachable) :
    ∃ deeds, Pool.Recorded deeds crowd.pool := by
  induction reachable with
  | start threads config patience respond => exact ⟨[], .start threads config patience respond⟩
  | act _ acts inductionHypothesis =>
    obtain ⟨deeds, recorded⟩ := inductionHypothesis
    rcases mayBecome_act acts with same | ⟨happening, deed, happens⟩
    · exact ⟨deeds, same ▸ recorded⟩
    · exact ⟨_, .happen recorded happens⟩

end Crowd

end TaskMachine
