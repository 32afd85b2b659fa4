/-
No thread sleeps through a cause to run. There are three: tasks of the thread
were woken, tasks were sent to it, or the pool shuts down. Whoever brings about
one of them does so first, and gives the thread its token afterwards; and who
wakes a task that was woken already gives none. The thread looks for the three
at three places of its round, and uses the token up at a fourth, where it sleeps
if there is none.

So the acts of a crowd are taken apart here into single steps. A pass begins by
taking the woken tasks, and only later comes to an end, and in between others can
wake more; to send a message is to put it in its inbox, to add the task to the
woken ones, and to give the token, each by itself. What is kept by every step is
that a cause which is there will still be looked for, or the token is there, or
somebody is still to give it.
-/

import TaskMachine.Proofs.Pool.Crowd
import TaskMachine.Proofs.Pool.Causes
import TaskMachine.Proofs.Scheduler.Lookout

namespace TaskMachine

/-- A crowd with acts that are under way. -/
structure Vigil where
  crowd : Crowd
  /-- The threads that are in the middle of a pass, and have taken the woken tasks. -/
  passing : List Nat
  /-- The threads to which somebody is to give their token who has woken a task of theirs. -/
  callers : List Nat

/-- What can happen in single steps. -/
inductive Vigil.Event where
  /-- An act begins. Of a pass this is to take the woken tasks, and of sending a message to put it
  in its inbox; any other act is done with it. -/
  | begin (act : Act)
  /-- A thread goes on in a pass. Whatever the tasks do, it takes neither the woken ones nor the
  token. -/
  | work (thread : Nat) (scheduler : Scheduler) (nextId : TaskId) (notices : List Notice)
  /-- A thread comes to the end of a pass, and some promises have come due in it. -/
  | finish (thread : Nat) (due : List (Nat × Outcome))
  /-- A crash ends the pass of a thread. -/
  | fail (thread : Nat) (crash : Crash)
  /-- Somebody adds a task to those of a thread that were woken. -/
  | wake (thread : Nat) (id : TaskId)
  /-- Somebody who has added a task that was not there gives the thread its token. -/
  | unpark (thread : Nat)

namespace Vigil

/-- A crowd with no act under way. -/
def start (crowd : Crowd) : Vigil := { crowd, passing := [], callers := [] }

/-- The pool is another. -/
def inPool (vigil : Vigil) (pool : Pool) : Vigil :=
  { vigil with crowd := { vigil.crowd with pool } }

/-- An act begins, if it can. -/
def begin (vigil : Vigil) : Act → Option Vigil
  | .turn thread => do
    let worker ← vigil.crowd.pool.workers[thread]?
    match worker.phase with
    | .ticking =>
      if thread ∈ vigil.passing then none
      else
        let taken := vigil.crowd.pool.onMailroom thread fun room => room.takeWoken.1
        some { vigil.inPool taken with passing := thread :: vigil.passing }
    | _ => (vigil.crowd.pool.step thread).map vigil.inPool
  | .deliver parcel =>
    some (vigil.inPool (vigil.crowd.pool.onMailroom parcel.worker fun room =>
      room.put parcel.letter.mailbox parcel.letter.message))
  | act => (vigil.crowd.act act).map fun crowd => { vigil with crowd }

/-- A thread that was in the middle of a pass is somewhere else. -/
def leavePass (vigil : Vigil) (thread : Nat) (worker : Worker) : Vigil :=
  { vigil.inPool (vigil.crowd.pool.setWorker thread worker) with
    passing := vigil.passing.filter fun other => other ≠ thread }

/-- What is so after a step, if it can happen. -/
def occur (vigil : Vigil) : Event → Option Vigil
  | .begin act => vigil.begin act
  | .work thread scheduler nextId notices => do
    let worker ← vigil.crowd.pool.workers[thread]?
    if thread ∈ vigil.passing ∧ scheduler.mailroom.woken = worker.woken ∧
        scheduler.mailroom.token = worker.token then
      some (vigil.inPool ({ vigil.crowd.pool with nextId, notices }.setWorker thread
        { worker with scheduler }))
    else none
  | .finish thread due => do
    let worker ← vigil.crowd.pool.workers[thread]?
    if thread ∈ vigil.passing then
      some (vigil.leavePass thread { worker with
        phase := .counting due (Pool.phaseAfter worker.scheduler.outlook) })
    else none
  | .fail thread crash => do
    let worker ← vigil.crowd.pool.workers[thread]?
    if thread ∈ vigil.passing then
      some (vigil.leavePass thread (worker.abandon (.crashed crash)))
    else none
  | .wake thread id => do
    let worker ← vigil.crowd.pool.workers[thread]?
    let added := vigil.inPool (vigil.crowd.pool.onMailroom thread fun room => (room.addWoken id).1)
    if (worker.scheduler.mailroom.addWoken id).2 then
      some { added with callers := thread :: vigil.callers }
    else some added
  | .unpark thread =>
    if thread ∈ vigil.callers then
      some { vigil.inPool (vigil.crowd.pool.unpark thread) with
        callers := vigil.callers.erase thread }
    else none

/-- What is so after some steps, if they can happen. -/
def run (vigil : Vigil) (events : List Event) : Option Vigil := events.foldlM occur vigil

/-- What can come of a pool that nobody has used, step by step. -/
inductive Reachable : Vigil → Prop
  | start (threads : Nat) (config : Config) (patience : Nat)
      (respond : List Notice → List Parcel) :
      Reachable (start (.start threads config patience respond))
  | occur {vigil next : Vigil} {event : Event} (reachable : Reachable vigil)
      (occurs : vigil.occur event = some next) : Reachable next

end Vigil

/-! ### Who is to give a token -/

namespace Crowd

/-- Whoever shuts the pool down has yet to give the thread its token. -/
def OwesShutdown (crowd : Crowd) (thread : Nat) : Prop :=
  crowd.stage = .begun ∨ ∃ count ≤ thread, crowd.stage = .unparking count

/-- Somebody who has sent a task to the thread has yet to give it its token. -/
def OwesCommand (crowd : Crowd) (thread : Nat) : Prop :=
  ∃ errand ∈ crowd.errands, ∃ handle, errand.progress = .sent handle ∧ handle.worker = thread

end Crowd

/-! ### What is kept -/

namespace Vigil

/-- How many of the places are behind a thread. -/
def looked (vigil : Vigil) (thread : Nat) (worker : Worker) : Nat :=
  worker.phase.looked (decide (thread ∈ vigil.passing))

/-- Each cause to run that is there will still be looked for, or the token is there, or somebody is
to give it. -/
structure CausesCovered (vigil : Vigil) (thread : Nat) (worker : Worker) : Prop where
  passes : thread ∈ vigil.passing → worker.phase = .ticking
  shutdown : vigil.crowd.pool.stopping = true →
    vigil.looked thread worker = 0 ∨ worker.token = true ∨ vigil.crowd.OwesShutdown thread
  command : worker.commands ≠ [] →
    vigil.looked thread worker ≤ 1 ∨ worker.token = true ∨ vigil.crowd.OwesCommand thread
  woken : worker.woken ≠ [] →
    vigil.looked thread worker ≤ 2 ∨ worker.token = true ∨ thread ∈ vigil.callers

/-- Each cause to run is covered, whichever thread it is of. -/
def AllCovered (vigil : Vigil) : Prop :=
  ∀ thread worker, vigil.crowd.pool.workers[thread]? = some worker →
    vigil.CausesCovered thread worker

/-- Whoever was to give a thread its token has given it, or is still to give it. -/
structure Pays (vigil next : Vigil) (thread : Nat) (token : Bool) : Prop where
  shutdown : vigil.crowd.OwesShutdown thread → token = true ∨ next.crowd.OwesShutdown thread
  command : vigil.crowd.OwesCommand thread → token = true ∨ next.crowd.OwesCommand thread
  woken : thread ∈ vigil.callers → token = true ∨ thread ∈ next.callers

variable {vigil next : Vigil} {thread : Nat} {worker after : Worker}

theorem Pays.of_same {token : Bool} (stage : next.crowd.stage = vigil.crowd.stage)
    (errands : next.crowd.errands = vigil.crowd.errands) (callers : next.callers = vigil.callers) :
    vigil.Pays next thread token where
  shutdown := fun owes => Or.inr (by rwa [Crowd.OwesShutdown, stage])
  command := fun owes => Or.inr (by rwa [Crowd.OwesCommand, errands])
  woken := fun owes => Or.inr (callers ▸ owes)

/-- If a thread overlooks nothing and nobody forgets a token, each cause is covered again. -/
theorem CausesCovered.kept (causes : vigil.CausesCovered thread worker)
    (stopping : next.crowd.pool.stopping = vigil.crowd.pool.stopping)
    (passes : thread ∈ next.passing → after.phase = .ticking)
    (sees : worker.OverlooksNothing vigil.crowd.pool.stopping (vigil.looked thread worker)
      (next.looked thread after) after)
    (pays : vigil.Pays next thread after.token) : next.CausesCovered thread after := by
  cases sees with
  | begins again =>
    exact ⟨passes, fun _ => Or.inl again, fun _ => Or.inl (again ▸ Nat.zero_le _),
      fun _ => Or.inl (again ▸ Nat.zero_le _)⟩
  | goesOn quiet shutdown command woken =>
    cases token : after.token with
    | true =>
      exact ⟨passes, fun _ => Or.inr (Or.inl token), fun _ => Or.inr (Or.inl token),
        fun _ => Or.inr (Or.inl token)⟩
    | false =>
      have without : worker.token ≠ true := by
        rw [quiet token]
        exact nofun
      refine ⟨passes, fun stops => ?_, fun sent => ?_, fun called => ?_⟩
      · rw [stopping] at stops
        rcases causes.shutdown stops with first | there | owes
        · exact Or.inl (shutdown stops first)
        · exact absurd there without
        · exact Or.inr (pays.shutdown owes)
      · obtain ⟨before, kept⟩ := command sent
        rcases causes.command before with first | there | owes
        · exact Or.inl (kept first)
        · exact absurd there without
        · exact Or.inr (pays.command owes)
      · obtain ⟨before, kept⟩ := woken token called
        rcases causes.woken before with first | there | owes
        · exact Or.inl (kept first)
        · exact absurd there without
        · exact Or.inr (pays.woken owes)

/-- Threads that are mailed at most are covered again, and so are all if the others are. -/
theorem AllCovered.mailed {apart : Nat → Prop} (covered : vigil.AllCovered)
    (mailed : vigil.crowd.pool.OnlyMailed apart next.crowd.pool)
    (passing : ∀ thread, ¬ apart thread → (thread ∈ next.passing ↔ thread ∈ vigil.passing))
    (pays : ∀ thread after, ¬ apart thread → next.crowd.pool.workers[thread]? = some after →
      vigil.Pays next thread after.token)
    (others : ∀ thread after, apart thread → next.crowd.pool.workers[thread]? = some after →
      next.CausesCovered thread after) : next.AllCovered := by
  intro thread after there
  by_cases is : apart thread
  · exact others thread after is there
  obtain ⟨worker, present, gentle⟩ := mailed.each thread is after there
  have causes := covered thread worker present
  have same : next.looked thread after = vigil.looked thread worker := by
    rw [looked, looked, gentle.phase]
    exact congrArg (worker.phase.looked ·) (decide_eq_decide.mpr (passing thread is))
  refine causes.kept mailed.stopping (fun passes => ?_) ?_ (pays thread after is there)
  · rw [gentle.phase]
    exact causes.passes ((passing thread is).mp passes)
  · rw [same]
    exact Worker.overlooksNothing_of_quiet gentle.commands gentle.quiet

/-- Whatever a crowd does that mails threads at most, all are covered again. -/
theorem AllCovered.crowd (covered : vigil.AllCovered) {crowd : Crowd}
    (mailed : vigil.crowd.pool.OnlyMailed (fun _ => False) crowd.pool)
    (shutdown : ∀ thread after, crowd.pool.workers[thread]? = some after →
      vigil.crowd.OwesShutdown thread → after.token = true ∨ crowd.OwesShutdown thread)
    (command : ∀ thread after, crowd.pool.workers[thread]? = some after →
      vigil.crowd.OwesCommand thread → after.token = true ∨ crowd.OwesCommand thread) :
    ({ vigil with crowd } : Vigil).AllCovered :=
  covered.mailed mailed (fun _ _ => Iff.rfl)
    (fun thread after _ there =>
      ⟨shutdown thread after there, command thread after there, fun owes => Or.inr owes⟩)
    fun _ _ apart => apart.elim

end Vigil

/-! ### The shutdown -/

theorem Pool.token_unpark {pool : Pool} {thread : Nat} {after : Worker}
    (there : (pool.unpark thread).workers[thread]? = some after) : after.token = true := by
  rw [show pool.unpark thread = pool.onMailroom thread Mailroom.unpark from rfl,
    Pool.getElem?_onMailroom] at there
  obtain ⟨worker, _, rfl⟩ := Option.map_eq_some_iff.mp there
  rw [if_pos rfl]
  rfl

namespace Vigil

variable {vigil next : Vigil} {thread : Nat} {worker after : Worker}

theorem AllCovered.shutDown (covered : vigil.AllCovered) {crowd : Crowd}
    (closes : vigil.crowd.shutDown = some crowd) : ({ vigil with crowd } : Vigil).AllCovered := by
  rw [Crowd.shutDown] at closes
  cases stage : vigil.crowd.stage with
  | running =>
    simp only [stage] at closes
    obtain rfl := Option.some.inj closes
    -- The flag is new, and whoever has raised it is to give all tokens.
    intro thread worker present
    have causes := covered thread worker present
    exact ⟨causes.passes, fun _ => Or.inr (Or.inr (Or.inl rfl)), causes.command, causes.woken⟩
  | begun =>
    simp only [stage] at closes
    split at closes
    · obtain rfl := Option.some.inj closes
      refine covered.crowd (.of_workers rfl rfl) (fun thread _ _ _ => ?_)
        fun _ _ _ owes => Or.inr owes
      exact Or.inr (Or.inr ⟨0, Nat.zero_le thread, rfl⟩)
    · exact absurd closes (Option.some_ne_none crowd).symm
  | unparking count =>
    have due {thread : Nat} (owes : vigil.crowd.OwesShutdown thread) : count ≤ thread := by
      rcases owes with begun | ⟨other, most, unparking⟩
      · cases stage.symm.trans begun
      · exact Crowd.Stage.unparking.inj (stage.symm.trans unparking) ▸ most
    simp only [stage] at closes
    split at closes
    · obtain rfl := Option.some.inj closes
      refine covered.crowd (Pool.onlyMailed_unpark _ count) (fun thread after there owes => ?_)
        fun _ _ _ owes => Or.inr owes
      rcases Nat.eq_or_lt_of_le (due owes) with rfl | more
      · exact Or.inl (Pool.token_unpark there)
      · exact Or.inr (Or.inr ⟨count + 1, more, rfl⟩)
    · rename_i all
      obtain rfl := Option.some.inj closes
      refine covered.crowd (.of_workers rfl rfl) (fun thread after there owes => ?_)
        fun _ _ _ owes => Or.inr owes
      obtain ⟨within, _⟩ := Array.getElem?_eq_some_iff.mp there
      exact absurd (Nat.lt_of_le_of_lt (due owes) within) all
  | joining count =>
    have unowed {thread : Nat} : ¬ vigil.crowd.OwesShutdown thread := by
      rintro (begun | ⟨other, _, unparking⟩)
      · cases stage.symm.trans begun
      · cases stage.symm.trans unparking
    have goesOn (stage : Crowd.Stage) :
        ({ vigil with crowd := { vigil.crowd with stage } } : Vigil).AllCovered :=
      covered.crowd (.of_workers rfl rfl) (fun _ _ _ owes => absurd owes unowed)
        fun _ _ _ owes => Or.inr owes
    simp only [stage] at closes
    cases present : vigil.crowd.pool.workers[count]? with
    | none =>
      simp only [present] at closes
      exact Option.some.inj closes ▸ goesOn .finished
    | some worker =>
      simp only [present] at closes
      split at closes
      · exact Option.some.inj closes ▸ goesOn (.joining (count + 1))
      · exact absurd closes (Option.some_ne_none crowd).symm
  | finished =>
    simp only [stage] at closes
    exact absurd closes (Option.some_ne_none crowd).symm

end Vigil

/-! ### Those who spawn tasks -/

/-- To send a task to a thread is all that can be done to it so, and its phase and what wakes it are
the same. -/
theorem Pool.onlyMailed_dispatchTo {pool next : Pool} {index : Nat} {worker : Worker}
    {function : Function} {answer : Option Handle} (present : pool.workers[index]? = some worker)
    (sends : pool.dispatchTo index function = (next, answer)) :
    match answer with
    | none => next.workers = pool.workers ∧ next.stopping = pool.stopping
    | some handle => handle.worker = index ∧ pool.OnlyMailed (· = index) next ∧
        ∃ after, next.workers[index]? = some after ∧ after.phase = worker.phase ∧
          after.token = worker.token ∧ after.woken = worker.woken := by
  obtain ⟨within, _⟩ := Array.getElem?_eq_some_iff.mp present
  simp only [Pool.dispatchTo, present] at sends
  split at sends
  · obtain ⟨rfl, rfl⟩ := Prod.mk.inj sends
    have counted : pool.OnlyMailed (· = index)
        { pool with nextId := pool.nextId.next, completions := pool.completions.push .empty } :=
      .of_workers rfl rfl
    exact ⟨rfl, counted.trans (Pool.onlyMailed_setWorker _ index _), _,
      Pool.getElem?_setWorker_self _ within _, rfl, rfl, rfl⟩
  · obtain ⟨rfl, rfl⟩ := Prod.mk.inj sends
    exact ⟨rfl, rfl⟩

/-- If somebody goes on who spawns a task, others who have sent one are as far as they were. -/
theorem Crowd.OwesCommand.setProgress {crowd : Crowd} {number thread : Nat}
    {progress : Errand.Progress} (owes : crowd.OwesCommand thread) :
    (crowd.setProgress number progress).OwesCommand thread ∨
      ∃ errand handle, crowd.errands[number]? = some errand ∧ errand.progress = .sent handle ∧
        handle.worker = thread := by
  obtain ⟨errand, member, handle, sent, is⟩ := owes
  obtain ⟨place, there⟩ := List.mem_iff_getElem?.mp member
  by_cases same : number = place
  · exact Or.inr ⟨errand, handle, same ▸ there, sent, is⟩
  · refine Or.inl ⟨errand, List.mem_iff_getElem?.mpr ⟨place, ?_⟩, handle, sent, is⟩
    rw [Crowd.setProgress, List.getElem?_modify, there]
    exact congrArg some (if_neg same)

namespace Vigil

variable {vigil next : Vigil} {number thread : Nat} {worker after : Worker} {errand : Errand}
  {crowd : Crowd}

/-- Somebody goes on who has no token to give, and changes no thread. -/
theorem AllCovered.goOn (covered : vigil.AllCovered)
    (present : vigil.crowd.errands[number]? = some errand)
    (unsent : ∀ handle, errand.progress ≠ .sent handle) (progress : Errand.Progress) (pool : Pool)
    (holder : Option Nat) (workers : pool.workers = vigil.crowd.pool.workers)
    (stopping : pool.stopping = vigil.crowd.pool.stopping) :
    ({ vigil with crowd := { vigil.crowd.setProgress number progress with pool, holder } } :
      Vigil).AllCovered := by
  refine covered.crowd (.of_workers workers stopping) (fun _ _ _ owes => Or.inr owes)
    fun thread _ _ owes => Or.inr ?_
  rcases owes.setProgress with kept | ⟨other, handle, there, sent, _⟩
  · exact kept
  · rw [present] at there
    exact absurd (Option.some.inj there ▸ sent) (unsent handle)

theorem AllCovered.dispatch (covered : vigil.AllCovered)
    (present : vigil.crowd.errands[number]? = some errand)
    (unsent : ∀ handle, errand.progress ≠ .sent handle)
    (sends : vigil.crowd.dispatch number thread errand.function = some crowd) :
    ({ vigil with crowd } : Vigil).AllCovered := by
  obtain ⟨worker, working, goes⟩ := Option.bind_eq_some_iff.mp sends
  have known {pool : Pool} {answer : Option Handle}
      (sent : vigil.crowd.pool.dispatchTo thread errand.function = (pool, answer)) :=
    Pool.onlyMailed_dispatchTo working sent
  split at goes
  · rename_i pool handle sent
    obtain rfl := Option.some.inj goes
    obtain ⟨is, mailed, after, there, phase, token, woken⟩ := known sent
    have further (owed : Nat) (owes : vigil.crowd.OwesCommand owed) :
        (vigil.crowd.setProgress number (.sent handle)).OwesCommand owed := by
      rcases owes.setProgress with kept | ⟨other, found, place, wasSent, _⟩
      · exact kept
      · rw [present] at place
        exact absurd (Option.some.inj place ▸ wasSent) (unsent found)
    refine covered.mailed mailed (fun _ _ => Iff.rfl)
      (fun other _ _ _ => ⟨fun owes => Or.inr owes, fun owes => Or.inr (further other owes),
        fun owes => Or.inr owes⟩) ?_
    rintro other later rfl isLater
    obtain rfl := Option.some.inj (there.symm.trans isLater)
    have causes := covered other worker working
    -- Somebody has sent the task, and is to give the token.
    have owes : (vigil.crowd.setProgress number (.sent handle)).OwesCommand other := by
      refine ⟨{ errand with progress := .sent handle }, ?_, handle, rfl, is⟩
      refine List.mem_iff_getElem?.mpr ⟨number, ?_⟩
      rw [Crowd.setProgress, List.getElem?_modify, present]
      exact congrArg some (if_pos rfl)
    refine ⟨fun passes => phase.trans (causes.passes passes), fun stops => ?_,
      fun _ => Or.inr (Or.inr owes), fun called => ?_⟩
    · rw [token, looked, phase]
      rw [mailed.stopping] at stops
      exact causes.shutdown stops
    · rw [token, looked, phase]
      rw [woken] at called
      exact causes.woken called
  · rename_i pool sent
    obtain rfl := Option.some.inj goes
    obtain ⟨workers, stopping⟩ := known sent
    exact covered.goOn present unsent .refused pool none workers stopping

theorem AllCovered.proceed (covered : vigil.AllCovered)
    (proceeds : vigil.crowd.proceed number thread = some crowd) :
    ({ vigil with crowd } : Vigil).AllCovered := by
  obtain ⟨errand, present, goes⟩ := Option.bind_eq_some_iff.mp proceeds
  have goOn (unsent : ∀ handle, errand.progress ≠ .sent handle) (progress : Errand.Progress)
      (holder : Option Nat) := covered.goOn present unsent progress vigil.crowd.pool holder rfl rfl
  cases progress : errand.progress with
  | asked =>
    simp only [progress] at goes
    exact Option.some.inj goes ▸ goOn (progress ▸ nofun) _ vigil.crowd.holder
  | looked =>
    simp only [progress] at goes
    split at goes
    · exact Option.some.inj goes ▸ goOn (progress ▸ nofun) _ _
    · exact absurd goes nofun
  | holding =>
    simp only [progress] at goes
    split at goes
    · exact covered.dispatch present (progress ▸ nofun) goes
    · exact Option.some.inj goes ▸ goOn (progress ▸ nofun) _ _
  | sent handle =>
    simp only [progress] at goes
    obtain rfl := Option.some.inj goes
    refine covered.crowd (Pool.onlyMailed_unpark _ handle.worker) (fun _ _ _ owes => Or.inr owes)
      fun thread after there owes => ?_
    rcases owes.setProgress with kept | ⟨other, found, place, sent, is⟩
    · exact Or.inr kept
    · rw [present] at place
      obtain rfl := Option.some.inj place
      obtain rfl := Errand.Progress.sent.inj (progress.symm.trans sent)
      exact Or.inl (Pool.token_unpark (is ▸ there))
  | told handle =>
    simp only [progress] at goes
    exact Option.some.inj goes ▸ goOn (progress ▸ nofun) _ _
  | returned handle =>
    simp only [progress] at goes
    exact absurd goes nofun
  | refused =>
    simp only [progress] at goes
    exact absurd goes nofun

end Vigil

/-! ### The threads -/

theorem Pool.workers_poll (pool : Pool) (handle : Handle) (waker : Nat) :
    (pool.poll handle waker).1.workers = pool.workers ∧
      (pool.poll handle waker).1.stopping = pool.stopping := by
  rw [poll]
  cases pool.completions[handle.completion]? <;> exact ⟨rfl, rfl⟩

namespace Vigil

variable {vigil next : Vigil} {thread : Nat} {worker later : Worker} {pool : Pool} {event : Event}

/-- One thread overlooks nothing, and is in no pass then unless it is about to make one; the others
are mailed at most. -/
theorem AllCovered.ofThread (covered : vigil.AllCovered)
    (working : vigil.crowd.pool.workers[thread]? = some worker)
    (mailed : vigil.crowd.pool.OnlyMailed (· = thread) next.crowd.pool)
    (there : next.crowd.pool.workers[thread]? = some later)
    (sees : worker.OverlooksNothing vigil.crowd.pool.stopping (vigil.looked thread worker)
      (next.looked thread later) later)
    (passes : thread ∈ next.passing → later.phase = .ticking)
    (passing : ∀ other, other ≠ thread → (other ∈ next.passing ↔ other ∈ vigil.passing))
    (stage : next.crowd.stage = vigil.crowd.stage)
    (errands : next.crowd.errands = vigil.crowd.errands) (callers : next.callers = vigil.callers) :
    next.AllCovered := by
  refine covered.mailed mailed passing (fun _ _ _ _ => .of_same stage errands callers) ?_
  rintro other after rfl isAfter
  obtain rfl := Option.some.inj (there.symm.trans isAfter)
  exact (covered other worker working).kept mailed.stopping passes sees
    (.of_same stage errands callers)

theorem AllCovered.begin (covered : vigil.AllCovered) {act : Act}
    (begins : vigil.begin act = some next) : next.AllCovered := by
  have crowds (act : Act) (acts : (vigil.crowd.act act).map (fun crowd => { vigil with crowd }) =
      some next) (keeps : ∀ crowd, vigil.crowd.act act = some crowd →
        ({ vigil with crowd } : Vigil).AllCovered) : next.AllCovered := by
    obtain ⟨crowd, is, rfl⟩ := Option.map_eq_some_iff.mp acts
    exact keeps crowd is
  cases act with
  | ask function =>
    refine crowds (.ask function) begins fun crowd is => ?_
    obtain rfl := Option.some.inj is
    refine covered.crowd (.of_workers rfl rfl) (fun _ _ _ owes => Or.inr owes) fun _ _ _ owes => ?_
    obtain ⟨errand, member, sent⟩ := owes
    exact Or.inr ⟨errand, List.mem_append_left _ member, sent⟩
  | proceed errand thread =>
    exact crowds (.proceed errand thread) begins fun crowd is => covered.proceed is
  | shutDown => exact crowds .shutDown begins fun crowd is => covered.shutDown is
  | turn thread =>
    obtain ⟨worker, working, goes⟩ := Option.bind_eq_some_iff.mp begins
    have causes := covered thread worker working
    split at goes
    · rename_i ticking
      split at goes
      · exact absurd goes nofun
      · rename_i outside
        obtain rfl := Option.some.inj goes
        have taken : (vigil.crowd.pool.onMailroom thread fun room =>
            room.takeWoken.1).workers[thread]? = _ := Pool.getElem?_onMailroom _ _ _ _
        rw [working, Option.map_some, if_pos rfl] at taken
        have mailed := vigil.crowd.pool.onlyMailed_onMailroom_self thread fun room =>
          room.takeWoken.1
        refine covered.ofThread working mailed taken ?_ (fun _ => ticking)
          (fun other differ => ?_) rfl rfl rfl
        · -- It has looked for woken tasks now, and there are none left.
          have two : vigil.looked thread worker = 2 := by
            rw [looked, ticking, decide_eq_false outside]
            rfl
          rw [two]
          exact .goesOn id nofun (fun sent => ⟨sent, nofun⟩) fun _ some => absurd rfl some
        · exact ⟨fun member => (List.mem_cons.mp member).resolve_left differ,
            List.mem_cons_of_mem _⟩
    · rename_i elsewhere
      obtain ⟨pool, steps, rfl⟩ := Option.map_eq_some_iff.mp goes
      have outside : thread ∉ vigil.passing := fun passes => elsewhere (causes.passes passes)
      obtain ⟨later, _, stride, updates⟩ := Pool.stridesTo_of_step working steps
      refine covered.ofThread working updates.others updates.own ?_
        (fun passes => absurd passes outside)
        (fun _ _ => Iff.rfl) rfl rfl rfl
      have unpassed : decide (thread ∈ vigil.passing) = false := decide_eq_false outside
      rw [looked, looked, show (vigil.inPool pool).passing = vigil.passing from rfl, unpassed]
      exact stride.overlooksNothing elsewhere
  | elapse duration =>
    refine crowds (.elapse duration) begins fun crowd is => ?_
    obtain rfl := Option.some.inj is
    exact covered.crowd (.of_workers rfl rfl) (fun _ _ _ owes => Or.inr owes)
      fun _ _ _ owes => Or.inr owes
  | deliver parcel =>
    obtain rfl := Option.some.inj begins
    have mailed : vigil.crowd.pool.OnlyMailed (fun _ => False)
        (vigil.crowd.pool.onMailroom parcel.worker fun room =>
          room.put parcel.letter.mailbox parcel.letter.message) := by
      refine Pool.onlyMailed_onMailroom_of_quiet _ parcel.worker fun room none => ?_
      obtain ⟨woken, token⟩ := room.put_same parcel.letter.mailbox parcel.letter.message
      exact ⟨token ▸ none, fun some => woken ▸ some⟩
    exact covered.crowd mailed (fun _ _ _ owes => Or.inr owes) fun _ _ _ owes => Or.inr owes
  | poll handle waker =>
    refine crowds (.poll handle waker) begins fun crowd is => ?_
    obtain rfl := Option.some.inj is
    obtain ⟨workers, stopping⟩ := vigil.crowd.pool.workers_poll handle waker
    exact covered.crowd (.of_workers workers stopping) (fun _ _ _ owes => Or.inr owes)
      fun _ _ _ owes => Or.inr owes

/-- A thread leaves its pass, and has yet to look for everything or has just looked. -/
theorem AllCovered.leavePass (covered : vigil.AllCovered)
    (working : vigil.crowd.pool.workers[thread]? = some worker) (passes : thread ∈ vigil.passing)
    (sees : worker.OverlooksNothing vigil.crowd.pool.stopping 3 (later.phase.looked false) later) :
    (vigil.leavePass thread later).AllCovered := by
  obtain ⟨within, _⟩ := Array.getElem?_eq_some_iff.mp working
  have left : thread ∉ (vigil.leavePass thread later).passing := fun member =>
    absurd rfl (of_decide_eq_true (List.mem_filter.mp member).2)
  have behind : vigil.looked thread worker = 3 := by
    rw [looked, (covered thread worker working).passes passes, decide_eq_true passes]
    rfl
  refine covered.ofThread working (Pool.onlyMailed_setWorker _ thread later)
    (Pool.getElem?_setWorker_self _ within later) ?_ (fun member => absurd member left)
    (fun other differ => ?_) rfl rfl rfl
  · rw [behind, looked, decide_eq_false left]
    exact sees
  · exact ⟨fun member => (List.mem_filter.mp member).1,
      fun member => List.mem_filter.mpr ⟨member, decide_eq_true differ⟩⟩

theorem AllCovered.work (covered : vigil.AllCovered) {scheduler : Scheduler} {nextId : TaskId}
    {notices : List Notice}
    (works : vigil.occur (.work thread scheduler nextId notices) = some next) :
    next.AllCovered := by
  obtain ⟨worker, working, goes⟩ := Option.bind_eq_some_iff.mp works
  obtain ⟨within, _⟩ := Array.getElem?_eq_some_iff.mp working
  split at goes
  · rename_i both
    obtain ⟨passes, woken, token⟩ := both
    obtain rfl := Option.some.inj goes
    have counted : vigil.crowd.pool.OnlyMailed (· = thread)
        { vigil.crowd.pool with nextId, notices } := .of_workers rfl rfl
    refine covered.ofThread working (counted.trans (Pool.onlyMailed_setWorker _ thread _))
      (Pool.getElem?_setWorker_self _ within _) ?_
      (fun _ => (covered thread worker working).passes passes) (fun _ _ => Iff.rfl) rfl rfl rfl
    exact Worker.overlooksNothing_of_quiet rfl fun none => ⟨token ▸ none, fun some => woken ▸ some⟩
  · exact absurd goes nofun

theorem AllCovered.wake (covered : vigil.AllCovered) {id : TaskId}
    (wakes : vigil.occur (.wake thread id) = some next) : next.AllCovered := by
  obtain ⟨worker, working, goes⟩ := Option.bind_eq_some_iff.mp wakes
  have causes := covered thread worker working
  have there : (vigil.crowd.pool.onMailroom thread fun room =>
      (room.addWoken id).1).workers[thread]? = _ := Pool.getElem?_onMailroom _ _ _ _
  rw [working, Option.map_some, if_pos rfl] at there
  have mailed := vigil.crowd.pool.onlyMailed_onMailroom_self thread fun room => (room.addWoken id).1
  split at goes
  · -- The task is new among the woken, and whoever has added it is to give the token.
    obtain rfl := Option.some.inj goes
    refine covered.mailed mailed (fun _ _ => Iff.rfl)
      (fun _ _ _ _ => ⟨fun owes => Or.inr owes, fun owes => Or.inr owes,
        fun owes => Or.inr (List.mem_cons_of_mem _ owes)⟩) ?_
    rintro other after rfl isAfter
    obtain rfl := Option.some.inj (there.symm.trans isAfter)
    exact ⟨causes.passes, causes.shutdown, causes.command,
      fun _ => Or.inr (Or.inr List.mem_cons_self)⟩
  · rename_i old
    obtain rfl := Option.some.inj goes
    refine covered.ofThread working mailed there ?_ causes.passes (fun _ _ => Iff.rfl) rfl rfl rfl
    refine Worker.overlooksNothing_of_quiet rfl fun none => ⟨none, fun _ nobody => old ?_⟩
    show (!worker.woken.contains id) = true
    rw [nobody]
    rfl

theorem AllCovered.occur (covered : vigil.AllCovered) (occurs : vigil.occur event = some next) :
    next.AllCovered := by
  cases event with
  | begin act => exact covered.begin occurs
  | work thread scheduler nextId notices => exact covered.work occurs
  | finish thread due =>
    obtain ⟨worker, working, goes⟩ := Option.bind_eq_some_iff.mp occurs
    split at goes
    · rename_i passes
      obtain rfl := Option.some.inj goes
      refine covered.leavePass working passes ?_
      cases worker.scheduler.outlook with
      | busy => exact .begins rfl
      | waiting | idle => exact Worker.overlooksNothing_of_quiet rfl fun none => ⟨none, id⟩
    · exact absurd goes nofun
  | fail thread crash =>
    obtain ⟨worker, working, goes⟩ := Option.bind_eq_some_iff.mp occurs
    split at goes
    · rename_i passes
      obtain rfl := Option.some.inj goes
      exact covered.leavePass working passes (.begins rfl)
    · exact absurd goes nofun
  | wake thread id => exact covered.wake occurs
  | unpark thread =>
    rw [Vigil.occur] at occurs
    split at occurs
    · obtain rfl := Option.some.inj occurs
      refine covered.mailed (Pool.onlyMailed_unpark _ thread) (fun _ _ => Iff.rfl)
        (fun other after _ there => ⟨fun owes => Or.inr owes, fun owes => Or.inr owes,
          fun owes => ?_⟩) fun _ _ apart => False.elim apart
      by_cases is : other = thread
      · exact Or.inl (Pool.token_unpark (is ▸ there))
      · exact Or.inr ((List.mem_erase_of_ne is).mpr owes)
    · exact absurd occurs nofun

theorem allCovered_start (threads : Nat) (config : Config) (patience : Nat)
    (respond : List Notice → List Parcel) :
    (start (.start threads config patience respond)).AllCovered := by
  intro thread worker present
  obtain ⟨_, is⟩ := Array.getElem?_eq_some_iff.mp present
  obtain rfl : Worker.new config patience = worker := by
    rw [← is]
    exact (Array.getElem_replicate _).symm
  exact ⟨fun passes => absurd passes List.not_mem_nil, nofun, fun sent => absurd rfl sent,
    fun called => absurd rfl called⟩

theorem Reachable.covered (reachable : vigil.Reachable) : vigil.AllCovered := by
  induction reachable with
  | start threads config patience respond => exact allCovered_start threads config patience respond
  | occur _ occurs inductionHypothesis => exact inductionHypothesis.occur occurs

/-- A thread that sleeps without its token has looked for everything. -/
theorem CausesCovered.asleep (causes : vigil.CausesCovered thread worker)
    (sleeps : worker.phase = .waiting ∨ worker.phase = .parked) (token : worker.token = false) :
    (worker.woken ≠ [] → thread ∈ vigil.callers) ∧
      (worker.commands ≠ [] → vigil.crowd.OwesCommand thread) ∧
        (vigil.crowd.pool.stopping = true → vigil.crowd.OwesShutdown thread) := by
  have all : vigil.looked thread worker = 3 := by
    rw [looked]
    rcases sleeps with is | is <;> rw [is] <;> rfl
  have without : worker.token ≠ true := by
    rw [token]
    exact nofun
  refine ⟨fun called => ?_, fun sent => ?_, fun stops => ?_⟩
  · rcases causes.woken called with ahead | there | owes
    · exact absurd (all ▸ ahead) (by decide)
    · exact absurd there without
    · exact owes
  · rcases causes.command sent with ahead | there | owes
    · exact absurd (all ▸ ahead) (by decide)
    · exact absurd there without
    · exact owes
  · rcases causes.shutdown stops with ahead | there | owes
    · exact absurd (all ▸ ahead) (by decide)
    · exact absurd there without
    · exact owes

/-- No thread sleeps through a cause to run. If a thread of a pool sleeps without its token, and
tasks of it were woken, or tasks were sent to it, or the pool shuts down, then somebody who has
brought that about is still to give the thread its token; and so it is with a thread that runs a
scheduler on its own, and with those who wake its tasks. -/
theorem asleep_owed :
    (∀ vigil : Vigil, vigil.Reachable → ∀ thread worker,
      vigil.crowd.pool.workers[thread]? = some worker →
        worker.phase = .waiting ∨ worker.phase = .parked → worker.token = false →
          (worker.woken ≠ [] → thread ∈ vigil.callers) ∧
            (worker.commands ≠ [] → vigil.crowd.OwesCommand thread) ∧
              (vigil.crowd.pool.stopping = true → vigil.crowd.OwesShutdown thread)) ∧
      ∀ lookout : Lookout, lookout.Reachable → lookout.spot = .waiting →
        lookout.scheduler.mailroom.token = false → lookout.scheduler.mailroom.woken ≠ [] →
          0 < lookout.callers := by
  refine ⟨fun vigil reachable thread worker present sleeps token =>
    (reachable.covered thread worker present).asleep sleeps token,
    fun lookout reachable sleeps token called => ?_⟩
  rcases reachable.covered called with ticking | ended | there | owes
  · exact absurd (sleeps.symm.trans ticking) nofun
  · exact absurd (sleeps.symm.trans ended) nofun
  · exact absurd (token.symm.trans there) nofun
  · exact owes

/-- A thread finds nothing to do and sleeps. Then a task is sent to it, one is woken, and the pool
shuts down, and the tokens for all three are still to be given. -/
def drowsing : List Event :=
  [.begin (.turn 0), .begin (.turn 0), .begin (.turn 0), .finish 0 [], .begin (.turn 0),
    .begin (.ask default), .begin (.proceed 0 0), .begin (.proceed 0 0), .begin (.proceed 0 0),
    .wake 0 ⟨5⟩, .begin .shutDown]

theorem Reachable.run {events : List Event} (reachable : vigil.Reachable)
    (runs : vigil.run events = some next) : next.Reachable := by
  induction events generalizing vigil with
  | nil => exact Option.some.inj runs ▸ reachable
  | cons event rest inductionHypothesis =>
    obtain ⟨middle, occurs, goesOn⟩ := Option.bind_eq_some_iff.mp runs
    exact inductionHypothesis (reachable.occur occurs) goesOn

/-- A scheduler with a timer, and nothing to run. -/
def awaiting : Scheduler :=
  { Scheduler.new .standard 0 with
    agenda := ((Scheduler.new .standard 0).agenda.start 0 5 none ⟨1⟩).1 }

/-- The thread sleeps, and is owed its token for each of the three; and so is a thread with a
scheduler of its own, when a task was woken. -/
theorem drowsing_owed :
    (∃ (vigil : Vigil) (worker : Worker), vigil.Reachable ∧
      vigil.crowd.pool.workers[0]? = some worker ∧
      worker.phase = .parked ∧ worker.token = false ∧ worker.woken = [⟨5⟩] ∧
      0 ∈ vigil.callers ∧ vigil.crowd.OwesCommand 0 ∧ vigil.crowd.OwesShutdown 0) ∧
    ∃ lookout : Lookout, lookout.Reachable ∧ lookout.spot = .waiting ∧ 0 < lookout.callers := by
  refine ⟨?_, ?_⟩
  · have known : (((start (.start 1 .standard 0 fun _ => [])).run drowsing).bind fun vigil =>
        vigil.crowd.pool.workers[0]?.bind fun worker =>
          match worker.phase with
          | .parked => some (vigil.crowd.pool.stopping, worker.token, worker.woken,
              worker.commands.length)
          | _ => none) = some (true, false, [⟨5⟩], 1) := by decide +kernel
    obtain ⟨vigil, runs, is⟩ := Option.bind_eq_some_iff.mp known
    obtain ⟨worker, present, is⟩ := Option.bind_eq_some_iff.mp is
    split at is
    · rename_i parked
      obtain ⟨stopping, is⟩ := Prod.mk.inj (Option.some.inj is)
      obtain ⟨token, is⟩ := Prod.mk.inj is
      obtain ⟨woken, sent⟩ := Prod.mk.inj is
      have reachable : vigil.Reachable := (Reachable.start _ _ _ _).run runs
      obtain ⟨called, commanded, stops⟩ :=
        asleep_owed.1 vigil reachable 0 worker present (Or.inr parked) token
      refine ⟨vigil, worker, reachable, present, parked, token, woken, called ?_, commanded ?_,
        stops stopping⟩
      · rw [woken]
        exact nofun
      · exact List.ne_nil_of_length_pos (sent ▸ Nat.one_pos)
    · exact absurd is nofun
  · have takes : Lookout.Occurs ⟨awaiting, .ticking, 0⟩ ⟨awaiting, .passing, 0⟩ := ⟨.take, rfl⟩
    have finishes : Lookout.Occurs ⟨awaiting, .passing, 0⟩ ⟨awaiting, .waiting, 0⟩ :=
      ⟨.finish, rfl⟩
    have wakes : Lookout.Occurs ⟨awaiting, .waiting, 0⟩
        ⟨{ awaiting with mailroom := ⟨#[], [⟨1⟩], false⟩ }, .waiting, 1⟩ := ⟨.wake ⟨1⟩, rfl⟩
    have reachable : Lookout.Reachable _ :=
      ⟨awaiting, 0, .tail (.tail (.single takes) finishes) wakes⟩
    exact ⟨_, reachable, rfl, asleep_owed.2 _ reachable rfl rfl nofun⟩

end Vigil

end TaskMachine
