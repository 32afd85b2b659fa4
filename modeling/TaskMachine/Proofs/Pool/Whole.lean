/-
Acts that nobody interrupts. A crowd does a whole pass in one act, and a message
that is sent has woken its task and given the token when the act is over. Taken
apart into single steps, each act of a crowd is a run of these: a pass takes the
woken tasks, wakes some others, whatever its tasks do, and hands over what the
embedder sends to other threads, before it comes to its end.

So whatever comes of a crowd can come about step by step, and no thread of it
sleeps while tasks of it are woken.
-/

import TaskMachine.Proofs.Pool.Vigil

namespace TaskMachine

namespace Pool

variable {pool next : Pool} {thread index : Nat} {worker later : Worker}
  {change other : Mailroom → Mailroom}

/-! ### Changes of one thread -/

/-- Two pools are the same if their threads are, one by one, and all else is. -/
theorem eq_of_workers (workers : ∀ place : Nat, next.workers[place]? = pool.workers[place]?)
    (rest : { next with workers := pool.workers } = pool) : next = pool := by
  rw [← Array.ext_getElem? workers] at rest
  exact rest

/-- Only the mailroom that is there counts. -/
theorem onMailroom_congr (same : ∀ worker, pool.workers[thread]? = some worker →
      change worker.scheduler.mailroom = other worker.scheduler.mailroom) :
    pool.onMailroom thread change = pool.onMailroom thread other := by
  refine eq_of_workers (fun place => ?_) rfl
  rw [getElem?_onMailroom, getElem?_onMailroom]
  refine Option.map_congr fun worker working => ?_
  split
  · rename_i is
    rw [same worker (is ▸ working)]
  · rfl

theorem onMailroom_congr_at (working : pool.workers[thread]? = some worker)
    (same : change worker.scheduler.mailroom = other worker.scheduler.mailroom) :
    pool.onMailroom thread change = pool.onMailroom thread other :=
  onMailroom_congr fun _ there => Option.some.inj (working.symm.trans there) ▸ same

theorem onMailroom_id (pool : Pool) (thread : Nat) :
    (pool.onMailroom thread fun room => room) = pool := by
  refine eq_of_workers (fun place => ?_) rfl
  rw [getElem?_onMailroom]
  exact (Option.map_congr fun _ _ => ite_self _).trans Option.map_id'

theorem onMailroom_onMailroom (pool : Pool) (thread : Nat) (change other : Mailroom → Mailroom) :
    (pool.onMailroom thread change).onMailroom thread other =
      pool.onMailroom thread fun room => other (change room) := by
  refine eq_of_workers (fun place => ?_) rfl
  rw [getElem?_onMailroom, getElem?_onMailroom, getElem?_onMailroom, Option.map_map]
  by_cases is : thread = place
  · simp only [is, Function.comp_def, if_true]
  · simp only [if_neg is, Function.comp_def]

theorem size_onMailroom (pool : Pool) (thread : Nat) (change : Mailroom → Mailroom) :
    (pool.onMailroom thread change).workers.size = pool.workers.size := Array.size_modify

theorem getElem?_setWorker (pool : Pool) (thread place : Nat) (worker : Worker) :
    (pool.setWorker thread worker).workers[place]? =
      if thread = place then if thread < pool.workers.size then some worker else none
      else pool.workers[place]? := Array.getElem?_setIfInBounds

theorem setWorker_setWorker (pool : Pool) (thread : Nat) (worker later : Worker) :
    (pool.setWorker thread worker).setWorker thread later = pool.setWorker thread later := by
  simp only [setWorker, Array.setIfInBounds_setIfInBounds]

theorem setWorker_of_onMailroom (pool : Pool) (thread : Nat) (change : Mailroom → Mailroom)
    (later : Worker) :
    (pool.onMailroom thread change).setWorker thread later = pool.setWorker thread later := by
  refine eq_of_workers (fun place => ?_) rfl
  rw [getElem?_setWorker, getElem?_setWorker, getElem?_onMailroom, size_onMailroom]
  by_cases is : thread = place
  · rw [if_pos is, if_pos is]
  · simp only [if_neg is, Option.map_id']

/-- What goes to other threads does not depend on this one. -/
theorem setWorker_onMailroom (pool : Pool) (differ : index ≠ thread) (change : Mailroom → Mailroom)
    (worker : Worker) : (pool.setWorker thread worker).onMailroom index change =
      (pool.onMailroom index change).setWorker thread worker := by
  refine eq_of_workers (fun place => ?_) rfl
  rw [getElem?_onMailroom, getElem?_setWorker, getElem?_setWorker, getElem?_onMailroom,
    size_onMailroom]
  by_cases is : thread = place
  · have apart : index ≠ place := is ▸ differ
    simp only [if_pos is, if_neg apart, Option.map_id']
  · rw [if_neg is, if_neg is]

theorem setWorker_deliverAll (pool : Pool) (worker : Worker) {parcels : List Parcel}
    (differ : ∀ parcel ∈ parcels, parcel.worker ≠ thread) :
    parcels.foldl deliver (pool.setWorker thread worker) =
      (parcels.foldl deliver pool).setWorker thread worker := by
  induction parcels generalizing pool with
  | nil => rfl
  | cons parcel rest inductionHypothesis =>
    have first : (pool.setWorker thread worker).deliver parcel =
        (pool.deliver parcel).setWorker thread worker :=
      pool.setWorker_onMailroom (differ parcel List.mem_cons_self)
        (fun room => room.send parcel.letter.mailbox parcel.letter.message) worker
    rw [List.foldl_cons, List.foldl_cons, first]
    exact inductionHypothesis _ fun other member => differ other (List.mem_cons_of_mem _ member)

/-- To send a message is to put it in its inbox, and to wake somebody of the thread or nobody. -/
theorem deliver_eq (pool : Pool) (parcel : Parcel) :
    let put := pool.onMailroom parcel.worker fun room =>
      room.put parcel.letter.mailbox parcel.letter.message
    pool.deliver parcel = put ∨ ∃ worker owner, put.workers[parcel.worker]? = some worker ∧
      pool.deliver parcel = put.onMailroom parcel.worker fun room => room.wake owner := by
  intro put
  have sends : pool.deliver parcel = pool.onMailroom parcel.worker fun room =>
    room.send parcel.letter.mailbox parcel.letter.message := rfl
  rw [sends]
  cases working : pool.workers[parcel.worker]? with
  | none =>
    exact Or.inl (onMailroom_congr fun _ there => absurd (working.symm.trans there) nofun)
  | some worker =>
    rcases worker.scheduler.mailroom.send_eq parcel.letter.mailbox parcel.letter.message with
      same | ⟨owner, same⟩
    · exact Or.inl (onMailroom_congr_at working same)
    · have there : put.workers[parcel.worker]? = _ := pool.getElem?_onMailroom _ _ _
      rw [working, Option.map_some] at there
      refine Or.inr ⟨_, owner, there, ?_⟩
      rw [onMailroom_onMailroom]
      exact onMailroom_congr_at working same

theorem worker_ne_of_mem_outward {notices : List Notice} {parcel : Parcel}
    (member : parcel ∈ pool.outward index notices) : parcel.worker ≠ index := by
  induction notices with
  | nil => exact absurd member List.not_mem_nil
  | cons notice earlier inductionHypothesis =>
    rcases List.mem_append.mp member with before | now
    · exact inductionHypothesis before
    · exact of_decide_eq_true (List.mem_filter.mp now).2

end Pool

namespace Vigil

variable {vigil next : Vigil} {thread : Nat} {worker : Worker}

/-! ### Runs of steps -/

/-- What a step can lead to. -/
def Occurs (vigil next : Vigil) : Prop := ∃ event, vigil.occur event = some next

/-- What a run of steps can lead to. -/
def Reaches : Vigil → Vigil → Prop := Relation.ReflTransGen Occurs

theorem Reachable.reaches (reachable : vigil.Reachable) (reaches : vigil.Reaches next) :
    next.Reachable := by
  induction reaches with
  | refl => exact reachable
  | tail _ occurs inductionHypothesis =>
    obtain ⟨event, occurs⟩ := occurs
    exact inductionHypothesis.occur occurs

/-- To wake a task, with the token if it is to be given, is a run of steps. -/
theorem reaches_wake (vigil : Vigil) {pool : Pool} (working : pool.workers[thread]? = some worker)
    (id : TaskId) : (vigil.inPool pool).Reaches
      (vigil.inPool (pool.onMailroom thread fun room => room.wake id)) := by
  have eq := worker.scheduler.mailroom.wake_eq id
  cases new : (worker.scheduler.mailroom.addWoken id).2 with
  | true =>
    rw [new, if_pos rfl] at eq
    have adds : (vigil.inPool pool).occur (.wake thread id) = some
        { vigil.inPool (pool.onMailroom thread fun room => (room.addWoken id).1) with
          callers := thread :: vigil.callers } := by
      simp only [occur, inPool, working, Option.bind_eq_bind, Option.bind_some, new, if_true]
    refine .head ⟨_, adds⟩ (.single ⟨.unpark thread, ?_⟩)
    simp only [occur, List.mem_cons_self, if_true, List.erase_cons_head]
    refine congrArg (fun pool => some (vigil.inPool pool)) ?_
    exact (Pool.onMailroom_onMailroom _ thread _ Mailroom.unpark).trans
      (Pool.onMailroom_congr_at working eq.symm)
  | false =>
    rw [new] at eq
    refine .single ⟨.wake thread id, ?_⟩
    simp only [occur, inPool, working, Option.bind_eq_bind, Option.bind_some, new]
    exact congrArg (fun pool => some (vigil.inPool pool))
      (Pool.onMailroom_congr_at working eq.symm)

theorem reaches_wakes (vigil : Vigil) {pool : Pool} (working : pool.workers[thread]? = some worker)
    (ids : List TaskId) : (vigil.inPool pool).Reaches
      (vigil.inPool (pool.onMailroom thread fun room => ids.foldl .wake room)) := by
  induction ids generalizing pool worker with
  | nil =>
    show (vigil.inPool pool).Reaches (vigil.inPool (pool.onMailroom thread fun room => room))
    rw [pool.onMailroom_id thread]
    exact .refl
  | cons first rest inductionHypothesis =>
    have there := pool.getElem?_onMailroom thread thread fun room => room.wake first
    rw [working, Option.map_some] at there
    have goesOn := inductionHypothesis there
    rw [Pool.onMailroom_onMailroom] at goesOn
    exact (vigil.reaches_wake working first).trans goesOn

/-- To send a message is a run of steps. -/
theorem reaches_deliver (vigil : Vigil) (pool : Pool) (parcel : Parcel) :
    (vigil.inPool pool).Reaches (vigil.inPool (pool.deliver parcel)) := by
  have puts : (vigil.inPool pool).Reaches (vigil.inPool (pool.onMailroom parcel.worker fun room =>
      room.put parcel.letter.mailbox parcel.letter.message)) :=
    .single ⟨.begin (.deliver parcel), rfl⟩
  rcases pool.deliver_eq parcel with same | ⟨worker, owner, working, same⟩
  · exact same ▸ puts
  · exact puts.trans (same ▸ vigil.reaches_wake working owner)

theorem reaches_deliverAll (vigil : Vigil) (pool : Pool) (parcels : List Parcel) :
    (vigil.inPool pool).Reaches (vigil.inPool (parcels.foldl .deliver pool)) := by
  induction parcels generalizing pool with
  | nil => exact .refl
  | cons parcel rest inductionHypothesis =>
    exact (vigil.reaches_deliver pool parcel).trans (inductionHypothesis _)

/-- A thread that is in the middle of a pass. -/
def inPass (vigil : Vigil) (pool : Pool) (thread : Nat) : Vigil :=
  { vigil.inPool pool with passing := thread :: vigil.passing }

/-- What a pass does before its end is a run of steps: whatever its tasks do, they can only wake
others. -/
theorem reaches_inPass (vigil : Vigil) (working : vigil.crowd.pool.workers[thread]? = some worker)
    (ticking : worker.phase = .ticking) (outside : thread ∉ vigil.passing)
    {scheduler : Scheduler} (heard : worker.scheduler.mailroom.takeWoken.1.Heard scheduler.mailroom)
    (nextId : TaskId) (notices : List Notice) :
    vigil.Reaches (vigil.inPass ({ vigil.crowd.pool with nextId, notices }.setWorker thread
      { worker with scheduler }) thread) := by
  obtain ⟨ids, woken, token⟩ := heard
  have takes : vigil.occur (.begin (.turn thread)) = some (vigil.inPass
      (vigil.crowd.pool.onMailroom thread fun room => room.takeWoken.1) thread) := by
    simp only [occur, begin, working, Option.bind_eq_bind, Option.bind_some, ticking,
      if_neg outside]
    rfl
  have taken := vigil.crowd.pool.getElem?_onMailroom thread thread fun room => room.takeWoken.1
  rw [working, Option.map_some, if_pos rfl] at taken
  have wakes := (vigil.inPass vigil.crowd.pool thread).reaches_wakes taken ids
  rw [Pool.onMailroom_onMailroom] at wakes
  have there := vigil.crowd.pool.getElem?_onMailroom thread thread
    fun room => ids.foldl .wake room.takeWoken.1
  rw [working, Option.map_some, if_pos rfl] at there
  refine .head ⟨_, takes⟩ (wakes.tail ⟨.work thread scheduler nextId notices, ?_⟩)
  refine (Option.bind_eq_some_iff.mpr
    ⟨_, there, if_pos ⟨List.mem_cons_self, woken, token⟩⟩).trans ?_
  exact congrArg (fun pool => some (vigil.inPass pool thread))
    (Pool.setWorker_of_onMailroom { vigil.crowd.pool with nextId, notices } thread
      (fun room => ids.foldl .wake room.takeWoken.1) { worker with scheduler })

theorem leavePass_inPass (vigil : Vigil) (pool : Pool) (outside : thread ∉ vigil.passing)
    (later : Worker) : (vigil.inPass pool thread).leavePass thread later =
      vigil.inPool (pool.setWorker thread later) := by
  have others : (thread :: vigil.passing).filter (fun other => other ≠ thread) =
      vigil.passing := by
    rw [List.filter_cons_of_neg (by simp), List.filter_eq_self]
    exact fun other passes => decide_eq_true fun is => outside (is ▸ passes)
  exact congrArg (fun passing => { vigil.inPool (pool.setWorker thread later) with passing }) others

/-- A pass that nobody interrupts is a run of steps, however it ends. -/
theorem reaches_pass (vigil : Vigil) (working : vigil.crowd.pool.workers[thread]? = some worker)
    (ticking : worker.phase = .ticking) (outside : thread ∉ vigil.passing) {pool : Pool}
    (steps : vigil.crowd.pool.step thread = some pool) : vigil.Reaches (vigil.inPool pool) := by
  obtain ⟨within, _⟩ := Array.getElem?_eq_some_iff.mp working
  rw [Pool.step, working] at steps
  simp only [Option.bind_eq_bind, Option.bind_some, ticking] at steps
  obtain ⟨scheduler, later, is, outcome⟩ := Pool.operate_eq vigil.crowd.pool thread worker
    Scheduler.tick fun tick due after =>
      { after with phase := .counting due (Pool.phaseAfter tick) }
  rw [is] at steps
  obtain rfl := Option.some.inj steps
  have after := Scheduler.after_tick_hears (vigil.crowd.pool.readied thread worker.scheduler)
  have heard : worker.scheduler.mailroom.takeWoken.1.Heard scheduler.mailroom := by
    rcases outcome with ⟨answer, runs, _⟩ | ⟨crash, runs, _⟩
    · exact (after.ok runs).1
    · exact after.error runs
  have passes := vigil.reaches_inPass working ticking outside heard scheduler.nextId
    (Pool.invocations scheduler.notices ++ vigil.crowd.pool.notices)
  have delivers := (vigil.inPass vigil.crowd.pool thread).reaches_deliverAll
    ({ vigil.crowd.pool with
        nextId := scheduler.nextId
        notices := Pool.invocations scheduler.notices ++ vigil.crowd.pool.notices }.setWorker
      thread { worker with scheduler })
    (vigil.crowd.pool.outward thread scheduler.notices)
  rw [Pool.setWorker_deliverAll _ _ fun _ => Pool.worker_ne_of_mem_outward] at delivers
  refine (passes.trans delivers).tail ?_
  -- What the embedder sends to others has arrived, and the pass comes to its end.
  have told : vigil.crowd.pool.OnlyMailed (· = thread)
      (vigil.crowd.pool.operated thread scheduler) :=
    vigil.crowd.pool.onlyMailed_operated thread scheduler
  have there := (vigil.crowd.pool.operated thread scheduler).getElem?_setWorker_self
    (told.size ▸ within) { worker with scheduler }
  have leaves : (vigil.inPass ((vigil.crowd.pool.operated thread scheduler).setWorker thread
      { worker with scheduler }) thread).leavePass thread later =
        vigil.inPool ((vigil.crowd.pool.operated thread scheduler).setWorker thread later) := by
    rw [vigil.leavePass_inPass _ outside, Pool.setWorker_setWorker]
  rw [← leaves]
  rcases outcome with ⟨answer, runs, rfl⟩ | ⟨crash, _, rfl⟩
  · obtain ⟨_, rfl⟩ := after.ok runs
    refine ⟨.finish thread (Pool.endings scheduler.notices.reverse), ?_⟩
    exact Option.bind_eq_some_iff.mpr ⟨_, there, if_pos List.mem_cons_self⟩
  · refine ⟨.fail thread crash, ?_⟩
    exact Option.bind_eq_some_iff.mpr ⟨_, there, if_pos List.mem_cons_self⟩

/-- A step of a thread that nobody interrupts is a run of steps. -/
theorem reaches_step (vigil : Vigil) (outside : thread ∉ vigil.passing) {pool : Pool}
    (steps : vigil.crowd.pool.step thread = some pool) : vigil.Reaches (vigil.inPool pool) := by
  obtain ⟨worker, working, _⟩ := Option.bind_eq_some_iff.mp steps
  cases phase : worker.phase with
  | ticking => exact vigil.reaches_pass working phase outside steps
  | checking | receiving | counting | filling | waiting | parked | draining | closing | stopped
    | crashed =>
    refine .single ⟨.begin (.turn thread), ?_⟩
    simp only [occur, begin, working, Option.bind_eq_bind, Option.bind_some, phase, steps,
      Option.map_some]

/-- Each act that nobody interrupts is a run of steps. -/
theorem reaches_act {crowd after : Crowd} {act : Act} (acts : crowd.act act = some after) :
    (start crowd).Reaches (start after) := by
  have begins (same : (start crowd).begin act = (crowd.act act).map start) :
      (start crowd).Reaches (start after) := by
    refine .single ⟨.begin act, ?_⟩
    rw [occur, same, acts]
    rfl
  cases act with
  | turn thread =>
    obtain ⟨pool, steps, goes⟩ := Option.bind_eq_some_iff.mp acts
    split at goes
    · exact absurd goes (Option.some_ne_none after).symm
    · exact Option.some.inj goes ▸ (start crowd).reaches_step List.not_mem_nil steps
  | deliver parcel =>
    obtain rfl := Option.some.inj acts
    exact (start crowd).reaches_deliver crowd.pool parcel
  | ask function => exact begins rfl
  | proceed errand thread => exact begins rfl
  | shutDown => exact begins rfl
  | elapse duration => exact begins rfl
  | poll handle waker => exact begins rfl

end Vigil

/-- What comes of a crowd can come about step by step. -/
theorem Crowd.Reachable.vigil {crowd : Crowd} (reachable : crowd.Reachable) :
    (Vigil.start crowd).Reachable := by
  induction reachable with
  | start threads config patience respond => exact .start threads config patience respond
  | act _ acts inductionHypothesis => exact inductionHypothesis.reaches (Vigil.reaches_act acts)

/-- While no act is under way, no thread sleeps without its token whose tasks were woken; and if
tasks were sent to it or the pool shuts down, somebody is still to give it the token. -/
theorem Crowd.Reachable.asleep {crowd : Crowd} {thread : Nat} {worker : Worker}
    (reachable : crowd.Reachable) (present : crowd.pool.workers[thread]? = some worker)
    (sleeps : worker.phase = .waiting ∨ worker.phase = .parked) (token : worker.token = false) :
    worker.woken = [] ∧ (worker.commands ≠ [] → crowd.OwesCommand thread) ∧
      (crowd.pool.stopping = true → crowd.OwesShutdown thread) := by
  obtain ⟨called, sent, stops⟩ :=
    (reachable.vigil.covered thread worker present).asleep sleeps token
  exact ⟨Decidable.byContradiction fun woken => absurd (called woken) List.not_mem_nil, sent, stops⟩

end TaskMachine
