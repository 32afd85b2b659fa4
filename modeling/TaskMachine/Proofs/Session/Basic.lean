/-
What an embedder does with a scheduler, one operation after another. A `Session`
is a scheduler with what the embedder has to remember to use it rightly: which
references it holds, as often as it holds them, and which tasks it has created
but not scheduled. An embedder may ask for anything but two things: to insert a
task under a number that was never handed out, and to release a task that it
does not hold. An operation that is refused leaves what it had changed by then,
and the session goes on.

`Session.after_perform` says what every operation does to a sound scheduler, and
`Session.Reachable.sound` that every session has one.
-/

import TaskMachine.Proofs.Scheduler.Passes
import TaskMachine.Proofs.Scheduler.Preserved

namespace TaskMachine

/-- What an embedder can ask of a scheduler. -/
inductive Operation where
  | createTask (function : Function) (parent : Option TaskId)
  | spawn (function : Function) (parent : Option TaskId)
  | takeId
  | openInbox (owner : TaskId)
  | insertTask (id : TaskId) (function : Function) (parent : Option TaskId) (mailbox : Mailbox)
  | schedule (id : TaskId)
  | setFlags (id : TaskId) (flags : Flags)
  | watch (id : TaskId) (watcher : Nat)
  | retain (id : TaskId)
  | release (id : TaskId)
  | send (id : TaskId) (value : Value) (sender : Option TaskId)
  | post (mailbox : Mailbox) (message : Message)
  | wake (id : TaskId)
  | unpark
  | park
  | advanceClock (duration : Nat)
  | step
  | tick
  | wait
  | rest
  | run (passes : Nat)

namespace Operation

/-- What is done, whatever the answer is. -/
def perform : Operation → Scheduling Unit
  | createTask function parent => do let _ ← Scheduler.createTask function parent
  | spawn function parent => do let _ ← Scheduler.spawn function parent
  | takeId => do let _ ← Scheduler.takeId
  | openInbox owner => do let _ ← Scheduler.openInbox owner
  | insertTask id function parent mailbox => Scheduler.insertTask id function parent mailbox
  | schedule id => Scheduler.schedule id
  | setFlags id flags => Scheduler.setFlags id flags
  | watch id watcher => do let _ ← Scheduler.watch id watcher
  | retain id => Scheduler.retain id
  | release id => Scheduler.release id
  | send id value sender => do let _ ← Scheduler.send id value sender
  | post mailbox message => Scheduler.post mailbox message
  | wake id => Scheduler.wake id
  | unpark => Scheduler.unpark
  | park => do let _ ← Scheduler.takeToken
  | advanceClock duration => Scheduler.advanceClock duration
  | step => do let _ ← Scheduler.step
  | tick => do let _ ← Scheduler.tick
  | wait => Scheduler.wait
  | rest => Scheduler.rest
  | run passes => do let _ ← Scheduler.runWithin passes

/-- Whether tasks get turns in an operation. -/
def givesTurns : Operation → Bool
  | step | tick | run _ => true
  | _ => false

/-- What lasts is kept by every operation, if that is so of the task that one may insert. If tasks
have turns in an operation that breaks off, this is said in a given case only. -/
theorem after_perform_lasting {kept : Scheduler → Prop} {broken : Prop} {scheduler : Scheduler}
    (lasting : Scheduler.Lasting kept broken) (operation : Operation) (holds : kept scheduler)
    (inserts : ∀ id function parent mailbox, operation = .insertTask id function parent mailbox →
      After (Scheduler.insertTask id function parent mailbox) scheduler (fun _ => kept)
        fun _ => kept) :
    After operation.perform scheduler (fun _ => kept)
      fun _ next => broken ∨ operation.givesTurns = false → kept next := by
  have drops {Result : Type} {operation : Scheduling Result} {broken : Prop}
      (preserves : Scheduler.Preserves kept broken operation) :
      Scheduler.Preserves kept broken (do let _ ← operation) :=
    preserves.bind fun _ => .pure ()
  have turns {operation : Scheduling Unit} (preserves : Scheduler.Preserves kept broken operation) :
      Scheduler.Preserves kept (broken ∨ true = false) operation := fun scheduler holds =>
    (preserves scheduler holds).mono (fun _ _ => id) fun _ _ kept either =>
      kept (either.resolve_right nofun)
  cases operation with
  | createTask function parent => exact drops (lasting.preserves_createTask function parent) _ holds
  | spawn function parent => exact drops (lasting.preserves_spawn function parent) _ holds
  | takeId => exact drops lasting.preserves_takeId _ holds
  | openInbox owner => exact drops (lasting.preserves_openInbox owner) _ holds
  | insertTask id function parent mailbox =>
    exact (inserts id function parent mailbox rfl).mono (fun _ _ holds => holds)
      fun _ _ holds _ => holds
  | schedule id => exact lasting.preserves_schedule id _ holds
  | setFlags id flags => exact lasting.preserves_setFlags id flags _ holds
  | watch id watcher => exact drops (lasting.preserves_watch id watcher) _ holds
  | retain id => exact lasting.preserves_retain id _ holds
  | release id => exact lasting.preserves_release id _ holds
  | send id value sender => exact drops (lasting.preserves_send id value sender) _ holds
  | post mailbox message => exact lasting.preserves_post mailbox message _ holds
  | wake id => exact lasting.preserves_wake id _ holds
  | unpark => exact lasting.tokenless.preserves_unpark _ holds
  | park => exact drops lasting.tokenless.preserves_takeToken _ holds
  | advanceClock duration =>
    exact After.modify (lasting.retimes scheduler.agenda _ holds)
  | step => exact turns (drops lasting.preserves_step) _ holds
  | tick => exact turns (drops lasting.preserves_tick) _ holds
  | wait => exact lasting.preserves_wait lasting.tokenless _ holds
  | rest => exact lasting.preserves_rest _ holds
  | run passes => exact turns (drops (lasting.preserves_runWithin passes)) _ holds

end Operation

/-- A scheduler in use. -/
structure Session where
  scheduler : Scheduler
  /-- The tasks that the embedder holds, each as often as it holds it. -/
  held : List TaskId
  /-- The tasks that the embedder has created or inserted, and not scheduled since. -/
  unscheduled : List TaskId

namespace Session

/-- A scheduler at the start. -/
def start (config : Config) (patience : Nat) (respond : List Notice → List Letter) : Session :=
  { scheduler := { Scheduler.new config patience with respond }
    held := []
    unscheduled := [] }

/-- What the embedder may ask for. -/
def Permits (session : Session) : Operation → Prop
  | .insertTask id _ _ _ => id.number < session.scheduler.nextId.number
  | .release id => id ∈ session.held
  | _ => True

/-- What the embedder holds after an operation. -/
def heldAfter (session : Session) : Operation → List TaskId
  | .retain id => id :: session.held
  | .release id => session.held.erase id
  | _ => session.held

/-- What has not been scheduled after an operation. -/
def unscheduledAfter (session : Session) : Operation → List TaskId
  | .createTask _ _ => session.scheduler.nextId :: session.unscheduled
  | .insertTask id _ _ _ => id :: session.unscheduled
  | .schedule id => session.unscheduled.filter (· ≠ id)
  | _ => session.unscheduled

/-- One operation, which succeeds or is refused. One that has no end is none. -/
inductive Step (session : Session) (operation : Operation) : Session → Prop
  | success {scheduler : Scheduler} (permitted : session.Permits operation)
      (succeeds : operation.perform session.scheduler = .ok ⟨⟩ scheduler) :
      Step session operation
        ⟨scheduler, session.heldAfter operation, session.unscheduledAfter operation⟩
  | refusal {crash : Crash} {scheduler : Scheduler} (permitted : session.Permits operation)
      (breaks : operation.perform session.scheduler = .error crash scheduler)
      (ends : crash ≠ .endless) :
      Step session operation ⟨scheduler, session.held, session.unscheduled⟩

/-- What can come of a scheduler. -/
inductive Reachable : Session → Prop
  | start (config : Config) (patience : Nat) (respond : List Notice → List Letter) :
      Reachable (start config patience respond)
  | step {session next : Session} {operation : Operation} (reachable : Reachable session)
      (steps : session.Step operation next) : Reachable next

/-- The session after an operation. -/
def continued (session : Session) (operation : Operation) : Session :=
  match operation.perform session.scheduler with
  | .ok _ scheduler =>
    ⟨scheduler, session.heldAfter operation, session.unscheduledAfter operation⟩
  | .error _ scheduler => ⟨scheduler, session.held, session.unscheduled⟩

/-- Whether an operation has an end. -/
def hasEnd (session : Session) (operation : Operation) : Bool :=
  match operation.perform session.scheduler with
  | .error .endless _ => false
  | _ => true

theorem step_continued {session : Session} {operation : Operation}
    (permitted : session.Permits operation) (ends : session.hasEnd operation = true) :
    session.Step operation (session.continued operation) := by
  rw [Session.continued]
  cases performs : operation.perform session.scheduler with
  | ok result scheduler => exact .success permitted performs
  | error crash scheduler =>
    refine .refusal permitted performs ?_
    rintro rfl
    rw [hasEnd, performs] at ends
    exact absurd ends nofun

theorem Reachable.continued {session : Session} {operation : Operation}
    (reachable : session.Reachable) (permitted : session.Permits operation)
    (ends : session.hasEnd operation = true) : (session.continued operation).Reachable :=
  .step reachable (step_continued permitted ends)

/-- The scheduler is sound. -/
def Sound (session : Session) : Prop :=
  session.scheduler.Settled session.scheduler [] session.held session.unscheduled

theorem sound_start (config : Config) (patience : Nat) (respond : List Notice → List Letter) :
    (start config patience respond).Sound :=
  ⟨fun _ => [], Roster.counted_empty, Roster.queued_empty, fun _ _ found => absurd found nofun,
    Scheduler.Since.refl _⟩

/-! ### What operations do -/

/-- After an operation that succeeded a scheduler is sound, and no task has ended unless tasks had
turns. -/
def Fulfilled (session : Session) (operation : Operation) (next : Scheduler) : Prop :=
  ∃ ended, (operation.givesTurns = false → ended = []) ∧
    next.Settled session.scheduler ended (session.heldAfter operation)
      (session.unscheduledAfter operation)

/-- An operation breaks off only if it is refused, or has no end. -/
def Broken (session : Session) (lists : Lane → List Slot) (operation : Operation) (crash : Crash)
    (next : Scheduler) : Prop :=
  Scheduler.Refused session.scheduler [] lists session.held session.unscheduled crash next ∨
    crash = .endless ∧ operation.givesTurns = true ∧
      (session.scheduler.config.execLimit = 0 ∨ ∃ passes, operation = .run passes)

section

variable {session : Session} {lists : Lane → List Slot}

theorem after_perform
    (sound : session.scheduler.Sound session.scheduler [] lists session.held session.unscheduled
      none none) (operation : Operation) (permitted : session.Permits operation) :
    After operation.perform session.scheduler (fun _ => session.Fulfilled operation)
      (session.Broken lists operation) := by
  have quiet {operation : Operation} {scheduler : Scheduler} {lists : Lane → List Slot}
      (sound : scheduler.Sound session.scheduler [] lists (session.heldAfter operation)
        (session.unscheduledAfter operation) none none) : session.Fulfilled operation scheduler :=
    ⟨[], fun _ => rfl, lists, sound⟩
  have talks (operation : Operation) (change : Mailroom → Unit × Mailroom)
      (held : session.heldAfter operation = session.held)
      (unscheduled : session.unscheduledAfter operation = session.unscheduled) :
      After (Scheduler.onMailroom change) session.scheduler (fun _ => session.Fulfilled operation)
        (session.Broken lists operation) :=
    Scheduler.after_onMailroom fun _ room => quiet (by
      rw [held, unscheduled]
      exact sound.mailroom room)
  cases operation with
  | createTask function parent =>
    refine After.bind ((sound.after_createTask function parent).mono (fun _ next made => ?_)
      fun _ _ => Or.inl)
    obtain ⟨rfl, created, _⟩ := made
    exact After.pure (quiet created)
  | spawn function parent =>
    refine After.bind ((sound.after_spawn function parent).mono (fun _ next settled => ?_)
      fun _ _ => Or.inl)
    exact After.pure ⟨[], fun _ => rfl, settled⟩
  | takeId => exact After.bind (After.modifyGet (After.pure (quiet sound.takeId)))
  | openInbox owner =>
    exact After.bind (Scheduler.after_onMailroom fun _ room =>
      After.pure (quiet (sound.mailroom room)))
  | insertTask id function parent mailbox =>
    exact (sound.after_insertTask permitted).mono (fun _ _ made => quiet made.1) fun _ _ => Or.inl
  | schedule id =>
    refine (sound.after_schedule fun other differ member => ?_).mono
      (fun _ _ settled => ⟨[], fun _ => rfl, settled⟩) fun _ _ refused => Or.inl refused.1
    exact List.mem_filter.mpr ⟨member, by simpa using differ⟩
  | setFlags id flags =>
    exact (sound.after_setFlags id flags).mono (fun _ _ kept => quiet kept) fun _ _ => Or.inl
  | watch id watcher =>
    refine After.bind ((sound.after_watch id watcher).mono (fun _ _ watched => ?_)
      fun _ _ => False.elim)
    exact After.pure (quiet watched)
  | retain id => exact (sound.after_retain id).mono (fun _ _ kept => quiet kept) fun _ _ => Or.inl
  | release id =>
    exact (sound.after_release permitted).mono (fun _ _ kept => quiet kept) fun _ _ => False.elim
  | send id value sender =>
    refine After.bind (After.bind (After.get ?_))
    cases session.scheduler.mailbox? id with
    | none => exact After.pure (After.pure (quiet sound))
    | some mailbox =>
      exact After.bind ((talks (.send id value sender) _ rfl rfl).imp fun _ _ sent =>
        After.pure (After.pure sent))
  | post mailbox message =>
    exact talks (.post mailbox message) (fun room => ((), room.send mailbox message)) rfl rfl
  | wake id => exact talks (.wake id) (fun room => ((), room.wake id)) rfl rfl
  | unpark => exact talks (.unpark) (fun room => ((), room.unpark)) rfl rfl
  | park =>
    exact After.bind (Scheduler.after_onMailroom fun _ room =>
      After.pure (quiet (sound.mailroom room)))
  | advanceClock duration =>
    exact After.modify (quiet (sound.congr rfl rfl rfl sound.oneShot rfl ⟨[], rfl⟩))
  | step =>
    refine After.bind (sound.after_step_settled.mono (fun _ _ settled => ?_) fun _ _ endless => ?_)
    · obtain ⟨ended, settled⟩ := settled
      exact After.pure ⟨ended, nofun, settled⟩
    · exact Or.inr ⟨endless.1, rfl, Or.inl endless.2⟩
  | tick =>
    refine After.bind (sound.after_tick.mono (fun _ _ settled => ?_) fun _ _ endless => ?_)
    · obtain ⟨ended, settled⟩ := settled
      exact After.pure ⟨ended, nofun, settled⟩
    · exact Or.inr ⟨endless.1, rfl, Or.inl endless.2⟩
  | wait =>
    exact sound.after_wait.mono (fun _ _ settled => ⟨[], fun _ => rfl, settled⟩)
      fun _ _ => False.elim
  | rest =>
    exact sound.after_rest.mono (fun _ _ settled => ⟨[], fun _ => rfl, settled⟩)
      fun _ _ => False.elim
  | run passes =>
    refine After.bind (sound.after_runWithin.mono (fun _ _ settled => ?_) fun _ _ endless => ?_)
    · obtain ⟨ended, settled⟩ := settled
      exact After.pure ⟨ended, nofun, settled⟩
    · exact Or.inr ⟨endless, rfl, Or.inr ⟨passes, rfl⟩⟩

end

/-- What a step leads to, and what has become of the tasks. -/
theorem Step.sound {session next : Session} {operation : Operation} (sound : session.Sound)
    (steps : session.Step operation next) :
    ∃ ended, (operation.givesTurns = false → ended = []) ∧
      next.scheduler.Settled session.scheduler ended next.held next.unscheduled := by
  obtain ⟨lists, sound⟩ := sound
  cases steps with
  | success permitted succeeds => exact (after_perform sound operation permitted).ok succeeds
  | refusal permitted breaks ends =>
    rcases (after_perform sound operation permitted).error breaks with refused | endless
    · exact ⟨[], fun _ => rfl, lists, refused.2⟩
    · exact absurd endless.1 ends

theorem Reachable.sound {session : Session} (reachable : session.Reachable) : session.Sound := by
  induction reachable with
  | start config patience respond => exact sound_start config patience respond
  | step _ steps inductionHypothesis =>
    obtain ⟨_, _, lists, sound⟩ := steps.sound inductionHypothesis
    exact ⟨lists, sound.restart⟩

/-! ### A thread that runs a scheduler -/

/-- The thread makes a pass, or sleeps. -/
def Attends (session next : Session) : Prop := session.Step .tick next ∨ session.Step .wait next

/-- A run of a thread that sleeps between its passes is one pass or sleep after another. It breaks
off only if it has no end. -/
theorem Sound.after_runWaiting {session : Session} (sound : session.Sound) (passes : Nat) :
    After (Scheduler.runWaiting passes) session.scheduler
      (fun _ next => Relation.ReflTransGen Attends session { session with scheduler := next })
      fun crash _ => crash = .endless := by
  induction passes generalizing session with
  | zero => exact After.throw rfl
  | succ passes inductionHypothesis =>
    obtain ⟨lists, sound⟩ := sound
    refine After.bind ((sound.after_tick.and After.known).mono (fun left middle ticked => ?_)
      fun _ _ fails => fails.1.1)
    obtain ⟨⟨ended, listsNow, soundNow⟩, ticks⟩ := ticked
    have passed : session.Attends { session with scheduler := middle } := by
      refine Or.inl (.success trivial ?_)
      show (Scheduler.tick >>= fun _ => (pure ⟨⟩ : Scheduling Unit)) session.scheduler = _
      rw [bind_apply, ticks]
      rfl
    have goesOn {now : Scheduler} {listsNow : Lane → List Slot} {ended : List Slot}
        (comes : Relation.ReflTransGen Attends session { session with scheduler := now })
        (soundNow : now.Sound session.scheduler ended listsNow session.held session.unscheduled
          none none) :
        After (Scheduler.runWaiting passes) now
          (fun _ next => Relation.ReflTransGen Attends session { session with scheduler := next })
          fun crash _ => crash = .endless := by
      have there : Sound { session with scheduler := now } := ⟨listsNow, soundNow.restart⟩
      exact (inductionHypothesis there).imp fun _ _ further => comes.trans further
    cases left with
    | busy => exact goesOn (.single passed) soundNow
    | idle => exact After.pure (.single passed)
    | waiting =>
      refine After.bind ((soundNow.after_wait.and After.known).mono (fun _ rested slept => ?_)
        fun _ _ fails => fails.1.elim)
      obtain ⟨⟨listsThen, soundThen⟩, waits⟩ := slept
      have sleeps : Attends { session with scheduler := middle }
          { session with scheduler := rested } := Or.inr (.success trivial waits)
      exact goesOn (.tail (.single passed) sleeps) soundThen

/-- So a thread comes to nothing that a session does not. -/
theorem Reachable.attends {session next : Session} (reachable : session.Reachable)
    (attends : Relation.ReflTransGen Attends session next) : next.Reachable := by
  induction attends with
  | refl => exact reachable
  | tail _ attends inductionHypothesis =>
    rcases attends with ticks | waits
    · exact .step inductionHypothesis ticks
    · exact .step inductionHypothesis waits

/-! ### A session -/

/-- A program that waits for a message. -/
def listening : Function := { (default : Function) with code := #[Instruction.receive 0] }

/-- A program that returns at once. -/
def returning : Function := { (default : Function) with code := #[Instruction.returning 0 0] }

/-- One task waits for a message, and is held. Another has ended and left a child that was never
scheduled. A third can run. -/
def bereaved : Session :=
  ((((((start .standard 0 fun _ => []).continued (.spawn listening none)).continued
    (.retain ⟨1⟩)).continued (.spawn default none)).continued
    (.createTask default (some ⟨2⟩))).continued (.run 2)).continued (.spawn default none)

theorem bereaved_reachable : bereaved.Reachable := by
  refine .continued (.continued (.continued (.continued (.continued (.continued (.start _ _ _)
    trivial ?_) trivial ?_) trivial ?_) trivial ?_) trivial ?_) trivial ?_ <;> decide +kernel

end Session

end TaskMachine
