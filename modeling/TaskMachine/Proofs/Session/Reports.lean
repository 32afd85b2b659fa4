/-
Every exit is reported once, and to the right place. A task ends at most once.
When it ends, the watchers that were accepted for it are told, in their order,
and they are told of nothing else. Then one message at most is sent: on the way
up from the parent, through tasks that have ended, the first one that has not is
sent how the task has ended, if it traps exits.

`Ledger` relates what has happened to the watchers that the tasks have and to
what the embedder was told. Whom the report reaches is read off the tasks as they
are in the middle of the ending, where the parent has ended exactly if the task
is an orphan.
-/

import TaskMachine.Proofs.Session.Standing

namespace TaskMachine

/-! ### The way up -/

namespace Roster

variable {roster : Roster} {place : Option Slot} {ancestor other : Task}

/-- The first task that has not ended on the way up from a place, through tasks that have. -/
inductive Climbs (roster : Roster) : Option Slot → Task → Prop
  | here {slot : Slot} {task : Task} (present : roster.task? slot = some task)
      (alive : task.life = .alive) : Climbs roster (some slot) task
  | up {slot : Slot} {task ancestor : Task} (present : roster.task? slot = some task)
      (zombie : task.life = .zombie) (further : Climbs roster task.parent ancestor) :
      Climbs roster (some slot) ancestor

/-- What is found within some steps is what the way up leads to. -/
theorem livingWithin_eq_ok {steps : Nat} {found : Option Task}
    (finds : roster.livingWithin steps place = .ok found) :
    roster.Climbs place ancestor ↔ found = some ancestor := by
  induction steps generalizing place with
  | zero =>
    cases place with
    | none =>
      obtain rfl := Except.ok.inj finds
      exact iff_of_false nofun nofun
    | some slot => cases finds
  | succ steps inductionHypothesis =>
    cases place with
    | none =>
      obtain rfl := Except.ok.inj finds
      exact iff_of_false nofun nofun
    | some slot =>
      rw [livingWithin] at finds
      cases present : roster.task? slot with
      | none =>
        rw [present] at finds
        cases finds
      | some task =>
        simp only [present] at finds
        cases life : task.life with
        | alive =>
          simp only [life] at finds
          obtain rfl := Except.ok.inj finds
          constructor
          · rintro (⟨again, -⟩ | ⟨again, zombie, -⟩)
            · exact present.symm.trans again
            · obtain rfl := Option.some.inj (present.symm.trans again)
              exact absurd (life.symm.trans zombie) (by decide)
          · rintro ⟨⟩
            exact .here present life
        | zombie =>
          simp only [life] at finds
          rw [← inductionHypothesis finds]
          constructor
          · rintro (⟨again, alive⟩ | ⟨again, -, further⟩)
            · obtain rfl := Option.some.inj (present.symm.trans again)
              exact absurd (life.symm.trans alive) (by decide)
            · obtain rfl := Option.some.inj (present.symm.trans again)
              exact further
          · exact .up present life

end Roster

/-! ### What has happened to watchers -/

/-- Whether the embedder is told of the end of a task. -/
def Notice.isEnding : Notice → Bool
  | .ended _ _ _ => true
  | .invoked _ _ _ _ _ => false

namespace Moment

/-- The place of the task that has ended. -/
def Event.endedAt? : Event → Option Slot
  | .ended slot _ _ => some slot
  | _ => none

/-- The watcher that was accepted for the task at a place. -/
def Event.watcherOf? (slot : Slot) : Event → Option Nat
  | .watched place watcher => if place = slot then some watcher else none
  | _ => none

/-- The places of the tasks that have ended, in order. -/
def endings (events : List Event) : List Slot := events.filterMap Event.endedAt?

/-- The watchers that were accepted for the task at a place, in order. -/
def watchersOf (slot : Slot) (events : List Event) : List Nat :=
  events.filterMap (Event.watcherOf? slot)

/-- What the watchers are to be told, if these were accepted: of each task that has ended, one after
another, all of them how it has. -/
def farewells (accepted : Slot → List Nat) (events : List Event) : List Notice :=
  events.flatMap fun
    | .ended slot id exit => (accepted slot).map fun watcher => .ended watcher id exit
    | _ => []

/-- Nothing happens to a watcher, and no task ends. -/
def Event.IsPlain : Event → Prop
  | .watched _ _ | .ended _ _ _ => False
  | _ => True

variable {events more : List Event} {slot : Slot}

theorem endings_append (events more : List Event) :
    endings (events ++ more) = endings events ++ endings more := List.filterMap_append

theorem watchersOf_append (slot : Slot) (events more : List Event) :
    watchersOf slot (events ++ more) = watchersOf slot events ++ watchersOf slot more :=
  List.filterMap_append

theorem farewells_append (accepted : Slot → List Nat) (events more : List Event) :
    farewells accepted (events ++ more) = farewells accepted events ++ farewells accepted more :=
  List.flatMap_append

/-- Only the watchers of those that have ended are told. -/
theorem farewells_congr {accepted now : Slot → List Nat} {events : List Event}
    (same : ∀ slot ∈ endings events, now slot = accepted slot) :
    farewells now events = farewells accepted events := by
  induction events with
  | nil => rfl
  | cons event rest inductionHypothesis =>
    cases event with
    | ended slot id exit =>
      exact congrArg₂ (· ++ ·) (congrArg (List.map _) (same slot List.mem_cons_self))
        (inductionHypothesis fun other member => same other (List.mem_cons_of_mem _ member))
    | _ => exact inductionHypothesis same

/-- What is plain plays no part. -/
theorem plain (plain : ∀ event ∈ more, event.IsPlain) :
    endings more = [] ∧ (∀ slot, watchersOf slot more = []) ∧
      ∀ accepted, farewells accepted more = [] := by
  refine ⟨List.filterMap_eq_nil_iff.mpr fun event member => ?_,
    fun slot => List.filterMap_eq_nil_iff.mpr fun event member => ?_,
    fun accepted => List.flatMap_eq_nil_iff.mpr fun event member => ?_⟩ <;>
  · have alone := plain event member
    cases event <;> first | rfl | exact alone.elim

theorem plain_posted (room : Mailroom) (letters : List Letter) :
    ∀ event ∈ posted room letters, event.IsPlain := by
  intro event member
  obtain ⟨letter, -, rfl⟩ := List.mem_map.mp member
  trivial

end Moment

/-! ### The ledger -/

namespace Roster

open Moment (endings watchersOf)

variable {events more : List Moment.Event} {roster : Roster}

/-- Whoever has not ended has the watchers that were accepted for it, and nothing has happened to
those that did not come yet. -/
def Minds (events : List Moment.Event) (roster : Roster) : Prop :=
  (∀ slot task, roster.task? slot = some task → task.life = .alive →
    task.watchers = watchersOf slot events ∧ slot ∉ endings events) ∧
  ∀ slot, roster.tasks.size ≤ slot → watchersOf slot events = [] ∧ slot ∉ endings events

theorem Minds.of_map (minds : roster.Minds events) {next : Roster}
    (size : next.tasks.size = roster.tasks.size) (same : ∀ slot,
      (next.task? slot).map (fun task => (task.life, task.watchers)) =
        (roster.task? slot).map fun task => (task.life, task.watchers)) : next.Minds events := by
  refine ⟨fun slot task present alive => ?_, fun slot beyond => minds.2 slot (size ▸ beyond)⟩
  have is := same slot
  rw [present, Option.map_some] at is
  obtain ⟨before, wasPresent, lived⟩ := Option.map_eq_some_iff.mp is.symm
  obtain ⟨life, watchers⟩ := Prod.mk.inj lived
  rw [← watchers]
  exact minds.1 slot before wasPresent (life.trans alive)

theorem placid_minds (events : List Moment.Event) : Placid (Minds events) where
  arrange := fun minds same => minds.of_map same.1
    (same.map (fun task => (task.life, task.watchers)) fun _ => rfl)
  alters := fun {roster} slot {change} minds bearing =>
    minds.of_map (size_alter roster slot change) (map_alter roster slot fun task => by
      show ((change task).bearing.life, (change task).bearing.watchers) =
        (task.bearing.life, task.bearing.watchers)
      rw [bearing task])
  adds := by
    intro roster id function parent mailbox minds
    refine ⟨fun slot task present alive => ?_, fun slot beyond => minds.2 slot ?_⟩
    · rcases of_task?_push present with ⟨rfl, rfl⟩ | before
      · obtain ⟨none, apart⟩ := minds.2 roster.tasks.size (Nat.le_refl _)
        exact ⟨none.symm, apart⟩
      · exact minds.1 slot task before alive
    · rw [Array.size_push] at beyond
      exact Nat.le_of_succ_le beyond
  drops := by
    intro roster slot minds
    refine ⟨fun other task present => minds.1 other task (of_task?_drop present).2,
      fun other beyond => minds.2 other ?_⟩
    rwa [size_setTask] at beyond

end Roster

namespace Moment

/-- What has happened agrees with the watchers that the tasks have, and with what the embedder was
told. -/
structure Ledger (events : List Event) (roster : Roster) (notices : List Notice) : Prop where
  minds : roster.Minds events
  once : (endings events).Nodup
  told : notices.reverse.filter Notice.isEnding =
    farewells (fun slot => watchersOf slot events) events

namespace Ledger

variable {events more : List Event} {roster : Roster} {notices : List Notice}
  {scheduler next : Scheduler} {slot : Slot} {task : Task} {exit : Exit}

theorem start (config : Config) (patience : Nat) (respond : List Notice → List Letter) :
    Ledger [] (Moment.start config patience respond).session.scheduler.roster
      (Moment.start config patience respond).session.scheduler.notices where
  minds := ⟨fun _ _ present => absurd present nofun, fun _ _ => ⟨rfl, List.not_mem_nil⟩⟩
  once := List.nodup_nil
  told := rfl

/-- What is plain changes nothing. -/
theorem plain (ledger : Ledger events roster notices) (plain : ∀ event ∈ more, event.IsPlain) :
    Ledger (events ++ more) roster notices := by
  obtain ⟨noEndings, noWatchers, noFarewells⟩ := Moment.plain plain
  have ends : endings (events ++ more) = endings events := by
    rw [endings_append, noEndings, List.append_nil]
  have watches (slot : Slot) : watchersOf slot (events ++ more) = watchersOf slot events := by
    rw [watchersOf_append, noWatchers, List.append_nil]
  refine ⟨?_, ends ▸ ledger.once, ?_⟩
  · simp only [Roster.Minds, ends, watches]
    exact ledger.minds
  · simp only [watches]
    rw [farewells_append, noFarewells, List.append_nil]
    exact ledger.told

/-- What is quiet about the tasks changes nothing. -/
theorem quiet (ledger : Ledger events scheduler.roster scheduler.notices)
    {next : Scheduler} (quiet : ∀ {good : Roster → Prop}, Roster.Placid good →
      good scheduler.roster → scheduler.Quiet good next) :
    Ledger events next.roster next.notices := by
  have kept := quiet (Roster.placid_minds events) ledger.minds
  refine ⟨kept.roster, ledger.once, ?_⟩
  rw [kept.notices]
  exact ledger.told

/-- A program that invokes a hook is no ending. -/
theorem invoke (ledger : Ledger events roster notices) (hook : Hook) (id : TaskId)
    (run wait : List TaskId) (stack : Stack) :
    Ledger events roster (.invoked hook id run wait stack :: notices) where
  minds := ledger.minds
  once := ledger.once
  told := by
    rw [List.reverse_cons, List.filter_append]
    exact (List.append_nil _).trans ledger.told

/-- A watcher is accepted for a task that has not ended. -/
theorem watch (ledger : Ledger events roster notices) (present : roster.task? slot = some task)
    (alive : task.life = .alive) (watcher : Nat) :
    Ledger (events ++ [.watched slot watcher])
      (roster.alter slot fun task => { task with watchers := task.watchers ++ [watcher] })
      notices := by
  have ends : endings (events ++ [.watched slot watcher]) = endings events :=
    (endings_append _ _).trans (List.append_nil _)
  have joins : watchersOf slot (events ++ [.watched slot watcher]) =
      watchersOf slot events ++ [watcher] := by
    rw [watchersOf_append]
    exact congrArg _ (by simp [watchersOf, Event.watcherOf?])
  have others {other : Slot} (differ : slot ≠ other) :
      watchersOf other (events ++ [.watched slot watcher]) = watchersOf other events := by
    rw [watchersOf_append]
    simp [watchersOf, Event.watcherOf?, differ]
  refine ⟨⟨fun other later presentNow lives => ?_, fun other beyond => ?_⟩, ends ▸ ledger.once, ?_⟩
  · rw [ends]
    by_cases same : other = slot
    · subst same
      rw [Roster.task?_alter_of_present present, if_pos rfl] at presentNow
      obtain rfl := Option.some.inj presentNow
      obtain ⟨watchers, apart⟩ := ledger.minds.1 other task present alive
      exact ⟨(congrArg (· ++ [watcher]) watchers).trans joins.symm, apart⟩
    · rw [Roster.task?_alter, if_neg same] at presentNow
      rw [others (Ne.symm same)]
      exact ledger.minds.1 other later presentNow lives
  · rw [Roster.size_alter] at beyond
    have differ : slot ≠ other :=
      Nat.ne_of_lt (Nat.lt_of_lt_of_le (Roster.lt_size_of_task?_eq_some present) beyond)
    rw [ends, others differ]
    exact ledger.minds.2 other beyond
  · rw [farewells_append, ledger.told]
    refine ((List.append_nil _).trans (farewells_congr fun other member => others ?_)).symm
    rintro rfl
    exact (ledger.minds.1 slot task present alive).2 member

/-- A task that has not ended leaves its queue and becomes a zombie, and its watchers are told. -/
theorem depart (ledger : Ledger events scheduler.roster scheduler.notices)
    (departing : scheduler.Departing slot exit task next) (alive : task.life = .alive) :
    Ledger (events ++ departed scheduler slot task exit) next.roster next.notices := by
  obtain ⟨left, leaves, present, is⟩ := departing.out
  have minds : left.Minds events := ((Scheduler.guards_leaveLane (Roster.placid_minds events) slot)
    scheduler (.refl ledger.minds)).ok leaves |>.roster
  obtain ⟨watchers, apart⟩ := minds.1 slot task present alive
  have ends : endings (events ++ [.ended slot task.id exit]) = endings events ++ [slot] :=
    endings_append _ _
  have watches (other : Slot) :
      watchersOf other (events ++ [.ended slot task.id exit]) = watchersOf other events :=
    (watchersOf_append _ _ _).trans (List.append_nil _)
  have gone : Ledger (events ++ [.ended slot task.id exit]) next.roster next.notices := by
    refine ⟨⟨fun other later presentNow lives => ?_, fun other beyond => ?_⟩, ?_, ?_⟩
    · rw [is] at presentNow
      by_cases same : other = slot
      · subst same
        rw [Roster.task?_alter_of_present present, if_pos rfl] at presentNow
        obtain rfl := Option.some.inj presentNow
        exact absurd lives nofun
      · rw [Roster.task?_alter, if_neg same] at presentNow
        obtain ⟨watchersNow, apartNow⟩ := minds.1 other later presentNow lives
        rw [watches, ends]
        exact ⟨watchersNow, fun member => (List.mem_append.mp member).elim apartNow
          fun single => same (List.mem_singleton.mp single)⟩
    · rw [is, Roster.size_alter] at beyond
      obtain ⟨none, apartNow⟩ := minds.2 other beyond
      rw [watches, ends]
      refine ⟨none, fun member => (List.mem_append.mp member).elim apartNow fun single => ?_⟩
      rw [List.mem_singleton.mp single] at beyond
      exact absurd (Roster.lt_size_of_task?_eq_some present) (Nat.not_lt.mpr beyond)
    · rw [ends, ← List.concat_eq_append]
      exact ledger.once.concat apart
    · have all : (Scheduler.farewells task exit).filter Notice.isEnding =
          Scheduler.farewells task exit := by
        rw [List.filter_eq_self]
        rintro notice member
        obtain ⟨watcher, -, rfl⟩ := List.mem_map.mp member
        rfl
      simp only [watches]
      rw [departing.notices, List.reverse_append, List.reverse_reverse, List.filter_append, all,
        ledger.told, farewells_append, Scheduler.farewells, watchers]
      exact congrArg _ (List.append_nil _).symm
  have whole := gone.plain (plain_posted scheduler.mailroom
    (responses scheduler.respond scheduler.notices (Scheduler.farewells task exit)))
  rwa [List.append_assoc] at whole

end Ledger

section

variable {moment next : Moment} {events more : List Event} {session : Session} {slot : Slot}
  {task : Task} {exit : Exit} {scheduler : Scheduler}

theorem Ledger.serve {operation : Operation} {after : Scheduler}
    (ledger : Ledger events scheduler.roster scheduler.notices)
    (served : Served operation scheduler more after) :
    Ledger (events ++ more) after.roster after.notices := by
  cases served with
  | quietly quiet performs =>
    rw [List.append_nil]
    exact ledger.quiet fun placid holds =>
      (Operation.guards_perform placid.sedate quiet _ (.refl holds)).ok performs
  | delivered letters => exact ledger.plain (plain_posted _ letters)
  | watched watcher present alive => exact ledger.watch present alive watcher

theorem Ledger.instruct {after : Scheduler}
    (ledger : Ledger events scheduler.roster scheduler.notices)
    (instructed : scheduler.Instructed slot more after) :
    Ledger (events ++ more) after.roster after.notices := by
  cases instructed with
  | alone =>
    rw [List.append_nil]
    exact ledger
  | spawned spawns =>
    rw [List.append_nil]
    exact ledger.quiet fun placid holds =>
      (Scheduler.guards_spawnChild placid.sedate.toPeaceful _ _ _ (.refl holds)).ok spawns
  | received present takes =>
    refine ledger.plain fun event member => ?_
    rw [List.mem_singleton.mp member]
    trivial
  | invoked hook id run wait stack =>
    exact (ledger.invoke hook id run wait stack).plain (plain_posted _ _)

theorem Ledger.halt {stack after : Stack} {status : Status} {middle : Scheduler}
    (ledger : Ledger events scheduler.roster scheduler.notices)
    (halted : scheduler.Halted slot stack after status middle) :
    Ledger events middle.roster middle.notices := by
  rcases halted with ⟨rfl, -⟩ | ⟨-, -, _, -, -, rfl⟩ <;> exact ledger

/-- Every move keeps the ledger. -/
theorem Move.ledger (moves : Move Session.Permits moment more next) (standing : moment.Standing)
    (ledger : Ledger events moment.session.scheduler.roster moment.session.scheduler.notices) :
    Ledger (events ++ more) next.session.scheduler.roster next.session.scheduler.notices := by
  have single (event : Event) (plain : event.IsPlain) : ∀ other ∈ [event], other.IsPlain := by
    rintro other member
    rwa [List.mem_singleton.mp member]
  cases moves with
  | serve permitted quiet performs => exact ledger.serve ((after_serve quiet).ok performs)
  | refuse permitted quiet breaks refusal =>
    rw [List.append_nil]
    exact ledger.quiet fun placid holds => (Operation.guards_perform placid.sedate
      ((after_serve quiet).error breaks) _ (.refl holds)).error breaks refusal
  | tend chore performs =>
    rw [List.append_nil]
    exact ledger.quiet fun placid holds =>
      (chore.guards_perform placid.sedate _ (.refl holds)).ok performs
  | @begin session slot task stack first cared present mans =>
    have disarms : ∀ task : Task, task.disarm.bearing = task.bearing := fun _ => rfl
    exact (ledger.quiet fun placid holds => Scheduler.Quiet.onRoster (.refl holds)
      (placid.alters slot holds disarms)).plain (single (.began slot) trivial)
  | instruct steps => exact ledger.instruct (.of_step steps)
  | preempt settles =>
    exact (ledger.quiet fun placid holds => (Scheduler.guards_settle placid _ _ _ rfl _
      (.refl holds)).ok settles).plain (single (.rested _) trivial)
  | pause steps stays settles =>
    exact ((ledger.halt (.of_step steps)).quiet fun placid holds => (Scheduler.guards_settle placid
      _ _ _ stays _ (.refl holds)).ok settles).plain (single (.rested _) trivial)
  | @finish session slot id stack after status exit task middle scheduler steps exits departs =>
    have rests := (ledger.halt (.of_step steps)).plain (single (.rested slot) trivial)
    have whole := rests.depart ((Scheduler.after_depart slot exit middle).ok departs)
      (standing.finish steps exits departs).alive
    rwa [List.append_assoc] at whole
  | orphan stands bereft departs =>
    exact ledger.depart ((Scheduler.after_depart _ _ _).ok departs)
      (standing.orphan stands bereft departs).alive
  | @close session slot task exit middle scheduler reports releases =>
    obtain ⟨-, is⟩ := (Scheduler.after_report task exit _).ok reports
    have reported : Ledger (events ++ posted session.scheduler.mailroom
        (session.scheduler.roster.exitReport task exit)) middle.roster middle.notices := by
      rw [is]
      exact ledger.plain (plain_posted _ _)
    exact reported.quiet fun placid holds =>
      (Scheduler.guards_releaseSlot placid.sedate slot _ (.refl holds)).ok releases

theorem Reached.ledger (reached : Reached Session.Permits events moment) :
    Ledger events moment.session.scheduler.roster moment.session.scheduler.notices := by
  obtain ⟨config, patience, respond, runs⟩ := reached
  induction runs with
  | none => exact .start config patience respond
  | move runs moves inductionHypothesis =>
    exact moves.ledger (Reached.standing ⟨config, patience, respond, runs⟩) inductionHypothesis

end

/-! ### Reports -/

/-- What is left of an ending is done in one move, and these letters are sent in it. -/
def Reports (moment : Moment) (letters : List Letter) : Prop :=
  (∃ next, Move Session.Permits moment (posted moment.session.scheduler.mailroom letters) next) ∧
  ∀ events next, Move Session.Permits moment events next →
    events = posted moment.session.scheduler.mailroom letters ∧
      next.session.scheduler.mailroom = moment.session.scheduler.mailroom.deliver letters

section

variable {moment : Moment} {events : List Event} {session : Session} {slot : Slot} {task : Task}
  {exit : Exit}

/-- An operation that gives turns breaks off only if it has no end. -/
theorem endless_of_givesTurns (sound : session.Sound) {operation : Operation}
    (gives : operation.givesTurns = true) :
    After operation.perform session.scheduler (fun _ _ => True)
      fun crash _ => crash = .endless := by
  obtain ⟨lists, sound⟩ := sound
  cases operation with
  | step =>
    exact After.bind (sound.after_step_settled.mono (fun _ _ _ => After.pure trivial)
      fun _ _ endless => endless.1)
  | tick =>
    exact After.bind (sound.after_tick.mono (fun _ _ _ => After.pure trivial)
      fun _ _ endless => endless.1)
  | run passes =>
    exact After.bind (sound.after_runWithin.mono (fun _ _ _ => After.pure trivial)
      fun _ _ endless => endless)
  | _ => exact absurd gives nofun

/-- A step in which tasks get no turns is one move. -/
theorem Standing.moves {next : Session} {operation : Operation}
    (standing : Standing ⟨session, .between⟩) (steps : session.Step operation next)
    (quiet : operation.givesTurns = false) :
    ∃ events, Move Session.Permits ⟨session, .between⟩ events ⟨next, .between⟩ := by
  cases steps with
  | success permitted succeeds => exact ⟨_, .serve permitted quiet succeeds⟩
  | refusal permitted breaks ends =>
    obtain ⟨lists, sound⟩ := id standing
    rcases (Session.after_perform sound operation permitted).error breaks with refused | endless
    · exact ⟨_, .refuse permitted quiet breaks refused.1⟩
    · exact absurd endless.1 ends

/-- Every step of a session is made of moves. -/
theorem Standing.runs {next : Session} {operation : Operation}
    (standing : Standing ⟨session, .between⟩) (steps : session.Step operation next) :
    ∃ events, Runs Session.Permits ⟨session, .between⟩ events ⟨next, .between⟩ := by
  cases gives : operation.givesTurns with
  | false =>
    obtain ⟨events, moves⟩ := standing.moves steps gives
    exact ⟨events, .move .none moves⟩
  | true =>
    cases steps with
    | success permitted succeeds => exact session.runs_of_perform permitted succeeds
    | refusal permitted breaks ends =>
      exact absurd ((endless_of_givesTurns standing gives).error breaks) ends

end

/-! ### A task that ends while its parent traps exits -/

/-- A task that traps exits, and was never scheduled. -/
def trapping : Session :=
  ((Session.start .standard 0 fun _ => []).continued (.createTask default none)).continued
    (.setFlags ⟨1⟩ .trapExit)

/-- It has a child, which is watched. -/
def minding : Session :=
  (trapping.continued (.spawn Session.returning (some ⟨1⟩))).continued (.watch ⟨2⟩ 7)

/-- The child has returned. -/
def parting : Scheduler :=
  stateAfter (Scheduler.depart 1 (.returned [])) (minding.scheduler.manned 1)

end Moment

end TaskMachine
