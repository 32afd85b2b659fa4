/-
Who is told of the ends of tasks in a pass, as far as it can be seen from outside:
from the tasks that have not ended and their watchers, before the pass and after
it. Tasks that come in the meantime have numbers of their own and no watchers.
A task of before that is missing afterwards has ended, and its watchers were told,
which are all that were. Those who watch a task that is left still do.
-/

import TaskMachine.Proofs.Session.Reports

namespace TaskMachine

namespace Scheduler

/-- The task with a number has not ended. -/
def Lives (scheduler : Scheduler) (id : TaskId) : Prop :=
  ∃ slot task, scheduler.roster.task? slot = some task ∧ task.id = id ∧ task.life = .alive

/-- The task with a number has not ended, and a watcher is to be told when it does. -/
def Watches (scheduler : Scheduler) (id : TaskId) (watcher : Nat) : Prop :=
  ∃ slot task, scheduler.roster.task? slot = some task ∧ task.id = id ∧ task.life = .alive ∧
    watcher ∈ task.watchers

/-- The tasks are those of before, as far as they are left, and others that have come. Nobody
watches those. The watchers that were told are those of tasks that have ended. -/
structure Succeeds (next before : Scheduler) : Prop where
  numbers : before.nextId.number ≤ next.nextId.number
  lives : ∀ id, id.number < before.nextId.number → next.Lives id → before.Lives id
  watches : ∀ id watcher, next.Watches id watcher ↔ before.Watches id watcher ∧ next.Lives id
  told : ∀ watcher, (∃ id exit, Notice.ended watcher id exit ∈ next.notices) ↔
    ∃ id, before.Watches id watcher ∧ ¬ next.Lives id

/-- Each task was there before, and if it had ended then it still has, or it came later and its
number did too. -/
structure Descends (scheduler origin : Scheduler) : Prop where
  size : origin.roster.tasks.size ≤ scheduler.roster.tasks.size
  numbers : origin.nextId.number ≤ scheduler.nextId.number
  tasks : ∀ slot task, scheduler.roster.task? slot = some task →
    (∃ earlier, origin.roster.task? slot = some earlier ∧ earlier.id = task.id ∧
      (earlier.life = .zombie → task.life = .zombie)) ∨
    origin.roster.tasks.size ≤ slot ∧ origin.nextId.number ≤ task.id.number

variable {scheduler origin before next : Scheduler} {slot : Slot} {task : Task}

theorem Descends.refl (scheduler : Scheduler) : scheduler.Descends scheduler where
  size := Nat.le_refl _
  numbers := Nat.le_refl _
  tasks := fun _ task present => Or.inl ⟨task, present, rfl, id⟩

/-- Tasks may change, but not their numbers, and those that have ended stay so. -/
theorem Descends.of_earlier (descends : scheduler.Descends origin)
    (size : next.roster.tasks.size = scheduler.roster.tasks.size)
    (numbers : next.nextId = scheduler.nextId)
    (earlier : ∀ slot task, next.roster.task? slot = some task →
      ∃ before, scheduler.roster.task? slot = some before ∧ before.id = task.id ∧
        (before.life = .zombie → task.life = .zombie)) : next.Descends origin where
  size := size ▸ descends.size
  numbers := numbers ▸ descends.numbers
  tasks := fun slot task present => by
    obtain ⟨middle, middlePresent, id, ended⟩ := earlier slot task present
    rcases descends.tasks slot middle middlePresent with ⟨first, wasPresent, was, firstEnded⟩ | late
    · exact Or.inl ⟨first, wasPresent, was.trans id, fun zombie => ended (firstEnded zombie)⟩
    · exact Or.inr (id ▸ late)

theorem indifferent_descends (origin : Scheduler) : Indifferent (·.Descends origin) where
  beside := fun descends roster _ nextId _ =>
    descends.of_earlier (by rw [roster]) nextId fun slot task present =>
      ⟨task, roster ▸ present, rfl, id⟩
  arrange := fun descends same => descends.of_earlier same.1 rfl fun slot task present => by
    obtain ⟨before, wasPresent, is⟩ := same.symm.present present
    have id : before.unplaced.id = task.unplaced.id := by rw [is]
    have life : before.unplaced.life = task.unplaced.life := by rw [is]
    exact ⟨before, wasPresent, id, fun zombie => life.symm.trans zombie⟩
  alter := fun slot change descends id life =>
    descends.of_earlier (Roster.size_alter _ slot change) rfl fun other task present => by
      have present := (Roster.task?_alter _ slot change other).symm.trans present
      split at present
      · obtain ⟨before, wasPresent, rfl⟩ := Option.map_eq_some_iff.mp present
        exact ⟨before, wasPresent, (id before).symm, life before⟩
      · exact ⟨task, present, rfl, fun zombie => zombie⟩
  number := fun descends => ⟨descends.size, Nat.le_succ_of_le descends.numbers, descends.tasks⟩
  born := fun {scheduler} function parent mailbox descends => by
    refine ⟨?_, Nat.le_succ_of_le descends.numbers, fun slot task present => ?_⟩
    · exact descends.size.trans (by simp [entered])
    · rcases Roster.of_task?_push present with ⟨rfl, rfl⟩ | wasPresent
      · exact Or.inr ⟨descends.size, descends.numbers⟩
      · exact descends.tasks slot task wasPresent
  leave := fun {_ slot _} _ descends =>
    descends.of_earlier (Roster.size_setTask _ slot none) rfl fun _ task present =>
      ⟨task, (Roster.of_task?_drop present).2, rfl, id⟩

end Scheduler

namespace Moment

open Scheduler (hostFor)

/-! ### Watchers that were accepted before -/

/-- The watchers of the task at a place, if it has not ended, as if they were accepted now. -/
def acceptedAt (roster : Roster) (slot : Slot) : List Event :=
  match roster.task? slot with
  | some task =>
    match task.life with
    | .alive => task.watchers.map (.watched slot)
    | .zombie => []
  | none => []

/-- The watchers of all tasks that have not ended, as if they were accepted now. -/
def accepted (roster : Roster) : List Event :=
  (List.range roster.tasks.size).flatMap (acceptedAt roster)

variable {roster : Roster} {slot : Slot} {task : Task} {events more : List Event}

theorem mem_acceptedAt {event : Event} (member : event ∈ acceptedAt roster slot) :
    ∃ watcher, event = .watched slot watcher := by
  rw [acceptedAt] at member
  split at member
  · split at member
    · obtain ⟨watcher, _, rfl⟩ := List.mem_map.mp member
      exact ⟨watcher, rfl⟩
    · exact absurd member List.not_mem_nil
  · exact absurd member List.not_mem_nil

theorem watchersOf_acceptedAt (roster : Roster) (slot other : Slot) :
    watchersOf other (acceptedAt roster slot) =
      if slot = other then watchersOf slot (acceptedAt roster slot) else [] := by
  split
  · rename_i same
    rw [same]
  · rename_i differ
    refine List.filterMap_eq_nil_iff.mpr fun event member => ?_
    obtain ⟨watcher, rfl⟩ := mem_acceptedAt member
    exact if_neg differ

theorem watchersOf_accepted (roster : Roster) (slot : Slot) :
    watchersOf slot (accepted roster) = watchersOf slot (acceptedAt roster slot) := by
  have upTo (size : Nat) : watchersOf slot ((List.range size).flatMap (acceptedAt roster)) =
      if slot < size then watchersOf slot (acceptedAt roster slot) else [] := by
    induction size with
    | zero => rfl
    | succ size inductionHypothesis =>
      rw [List.range_succ, List.flatMap_append, List.flatMap_singleton, watchersOf_append,
        inductionHypothesis, watchersOf_acceptedAt roster size]
      rcases Nat.lt_trichotomy slot size with below | rfl | above
      · rw [if_pos below, if_neg (Nat.ne_of_gt below), if_pos (Nat.lt_succ_of_lt below),
          List.append_nil]
      · rw [if_neg (Nat.lt_irrefl _), if_pos rfl, if_pos (Nat.lt_succ_self _), List.nil_append]
      · rw [if_neg (Nat.lt_asymm above), if_neg (Nat.ne_of_lt above),
          if_neg (Nat.not_lt.mpr above), List.nil_append]
  rw [accepted, upTo]
  split
  · rfl
  · rename_i beyond
    have missing : roster.task? slot = none := by
      cases present : roster.task? slot with
      | none => rfl
      | some task => exact absurd (Roster.lt_size_of_task?_eq_some present) beyond
    rw [acceptedAt, missing]
    rfl

theorem watchersOf_accepted_of_alive (present : roster.task? slot = some task)
    (alive : task.life = .alive) : watchersOf slot (accepted roster) = task.watchers := by
  rw [watchersOf_accepted, acceptedAt, present]
  simp only [alive]
  rw [watchersOf, List.filterMap_map]
  refine (List.filterMap_congr fun watcher _ => ?_).trans List.filterMap_some
  exact if_pos rfl

/-- Whoever is accepted at a place is accepted for a task that has not ended. -/
theorem exists_of_mem_accepted {watcher : Nat}
    (member : watcher ∈ watchersOf slot (accepted roster)) :
    ∃ task, roster.task? slot = some task ∧ task.life = .alive ∧ watcher ∈ task.watchers := by
  have accepts := member
  rw [watchersOf_accepted, acceptedAt] at member
  cases present : roster.task? slot with
  | none =>
    rw [present] at member
    exact absurd member List.not_mem_nil
  | some task =>
    cases life : task.life with
    | zombie =>
      rw [present] at member
      simp only [life] at member
      exact absurd member List.not_mem_nil
    | alive =>
      rw [watchersOf_accepted_of_alive present life] at accepts
      exact ⟨task, rfl, life, accepts⟩

theorem mem_accepted {event : Event} (member : event ∈ accepted roster) :
    ∃ slot watcher, event = .watched slot watcher := by
  obtain ⟨slot, _, there⟩ := List.mem_flatMap.mp member
  exact ⟨slot, mem_acceptedAt there⟩

theorem endings_accepted (roster : Roster) : endings (accepted roster) = [] := by
  refine List.filterMap_eq_nil_iff.mpr fun event member => ?_
  obtain ⟨slot, watcher, rfl⟩ := mem_accepted member
  rfl

/-- The watchers of the tasks are those that were accepted. -/
theorem ledger_accepted (roster : Roster) : Ledger (accepted roster) roster [] where
  minds := by
    refine ⟨fun slot task present alive => ?_, fun slot beyond => ?_⟩
    · rw [watchersOf_accepted_of_alive present alive, endings_accepted]
      exact ⟨rfl, List.not_mem_nil⟩
    · rw [endings_accepted]
      refine ⟨List.eq_nil_iff_forall_not_mem.mpr fun watcher member => ?_, List.not_mem_nil⟩
      obtain ⟨task, present, _⟩ := exists_of_mem_accepted member
      exact absurd (Roster.lt_size_of_task?_eq_some present) (Nat.not_lt.mpr beyond)
  once := by
    rw [endings_accepted]
    exact List.nodup_nil
  told := by
    refine (List.flatMap_eq_nil_iff.mpr fun event member => ?_).symm
    obtain ⟨slot, watcher, rfl⟩ := mem_accepted member
    rfl

/-- Whoever is told is a watcher that was accepted for a task that has ended. -/
theorem exists_of_mem_farewells {accepted : Slot → List Nat} {watcher : Nat} {id : TaskId}
    {exit : Exit} (told : Notice.ended watcher id exit ∈ farewells accepted events) :
    ∃ slot, slot ∈ endings events ∧ watcher ∈ accepted slot := by
  obtain ⟨event, member, tells⟩ := List.mem_flatMap.mp told
  cases event with
  | ended slot task exit' =>
    obtain ⟨found, waits, is⟩ := List.mem_map.mp tells
    injection is with is
    exact ⟨slot, List.mem_filterMap.mpr ⟨_, member, rfl⟩, is ▸ waits⟩
  | _ => exact absurd tells List.not_mem_nil

/-! ### Runs without new watchers -/

/-- The embedder lets tasks run and time go by, and asks for nothing else. -/
def Idly (_ : Session) (operation : Operation) : Prop :=
  operation = .tick ∨ operation = .wait ∨ operation = .park

theorem Idly.permits {session : Session} {operation : Operation}
    (idly : Idly session operation) : session.Permits operation := by
  rcases idly with rfl | rfl | rfl <;> trivial

variable {moment next first : Moment}

/-- Whatever else may be allowed, a move stays one. -/
theorem Move.mono {allowed wider : Session → Operation → Prop}
    (moves : Move allowed moment events next)
    (weaker : ∀ session operation, allowed session operation → wider session operation) :
    Move wider moment events next := by
  cases moves with
  | serve permitted quiet performs => exact .serve (weaker _ _ permitted) quiet performs
  | refuse permitted quiet breaks refusal =>
    exact .refuse (weaker _ _ permitted) quiet breaks refusal
  | tend chore performs => exact .tend chore performs
  | begin first cared present mans => exact .begin first cared present mans
  | instruct steps => exact .instruct steps
  | preempt settles => exact .preempt settles
  | pause steps stays settles => exact .pause steps stays settles
  | finish steps exits departs => exact .finish steps exits departs
  | orphan stands bereft departs => exact .orphan stands bereft departs
  | close reports releases => exact .close reports releases

/-- Nobody is accepted as a watcher. -/
theorem Move.watchersOf_eq_nil (moves : Move Idly moment events next) (slot : Slot) :
    watchersOf slot events = [] := by
  have plain {more : List Event} (alone : ∀ event ∈ more, event.IsPlain) :
      watchersOf slot more = [] := (Moment.plain alone).2.1 slot
  have departs {scheduler : Scheduler} (place : Slot) {task : Task} {exit : Exit} :
      watchersOf slot (departed scheduler place task exit) = [] := by
    have posts := plain (plain_posted scheduler.mailroom (responses scheduler.respond
      scheduler.notices (task.watchers.map fun watcher => .ended watcher task.id exit)))
    exact posts
  cases moves with
  | serve permitted =>
    rcases permitted with rfl | rfl | rfl <;> rfl
  | refuse | tend => rfl
  | begin | preempt | pause => rfl
  | @instruct session place id stack after cost scheduler steps =>
    have instructs := Scheduler.Instructed.of_step steps
    generalize instructed place stack after session.scheduler scheduler = events at instructs
    cases instructs with
    | alone | spawned | received => rfl
    | invoked => exact plain (plain_posted _ _)
  | @finish session place => exact departs place
  | @orphan session place => exact departs place
  | close => exact plain (plain_posted _ _)

/-- The ledger goes on, and the watchers that were accepted are those of before. -/
theorem Runs.ledger (runs : Runs Idly first more next) (standing : first.Standing)
    (ledger : Ledger events first.session.scheduler.roster first.session.scheduler.notices) :
    next.Standing ∧ (∀ slot, watchersOf slot more = []) ∧
      Ledger (events ++ more) next.session.scheduler.roster next.session.scheduler.notices := by
  induction runs with
  | none =>
    rw [List.append_nil]
    exact ⟨standing, fun _ => rfl, ledger⟩
  | move _ moves inductionHypothesis =>
    obtain ⟨standingNow, none, ledgerNow⟩ := inductionHypothesis
    have permitted := moves.mono fun _ _ => Idly.permits
    rw [← List.append_assoc]
    refine ⟨permitted.standing standingNow, fun slot => ?_, permitted.ledger standingNow ledgerNow⟩
    rw [watchersOf_append, none, moves.watchersOf_eq_nil]
    rfl

end Moment

/-! ### What is left -/

namespace Scheduler

open Moment (accepted watchersOf)

variable {origin before next : Scheduler} {slot place : Slot} {task earlier : Task}
  {lists : Lane → List Slot} {held unscheduled : List TaskId} {running owed : Option Slot}
  {ended : List Slot} {events : List Moment.Event}

/-- A task that has not ended, and whose number is not new, had not ended before. -/
theorem Descends.was_alive (descends : next.Descends before)
    (present : next.roster.task? slot = some task) (alive : task.life = .alive)
    (old : task.id.number < before.nextId.number) :
    ∃ earlier, before.roster.task? slot = some earlier ∧ earlier.id = task.id ∧
      earlier.life = .alive := by
  rcases descends.tasks slot task present with ⟨earlier, wasPresent, id, ended⟩ | late
  · refine ⟨earlier, wasPresent, id, ?_⟩
    cases life : earlier.life with
    | alive => rfl
    | zombie => exact absurd (alive.symm.trans (ended life)) nofun
  · exact absurd old (Nat.not_lt.mpr late.2)

section

variable (descends : next.Descends before)
  (sound : before.Sound origin ended lists held unscheduled running owed)
include descends sound

/-- A task that has not ended is where it was. -/
theorem Descends.place_eq (wasPresent : before.roster.task? slot = some earlier)
    (present : next.roster.task? place = some task) (alive : task.life = .alive)
    (id : task.id = earlier.id) : place = slot := by
  have old := sound.counted.numbered wasPresent
  rw [← id] at old
  obtain ⟨found, foundPresent, foundId, _⟩ := descends.was_alive present alive old
  exact sound.counted.eq_of_id wasPresent foundPresent (foundId.trans id)

variable (ledger : Moment.Ledger (accepted before.roster ++ events) next.roster next.notices)
  (none : ∀ slot, watchersOf slot events = [])
include ledger none

theorem watches_iff (id : TaskId) (watcher : Nat) :
    next.Watches id watcher ↔ before.Watches id watcher ∧ next.Lives id := by
  have waiting {slot : Slot} {task : Task} (present : next.roster.task? slot = some task)
      (alive : task.life = .alive) : task.watchers = watchersOf slot (accepted before.roster) := by
    rw [(ledger.minds.1 slot task present alive).1, Moment.watchersOf_append, none,
      List.append_nil]
  constructor
  · rintro ⟨slot, task, present, rfl, alive, waits⟩
    rw [waiting present alive] at waits
    obtain ⟨earlier, wasPresent, wasAlive, watched⟩ := Moment.exists_of_mem_accepted waits
    rcases descends.tasks slot task present with ⟨found, foundPresent, is, _⟩ | late
    · obtain rfl := Option.some.inj (wasPresent.symm.trans foundPresent)
      exact ⟨⟨slot, earlier, wasPresent, is, wasAlive, watched⟩, slot, task, present, rfl, alive⟩
    · exact absurd (Roster.lt_size_of_task?_eq_some wasPresent) (Nat.not_lt.mpr late.1)
  · rintro ⟨⟨slot, earlier, wasPresent, rfl, wasAlive, watched⟩, place, task, present, id, alive⟩
    obtain rfl := descends.place_eq sound wasPresent present alive id
    refine ⟨place, task, present, id, alive, ?_⟩
    rw [waiting present alive, Moment.watchersOf_accepted_of_alive wasPresent wasAlive]
    exact watched

/-- Who is told waited for somebody who has ended, and all are told who did. -/
theorem told_iff {fell : List Slot} (since : next.Since before fell) (watcher : Nat) :
    (∃ id exit, Notice.ended watcher id exit ∈ next.notices) ↔
      ∃ id, before.Watches id watcher ∧ ¬ next.Lives id := by
  constructor
  · rintro ⟨id, exit, told⟩
    have among : Notice.ended watcher id exit ∈ next.notices.reverse.filter Notice.isEnding :=
      List.mem_filter.mpr ⟨List.mem_reverse.mpr told, rfl⟩
    rw [ledger.told] at among
    obtain ⟨slot, ends, waits⟩ := Moment.exists_of_mem_farewells among
    rw [Moment.watchersOf_append, none, List.append_nil] at waits
    obtain ⟨earlier, wasPresent, wasAlive, watched⟩ := Moment.exists_of_mem_accepted waits
    refine ⟨earlier.id, ⟨slot, earlier, wasPresent, rfl, wasAlive, watched⟩, ?_⟩
    rintro ⟨place, task, present, id, alive⟩
    obtain rfl := descends.place_eq sound wasPresent present alive id
    exact (ledger.minds.1 place task present alive).2 ends
  · rintro ⟨id, ⟨slot, earlier, wasPresent, rfl, wasAlive, watched⟩, gone⟩
    obtain ⟨recent, notices, told⟩ := since.told
    have fallen : slot ∈ fell := by
      by_contra apart
      obtain ⟨later, present, alive, id, _⟩ := since.alive slot earlier wasPresent wasAlive apart
      exact gone ⟨slot, later, present, id, alive⟩
    obtain ⟨exit, known⟩ := told slot fallen earlier wasPresent wasAlive watcher watched
    exact ⟨earlier.id, exit, notices ▸ List.mem_append_left _ known⟩

theorem succeeds {fell : List Slot} (since : next.Since before fell) : next.Succeeds before where
  numbers := descends.numbers
  lives := fun id old lives => by
    obtain ⟨slot, task, present, rfl, alive⟩ := lives
    obtain ⟨earlier, wasPresent, is, wasAlive⟩ := descends.was_alive present alive old
    exact ⟨slot, earlier, wasPresent, is, wasAlive⟩
  watches := watches_iff descends sound ledger none
  told := told_iff descends sound ledger none since

end

/-- A task that is not among those that have ended has not. -/
theorem Since.lives (since : next.Since before []) {id : TaskId} (lives : before.Lives id) :
    next.Lives id := by
  obtain ⟨slot, earlier, wasPresent, rfl, wasAlive⟩ := lives
  obtain ⟨later, present, alive, id, _⟩ :=
    since.alive slot earlier wasPresent wasAlive List.not_mem_nil
  exact ⟨slot, later, present, id, alive⟩

end Scheduler

namespace Session

variable {session : Session} {next : Scheduler} {operation : Operation}

/-- The embedder lets tasks run or time go by. What has come of the tasks can be told from those
that have not ended, and so can who was told. If no task had a turn, none has ended. -/
theorem succeeds_of_idly (sound : session.Sound) (silent : session.scheduler.notices = [])
    (idly : Moment.Idly session operation)
    (performs : operation.perform session.scheduler = .ok ⟨⟩ next) :
    next.Succeeds session.scheduler ∧
      next.Settled next [] session.held session.unscheduled ∧
      (operation.givesTurns = false → ∀ id, session.scheduler.Lives id → next.Lives id) := by
  obtain ⟨events, runs⟩ : ∃ events, Moment.Runs Moment.Idly ⟨session, .between⟩ events
      ⟨⟨next, session.heldAfter operation, session.unscheduledAfter operation⟩, .between⟩ :=
    session.runs_of_perform idly performs
  have ledger := Moment.ledger_accepted session.scheduler.roster
  rw [← silent] at ledger
  obtain ⟨-, none, ledgerNow⟩ := runs.ledger sound ledger
  have descends : next.Descends session.scheduler := by
    have lasting : Scheduler.Lasting (·.Descends session.scheduler) True :=
      (Scheduler.indifferent_descends session.scheduler).lasting
    refine (operation.after_perform_lasting lasting (.refl _) fun _ _ _ _ inserts => ?_).ok performs
    rcases idly with rfl | rfl | rfl <;> exact absurd inserts nofun
  obtain ⟨lists, sound⟩ := sound
  obtain ⟨ended, quiet, listsNow, soundNow⟩ :=
    (Session.after_perform sound operation idly.permits).ok performs
  refine ⟨Scheduler.succeeds descends sound ledgerNow none soundNow.since, ⟨listsNow, ?_⟩,
    fun still id lives => ?_⟩
  · rcases idly with rfl | rfl | rfl <;> exact soundNow.restart
  · rw [quiet still] at soundNow
    exact soundNow.since.lives lives

end Session

end TaskMachine
