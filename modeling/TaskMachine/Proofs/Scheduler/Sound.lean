/-
What holds of a scheduler at all times. `Sound` puts the two agreements about
its tasks together: their references are counted, and they agree with the queues.
Besides, no timer has a period, so that firing the timers cannot break off.

An operation is followed from a state that it begins in, its origin. `Since`
says what has become of the tasks that were alive at the origin: those that have
ended are on a list, and their watchers were told; all others are still there
and alive. Both agreements hold in the middle of an operation too, if it is
known whose turn it is and to which task a reference is owed.
-/

import TaskMachine.Proofs.Roster.Queued
import TaskMachine.Proofs.Scheduler.Parts

namespace TaskMachine

/-- What the embedder can tell of a task besides its state. -/
def Task.seen (task : Task) : (TaskId × Option Slot × Nat × Life) × List Nat :=
  (task.account, task.watchers)

theorem Task.seen_disarm (task : Task) : task.disarm.seen = task.seen := rfl

theorem Task.seen_arm (stack : Stack) (task : Task) : (task.arm stack).seen = task.seen := rfl

theorem Task.seen_await (awaited : Option Awaited) (task : Task) :
    (task.await awaited).seen = task.seen := rfl

/-- No timer fires more than once. -/
def Agenda.OneShot (agenda : Agenda) : Prop :=
  ∀ timer entry, agenda.pending.find? timer = some entry → entry.period = none

/-- Whether a crash says that the embedder asked for what cannot be done. All others say that
something is wrong with the scheduler, or that an operation has no end. -/
def Crash.isRefusal : Crash → Bool
  | .destroyed _ | .alreadyExists _ | .alreadyEnded _ | .alreadyEnqueued _ _ | .overReleased _ =>
    true
  | _ => false

namespace Scheduler

/-- What has become of the tasks that were alive before, if none but these have ended. All others
are alive, and the watchers of these were told. That a task on the list has ended is seen here only
if it was watched: who was given an exit is told by `Moment.Fates`. -/
structure Since (scheduler origin : Scheduler) (ended : List Slot) : Prop where
  config : scheduler.config = origin.config
  told : ∃ recent, scheduler.notices = recent ++ origin.notices ∧
    ∀ slot ∈ ended, ∀ task, origin.roster.task? slot = some task → task.life = .alive →
      ∀ watcher ∈ task.watchers, ∃ exit, Notice.ended watcher task.id exit ∈ recent
  alive : ∀ slot task, origin.roster.task? slot = some task → task.life = .alive → slot ∉ ended →
    ∃ later, scheduler.roster.task? slot = some later ∧ later.life = .alive ∧ later.id = task.id ∧
      task.watchers ⊆ later.watchers

/-- The tasks, the queues and the timers of a scheduler are as they should be. -/
structure Sound (scheduler origin : Scheduler) (ended : List Slot) (lists : Lane → List Slot)
    (held unscheduled : List TaskId) (running owed : Option Slot) : Prop where
  counted : scheduler.roster.Counted scheduler.registry scheduler.nextId held owed
  queued : scheduler.roster.Queued lists running unscheduled
  oneShot : scheduler.agenda.OneShot
  since : scheduler.Since origin ended

/-- A scheduler is sound between two operations. -/
def Settled (scheduler origin : Scheduler) (ended : List Slot) (held unscheduled : List TaskId) :
    Prop :=
  ∃ lists, scheduler.Sound origin ended lists held unscheduled none none

variable {origin scheduler next : Scheduler} {ended : List Slot} {lists listsNow : Lane → List Slot}
  {held unscheduled unscheduledNow : List TaskId} {running runningNow owed : Option Slot}
  {slot : Slot} {task : Task}

theorem Since.refl (scheduler : Scheduler) : scheduler.Since scheduler [] where
  config := rfl
  told := ⟨[], rfl, fun _ member => absurd member (List.not_mem_nil)⟩
  alive := fun _ task present alive _ => ⟨task, present, alive, rfl, List.Subset.refl _⟩

/-- Nothing has become of the tasks if those that were alive still are. -/
theorem Since.later (since : scheduler.Since origin ended) (config : next.config = scheduler.config)
    (told : ∃ recent, next.notices = recent ++ scheduler.notices)
    (alive : ∀ slot task, scheduler.roster.task? slot = some task → task.life = .alive →
      ∃ later, next.roster.task? slot = some later ∧ later.life = .alive ∧ later.id = task.id ∧
        task.watchers ⊆ later.watchers) : next.Since origin ended where
  config := config.trans since.config
  told := by
    obtain ⟨recent, notices, told'⟩ := since.told
    obtain ⟨more, notices'⟩ := told
    refine ⟨more ++ recent, by rw [notices', notices, List.append_assoc], ?_⟩
    intro slot member task present alive watcher watches
    obtain ⟨exit, known⟩ := told' slot member task present alive watcher watches
    exact ⟨exit, List.mem_append_right _ known⟩
  alive := fun slot task present lives apart => by
    obtain ⟨middle, middlePresent, middleAlive, id, watchers⟩ :=
      since.alive slot task present lives apart
    obtain ⟨later, laterPresent, laterAlive, id', watchers'⟩ :=
      alive slot middle middlePresent middleAlive
    exact ⟨later, laterPresent, laterAlive, id'.trans id,
      fun _ member => watchers' (watchers member)⟩

/-- What has become of the tasks since, and further on. -/
theorem Since.trans {middle : Scheduler} {endedNow : List Slot}
    (since : middle.Since origin ended) (further : scheduler.Since middle endedNow) :
    scheduler.Since origin (ended ++ endedNow) where
  config := further.config.trans since.config
  told := by
    obtain ⟨recent, notices, told⟩ := since.told
    obtain ⟨more, noticesNow, toldNow⟩ := further.told
    refine ⟨more ++ recent, by rw [noticesNow, notices, List.append_assoc], ?_⟩
    intro slot member task present alive watcher watches
    by_cases before : slot ∈ ended
    · obtain ⟨exit, known⟩ := told slot before task present alive watcher watches
      exact ⟨exit, List.mem_append_right _ known⟩
    · have now := (List.mem_append.mp member).resolve_left before
      obtain ⟨later, laterPresent, laterAlive, id, watchers⟩ :=
        since.alive slot task present alive before
      obtain ⟨exit, known⟩ :=
        toldNow slot now later laterPresent laterAlive watcher (watchers watches)
      exact ⟨exit, List.mem_append_left _ (id ▸ known)⟩
  alive := fun slot task present alive apart => by
    obtain ⟨middle, middlePresent, middleAlive, id, watchers⟩ :=
      since.alive slot task present alive fun member => apart (List.mem_append_left _ member)
    obtain ⟨later, laterPresent, laterAlive, id', watchers'⟩ :=
      further.alive slot middle middlePresent middleAlive fun member =>
        apart (List.mem_append_right _ member)
    exact ⟨later, laterPresent, laterAlive, id'.trans id, fun _ member => watchers' (watchers member)⟩

namespace Sound

/-- A scheduler is its own origin. -/
theorem restart (sound : scheduler.Sound origin ended lists held unscheduled running owed) :
    scheduler.Sound scheduler [] lists held unscheduled running owed :=
  ⟨sound.counted, sound.queued, sound.oneShot, Since.refl scheduler⟩

/-- What else a scheduler has plays no part. -/
theorem congr (sound : scheduler.Sound origin ended lists held unscheduled running owed)
    (roster : next.roster = scheduler.roster) (registry : next.registry = scheduler.registry)
    (nextId : next.nextId = scheduler.nextId) (oneShot : next.agenda.OneShot)
    (config : next.config = scheduler.config)
    (told : ∃ recent, next.notices = recent ++ scheduler.notices) :
    next.Sound origin ended lists held unscheduled running owed where
  counted := by
    rw [roster, registry, nextId]
    exact sound.counted
  queued := by
    rw [roster]
    exact sound.queued
  oneShot := oneShot
  since := sound.since.later config told fun slot task present alive =>
    ⟨task, by rw [roster, present], alive, rfl, List.Subset.refl _⟩

theorem mailroom (sound : scheduler.Sound origin ended lists held unscheduled running owed)
    (mailroom : Mailroom) : ({ scheduler with mailroom } : Scheduler).Sound origin ended lists held
      unscheduled running owed :=
  sound.congr rfl rfl rfl sound.oneShot rfl ⟨[], rfl⟩

theorem timers (sound : scheduler.Sound origin ended lists held unscheduled running owed)
    {agenda : Agenda} (oneShot : agenda.OneShot) : ({ scheduler with agenda } : Scheduler).Sound
      origin ended lists held unscheduled running owed :=
  sound.congr rfl rfl rfl oneShot rfl ⟨[], rfl⟩

/-- The tasks change their places or what the embedder cannot tell. -/
theorem rearrange (sound : scheduler.Sound origin ended lists held unscheduled running owed)
    {roster : Roster} (seen : ∀ slot,
      (roster.task? slot).map Task.seen = (scheduler.roster.task? slot).map Task.seen)
    (queued : roster.Queued listsNow runningNow unscheduledNow) :
    ({ scheduler with roster } : Scheduler).Sound origin ended listsNow held unscheduledNow
      runningNow owed where
  counted := sound.counted.congr fun slot => by
    have same := congrArg (Option.map Prod.fst) (seen slot)
    rwa [Option.map_map, Option.map_map] at same
  queued := queued
  oneShot := sound.oneShot
  since := sound.since.later rfl ⟨[], rfl⟩ fun slot task present alive => by
    have same := seen slot
    rw [present, Option.map_some] at same
    obtain ⟨later, laterPresent, is⟩ := Option.map_eq_some_iff.mp same
    simp only [Task.seen, Task.account, Prod.mk.injEq] at is
    obtain ⟨⟨id, _, _, life⟩, watchers⟩ := is
    exact ⟨later, laterPresent, life.trans alive, id, by rw [watchers]; exact List.Subset.refl _⟩

/-- A task is counted otherwise, and that is all that changes. -/
theorem recount (sound : scheduler.Sound origin ended lists held unscheduled running owed)
    {change : Task → Task} {heldNow : List TaskId} {owedNow : Option Slot}
    (counted : (scheduler.roster.alter slot change).Counted scheduler.registry scheduler.nextId
      heldNow owedNow) (standing : ∀ task, (change task).standing = task.standing)
    (watchers : ∀ task, task.watchers ⊆ (change task).watchers) :
    ({ scheduler with roster := scheduler.roster.alter slot change } : Scheduler).Sound origin ended
      lists heldNow unscheduled running owedNow where
  counted := counted
  queued := sound.queued.congr (funext fun lane => Roster.ends_alter _ slot change lane)
    (Roster.map_alter _ slot standing)
  oneShot := sound.oneShot
  since := sound.since.later rfl ⟨[], rfl⟩ fun other task present alive => by
    show ∃ later, (scheduler.roster.alter slot change).task? other = some later ∧ _
    rw [Roster.task?_alter, present]
    split
    · have same := standing task
      simp only [Task.standing, Prod.mk.injEq] at same
      exact ⟨_, rfl, same.2.1.trans alive, same.1, watchers task⟩
    · exact ⟨task, rfl, alive, rfl, List.Subset.refl _⟩

end Sound

end Scheduler

end TaskMachine
