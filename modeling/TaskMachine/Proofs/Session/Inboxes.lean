/-
Whose inbox is whose. A task has the inbox with which it came as long as it is
there. An inbox that the scheduler opens for a task is a new one, and that of a
task which the embedder inserts is the one that it hands over: two tasks have the
same inbox only if the embedder hands one over while a task has it. `Housed` says
that no two do, and is kept by whatever else is done.
-/

import TaskMachine.Proofs.Session.Deliveries
import TaskMachine.Proofs.Session.Orphans

namespace TaskMachine

namespace Roster

variable {roster later : Roster} {slot other : Slot} {task : Task}

/-- A task that is changed has its inbox still. -/
theorem mailbox_alter {change : Task → Task}
    (present : (roster.alter slot change).task? other = some task)
    (same : ∀ task, (change task).mailbox = task.mailbox) :
    ∃ earlier, roster.task? other = some earlier ∧ earlier.mailbox = task.mailbox := by
  rw [task?_alter] at present
  split at present
  · obtain ⟨earlier, earlierPresent, rfl⟩ := Option.map_eq_some_iff.mp present
    exact ⟨earlier, earlierPresent, (same earlier).symm⟩
  · exact ⟨task, present, rfl⟩

theorem Lent.mailbox (lent : roster.Lent later) (present : later.task? slot = some task) :
    ∃ earlier, roster.task? slot = some earlier ∧ earlier.mailbox = task.mailbox := by
  rcases lent with rfl | ⟨_, rfl⟩
  · exact ⟨task, present, rfl⟩
  · exact mailbox_alter present fun _ => rfl

end Roster

namespace Scheduler

/-- Each task has an inbox that was opened, and no two have the same. All inboxes that were opened
have some messages for their receivers. -/
structure Housed (scheduler : Scheduler) : Prop where
  opened : ∀ slot task, scheduler.roster.task? slot = some task →
    task.mailbox.inbox < scheduler.mailroom.inboxes.size
  apart : ∀ slot other task found, scheduler.roster.task? slot = some task →
    scheduler.roster.task? other = some found → found.mailbox = task.mailbox → other = slot
  holds : ∀ mailbox : Mailbox, mailbox.inbox < scheduler.mailroom.inboxes.size →
    ∃ pending, scheduler.mailroom.Holds mailbox pending

variable {scheduler next : Scheduler} {broken : Prop}

namespace Housed

/-- The tasks that are there were there before with the same inboxes, and these are unchanged. -/
theorem of_tasks (housed : scheduler.Housed)
    (inboxes : next.mailroom.inboxes = scheduler.mailroom.inboxes)
    (tasks : ∀ slot task, next.roster.task? slot = some task → ∃ earlier,
      scheduler.roster.task? slot = some earlier ∧ earlier.mailbox = task.mailbox) :
    next.Housed where
  opened := fun slot task present => by
    obtain ⟨earlier, earlierPresent, same⟩ := tasks slot task present
    rw [inboxes, ← same]
    exact housed.opened slot earlier earlierPresent
  apart := fun slot other task found present foundPresent shared => by
    obtain ⟨earlier, earlierPresent, same⟩ := tasks slot task present
    obtain ⟨known, knownPresent, alike⟩ := tasks other found foundPresent
    exact housed.apart slot other earlier known earlierPresent knownPresent
      (alike.trans (shared.trans same.symm))
  holds := fun mailbox within => by
    rw [inboxes] at within
    obtain ⟨pending, holds⟩ := housed.holds mailbox within
    exact ⟨pending, holds.of_inboxes (by rw [inboxes])⟩

theorem congr (housed : scheduler.Housed) (roster : next.roster = scheduler.roster)
    (inboxes : next.mailroom.inboxes = scheduler.mailroom.inboxes) : next.Housed :=
  housed.of_tasks inboxes fun _ task present => ⟨task, roster ▸ present, rfl⟩

/-- A task is changed, and keeps its inbox. -/
theorem alter (housed : scheduler.Housed) (slot : Slot) {change : Task → Task}
    (mailbox : ∀ task, (change task).mailbox = task.mailbox) :
    ({ scheduler with roster := scheduler.roster.alter slot change } : Scheduler).Housed :=
  housed.of_tasks rfl fun _ _ present => Roster.mailbox_alter present mailbox

/-- A task comes with an inbox that nobody has. -/
theorem entered (housed : scheduler.Housed) {mailbox : Mailbox}
    (opened : mailbox.inbox < scheduler.mailroom.inboxes.size)
    (spare : ∀ slot task, scheduler.roster.task? slot = some task → task.mailbox ≠ mailbox)
    (id : TaskId) (function : Function) (parent : Option Slot) :
    (scheduler.entered id function parent mailbox).Housed where
  opened := fun slot task present => by
    rcases Roster.of_task?_push present with ⟨-, rfl⟩ | before
    · exact opened
    · exact housed.opened slot task before
  apart := fun slot other task found present foundPresent shared => by
    rcases Roster.of_task?_push present with ⟨rfl, rfl⟩ | before
    · rcases Roster.of_task?_push foundPresent with ⟨rfl, -⟩ | known
      · rfl
      · exact absurd shared (spare other found known)
    · rcases Roster.of_task?_push foundPresent with ⟨-, rfl⟩ | known
      · exact absurd shared.symm (spare slot task before)
      · exact housed.apart slot other task found before known shared
  holds := housed.holds

/-- Only the messages in the inboxes are changed. -/
theorem of_size (housed : scheduler.Housed) {room : Mailroom}
    (size : room.inboxes.size = scheduler.mailroom.inboxes.size)
    (holds : ∀ mailbox pending, scheduler.mailroom.Holds mailbox pending →
      ∃ pending, room.Holds mailbox pending) :
    ({ scheduler with mailroom := room } : Scheduler).Housed where
  opened := fun slot task present => size ▸ housed.opened slot task present
  apart := housed.apart
  holds := fun mailbox within => by
    obtain ⟨pending, before⟩ := housed.holds mailbox (size ▸ within)
    exact holds mailbox pending before

theorem send (housed : scheduler.Housed) (mailbox : Mailbox) (message : Message) :
    ({ scheduler with mailroom := scheduler.mailroom.send mailbox message } :
      Scheduler).Housed := by
  obtain ⟨size, others⟩ := scheduler.mailroom.inboxes_send mailbox message
  refine housed.of_size size fun other pending holds => ?_
  by_cases same : other = mailbox
  · subst same
    exact ⟨_, (holds.send message).1⟩
  · exact ⟨pending, holds.of_inboxes (others other same)⟩

theorem receive (housed : scheduler.Housed) (mailbox : Mailbox) :
    ({ scheduler with mailroom := (scheduler.mailroom.receive mailbox).1 } :
      Scheduler).Housed := by
  obtain ⟨size, others⟩ := scheduler.mailroom.inboxes_receive mailbox
  refine housed.of_size size fun other pending holds => ?_
  by_cases same : other = mailbox
  · subst same
    exact ⟨_, holds.receive.1⟩
  · exact ⟨pending, holds.of_inboxes (others other same)⟩

/-- A new inbox is opened, which nobody has. -/
theorem addInbox (housed : scheduler.Housed) (owner : TaskId) :
    ({ scheduler with mailroom := (scheduler.mailroom.addInbox owner).1 } : Scheduler).Housed := by
  have size : (scheduler.mailroom.addInbox owner).1.inboxes.size =
      scheduler.mailroom.inboxes.size + 1 := Array.size_push _
  refine ⟨fun slot task present => ?_, housed.apart, fun mailbox within => ?_⟩
  · exact size ▸ Nat.lt_succ_of_lt (housed.opened slot task present)
  · rcases Nat.lt_or_ge mailbox.inbox scheduler.mailroom.inboxes.size with old | new
    · obtain ⟨pending, holds⟩ := housed.holds mailbox old
      exact ⟨pending, holds.of_inboxes (Mailroom.Opens.addInbox _ owner |>.kept old)⟩
    · have is : mailbox = (scheduler.mailroom.addInbox owner).2 := by
        rw [size] at within
        exact congrArg Mailbox.mk (Nat.le_antisymm (Nat.le_of_lt_succ within) new)
      exact ⟨[], is ▸ Mailroom.Holds.addInbox_self _ owner⟩

theorem born (housed : scheduler.Housed) (function : Function) (parent : Option Slot) :
    ({ scheduler.entered scheduler.nextId function parent
          (scheduler.mailroom.addInbox scheduler.nextId).2 with
        nextId := scheduler.nextId.next
        mailroom := (scheduler.mailroom.addInbox scheduler.nextId).1 } : Scheduler).Housed := by
  have opened := housed.addInbox scheduler.nextId
  have size : (scheduler.mailroom.addInbox scheduler.nextId).1.inboxes.size =
      scheduler.mailroom.inboxes.size + 1 := Array.size_push _
  have spare : ∀ slot task, scheduler.roster.task? slot = some task →
      task.mailbox ≠ (scheduler.mailroom.addInbox scheduler.nextId).2 := by
    intro slot task present same
    have before := housed.opened slot task present
    rw [same] at before
    exact Nat.lt_irrefl _ before
  exact (opened.entered (size ▸ Nat.lt_succ_self _) spare scheduler.nextId function parent).congr
    rfl rfl

end Housed

theorem stable_housed : Stable Housed where
  beside := fun housed beside => housed.congr beside.roster beside.inboxes
  opens := fun owner housed => housed.addInbox owner
  sends := fun mailbox message housed => housed.send mailbox message
  receives := fun mailbox housed => housed.receive mailbox
  wakes := fun id housed => housed.congr rfl (Mailroom.inboxes_wake _ id)
  arrange := fun housed same => housed.of_tasks rfl fun slot task present => by
    obtain ⟨earlier, earlierPresent, is⟩ := same.symm.present present
    have mailbox : earlier.unplaced.mailbox = task.unplaced.mailbox := congrArg Task.mailbox is
    exact ⟨earlier, earlierPresent, mailbox⟩
  alter := fun slot _ housed _ mailbox _ _ => housed.alter slot mailbox
  number := fun housed => housed.congr rfl rfl
  born := fun function parent housed => housed.born function parent
  retimes := fun _ _ housed => housed.congr rfl rfl
  rewaits := fun slot _ housed _ mailbox _ _ => housed.alter slot mailbox
  leave := fun _ housed => housed.of_tasks rfl fun _ task present =>
    ⟨task, (Roster.of_task?_drop present).2, rfl⟩

theorem lasting_housed : Lasting Housed broken where
  toStable := stable_housed
  suspends := fun {_ slot _} housed _ _ =>
    stable_housed.preserves_suspend slot (fun housed => housed.alter slot fun _ => rfl) _ housed
  goesOn := Preserves.bind (fun _ housed => After.modifyGet (housed.congr rfl rfl))
    fun woken => .forM woken fun id => stable_housed.preserves_resumeIf id .message
  tokenless := fun _ _ housed => housed.congr rfl rfl

end Scheduler

namespace Session

variable {session next : Session} {scheduler : Scheduler} {operation : Operation}

/-- A task is inserted with an inbox that was opened and that no task has. -/
def Furnishes (session : Session) (operation : Operation) : Prop :=
  ∀ id function parent mailbox, operation = .insertTask id function parent mailbox →
    mailbox.inbox < session.scheduler.mailroom.inboxes.size ∧
      ∀ slot task, session.scheduler.roster.task? slot = some task → task.mailbox ≠ mailbox

/-- What can come of a scheduler if each inbox is handed over once. -/
inductive Furnished : Session → Prop
  | start (config : Config) (patience : Nat) (respond : List Notice → List Letter) :
      Furnished (start config patience respond)
  | step {session next : Session} {operation : Operation} (furnished : Furnished session)
      (furnishes : session.Furnishes operation) (steps : session.Step operation next) :
      Furnished next

theorem Furnished.reachable (furnished : session.Furnished) : session.Reachable := by
  induction furnished with
  | start config patience respond => exact .start config patience respond
  | step _ _ steps inductionHypothesis => exact .step inductionHypothesis steps

theorem Furnished.continued (furnished : session.Furnished)
    (furnishes : session.Furnishes operation) (permitted : session.Permits operation)
    (ends : session.hasEnd operation = true) : (session.continued operation).Furnished :=
  .step furnished furnishes (step_continued permitted ends)

/-- No two tasks have the same inbox, if each inbox is handed over once. -/
theorem Furnished.housed (furnished : session.Furnished) : session.scheduler.Housed := by
  induction furnished with
  | start config patience respond =>
    exact ⟨fun _ _ => nofun, fun _ _ _ _ => nofun, fun _ => nofun⟩
  | @step session next operation _ furnishes steps housed =>
    have lasting : Scheduler.Lasting Scheduler.Housed True := Scheduler.lasting_housed
    have after := operation.after_perform_lasting lasting housed
      fun id function parent mailbox is => by
        obtain ⟨opened, spare⟩ := furnishes id function parent mailbox is
        have inserts : After (Scheduler.insertTask id function parent mailbox) session.scheduler
            (fun _ => Scheduler.Housed) fun _ next => True → next.Housed :=
          Scheduler.Steady.after_insertTask housed fun parent roster _ lent => by
            refine (lasting.lends housed lent).entered opened (fun slot task present => ?_) id
              function parent
            obtain ⟨earlier, earlierPresent, same⟩ := lent.mailbox present
            exact same ▸ spare slot earlier earlierPresent
        exact inserts.mono (fun _ _ housed => housed) fun _ _ housed => housed trivial
    cases steps with
    | success _ succeeds => exact after.ok succeeds
    | refusal _ breaks _ => exact after.error breaks (Or.inl trivial)

/-- That goes for the turns of a pass as well. -/
theorem Visits.housed (visits : session.Visits scheduler) (furnished : session.Furnished) :
    scheduler.Housed := by
  have lasting : Scheduler.Lasting Scheduler.Housed True := Scheduler.lasting_housed
  induction visits with
  | between => exact furnished.housed
  | resumed wakes polls =>
    have woken := (lasting.goesOn _ furnished.housed).ok wakes
    have polled : Scheduler.Preserves Scheduler.Housed True Scheduler.pollTimers :=
      lasting.preserves_pollTimers
    exact (polled _ woken).ok polls
  | stepped _ steps housed => exact (lasting.preserves_step _ housed).ok steps

end Session

end TaskMachine
