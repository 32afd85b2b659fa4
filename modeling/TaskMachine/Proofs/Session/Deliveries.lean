/-
Everything that is sent to an inbox comes out of it in order. At every moment of
a session, what was stored out of an inbox and what is still in it make up what
was sent to it: a letter joins what is in it, a value that is stored has left
from its front, and nothing else touches it. So nothing is dropped, nothing comes
twice, and a task that looks for a message in vain has stored all there was.

Whose inbox it is plays no part in that. What a task has stored came out of the
inbox that it was created with, and so, if nobody else takes from this inbox, it
is all that has come out of it.
-/

import TaskMachine.Proofs.Inbox.Line
import TaskMachine.Proofs.Session.Effects

namespace TaskMachine

/-! ### What was sent and stored -/

namespace Moment

/-- The value that is sent to an inbox. -/
def Event.sentTo? (mailbox : Mailbox) : Event → Option Value
  | .sent letter => if letter.mailbox = mailbox then some letter.message.value else none
  | _ => none

/-- The value that came out of an inbox and is stored. -/
def Event.storedFrom? (mailbox : Mailbox) : Event → Option Value
  | .stored _ source value => if source = mailbox then some value else none
  | _ => none

/-- The value that the task at a place stores. -/
def Event.storedBy? (slot : Slot) : Event → Option Value
  | .stored place _ value => if place = slot then some value else none
  | _ => none

/-- The values that were sent to an inbox, in order. -/
def sentTo (mailbox : Mailbox) (events : List Event) : List Value :=
  events.filterMap (Event.sentTo? mailbox)

/-- The values that came out of an inbox and were stored, in order. -/
def storedFrom (mailbox : Mailbox) (events : List Event) : List Value :=
  events.filterMap (Event.storedFrom? mailbox)

/-- The values that the task at a place has stored, in order. -/
def storedBy (slot : Slot) (events : List Event) : List Value :=
  events.filterMap (Event.storedBy? slot)

/-- An event is no letter, and nothing is stored. -/
def Event.IsMute : Event → Prop
  | .sent _ | .stored _ _ _ => False
  | _ => True

theorem Event.IsMute.sentTo {event : Event} (mute : event.IsMute) (mailbox : Mailbox) :
    sentTo mailbox [event] = [] := by
  cases event <;> first | rfl | exact mute.elim

theorem Event.IsMute.storedFrom {event : Event} (mute : event.IsMute) (mailbox : Mailbox) :
    storedFrom mailbox [event] = [] := by
  cases event <;> first | rfl | exact mute.elim

theorem storedFrom_posted (room : Mailroom) (letters : List Letter) (mailbox : Mailbox) :
    storedFrom mailbox (posted room letters) = [] := by
  rw [storedFrom, posted, List.filterMap_map]
  exact List.filterMap_eq_nil_iff.mpr fun _ _ => rfl

theorem stored_notMem_posted {room : Mailroom} {letters : List Letter} {slot : Slot}
    {mailbox : Mailbox} {value : Value} : .stored slot mailbox value ∉ posted room letters := by
  simp [posted]

end Moment

/-! ### An inbox and what goes through it -/

namespace Mailroom

open Moment (sentTo storedFrom posted)

variable {room next : Mailroom} {mailbox other : Mailbox} {sent stored : List Value}

/-- What is done to one inbox leaves the others alone. -/
theorem inboxes_send (room : Mailroom) (mailbox : Mailbox) (message : Message) :
    (room.send mailbox message).inboxes.size = room.inboxes.size ∧
      ∀ other : Mailbox, other ≠ mailbox →
        (room.send mailbox message).inboxes[other.inbox]? = room.inboxes[other.inbox]? := by
  have sent : (room.send mailbox message).inboxes = (room.put mailbox message).inboxes := by
    rcases room.send_eq mailbox message with is | ⟨owner, is⟩
    · rw [is]
    · rw [is, inboxes_wake]
  rw [sent, put]
  cases room.inboxes[mailbox.inbox]? with
  | none => exact ⟨rfl, fun _ _ => rfl⟩
  | some entry =>
    refine ⟨Array.size_setIfInBounds, fun other differ => ?_⟩
    exact Array.getElem?_setIfInBounds_ne fun same => differ (congrArg Mailbox.mk same.symm)

theorem inboxes_receive (room : Mailroom) (mailbox : Mailbox) :
    (room.receive mailbox).1.inboxes.size = room.inboxes.size ∧
      ∀ other : Mailbox, other ≠ mailbox →
        (room.receive mailbox).1.inboxes[other.inbox]? = room.inboxes[other.inbox]? := by
  rw [receive]
  cases room.inboxes[mailbox.inbox]? with
  | none => exact ⟨rfl, fun _ _ => rfl⟩
  | some entry =>
    refine ⟨Array.size_setIfInBounds, fun other differ => ?_⟩
    exact Array.getElem?_setIfInBounds_ne fun same => differ (congrArg Mailbox.mk same.symm)

/-- To send to an inbox that is not there is to do nothing. -/
theorem send_absent (beyond : room.inboxes.size ≤ mailbox.inbox) (message : Message) :
    room.send mailbox message = room := by
  rw [send, Array.getElem?_eq_none beyond]

theorem receive_absent (beyond : room.inboxes.size ≤ mailbox.inbox) :
    room.receive mailbox = (room, none) := by
  rw [receive, Array.getElem?_eq_none beyond]

/-- What was stored out of an inbox and what is still in it make up what was sent to it. One that
was not opened has seen nothing. -/
def Accounts (room : Mailroom) (mailbox : Mailbox) (sent stored : List Value) : Prop :=
  (∃ pending, room.Holds mailbox pending ∧ sent = stored ++ pending.map Message.value) ∨
    room.inboxes.size ≤ mailbox.inbox ∧ sent = [] ∧ stored = []

namespace Accounts

/-- What is done to other inboxes changes nothing. -/
theorem of_inboxes (accounts : room.Accounts mailbox sent stored)
    (size : next.inboxes.size = room.inboxes.size)
    (same : next.inboxes[mailbox.inbox]? = room.inboxes[mailbox.inbox]?) :
    next.Accounts mailbox sent stored := by
  rcases accounts with ⟨pending, holds, split⟩ | ⟨beyond, nothing⟩
  · exact Or.inl ⟨pending, holds.of_inboxes same, split⟩
  · exact Or.inr ⟨size ▸ beyond, nothing⟩

theorem opens (accounts : room.Accounts mailbox sent stored) (opens : room.Opens next) :
    next.Accounts mailbox sent stored := by
  rcases accounts with ⟨pending, holds, split⟩ | ⟨beyond, rfl, rfl⟩
  · have ⟨owner, inbox, known, _⟩ := holds
    exact Or.inl ⟨pending, holds.of_inboxes (opens.kept (Array.getElem?_eq_some_iff.mp known).1),
      split⟩
  · rcases Nat.lt_or_ge mailbox.inbox next.inboxes.size with within | still
    · obtain ⟨owner, known⟩ := opens.fresh beyond within
      exact Or.inl ⟨[], ⟨owner, .empty, known, Chain.Holds.empty⟩, rfl⟩
    · exact Or.inr ⟨still, rfl, rfl⟩

/-- A letter joins what is in its inbox. -/
theorem send (accounts : room.Accounts mailbox sent stored) (letter : Letter) :
    (room.send letter.mailbox letter.message).Accounts mailbox
      (sent ++ sentTo mailbox (posted room [letter])) stored := by
  by_cases same : letter.mailbox = mailbox
  · subst same
    rcases accounts with ⟨pending, holds, rfl⟩ | ⟨beyond, rfl, rfl⟩
    · have ⟨owner, inbox, known, _⟩ := holds
      have within := (Array.getElem?_eq_some_iff.mp known).1
      refine Or.inl ⟨pending ++ [letter.message], (holds.send letter.message).1, ?_⟩
      simp [posted, sentTo, within, Moment.Event.sentTo?]
    · rw [send_absent beyond]
      refine Or.inr ⟨beyond, ?_, rfl⟩
      simp [posted, sentTo, beyond]
  · have silent : sentTo mailbox (posted room [letter]) = [] := by
      rw [sentTo, posted, List.filterMap_map]
      refine List.filterMap_eq_nil_iff.mpr fun other member => if_neg ?_
      rwa [List.mem_singleton.mp (List.mem_filter.mp member).1]
    obtain ⟨size, others⟩ := room.inboxes_send letter.mailbox letter.message
    rw [silent, List.append_nil]
    exact accounts.of_inboxes size (others mailbox (Ne.symm same))

/-- Letters join what is in their inboxes, one after another. -/
theorem deliver (accounts : room.Accounts mailbox sent stored) (letters : List Letter) :
    (room.deliver letters).Accounts mailbox (sent ++ sentTo mailbox (posted room letters))
      stored := by
  induction letters generalizing room sent with
  | nil =>
    show room.Accounts mailbox (sent ++ []) stored
    rwa [List.append_nil]
  | cons letter rest inductionHypothesis =>
    -- No inbox is opened meanwhile, so the letters behind are for the same inboxes as before.
    have after : posted (room.send letter.mailbox letter.message) rest = posted room rest := by
      simp only [posted, (room.inboxes_send letter.mailbox letter.message).1]
    have split : sentTo mailbox (posted room (letter :: rest)) =
        sentTo mailbox (posted room [letter]) ++ sentTo mailbox (posted room rest) := by
      rw [sentTo, sentTo, sentTo, ← List.filterMap_append, posted, posted, posted,
        ← List.map_append, ← List.filter_append]
      rfl
    have joined := inductionHypothesis (accounts.send letter)
    rwa [after, List.append_assoc, ← split] at joined

/-- What is received is the oldest message of those that were not stored before. -/
theorem receive (accounts : room.Accounts mailbox sent stored) {source : Mailbox}
    {message : Message} (takes : room.receive source = (next, some message)) :
    next.Accounts mailbox sent (stored ++ if source = mailbox then [message.value] else []) := by
  by_cases same : source = mailbox
  · subst same
    rw [if_pos rfl]
    rcases accounts with ⟨pending, holds, rfl⟩ | ⟨beyond, _⟩
    · obtain ⟨left, front⟩ := holds.receive
      rw [takes] at left front
      cases pending with
      | nil => exact absurd front nofun
      | cons first rest =>
        obtain rfl := Option.some.inj front
        exact Or.inl ⟨rest, left, by simp⟩
    · rw [receive_absent beyond] at takes
      exact absurd takes nofun
  · obtain ⟨size, others⟩ := room.inboxes_receive source
    rw [takes] at size others
    rw [if_neg same, List.append_nil]
    exact accounts.of_inboxes size (others mailbox (Ne.symm same))

/-- Whoever receives nothing changes nothing, and all that was sent has been stored. -/
theorem receive_nothing (accounts : room.Accounts mailbox sent stored)
    (nothing : (room.receive mailbox).2 = none) :
    (room.receive mailbox).1 = room ∧ stored = sent := by
  rcases accounts with ⟨pending, holds, rfl⟩ | ⟨beyond, rfl, rfl⟩
  · obtain rfl : pending = [] := List.head?_eq_none_iff.mp (holds.receive.2.symm.trans nothing)
    rw [holds.receive_nil]
    exact ⟨rfl, (List.append_nil stored).symm⟩
  · rw [receive_absent beyond]
    exact ⟨rfl, rfl⟩

/-- What was stored is the beginning of what was sent. -/
theorem isPrefix (accounts : room.Accounts mailbox sent stored) : stored <+: sent := by
  rcases accounts with ⟨pending, _, rfl⟩ | ⟨_, rfl, rfl⟩
  · exact List.prefix_append _ _
  · exact List.prefix_rfl

end Accounts

end Mailroom

/-! ### The inboxes of the tasks -/

theorem getElem?_of_isPrefix {Item : Type} {items more : List Item} (further : items <+: more)
    {index : Nat} {item : Item} (known : items[index]? = some item) : more[index]? = some item := by
  obtain ⟨within, rfl⟩ := List.getElem?_eq_some_iff.mp known
  exact List.prefix_iff_getElem?.mp further index within

namespace Roster

variable {roster next : Roster} {origin mailboxes : List Mailbox}

/-- These are the inboxes that the tasks were created with, by their places. -/
def Addressed (roster : Roster) (mailboxes : List Mailbox) : Prop :=
  mailboxes.length = roster.tasks.size ∧
    ∀ slot task, roster.task? slot = some task → mailboxes[slot]? = some task.mailbox

theorem Addressed.of_map (addressed : roster.Addressed mailboxes)
    (size : next.tasks.size = roster.tasks.size)
    (same : ∀ slot, (next.task? slot).map Task.mailbox = (roster.task? slot).map Task.mailbox) :
    next.Addressed mailboxes := by
  refine ⟨addressed.1.trans size.symm, fun slot task present => ?_⟩
  have is := same slot
  rw [present, Option.map_some] at is
  obtain ⟨before, was, mailbox⟩ := Option.map_eq_some_iff.mp is.symm
  rw [addressed.2 slot before was, mailbox]

theorem Addressed.alter (addressed : roster.Addressed mailboxes) (slot : Slot)
    {change : Task → Task} (same : ∀ task, (change task).mailbox = task.mailbox) :
    (roster.alter slot change).Addressed mailboxes :=
  addressed.of_map (size_alter roster slot change) (map_alter roster slot same)

theorem Addressed.of_sameTasks (addressed : roster.Addressed mailboxes)
    (same : SameTasks roster next) : next.Addressed mailboxes :=
  addressed.of_map same.1 (same.map Task.mailbox fun _ => rfl)

/-- No task changes its inbox. -/
theorem placid_addressed (origin : List Mailbox) :
    Placid fun roster => ∃ mailboxes, origin <+: mailboxes ∧ roster.Addressed mailboxes where
  arrange := by
    rintro roster next ⟨mailboxes, further, addressed⟩ same
    exact ⟨mailboxes, further, addressed.of_sameTasks same⟩
  alters := by
    rintro roster slot change ⟨mailboxes, further, addressed⟩ bearing
    refine ⟨mailboxes, further, addressed.alter slot fun task => ?_⟩
    show (change task).bearing.mailbox = task.bearing.mailbox
    rw [bearing task]
  adds := by
    rintro roster id function parent mailbox ⟨mailboxes, further, length, addressed⟩
    refine ⟨mailboxes ++ [mailbox], further.trans (List.prefix_append _ _), ?_, ?_⟩
    · simp [length]
    · intro slot task present
      rcases of_task?_push present with ⟨rfl, rfl⟩ | before
      · rw [← length]
        exact List.getElem?_concat_length
      · rw [List.getElem?_append_left, addressed slot task before]
        exact length ▸ lt_size_of_task?_eq_some before
  drops := by
    rintro roster slot ⟨mailboxes, further, length, addressed⟩
    refine ⟨mailboxes, further, length.trans (size_setTask _ _ _).symm,
      fun other task present => ?_⟩
    exact addressed other task (of_task?_drop present).2

end Roster

/-! ### The books -/

namespace Moment

open Scheduler (hostFor)

variable {allowed : Session → Operation → Prop} {moment first middle last : Moment}
  {before events more : List Event} {origin : List Mailbox} {roster : Roster} {room : Mailroom}
  {scheduler next : Scheduler} {slot : Slot} {task : Task} {exit : Exit}

/-- What went through the inboxes accounts for what is in them, and the tasks have stored what came
out of the inboxes that they were created with. -/
structure Books (origin : List Mailbox) (roster : Roster) (room : Mailroom) (events : List Event) :
    Prop where
  accounts : ∀ mailbox, room.Accounts mailbox (sentTo mailbox events) (storedFrom mailbox events)
  addressed : ∃ mailboxes, origin <+: mailboxes ∧ roster.Addressed mailboxes ∧
    ∀ slot mailbox value, .stored slot mailbox value ∈ events → mailboxes[slot]? = some mailbox

namespace Books

theorem start (config : Config) (patience : Nat) (respond : List Notice → List Letter) :
    Books [] (start config patience respond).session.scheduler.roster
      (start config patience respond).session.scheduler.mailroom [] where
  accounts := fun _ => Or.inr ⟨Nat.zero_le _, rfl, rfl⟩
  addressed := ⟨[], List.prefix_rfl, ⟨rfl, fun _ _ present => absurd present nofun⟩,
    fun _ _ _ => nofun⟩

/-- What is quiet about the tasks changes no books. -/
theorem quiet (books : Books origin scheduler.roster scheduler.mailroom events)
    {next : Scheduler} (quiet : ∀ {good : Roster → Prop}, Roster.Placid good →
      good scheduler.roster → scheduler.Quiet good next) :
    Books origin next.roster next.mailroom events where
  accounts := fun mailbox =>
    (books.accounts mailbox).opens (quiet Roster.placid_true trivial).opens
  addressed := by
    obtain ⟨mailboxes, further, addressed, stored⟩ := books.addressed
    obtain ⟨now, later, addressedNow⟩ :=
      (quiet (Roster.placid_addressed mailboxes) ⟨mailboxes, List.prefix_rfl, addressed⟩).roster
    exact ⟨now, further.trans later, addressedNow, fun slot mailbox value member =>
      getElem?_of_isPrefix later (stored slot mailbox value member)⟩

theorem mark (books : Books origin roster room events) (event : Event) (mute : event.IsMute) :
    Books origin roster room (events ++ [event]) where
  accounts := fun mailbox => by
    rw [sentTo, storedFrom, List.filterMap_append, List.filterMap_append]
    show room.Accounts mailbox (_ ++ sentTo mailbox [event]) (_ ++ storedFrom mailbox [event])
    rw [mute.sentTo, mute.storedFrom, List.append_nil, List.append_nil]
    exact books.accounts mailbox
  addressed := by
    obtain ⟨mailboxes, further, addressed, stored⟩ := books.addressed
    refine ⟨mailboxes, further, addressed, fun slot mailbox value member => ?_⟩
    rcases List.mem_append.mp member with old | new
    · exact stored slot mailbox value old
    · rw [← List.mem_singleton.mp new] at mute
      exact mute.elim

theorem alter (books : Books origin roster room events) (slot : Slot) (change : Task → Task)
    (same : ∀ task, (change task).mailbox = task.mailbox) :
    Books origin (roster.alter slot change) room events where
  accounts := books.accounts
  addressed :=
    have ⟨mailboxes, further, addressed, stored⟩ := books.addressed
    ⟨mailboxes, further, addressed.alter slot same, stored⟩

theorem deliver (books : Books origin roster room events) (letters : List Letter) :
    Books origin roster (room.deliver letters) (events ++ posted room letters) where
  accounts := fun mailbox => by
    rw [sentTo, storedFrom, List.filterMap_append, List.filterMap_append]
    show (room.deliver letters).Accounts mailbox (_ ++ sentTo mailbox _)
      (_ ++ storedFrom mailbox (posted room letters))
    rw [storedFrom_posted, List.append_nil]
    exact (books.accounts mailbox).deliver letters
  addressed := by
    obtain ⟨mailboxes, further, addressed, stored⟩ := books.addressed
    refine ⟨mailboxes, further, addressed, fun slot mailbox value member => ?_⟩
    exact stored slot mailbox value
      ((List.mem_append.mp member).resolve_right stored_notMem_posted)

theorem receive (books : Books origin roster room events)
    (present : roster.task? slot = some task) {message : Message} {taken : Mailroom}
    (takes : room.receive task.mailbox = (taken, some message)) :
    Books origin roster taken (events ++ [.stored slot task.mailbox message.value]) where
  accounts := fun mailbox => by
    have accounts := (books.accounts mailbox).receive takes
    rw [sentTo, storedFrom, List.filterMap_append, List.filterMap_append]
    show taken.Accounts mailbox (_ ++ []) (_ ++ storedFrom mailbox [_])
    rw [List.append_nil]
    refine Eq.mp (congrArg _ (congrArg _ ?_)) accounts
    rw [storedFrom, List.filterMap_cons, Event.storedFrom?]
    split <;> rfl
  addressed := by
    obtain ⟨mailboxes, further, addressed, stored⟩ := books.addressed
    refine ⟨mailboxes, further, addressed, fun place mailbox value member => ?_⟩
    rcases List.mem_append.mp member with old | new
    · exact stored place mailbox value old
    · cases List.mem_singleton.mp new
      exact addressed.2 slot task present

/-- An instruction at which a turn stops changes nothing, and if it has looked for a message, all
that was sent to the task has been stored. -/
theorem halted {stack after : Stack} {status : Status}
    (books : Books origin scheduler.roster scheduler.mailroom events)
    (halted : scheduler.Halted slot stack after status next) :
    next = scheduler ∧ (status = .suspended .message →
      ∃ task, scheduler.roster.task? slot = some task ∧
        storedFrom task.mailbox events = sentTo task.mailbox events) := by
  rcases halted with ⟨rfl, other⟩ | ⟨-, -, task, present, nothing, rfl⟩
  · exact ⟨rfl, fun looks => absurd looks other⟩
  · obtain ⟨same, all⟩ := (books.accounts task.mailbox).receive_nothing nothing
    exact ⟨by rw [same], fun _ => ⟨task, present, all⟩⟩

/-- A task leaves its queue and becomes a zombie, and its watchers are told. -/
theorem depart (books : Books origin scheduler.roster scheduler.mailroom events)
    (departing : scheduler.Departing slot exit task next) :
    Books origin next.roster next.mailroom (events ++ departed scheduler slot task exit) := by
  obtain ⟨left, leaves, -, is⟩ := departing.out
  have out := books.quiet fun placid holds =>
    (Scheduler.guards_leaveLane placid slot _ (.refl holds)).ok leaves
  have ended := (out.alter slot Task.ended fun _ => rfl).mark (.ended slot task.id exit) trivial
  have told := ended.deliver
    (responses scheduler.respond scheduler.notices (Scheduler.farewells task exit))
  rw [is, departing.mailroom]
  rwa [List.append_assoc] at told

end Books

/-- Whatever is asked for keeps the books. -/
theorem Books.serve {operation : Operation}
    (books : Books origin scheduler.roster scheduler.mailroom before)
    (served : Served operation scheduler events next) :
    Books origin next.roster next.mailroom (before ++ events) := by
  cases served with
  | quietly quiet performs =>
    rw [List.append_nil]
    exact books.quiet fun placid holds =>
      (Operation.guards_perform placid.sedate quiet _ (.refl holds)).ok performs
  | delivered letters => exact books.deliver letters
  | @watched slot task watcher present alive =>
    have joined := books.alter slot
      (fun task => { task with watchers := task.watchers ++ [watcher] }) fun _ => rfl
    exact joined.mark (.watched slot watcher) trivial

/-- Whatever an instruction asks for keeps the books. -/
theorem Books.instruct (books : Books origin scheduler.roster scheduler.mailroom before)
    (instructed : scheduler.Instructed slot events next) :
    Books origin next.roster next.mailroom (before ++ events) := by
  cases instructed with
  | alone =>
    rw [List.append_nil]
    exact books
  | spawned spawns =>
    rw [List.append_nil]
    exact books.quiet fun placid holds =>
      (Scheduler.guards_spawnChild placid.sedate.toPeaceful _ _ _ (.refl holds)).ok spawns
  | received present takes => exact books.receive present takes
  | invoked hook id run wait stack => exact books.deliver _

/-- Every move keeps the books. -/
theorem Move.books (moves : Move allowed moment events middle)
    (books : Books origin moment.session.scheduler.roster moment.session.scheduler.mailroom
      before) :
    Books origin middle.session.scheduler.roster middle.session.scheduler.mailroom
      (before ++ events) := by
  cases moves with
  | serve permitted quiet performs => exact books.serve ((after_serve quiet).ok performs)
  | refuse permitted quiet breaks refusal =>
    rw [List.append_nil]
    exact books.quiet fun placid holds => (Operation.guards_perform placid.sedate
      ((after_serve quiet).error breaks) _ (.refl holds)).error breaks refusal
  | tend chore performs =>
    rw [List.append_nil]
    exact books.quiet fun placid holds =>
      (chore.guards_perform placid.sedate _ (.refl holds)).ok performs
  | begin first cared present mans =>
    exact (books.alter _ Task.disarm fun _ => rfl).mark (.began _) trivial
  | instruct steps => exact books.instruct (.of_step steps)
  | preempt settles =>
    exact (books.quiet fun placid holds => (Scheduler.guards_settle placid _ _ _ rfl _
      (.refl holds)).ok settles).mark (.rested _) trivial
  | pause steps stays settles =>
    obtain ⟨rfl, -⟩ := books.halted (.of_step steps)
    exact (books.quiet fun placid holds => (Scheduler.guards_settle placid _ _ _ stays _
      (.refl holds)).ok settles).mark (.rested _) trivial
  | @finish session slot id stack after status exit task middle scheduler steps exits departs =>
    obtain ⟨rfl, -⟩ := books.halted (.of_step steps)
    have left := (books.mark (.rested slot) trivial).depart
      ((Scheduler.after_depart slot exit _).ok departs)
    rwa [List.append_assoc] at left
  | orphan stands bereft departs => exact books.depart ((Scheduler.after_depart _ _ _).ok departs)
  | close reports releases =>
    obtain ⟨-, rfl⟩ := (Scheduler.after_report _ _ _).ok reports
    exact (books.deliver _).quiet fun placid holds =>
      (Scheduler.guards_releaseSlot placid.sedate _ _ (.refl holds)).ok releases

theorem Runs.books (runs : Runs allowed first events last)
    (books : Books origin first.session.scheduler.roster first.session.scheduler.mailroom before) :
    Books origin last.session.scheduler.roster last.session.scheduler.mailroom
      (before ++ events) := by
  induction runs with
  | none => rwa [List.append_nil]
  | move _ moves inductionHypothesis =>
    rw [← List.append_assoc]
    exact moves.books inductionHypothesis

theorem Reached.books (reached : Reached allowed events moment) :
    Books [] moment.session.scheduler.roster moment.session.scheduler.mailroom events := by
  obtain ⟨config, patience, respond, runs⟩ := reached
  exact runs.books (.start config patience respond)

/-- Nobody has taken from an inbox but the task at a place. -/
def Owns (events : List Event) (slot : Slot) (mailbox : Mailbox) : Prop :=
  ∀ other value, .stored other mailbox value ∈ events → other = slot

/-- What a task has stored came out of the inbox that it was created with, and so it is all that
came out of it if the task has it for itself. -/
theorem Reached.storedBy_eq (reached : Reached allowed events middle)
    (runs : Runs allowed middle more last)
    (present : middle.session.scheduler.roster.task? slot = some task)
    (owns : Owns (events ++ more) slot task.mailbox) :
    storedBy slot (events ++ more) = storedFrom task.mailbox (events ++ more) ∧
      ∀ later, last.session.scheduler.roster.task? slot = some later →
        later.mailbox = task.mailbox := by
  obtain ⟨mailboxes, -, addressed, stored⟩ := reached.books.addressed
  have rebased : Books mailboxes middle.session.scheduler.roster
      middle.session.scheduler.mailroom events :=
    ⟨reached.books.accounts, mailboxes, List.prefix_rfl, addressed, stored⟩
  obtain ⟨now, further, addressedNow, storedNow⟩ := (runs.books rebased).addressed
  have known := getElem?_of_isPrefix further (addressed.2 slot task present)
  refine ⟨List.filterMap_congr fun event member => ?_, fun later presentNow => ?_⟩
  · cases event with
    | stored place mailbox value =>
      rw [Event.storedBy?, Event.storedFrom?]
      refine if_congr ⟨?_, ?_⟩ rfl rfl
      · rintro rfl
        exact Option.some.inj ((storedNow _ _ _ member).symm.trans known)
      · rintro rfl
        exact owns place value member
    | _ => rfl
  · exact Option.some.inj ((addressedNow.2 slot later presentNow).symm.trans known)

/-- A task that has an inbox for itself receives exactly what is sent to it, in order. At every
moment what it has stored is the beginning of what was sent to its inbox. The instruction at which
its turn stops has taken nothing, and if it stops to wait for a message, all that was sent has been
stored. -/
theorem Reached.in_order (reached : Reached allowed events middle)
    (runs : Runs allowed middle more last)
    (present : middle.session.scheduler.roster.task? slot = some task)
    (owns : Owns (events ++ more) slot task.mailbox) :
    storedBy slot (events ++ more) <+: sentTo task.mailbox (events ++ more) ∧
      (∀ id stack after status scheduler, last.phase = .turn slot id stack →
        stack.step (hostFor slot) last.session.scheduler = .ok (.stop after status) scheduler →
          scheduler = last.session.scheduler ∧ (status = .suspended .message →
            storedBy slot (events ++ more) = sentTo task.mailbox (events ++ more))) ∧
      last.Covers allowed := by
  have books := (reached.runs runs).books
  obtain ⟨all, mailbox⟩ := reached.storedBy_eq runs present owns
  rw [all]
  refine ⟨(books.accounts task.mailbox).isPrefix, fun id stack after status next _ steps => ?_,
    last.covers allowed⟩
  obtain ⟨same, looked⟩ := books.halted (.of_step steps)
  refine ⟨same, fun looks => ?_⟩
  obtain ⟨later, presentNow, stored⟩ := looked looks
  rwa [mailbox later presentNow] at stored

/-! ### A task that looks for one message more than it is sent -/

/-- A program that waits for two messages. -/
def attentive : Function :=
  { (default : Function) with code := #[Instruction.receive 0, Instruction.receive 0] }

/-- A task runs it. -/
def greeted : Session := (Session.start .standard 0 fun _ => []).continued (.spawn attentive none)

/-- It has been sent a message. -/
def attended : Session := greeted.continued (.send ⟨1⟩ (.bool true) none)

/-- Its turn begins. -/
def beginning : Moment :=
  moved attended (attended.scheduler.manned 0) (.turn 0 ⟨1⟩ (.entering attentive))

/-- Its stack when it has stored the message. -/
def halfway : Stack :=
  Stack.keep ⟨{ Frame.entering attentive [] none with pc := 1 }, []⟩ ⟨0, by decide⟩ (.bool true)

/-- It has stored the message, and is about to look for another one. -/
def attending : Moment :=
  moved attended
    { attended.scheduler.manned 0 with mailroom := (attended.scheduler.mailroom.receive ⟨0⟩).1 }
    (.turn 0 ⟨1⟩ halfway)

theorem reached_attended : Reached (fun _ _ => True)
    [.sent ⟨⟨0⟩, .bool true, none⟩] ⟨attended, .between⟩ :=
  ⟨.standard, 0, fun _ => [],
    .move (.move .none (.continued _ (.spawn attentive none) trivial rfl rfl)) (.continued greeted
      (.send ⟨1⟩ (.bool true) none) trivial rfl rfl)⟩

theorem runs_attending : Runs (fun _ _ => True) ⟨attended, .between⟩
    [.began 0, .stored 0 ⟨0⟩ (.bool true)] attending :=
  have present : attended.scheduler.roster.task? 0 = some _ := rfl
  have begins : Move (fun _ _ => True) ⟨attended, .between⟩ [.began 0] beginning :=
    .begin rfl rfl present rfl
  have steps : (Stack.entering attentive).step (hostFor 0) beginning.session.scheduler =
    .ok (.proceed halfway 1) attending.session.scheduler := rfl
  .move (.move .none begins) (.instruct steps)

theorem attending_in_order :
    storedBy 0 [.sent ⟨⟨0⟩, .bool true, none⟩, .began 0, .stored 0 ⟨0⟩ (.bool true)] =
      sentTo ⟨0⟩ [.sent ⟨⟨0⟩, .bool true, none⟩, .began 0, .stored 0 ⟨0⟩ (.bool true)] := by
  have owns : Owns [.sent ⟨⟨0⟩, .bool true, none⟩, .began 0, .stored 0 ⟨0⟩ (.bool true)] 0 ⟨0⟩ := by
    intro other value member
    simp only [List.mem_cons, List.not_mem_nil, reduceCtorEq, false_or, or_false,
      Event.stored.injEq] at member
    exact member.1
  have present : attended.scheduler.roster.task? 0 = some _ := rfl
  have looks : halfway.step (hostFor 0) attending.session.scheduler =
    .ok (.stop halfway (.suspended .message)) attending.session.scheduler := rfl
  exact ((reached_attended.in_order runs_attending present owns).2.1 _ _ _ _ _ rfl looks).2 rfl

end Moment

end TaskMachine
