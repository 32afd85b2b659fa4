/-
A scheduler in exchange with other threads. Any number of senders append to the
inboxes of its tasks, each going through the accesses of `Traffic`, and whoever
finds the stub to have been the head goes on to wake the owner of the inbox: it
adds the owner to the woken tasks, in one access, and if the owner is new there
it gives the thread its token in another. In between, the thread of the
scheduler takes messages, access by access; looks whether the inbox of a task
that is to wait is empty, in two accesses; moves the task to the wait queue;
and takes the woken tasks and resumes them one by one.

All else that the thread does is left open: it may change the scheduler in any
way that is `Discreet`, which is to say that no other thread notices, that no
task begins to wait for messages, and that tasks stay registered under their
numbers.
-/

import TaskMachine.Proofs.Inbox.Traffic
import TaskMachine.Scheduler.Tick

namespace TaskMachine

/-- Where a sender is when its message is in the inbox. -/
inductive Calling where
  /-- It has nothing more to do. -/
  | resting
  /-- It is about to add the owner of the inbox to the woken tasks. -/
  | waking
  /-- It is about to give the thread its token. -/
  | unparking
  deriving DecidableEq

/-- Where the thread of a scheduler is. -/
inductive Thread where
  /-- It does nothing that concerns others. -/
  | free
  /-- It takes a message out of an inbox. -/
  | receiving (inbox : Nat)
  /-- It is about to look behind the tail of the inbox of a task that is to wait. -/
  | looking (slot : Slot) (inbox : Nat)
  /-- Nothing was behind the tail, which is the stub, and it is about to look at the head. -/
  | comparing (slot : Slot) (inbox : Nat)
  /-- The head was the stub too, and it is about to move the task to the wait queue. -/
  | suspending (slot : Slot)
  /-- It resumes the tasks that were woken, and these are left. -/
  | resuming (batch : List TaskId)

/-- The tasks that were woken and are still to be resumed. -/
def Thread.batch : Thread → List TaskId
  | .resuming batch => batch
  | _ => []

/-- A scheduler in exchange with other threads. -/
structure Exchange where
  scheduler : Scheduler
  /-- Where the thread of the scheduler is. -/
  thread : Thread
  /-- Every inbox in use. -/
  traffic : Nat → Traffic Message
  /-- Where the senders to every inbox are when their messages are in it. -/
  calling : Nat → Nat → Calling

/-- Every task is registered under its number. -/
def Scheduler.Registered (scheduler : Scheduler) : Prop :=
  ∀ slot task, scheduler.roster.task? slot = some task →
    scheduler.registry.find? task.id = some slot

/-- A change of a scheduler that no other thread notices, after which no task waits for messages that
did not before, and in which no numbers of tasks clash. -/
structure Scheduler.Discreet (before after : Scheduler) : Prop where
  /-- The inboxes stay as they are. -/
  kept : ∀ inbox < before.mailroom.inboxes.size,
    after.mailroom.inboxes[inbox]? = before.mailroom.inboxes[inbox]?
  /-- New inboxes are empty. -/
  fresh : ∀ inbox owner entry, before.mailroom.inboxes.size ≤ inbox →
    after.mailroom.inboxes[inbox]? = some (owner, entry) → entry = .empty
  woken : after.mailroom.woken = before.mailroom.woken
  waits : ∀ slot task, after.roster.task? slot = some task → task.awaited = some .message →
    ∃ earlier, before.roster.task? slot = some earlier ∧ earlier.awaited = some .message ∧
      earlier.id = task.id ∧ earlier.mailbox = task.mailbox
  /-- Where all tasks are registered under their numbers they stay so. A task that came under a
  number that is in use would take the place of the other one in the registry. -/
  registered : before.Registered → after.Registered

namespace Exchange

/-- A scheduler without tasks, before anything was sent. -/
def start (config : Config) (patience : Nat) (respond : List Notice → List Letter) : Exchange :=
  { scheduler := { Scheduler.new config patience with respond }
    thread := .free
    traffic := fun _ => .start
    calling := fun _ _ => .resting }

/-! ### Accesses -/

/-- The exchange with another mailroom. -/
def setMailroom (exchange : Exchange) (mailroom : Mailroom) : Exchange :=
  { exchange with scheduler := { exchange.scheduler with mailroom } }

/-- Somebody has made an access to the chain of an inbox. -/
def access (exchange : Exchange) (inbox : Nat) (traffic : Traffic Message) : Exchange :=
  { exchange.setMailroom
      { exchange.scheduler.mailroom with
        inboxes := exchange.scheduler.mailroom.inboxes.modify inbox fun entry =>
          (entry.1, { entry.2 with chain := traffic.chain }) } with
    traffic := Function.update exchange.traffic inbox traffic }

/-- A sender is somewhere else after its message is in the inbox. -/
def call (exchange : Exchange) (inbox sender : Nat) (calling : Calling) : Exchange :=
  { exchange with
    calling := Function.update exchange.calling inbox
      (Function.update (exchange.calling inbox) sender calling) }

/-- The count of an inbox after its owner is about to be woken. -/
def countWake (exchange : Exchange) (inbox : Nat) : Exchange :=
  exchange.setMailroom
    { exchange.scheduler.mailroom with
      inboxes := exchange.scheduler.mailroom.inboxes.modify inbox fun entry =>
        (entry.1, { entry.2 with wakes := entry.2.wakes + 1 }) }

/-- A sender has hung its link behind the head before. If that was the stub, it goes on to wake
the owner of the inbox. -/
def hang (exchange : Exchange) (inbox sender previous link : Nat) : Exchange :=
  let hung := exchange.access inbox ((exchange.traffic inbox).hang sender previous link)
  if previous = Chain.stub then (hung.countWake inbox).call inbox sender .waking else hung

/-- A sender has added the owner of an inbox to the woken tasks. -/
def wake (exchange : Exchange) (inbox sender : Nat) (owner : TaskId) : Exchange :=
  let (mailroom, new) := exchange.scheduler.mailroom.addWoken owner
  (exchange.setMailroom mailroom).call inbox sender (if new then .unparking else .resting)

/-- A sender has given the thread its token. -/
def unpark (exchange : Exchange) (inbox sender : Nat) : Exchange :=
  (exchange.setMailroom exchange.scheduler.mailroom.unpark).call inbox sender .resting

/-- The thread is somewhere else. -/
def goOn (exchange : Exchange) (thread : Thread) : Exchange := { exchange with thread }

/-- The thread has looked behind the tail of an inbox. -/
def look (exchange : Exchange) (slot : Slot) (inbox : Nat) : Exchange :=
  let chain := (exchange.traffic inbox).chain
  exchange.goOn
    (if chain.tail = Chain.stub ∧ chain.next? chain.tail = none then .comparing slot inbox
      else .free)

/-- The thread has looked at the head of an inbox. -/
def compare (exchange : Exchange) (slot : Slot) (inbox : Nat) : Exchange :=
  exchange.goOn
    (if (exchange.traffic inbox).chain.head = Chain.stub then .suspending slot else .free)

/-- The inbox with a given number is there. -/
def Has (exchange : Exchange) (inbox : Nat) : Prop :=
  inbox < exchange.scheduler.mailroom.inboxes.size

/-- One access of a sender or of the thread, or what the thread does between two of them. -/
inductive Step : Exchange → Exchange → Prop where
  | load {exchange : Exchange} {inbox sender : Nat} (message : Message) (known : exchange.Has inbox)
      (resting : (exchange.traffic inbox).senders sender = .resting)
      (quiet : exchange.calling inbox sender = .resting) :
      Step exchange (exchange.access inbox ((exchange.traffic inbox).load sender message))
  | swap {exchange : Exchange} {inbox sender link : Nat} {message : Message}
      (known : exchange.Has inbox)
      (loaded : (exchange.traffic inbox).senders sender = .loaded link message) :
      Step exchange (exchange.access inbox ((exchange.traffic inbox).swap sender link message))
  | hang {exchange : Exchange} {inbox sender previous link : Nat} (known : exchange.Has inbox)
      (halfway : (exchange.traffic inbox).senders sender = .halfway previous link) :
      Step exchange (exchange.hang inbox sender previous link)
  | wake {exchange : Exchange} {inbox sender : Nat} {owner : TaskId} {entry : Inbox}
      (owned : exchange.scheduler.mailroom.inboxes[inbox]? = some (owner, entry))
      (waking : exchange.calling inbox sender = .waking) :
      Step exchange (exchange.wake inbox sender owner)
  | unpark {exchange : Exchange} {inbox sender : Nat}
      (unparking : exchange.calling inbox sender = .unparking) :
      Step exchange (exchange.unpark inbox sender)
  /-- Anyone wakes a task, whether there is a message for it or not. -/
  | rouse {exchange : Exchange} (id : TaskId) :
      Step exchange (exchange.setMailroom (exchange.scheduler.mailroom.wake id))
  | begin {exchange : Exchange} {inbox : Nat} {taken : Option Message} (known : exchange.Has inbox)
      (free : exchange.thread = .free) (rests : (exchange.traffic inbox).stage = .done taken) :
      Step exchange
        ((exchange.access inbox (exchange.traffic inbox).begin).goOn (.receiving inbox))
  | receive {exchange : Exchange} {inbox : Nat} (known : exchange.Has inbox)
      (receiving : exchange.thread = .receiving inbox)
      (busy : ∀ taken, (exchange.traffic inbox).stage ≠ .done taken) :
      Step exchange (exchange.access inbox (exchange.traffic inbox).receive)
  | leave {exchange : Exchange} {inbox : Nat} {taken : Option Message}
      (receiving : exchange.thread = .receiving inbox)
      (rests : (exchange.traffic inbox).stage = .done taken) :
      Step exchange (exchange.goOn .free)
  | turn {exchange : Exchange} {slot : Slot} {task : Task} (free : exchange.thread = .free)
      (present : exchange.scheduler.roster.task? slot = some task) :
      Step exchange (exchange.goOn (.looking slot task.mailbox.inbox))
  | look {exchange : Exchange} {slot : Slot} {inbox : Nat}
      (looking : exchange.thread = .looking slot inbox) : Step exchange (exchange.look slot inbox)
  | compare {exchange : Exchange} {slot : Slot} {inbox : Nat}
      (comparing : exchange.thread = .comparing slot inbox) :
      Step exchange (exchange.compare slot inbox)
  | suspend {exchange : Exchange} {slot : Slot} {scheduler : Scheduler}
      (suspending : exchange.thread = .suspending slot)
      (runs : Scheduler.suspend slot .message exchange.scheduler = .ok ⟨⟩ scheduler) :
      Step exchange { exchange with scheduler, thread := .free }
  | takeWoken {exchange : Exchange} (free : exchange.thread = .free) :
      Step exchange
        ((exchange.setMailroom exchange.scheduler.mailroom.takeWoken.1).goOn
          (.resuming exchange.scheduler.mailroom.takeWoken.2))
  | resume {exchange : Exchange} {id : TaskId} {batch : List TaskId} {scheduler : Scheduler}
      (resuming : exchange.thread = .resuming (id :: batch))
      (runs : Scheduler.resumeIf id .message exchange.scheduler = .ok ⟨⟩ scheduler) :
      Step exchange { exchange with scheduler, thread := .resuming batch }
  | finish {exchange : Exchange} (resuming : exchange.thread = .resuming []) :
      Step exchange (exchange.goOn .free)
  | between {exchange : Exchange} {scheduler : Scheduler} (free : exchange.thread = .free)
      (discreet : exchange.scheduler.Discreet scheduler) : Step exchange { exchange with scheduler }

/-- The states that steps in any order lead to. -/
inductive Reachable : Exchange → Prop where
  | start (config : Config) (patience : Nat) (respond : List Notice → List Letter) :
      Reachable (start config patience respond)
  | step {exchange next : Exchange} (reachable : Reachable exchange) (step : Step exchange next) :
      Reachable next

/-- No send to an inbox is in progress. -/
def Quiet (exchange : Exchange) (inbox : Nat) : Prop :=
  ∀ sender, (exchange.traffic inbox).senders sender = .resting ∧
    exchange.calling inbox sender = .resting

end Exchange

end TaskMachine
