/-
What other threads can touch of a scheduler: the inboxes of its tasks, the set
of tasks that were woken, and the token that keeps its thread from falling
asleep. Whoever sends to an inbox with nothing in it wakes the task that the
inbox belongs to: the task joins the woken ones, and if it is new there, the
thread gets its token.
-/

import TaskMachine.Inbox.Receiving
import TaskMachine.TaskId
import TaskMachine.Value.Basic

namespace TaskMachine

/-- A value on its way to a task. -/
structure Message where
  value : Value
  /-- The task that sent it; none if the embedder did. -/
  sender : Option TaskId

/-- A line of messages, and how often its owner was told that it is no longer empty. -/
structure Inbox where
  chain : Chain Message
  wakes : Nat
  deriving Inhabited

namespace Inbox

/-- An inbox with no messages. -/
def empty : Inbox := ⟨.empty, 0⟩

/-- Appends a message. Tells whether the owner is to be woken. -/
def send (inbox : Inbox) (message : Message) : Inbox × Bool :=
  let (chain, wake) := inbox.chain.enqueue message
  (⟨chain, if wake then inbox.wakes + 1 else inbox.wakes⟩, wake)

/-- Takes the oldest message, if there is one. -/
def receive (inbox : Inbox) : Inbox × Option Message :=
  let (chain, message) := inbox.chain.dequeue
  (⟨chain, inbox.wakes⟩, message)

/-- Whether there is nothing to receive. -/
def isEmpty (inbox : Inbox) : Bool := inbox.chain.isEmpty

end Inbox

/-- Where messages can be sent: the number of an inbox. It stays good when the task that the
inbox belongs to is gone. -/
structure Mailbox where
  inbox : Nat
  deriving DecidableEq, Repr, Inhabited

/-- What other threads can touch of a scheduler. -/
structure Mailroom where
  /-- The inboxes, each with the task that it wakes. -/
  inboxes : Array (TaskId × Inbox)
  /-- The tasks that were woken, in the order of their numbers. -/
  woken : List TaskId
  /-- Whether the thread, when it is about to fall asleep, goes on instead. -/
  token : Bool
  deriving Inhabited

namespace Mailroom

/-- No inboxes, and nobody woken. -/
def empty : Mailroom := ⟨#[], [], false⟩

/-- A new inbox for a task. -/
def addInbox (room : Mailroom) (owner : TaskId) : Mailroom × Mailbox :=
  ({ room with inboxes := room.inboxes.push (owner, .empty) }, ⟨room.inboxes.size⟩)

/-- A set of tasks in the order of their numbers, with one more. -/
def insertWoken (task : TaskId) : List TaskId → List TaskId
  | [] => [task]
  | first :: rest =>
    if task.number < first.number then task :: first :: rest
    else if task.number = first.number then first :: rest
    else first :: insertWoken task rest

@[simp] theorem mem_insertWoken {task other : TaskId} {woken : List TaskId} :
    other ∈ insertWoken task woken ↔ other = task ∨ other ∈ woken := by
  induction woken with
  | nil => simp [insertWoken]
  | cons first rest inductionHypothesis =>
    unfold insertWoken
    split
    · simp
    · split
      · rename_i same
        have known : task = first := by
          cases task
          cases first
          exact congrArg TaskId.mk same
        simp [known]
      · simp [inductionHypothesis, or_left_comm]

/-- Adds a task to those that were woken. Tells whether it is new there. -/
def addWoken (room : Mailroom) (task : TaskId) : Mailroom × Bool :=
  ({ room with woken := insertWoken task room.woken }, !room.woken.contains task)

/-- Gives the thread its token. -/
def unpark (room : Mailroom) : Mailroom := { room with token := true }

/-- Wakes a task. -/
def wake (room : Mailroom) (task : TaskId) : Mailroom :=
  match room.addWoken task with
  | (next, true) => next.unpark
  | (next, false) => next

/-- Sends a message, and wakes the owner of the inbox if nothing was there to receive. -/
def send (room : Mailroom) (mailbox : Mailbox) (message : Message) : Mailroom :=
  match room.inboxes[mailbox.inbox]? with
  | none => room
  | some (owner, inbox) =>
    let (sent, wake) := inbox.send message
    let next := { room with inboxes := room.inboxes.setIfInBounds mailbox.inbox (owner, sent) }
    if wake then next.wake owner else next

/-- Takes the oldest message of an inbox, if there is one. -/
def receive (room : Mailroom) (mailbox : Mailbox) : Mailroom × Option Message :=
  match room.inboxes[mailbox.inbox]? with
  | none => (room, none)
  | some (owner, inbox) =>
    let (received, message) := inbox.receive
    ({ room with inboxes := room.inboxes.setIfInBounds mailbox.inbox (owner, received) }, message)

/-- Whether an inbox has nothing to receive. -/
def isEmpty (room : Mailroom) (mailbox : Mailbox) : Bool :=
  match room.inboxes[mailbox.inbox]? with
  | none => true
  | some (_, inbox) => inbox.isEmpty

/-- Takes the set of the tasks that were woken, so that a new one begins. -/
def takeWoken (room : Mailroom) : Mailroom × List TaskId := ({ room with woken := [] }, room.woken)

/-- Takes the token. Tells whether it was there. -/
def takeToken (room : Mailroom) : Mailroom × Bool := ({ room with token := false }, room.token)

end Mailroom

end TaskMachine
