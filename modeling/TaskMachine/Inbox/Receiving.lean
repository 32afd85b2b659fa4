/-
How the receiver of a chain takes a message. It does so in stages, each of
which looks at or changes one thing that senders can change too; between two
stages any sender may make an access. `Chain.dequeue` is the run of all stages
with no sender in between.
-/

import TaskMachine.Inbox.Chain

namespace TaskMachine

/-- Where the receiver is in taking a message. -/
inductive Stage (Content : Type) where
  /-- It is about to look behind its tail. -/
  | start
  /-- It has passed over the stub and is about to look behind the link that is its tail now. -/
  | passed
  /-- Nothing was behind its tail, and it is about to look whether the tail is the head. -/
  | last
  /-- The tail was the head, and it is about to make the stub the head. -/
  | closing
  /-- It has made the stub the head, and is about to hang it behind the head before. -/
  | hanging (previous : Nat)
  /-- It has appended the stub, and is about to look behind its tail again. -/
  | again
  /-- It has the message that it leaves with, if there was one. -/
  | done (taken : Option Content)
  deriving Repr

/-- What the receiver leaves with. -/
def Stage.taken {Content : Type} : Stage Content → Option Content
  | .done taken => taken
  | _ => none

namespace Chain

variable {Content : Type}

/-- Takes the tail away, with `next` as the tail that follows, and leaves with what it
carried. -/
def take (chain : Chain Content) (next : Nat) : Chain Content × Stage Content :=
  ({ chain with links := chain.links.setIfInBounds chain.tail none, tail := next },
    .done ((chain.link? chain.tail).bind Link.content))

/-- One stage of taking a message. -/
def receiveStep (chain : Chain Content) : Stage Content → Chain Content × Stage Content
  | .start =>
    match chain.next? chain.tail with
    | none => if chain.tail = stub then (chain, .done none) else (chain, .last)
    | some next =>
      if chain.tail = stub then ({ chain with tail := next }, .passed) else chain.take next
  | .passed =>
    match chain.next? chain.tail with
    | none => (chain, .last)
    | some next => chain.take next
  | .last => if chain.tail = chain.head then (chain, .closing) else (chain, .done none)
  | .closing =>
    let (swapped, previous) := chain.swapHead stub
    (swapped, .hanging previous)
  | .hanging previous => (chain.hang previous stub, .again)
  | .again =>
    match chain.next? chain.tail with
    | none => (chain, .done none)
    | some next => chain.take next
  | .done taken => (chain, .done taken)

/-- So many stages of taking a message. -/
def receiveSteps : Nat → Chain Content → Stage Content → Chain Content × Stage Content
  | 0, chain, stage => (chain, stage)
  | count + 1, chain, stage =>
    let (next, reached) := chain.receiveStep stage
    receiveSteps count next reached

/-- No way through the stages is longer than this. -/
def stageBound : Nat := 6

/-- Takes the oldest message. There is none if the chain is empty, or if the sender of the
oldest message is between its two accesses. -/
def dequeue (chain : Chain Content) : Chain Content × Option Content :=
  let (received, stage) := receiveSteps stageBound chain .start
  (received, stage.taken)

/-- Whether nothing was appended that was not taken away. -/
def isEmpty (chain : Chain Content) : Bool :=
  chain.tail == stub && (chain.next? chain.tail).isNone && chain.head == stub

end Chain

end TaskMachine
