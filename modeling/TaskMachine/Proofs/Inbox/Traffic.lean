/-
A chain in use by any number of senders and by one receiver. Each of them goes
through its accesses at its own pace, and the accesses of all of them follow one
another in any order: a `Step` is one access of one of them, and what is
`Reachable` is what any number of steps in any order lead to.

A sender makes its link, which nobody else can see yet, then swaps the head, and
then hangs its link behind the head before. The receiver begins to take a
message and goes from stage to stage until it has one, or finds none. What was
sent, in the order in which the links became the head, and what was received is
written down beside the chain and plays no part in the steps.

`touched` says which links a step looks at, changes or takes away. To all other
links it pays no heed: whatever stands there, the step is the same and leaves it
as it is.
-/

import Mathlib.Logic.Function.Basic
import TaskMachine.Inbox.Receiving

namespace TaskMachine

/-- Where a sender is in appending a message. -/
inductive Sending (Content : Type) where
  /-- It is not sending. -/
  | resting
  /-- It has made a link that nobody else knows of, and is about to make it the head. -/
  | loaded (link : Nat) (content : Content)
  /-- It has made its link the head, and is about to hang it behind the head before. -/
  | halfway (previous link : Nat)

/-- The link that a sender is about to append. -/
def Sending.link? {Content : Type} : Sending Content → Option Nat
  | .resting => none
  | .loaded link _ => some link
  | .halfway _ link => some link

/-- A chain in use. -/
structure Traffic (Content : Type) where
  chain : Chain Content
  /-- Where every sender is. -/
  senders : Nat → Sending Content
  /-- Where the receiver is. It rests when it is done. -/
  stage : Stage Content
  /-- What was sent and by whom, in the order in which the links became the head. -/
  sent : List (Nat × Content)
  /-- What was received, oldest first. -/
  received : List Content
  /-- What every sender has set out to send, in its own order. -/
  posted : Nat → List Content

/-- Whoever is at another place than the one who moves stays there. -/
theorem update_apart {Place : Type} {places : Nat → Place} {mover other : Nat} {place now : Place}
    (there : places other = place) (apart : places mover ≠ place) :
    Function.update places mover now other = place := by
  rw [Function.update_of_ne, there]
  rintro rfl
  exact apart there

/-- One access of a sender or of the receiver. -/
inductive Move (Content : Type) where
  /-- A sender makes a link. -/
  | load (sender : Nat) (content : Content)
  /-- A sender makes its link the head. -/
  | swap (sender : Nat)
  /-- A sender hangs its link behind the head before. -/
  | hang (sender : Nat)
  /-- The receiver begins to take a message. -/
  | begin
  /-- The receiver goes through a stage. -/
  | receive

namespace Chain

variable {Content : Type}

/-- The links that a stage of the receiver looks at, changes or takes away. -/
def stageTouches (chain : Chain Content) : Stage Content → List Nat
  | .start | .passed | .again => [chain.tail]
  | .last | .done _ => []
  | .closing => [stub]
  | .hanging previous => [previous]

/-- The chain with something else in the place of a link. -/
def overwrite (chain : Chain Content) (link : Nat) (entry : Option (Link Content)) :
    Chain Content :=
  { chain with links := chain.links.setIfInBounds link entry }

@[simp] theorem tail_overwrite (chain : Chain Content) (link : Nat)
    (entry : Option (Link Content)) :
    (chain.overwrite link entry).tail = chain.tail := rfl

theorem link?_overwrite_other (chain : Chain Content) {link other : Nat} (differ : link ≠ other)
    (entry : Option (Link Content)) :
    (chain.overwrite link entry).link? other = chain.link? other := by
  simp [overwrite, link?, Array.getElem?_setIfInBounds_ne differ]

theorem next?_overwrite_other (chain : Chain Content) {link other : Nat} (differ : link ≠ other)
    (entry : Option (Link Content)) :
    (chain.overwrite link entry).next? other = chain.next? other := by
  rw [next?, link?_overwrite_other chain differ, next?]

theorem allocate_overwrite (chain : Chain Content) (content : Content) {link : Nat}
    (made : link < chain.links.size) (entry : Option (Link Content)) :
    (chain.overwrite link entry).allocate content =
      ((chain.allocate content).1.overwrite link entry, (chain.allocate content).2) := by
  have pushed : (chain.links.setIfInBounds link entry).push (some ⟨none, some content⟩) =
      (chain.links.push (some ⟨none, some content⟩)).setIfInBounds link entry := by
    refine Array.ext_getElem? fun index => ?_
    grind
  simp [allocate, overwrite, pushed]

theorem setNext_overwrite (chain : Chain Content) {link other : Nat} (differ : link ≠ other)
    (entry : Option (Link Content)) (next : Option Nat) :
    (chain.overwrite link entry).setNext other next =
      (chain.setNext other next).overwrite link entry := by
  simp only [overwrite, setNext, Chain.mk.injEq, and_true]
  refine Array.ext_getElem? fun index => ?_
  grind

theorem take_overwrite (chain : Chain Content) {link : Nat} (differ : link ≠ chain.tail)
    (entry : Option (Link Content)) (next : Nat) :
    (chain.overwrite link entry).take next =
      ((chain.take next).1.overwrite link entry, (chain.take next).2) := by
  have same := chain.link?_overwrite_other differ entry
  simp only [take, overwrite] at same ⊢
  rw [same, Array.setIfInBounds_comm _ _ differ]

/-- A stage is the same whatever stands in the place of a link that it does not touch. -/
theorem receiveStep_overwrite (chain : Chain Content) {stage : Stage Content} {link : Nat}
    (untouched : link ∉ chain.stageTouches stage) (entry : Option (Link Content)) :
    (chain.overwrite link entry).receiveStep stage =
      ((chain.receiveStep stage).1.overwrite link entry, (chain.receiveStep stage).2) := by
  cases stage with
  | start =>
    have differ : link ≠ chain.tail := by simpa [stageTouches] using untouched
    simp only [receiveStep, tail_overwrite, chain.next?_overwrite_other differ entry]
    cases chain.next? chain.tail with
    | none => by_cases atStub : chain.tail = stub <;> simp [atStub]
    | some next =>
      by_cases atStub : chain.tail = stub
      · simp [atStub, overwrite]
      · simpa [atStub] using chain.take_overwrite differ entry next
  | passed =>
    have differ : link ≠ chain.tail := by simpa [stageTouches] using untouched
    simp only [receiveStep, tail_overwrite, chain.next?_overwrite_other differ entry]
    split
    · rfl
    · exact chain.take_overwrite differ entry _
  | last => by_cases meet : chain.tail = chain.head <;> simp [receiveStep, overwrite, meet]
  | closing =>
    have differ : link ≠ stub := by simpa [stageTouches] using untouched
    simp only [receiveStep, swapHead, chain.setNext_overwrite differ]
    rfl
  | hanging previous =>
    have differ : link ≠ previous := by simpa [stageTouches] using untouched
    simp only [receiveStep, hang, chain.setNext_overwrite differ]
  | again =>
    have differ : link ≠ chain.tail := by simpa [stageTouches] using untouched
    simp only [receiveStep, tail_overwrite, chain.next?_overwrite_other differ entry]
    split
    · rfl
    · exact chain.take_overwrite differ entry _
  | done taken => rfl

end Chain

namespace Traffic

variable {Content : Type}

/-- A chain that nobody has used yet. -/
def start : Traffic Content :=
  { chain := .empty
    senders := fun _ => .resting
    stage := .done none
    sent := []
    received := []
    posted := fun _ => [] }

/-- What was sent and not received yet. -/
def undelivered (traffic : Traffic Content) : List Content :=
  (traffic.sent.map Prod.snd).drop traffic.received.length

/-! ### Accesses -/

/-- A sender has made a link. -/
def load (traffic : Traffic Content) (sender : Nat) (content : Content) : Traffic Content :=
  let (chain, link) := traffic.chain.allocate content
  { traffic with
    chain
    senders := Function.update traffic.senders sender (.loaded link content)
    posted := Function.update traffic.posted sender (traffic.posted sender ++ [content]) }

/-- A sender has made its link the head. -/
def swap (traffic : Traffic Content) (sender link : Nat) (content : Content) : Traffic Content :=
  let (chain, previous) := traffic.chain.swapHead link
  { traffic with
    chain
    senders := Function.update traffic.senders sender (.halfway previous link)
    sent := traffic.sent ++ [(sender, content)] }

/-- A sender has hung its link behind the head before. -/
def hang (traffic : Traffic Content) (sender previous link : Nat) : Traffic Content :=
  { traffic with
    chain := traffic.chain.hang previous link
    senders := Function.update traffic.senders sender .resting }

/-- The receiver has begun to take a message. -/
def begin (traffic : Traffic Content) : Traffic Content := { traffic with stage := .start }

/-- The receiver has gone through a stage. -/
def receive (traffic : Traffic Content) : Traffic Content :=
  let (chain, stage) := traffic.chain.receiveStep traffic.stage
  { traffic with chain, stage, received := traffic.received ++ stage.taken.toList }

theorem receive_eq {traffic : Traffic Content} {chain : Chain Content} {stage : Stage Content}
    (result : traffic.chain.receiveStep traffic.stage = (chain, stage)) :
    traffic.receive =
      { traffic with chain, stage, received := traffic.received ++ stage.taken.toList } := by
  rw [receive, result]

/-- One access leads from a state to another. -/
inductive Step : Traffic Content → Move Content → Traffic Content → Prop where
  | load {traffic : Traffic Content} {sender : Nat} (content : Content)
      (resting : traffic.senders sender = .resting) :
      Step traffic (.load sender content) (traffic.load sender content)
  | swap {traffic : Traffic Content} {sender link : Nat} {content : Content}
      (loaded : traffic.senders sender = .loaded link content) :
      Step traffic (.swap sender) (traffic.swap sender link content)
  | hang {traffic : Traffic Content} {sender previous link : Nat}
      (halfway : traffic.senders sender = .halfway previous link) :
      Step traffic (.hang sender) (traffic.hang sender previous link)
  | begin {traffic : Traffic Content} {taken : Option Content}
      (rests : traffic.stage = .done taken) : Step traffic .begin traffic.begin
  | receive {traffic : Traffic Content} (busy : ∀ taken, traffic.stage ≠ .done taken) :
      Step traffic .receive traffic.receive

/-- The states that steps in any order lead to. -/
inductive Reachable : Traffic Content → Prop where
  | start : Reachable start
  | step {traffic next : Traffic Content} {move : Move Content} (reachable : Reachable traffic)
      (step : Step traffic move next) : Reachable next

/-! ### What a step touches -/

/-- The links that an access looks at, changes or takes away. -/
def touched (traffic : Traffic Content) : Move Content → List Nat
  | .load .. => []
  | .swap sender =>
    match traffic.senders sender with
    | .loaded link _ => [link]
    | _ => []
  | .hang sender =>
    match traffic.senders sender with
    | .halfway previous _ => [previous]
    | _ => []
  | .begin => []
  | .receive => traffic.chain.stageTouches traffic.stage

/-- The state with something else in the place of a link. -/
def overwrite (traffic : Traffic Content) (link : Nat) (entry : Option (Link Content)) :
    Traffic Content :=
  { traffic with chain := traffic.chain.overwrite link entry }

/-- A step is the same whatever stands in the place of a link that it does not touch, and leaves
it there. -/
theorem Step.overwrite {traffic next : Traffic Content} {move : Move Content}
    (step : Step traffic move next) {link : Nat} (made : link < traffic.chain.links.size)
    (untouched : link ∉ traffic.touched move) (entry : Option (Link Content)) :
    Step (traffic.overwrite link entry) move (next.overwrite link entry) := by
  cases step with
  | @load sender content resting =>
    have commutes := traffic.chain.allocate_overwrite content made entry
    have result : Step (traffic.overwrite link entry) (.load sender content) _ :=
      .load content resting
    simp only [Traffic.load, Traffic.overwrite, commutes] at result
    exact result
  | @swap sender loading content loaded =>
    have differ : link ≠ loading := by
      simpa [touched, loaded] using untouched
    have result : Step (traffic.overwrite link entry) (.swap sender) _ := .swap loaded
    simp only [Traffic.swap, Traffic.overwrite, Chain.swapHead,
      Chain.setNext_overwrite _ differ] at result
    exact result
  | @hang sender previous hanging halfway =>
    have differ : link ≠ previous := by
      simpa [touched, halfway] using untouched
    have result : Step (traffic.overwrite link entry) (.hang sender) _ := .hang halfway
    simp only [Traffic.hang, Traffic.overwrite, Chain.hang,
      Chain.setNext_overwrite _ differ] at result
    exact result
  | begin rests => exact .begin rests
  | receive busy =>
    have commutes := traffic.chain.receiveStep_overwrite untouched entry
    have result : Step (traffic.overwrite link entry) .receive _ := .receive busy
    simp only [Traffic.receive, Traffic.overwrite, commutes] at result
    exact result

end Traffic

end TaskMachine
