/-
The chain of links that an inbox keeps its messages in. Any number of senders
append at the `head`, and one receiver takes from the `tail`. Neither side waits
for the other: a sender first makes its link the head, in one access, and then,
in a second one, hangs it behind the link that was the head before. Between the
two accesses the chain has a gap, and a receiver that comes to the gap finds
nothing.

One link, the `stub`, never carries a message. It keeps the chain from being
empty: before the receiver takes the last link away it appends the stub behind
it. A link that was taken away is never looked at again.

The functions here are the single accesses of the senders; what the receiver
does is in `Receiving`.
-/

namespace TaskMachine

/-- A link of a chain. -/
structure Link (Content : Type) where
  /-- The link that was hung behind this one. -/
  next : Option Nat
  /-- What the link carries. Only the stub carries nothing. -/
  content : Option Content
  deriving Repr

/-- A chain of links. -/
structure Chain (Content : Type) where
  /-- The links that were ever made. Those that the receiver took away are missing. -/
  links : Array (Option (Link Content))
  /-- The link that was appended last. -/
  head : Nat
  /-- The link that the receiver looks at next. -/
  tail : Nat
  deriving Repr

namespace Chain

variable {Content : Type}

/-- The link that carries nothing. -/
def stub : Nat := 0

/-- A chain that holds nothing but the stub. -/
def empty : Chain Content := ⟨#[some ⟨none, none⟩], stub, stub⟩

instance : Inhabited (Chain Content) := ⟨empty⟩

/-- The link with a given number, unless it was taken away. -/
def link? (chain : Chain Content) (link : Nat) : Option (Link Content) :=
  chain.links[link]?.join

/-- The link behind a link. -/
def next? (chain : Chain Content) (link : Nat) : Option Nat :=
  (chain.link? link).bind Link.next

/-- Sets what is behind a link. -/
def setNext (chain : Chain Content) (link : Nat) (next : Option Nat) : Chain Content :=
  { chain with links := chain.links.modify link fun entry => entry.map ({ · with next }) }

/-! ### The accesses of a sender -/

/-- Makes a link that nobody else knows of yet. -/
def allocate (chain : Chain Content) (content : Content) : Chain Content × Nat :=
  ({ chain with links := chain.links.push (some ⟨none, some content⟩) }, chain.links.size)

/-- First access: a link, with nothing behind it, becomes the head. Tells which link was the
head before. -/
def swapHead (chain : Chain Content) (link : Nat) : Chain Content × Nat :=
  ({ chain.setNext link none with head := link }, chain.head)

/-- Second access: the link is hung behind the one that was the head before. -/
def hang (chain : Chain Content) (previous link : Nat) : Chain Content :=
  chain.setNext previous (some link)

/-- Both accesses. Tells whether the stub was the head before. -/
def push (chain : Chain Content) (link : Nat) : Chain Content × Bool :=
  let (swapped, previous) := chain.swapHead link
  (swapped.hang previous link, previous == stub)

/-- Appends a message. Tells whether the stub was the head before, which is to say that nothing
was there to receive. -/
def enqueue (chain : Chain Content) (content : Content) : Chain Content × Bool :=
  let (allocated, link) := chain.allocate content
  allocated.push link

/-! ### What is where after an access -/

/-- What a link carries. -/
def content? (chain : Chain Content) (link : Nat) : Option Content :=
  (chain.link? link).bind Link.content

theorem link?_setNext (chain : Chain Content) (link other : Nat) (next : Option Nat) :
    (chain.setNext link next).link? other =
      if other = link then (chain.link? other).map ({ · with next }) else chain.link? other := by
  unfold setNext link?
  rw [Array.getElem?_modify]
  by_cases same : other = link
  · subst same
    cases chain.links[other]? with
    | none => simp
    | some entry => simp
  · simp [same, Ne.symm same]

theorem next?_setNext_self (chain : Chain Content) {link : Nat} {entry : Link Content}
    (present : chain.link? link = some entry) (next : Option Nat) :
    (chain.setNext link next).next? link = next := by
  simp [next?, link?_setNext, present]

theorem next?_setNext_other (chain : Chain Content) {link other : Nat} (differ : other ≠ link)
    (next : Option Nat) : (chain.setNext link next).next? other = chain.next? other := by
  simp [next?, link?_setNext, differ]

@[simp] theorem content?_setNext (chain : Chain Content) (link other : Nat) (next : Option Nat) :
    (chain.setNext link next).content? other = chain.content? other := by
  unfold content?
  rw [link?_setNext]
  split
  · cases chain.link? other <;> rfl
  · rfl

/-- Only a link that was made can be there. -/
theorem lt_size_of_link?_eq_some {chain : Chain Content} {link : Nat} {entry : Link Content}
    (present : chain.link? link = some entry) : link < chain.links.size := by
  rcases Nat.lt_or_ge link chain.links.size with within | beyond
  · exact within
  · simp [link?, Array.getElem?_eq_none beyond] at present

theorem link?_allocate_self (chain : Chain Content) (content : Content) :
    (chain.allocate content).1.link? (chain.allocate content).2 = some ⟨none, some content⟩ := by
  simp [allocate, link?]

theorem link?_allocate_other (chain : Chain Content) (content : Content) {link : Nat}
    {entry : Link Content} (present : chain.link? link = some entry) :
    (chain.allocate content).1.link? link = some entry := by
  have within := lt_size_of_link?_eq_some present
  rw [← present]
  simp [allocate, link?, Array.getElem?_push, Nat.ne_of_lt within]

end Chain

end TaskMachine
