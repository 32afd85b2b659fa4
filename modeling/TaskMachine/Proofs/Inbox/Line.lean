/-
An inbox whose users wait for each other is a line of messages: what is sent
joins at the back, what is received leaves at the front, and nothing else
happens to it. This file relates the chain of links to such a line, and then
whole conversations on an inbox to the same conversations on a list.

As long as nobody is halfway there is no gap in the row of links. The stub can
only be the first link of the row, so that the two ends agree on when nothing is
there to receive: the head is the stub exactly if the tail is the stub with
nothing behind it. The receiver appends the stub only to take the link in front
of it away at once, which is why the stub never stands behind a message.
-/

import TaskMachine.Proofs.Inbox.Heard
import TaskMachine.Proofs.Inbox.Order

namespace TaskMachine

/-! ### A chain at rest -/

namespace Chain

variable {Content : Type} {chain : Chain Content} {row : List Nat} {contents : List Content}

theorem content?_push (chain : Chain Content) (link other : Nat) :
    (chain.push link).1.content? other = chain.content? other :=
  (content?_setNext _ _ _ _).trans (content?_setNext chain link other none)

theorem isSome_link?_setNext (chain : Chain Content) (link other : Nat) (next : Option Nat) :
    ((chain.setNext link next).link? other).isSome = (chain.link? other).isSome := by
  rw [link?_setNext]
  split
  · exact Option.isSome_map
  · rfl

theorem isSome_link?_push (chain : Chain Content) (link other : Nat) :
    ((chain.push link).1.link? other).isSome = (chain.link? other).isSome :=
  (isSome_link?_setNext _ _ _ _).trans (isSome_link?_setNext chain link other none)

/-- Nobody is halfway: all links of the row hang together, and each carries a message but for the
stub. -/
structure Laden (chain : Chain Content) (row : List Nat) : Prop where
  strung : chain.Strung (fun _ _ => False) row
  there : (chain.link? stub).isSome
  bare : chain.content? stub = none
  laden : ∀ link ∈ row, link ≠ stub → (chain.content? link).isSome

/-- Between two messages the stub can only be the first of the row. -/
structure Line (chain : Chain Content) (row : List Nat) : Prop extends chain.Laden row where
  first : stub ∈ row → chain.tail = stub

/-- What a chain that nobody is at work on has for the receiver, the oldest message first. -/
def Holds (chain : Chain Content) (contents : List Content) : Prop :=
  ∃ row, chain.Line row ∧ row.filterMap chain.content? = contents

namespace Laden

/-- A link that is appended stands at the back. -/
theorem push (laid : chain.Laden row) {link : Nat} {entry : Link Content} (fresh : link ∉ row)
    (known : chain.link? link = some entry)
    (carries : link ≠ stub → (chain.content? link).isSome) :
    (chain.push link).1.Laden (row ++ [link]) where
  strung := by
    have opened : (chain.swapHead link).1.Strung
        (fun first second => first = chain.head ∧ second = link) (row ++ [link]) :=
      laid.strung.swapHead fresh known fun _ _ => ⟨Or.inr, fun | .inr opened => opened⟩
    exact opened.hang ⟨rfl, rfl⟩ fun _ _ => ⟨False.elim, fun closed => closed.2 closed.1.1⟩
  there := by rw [isSome_link?_push]; exact laid.there
  bare := by rw [content?_push]; exact laid.bare
  laden := fun other member differ => by
    rw [content?_push]
    rcases List.mem_append.mp member with old | new
    · exact laid.laden other old differ
    · obtain rfl := List.mem_singleton.mp new
      exact carries differ

/-- Nothing is hung behind the tail only if the tail is the head. -/
theorem tail_eq_head (laid : chain.Laden row) (behind : chain.next? chain.tail = none) :
    chain.tail = chain.head := by
  have front := laid.strung.front
  have back := laid.strung.back
  cases row with
  | nil => exact absurd front (by simp)
  | cons link rest =>
    obtain rfl : link = chain.tail := Option.some.inj front
    cases rest with
    | nil => exact Option.some.inj back
    | cons second rest =>
      rcases laid.strung.joined (follows_cons_iff.mpr (Or.inl ⟨rfl, rfl⟩)) with joined | gap
      · rw [behind] at joined
        exact absurd joined nofun
      · exact absurd gap.2 id

/-- The first link, if it is not the stub, is taken away with what it carries. -/
theorem take (laid : chain.Laden row) {next : Nat} (behind : chain.next? chain.tail = some next)
    (away : chain.tail ≠ stub) : ∃ others content, row = chain.tail :: others ∧
      others.head? = some next ∧ (chain.take next).1.Laden others ∧
      (chain.take next).2 = .done (some content) ∧ row.filterMap chain.content? =
        content :: others.filterMap (chain.take next).1.content? := by
  obtain ⟨others, rfl, front, absent⟩ := laid.strung.eq_cons_of_next? behind
  obtain ⟨content, carried⟩ :=
    Option.isSome_iff_exists.mp (laid.laden _ List.mem_cons_self away)
  have same {link : Nat} (differ : link ≠ chain.tail) :
      (chain.take next).1.link? link = chain.link? link := by
    simp [Chain.take, link?, Ne.symm differ]
  have remains {link : Nat} (member : link ∈ others) : link ≠ chain.tail :=
    ne_of_mem_of_not_mem member absent
  have carries {link : Nat} (differ : link ≠ chain.tail) :
      (chain.take next).1.content? link = chain.content? link := by
    rw [content?, same differ, content?]
  refine ⟨others, content, rfl, front, ?_, congrArg Stage.done carried, ?_⟩
  · exact
      { strung := laid.strung.pass behind rfl rfl fun _ member => same (remains member)
        there := by rw [same away.symm]; exact laid.there
        bare := by rw [carries away.symm]; exact laid.bare
        laden := fun link member differ => by
          rw [carries (remains member)]
          exact laid.laden link (List.mem_cons_of_mem _ member) differ }
  · rw [List.filterMap_cons, carried]
    exact congrArg _ (List.filterMap_congr fun link member => (carries (remains member)).symm)

end Laden

namespace Line

/-- If the head is the tail, nothing else is in the row. -/
theorem eq_singleton (line : chain.Line row) (meet : chain.tail = chain.head) :
    row = [chain.tail] := by
  have front := line.strung.front
  have back := line.strung.back
  rw [← meet] at back
  cases row with
  | nil => exact absurd front (by simp)
  | cons link rest =>
    obtain rfl : link = chain.tail := Option.some.inj front
    have absent := (List.nodup_cons.mp line.strung.distinct).1
    cases rest with
    | nil => rfl
    | cons second rest =>
      rw [List.getLast?_cons_cons] at back
      exact absurd (List.mem_of_getLast? back) absent

/-- The sender's test and the receiver's agree with what the row carries. -/
theorem head_eq_stub_iff (line : chain.Line row) :
    chain.head = stub ↔ row.filterMap chain.content? = [] := by
  constructor
  · intro atStub
    have tail := line.first (atStub ▸ line.strung.head_mem)
    rw [line.eq_singleton (tail.trans atStub.symm), tail]
    simp [line.bare]
  · intro nothing
    by_contra away
    obtain ⟨content, carried⟩ :=
      Option.isSome_iff_exists.mp (line.laden _ line.strung.head_mem away)
    have member : content ∈ row.filterMap chain.content? :=
      List.mem_filterMap.mpr ⟨_, line.strung.head_mem, carried⟩
    rw [nothing] at member
    exact List.not_mem_nil member

theorem isEmpty_iff (line : chain.Line row) :
    chain.isEmpty = true ↔ row.filterMap chain.content? = [] := by
  rw [← line.head_eq_stub_iff]
  simp only [isEmpty, Bool.and_eq_true, beq_iff_eq, Option.isNone_iff_eq_none]
  constructor
  · exact fun empty => empty.2
  · intro atStub
    have tail := line.first (atStub ▸ line.strung.head_mem)
    refine ⟨⟨tail, ?_⟩, atStub⟩
    rw [tail, ← atStub]
    exact line.strung.loose

/-- A receiver for whom nothing is there changes nothing. -/
theorem dequeue_nil (line : chain.Line row) (nothing : row.filterMap chain.content? = []) :
    chain.dequeue = (chain, none) := by
  have atStub := line.head_eq_stub_iff.mpr nothing
  have tail := line.first (atStub ▸ line.strung.head_mem)
  have behind : chain.next? chain.tail = none := by
    rw [tail, ← atStub]
    exact line.strung.loose
  have still : chain.receiveStep .start = (chain, .done none) := by
    rw [receiveStep, behind, if_pos tail]
  rw [Chain.dequeue, stageBound, receiveSteps, still]
  simp only [receiveSteps_done]
  rfl

/-- A message that is appended joins at the back. -/
theorem enqueue (line : chain.Line row) (content : Content) :
    (chain.enqueue content).1.Line (row ++ [chain.links.size]) ∧
      (row ++ [chain.links.size]).filterMap (chain.enqueue content).1.content? =
        row.filterMap chain.content? ++ [content] := by
  have made {link : Nat} (member : link ∈ row) : link ≠ chain.links.size := by
    obtain ⟨entry, present⟩ := line.strung.present link member
    exact Nat.ne_of_lt (lt_size_of_link?_eq_some present)
  have stubMade : stub ≠ chain.links.size := by
    obtain ⟨entry, present⟩ := Option.isSome_iff_exists.mp line.there
    exact Nat.ne_of_lt (lt_size_of_link?_eq_some present)
  have same {link : Nat} (differ : link ≠ chain.links.size) :
      (chain.allocate content).1.link? link = chain.link? link := by
    simp [allocate, link?, Array.getElem?_push, differ]
  have present : (chain.allocate content).1.link? chain.links.size = some ⟨none, some content⟩ :=
    link?_allocate_self chain content
  have carries {link : Nat} (differ : link ≠ chain.links.size) :
      (chain.allocate content).1.content? link = chain.content? link := by
    rw [content?, same differ, content?]
  have carriesNew : (chain.allocate content).1.content? chain.links.size = some content := by
    rw [content?, present]
    rfl
  have allocated : (chain.allocate content).1.Laden row :=
    { strung := line.strung.of_links rfl rfl (fun _ member => same (made member))
        fun _ _ => Iff.rfl
      there := by rw [same stubMade]; exact line.there
      bare := by rw [carries stubMade]; exact line.bare
      laden := fun link member differ => by
        rw [carries (made member)]
        exact line.laden link member differ }
  refine ⟨⟨allocated.push (fun member => made member rfl) present fun _ => ?_, ?_⟩, ?_⟩
  · rw [carriesNew]
    rfl
  · intro member
    have old : stub ∈ row := by simpa [stubMade] using member
    exact line.first old
  · rw [List.filterMap_append]
    refine congrArg₂ _ (List.filterMap_congr fun link member => ?_) ?_
    · rw [Chain.enqueue, content?_push, carries (made member)]
    · rw [Chain.enqueue, List.filterMap_cons, content?_push, carriesNew]
      rfl

/-- A receiver passes over the stub. -/
theorem pass (line : chain.Line row) (atStub : chain.tail = stub) {link : Nat}
    (behind : chain.next? chain.tail = some link) :
    ∃ others, ({ chain with tail := link } : Chain Content).Line others ∧ link ≠ stub ∧
      others.filterMap ({ chain with tail := link } : Chain Content).content? =
        row.filterMap chain.content? := by
  obtain ⟨others, rfl, front, absent⟩ := line.strung.eq_cons_of_next? behind
  rw [atStub] at absent
  refine ⟨others, ⟨⟨line.strung.pass behind rfl rfl fun _ _ => rfl, line.there, line.bare, ?_⟩, ?_⟩,
    ?_, ?_⟩
  · exact fun other member => line.laden other (List.mem_cons_of_mem _ member)
  · exact fun member => absurd member absent
  · exact ne_of_mem_of_not_mem (List.mem_of_head? front) absent
  · rw [atStub, List.filterMap_cons, line.bare]
    rfl

/-- A receiver whose tail carries a message leaves with it. -/
theorem receiveSteps (line : chain.Line row) (away : chain.tail ≠ stub)
    {stage : Stage Content} (looks : stage = .start ∨ stage = .passed) (count : Nat) :
    ∃ next content rest, chain.receiveSteps (count + 5) stage = (next, .done (some content)) ∧
      row.filterMap chain.content? = content :: rest ∧ next.Holds rest := by
  have apart : stub ∉ row := fun member => away (line.first member)
  cases behind : chain.next? chain.tail with
  | some link =>
    obtain ⟨others, content, rfl, -, laid, taken, contents⟩ := line.take behind away
    have looked : chain.receiveStep stage = chain.take link := by
      rcases looks with rfl | rfl
      · simp [receiveStep, behind, away]
      · simp [receiveStep, behind]
    refine ⟨(chain.take link).1, content, _, ?_, contents, others, ⟨laid, fun member => ?_⟩, rfl⟩
    · rw [Chain.receiveSteps, looked]
      show (chain.take link).1.receiveSteps _ (chain.take link).2 = _
      rw [taken, receiveSteps_done]
    · exact absurd (List.mem_cons_of_mem _ member) apart
  | none =>
    -- The tail is the head: the stub is appended behind it, and then the tail is taken away.
    have meet := line.tail_eq_head behind
    have single := line.eq_singleton meet
    obtain ⟨entry, known⟩ := Option.isSome_iff_exists.mp line.there
    have closed := line.push apart known fun differ => absurd rfl differ
    have hung : (chain.push stub).1.next? chain.tail = some stub := by
      have follows : Follows (row ++ [stub]) chain.tail stub := by
        rw [single]
        exact List.infix_rfl
      exact (closed.strung.joined follows).resolve_right fun gap => gap.2
    obtain ⟨others, content, split, -, laid, taken, contents⟩ := closed.take hung away
    obtain rfl : others = [stub] := by
      rw [single] at split
      exact (List.cons.inj split).2.symm
    have through : chain.receiveSteps (count + 5) stage =
        ((chain.push stub).1.take stub).1.receiveSteps count
          ((chain.push stub).1.take stub).2 := by
      have looked : chain.receiveStep stage = (chain, .last) := by
        rcases looks with rfl | rfl
        · simp [receiveStep, behind, away]
        · simp [receiveStep, behind]
      have again : (chain.push stub).1.receiveStep .again = (chain.push stub).1.take stub := by
        simp only [receiveStep]
        rw [show (chain.push stub).1.tail = chain.tail from rfl, hung]
      rw [Chain.receiveSteps, looked]
      simp only [Chain.receiveSteps, receiveStep, if_pos meet]
      rw [← again]
      rfl
    refine ⟨_, content, _, through.trans (by rw [taken, receiveSteps_done]), ?_, [stub],
      ⟨laid, fun _ => rfl⟩, rfl⟩
    have carries : (chain.push stub).1.content? = chain.content? :=
      funext (content?_push chain stub)
    rw [← contents, carries, List.filterMap_append]
    simp [line.bare]

end Line

/-! ### What the line of messages is after an operation -/

namespace Holds

theorem empty : (empty : Chain Content).Holds [] := by
  refine ⟨[stub], ⟨⟨?_, rfl, rfl, ?_⟩, fun _ => rfl⟩, rfl⟩
  · exact
      { distinct := by simp
        front := rfl
        back := rfl
        present := fun link member => by
          rw [List.mem_singleton.mp member]
          exact ⟨_, rfl⟩
        loose := rfl
        joined := fun follows => by
          have longer := follows.length_le
          exact absurd longer (by simp)
        gap := False.elim }
  · intro link member differ
    exact absurd (List.mem_singleton.mp member) differ

/-- A sender appends at the back, and finds out whether nothing was there. -/
theorem enqueue (holds : chain.Holds contents) (content : Content) :
    (chain.enqueue content).1.Holds (contents ++ [content]) ∧
      ((chain.enqueue content).2 = true ↔ contents = []) := by
  obtain ⟨row, line, rfl⟩ := holds
  obtain ⟨next, joined⟩ := line.enqueue content
  refine ⟨⟨_, next, joined⟩, ?_⟩
  rw [← line.head_eq_stub_iff]
  exact beq_iff_eq

/-- The receiver takes from the front, and gets nothing only if nothing is there. -/
theorem dequeue (holds : chain.Holds contents) :
    chain.dequeue.1.Holds contents.tail ∧ chain.dequeue.2 = contents.head? := by
  obtain ⟨row, line, rfl⟩ := holds
  by_cases atStub : chain.tail = stub
  · cases behind : chain.next? chain.tail with
    | none =>
      have nothing : row.filterMap chain.content? = [] := by
        rw [← line.head_eq_stub_iff, ← line.tail_eq_head behind, atStub]
      rw [line.dequeue_nil nothing, nothing]
      exact ⟨⟨row, line, nothing⟩, rfl⟩
    | some link =>
      -- The receiver passes over the stub, and then takes the link behind it.
      obtain ⟨others, passed, away, same⟩ := line.pass atStub behind
      have looked : chain.receiveStep .start = ({ chain with tail := link }, .passed) := by
        simp only [receiveStep, behind]
        exact if_pos atStub
      obtain ⟨next, content, rest, through, contents, holds⟩ :=
        passed.receiveSteps away (Or.inr rfl) 0
      have whole : chain.receiveSteps stageBound .start = (next, .done (some content)) := by
        rw [stageBound, Chain.receiveSteps, looked]
        exact through
      rw [Chain.dequeue, whole, ← same, contents]
      exact ⟨holds, rfl⟩
  · obtain ⟨next, content, rest, through, contents, holds⟩ :=
      line.receiveSteps atStub (Or.inl rfl) 1
    rw [Chain.dequeue, stageBound, through, contents]
    exact ⟨holds, rfl⟩

theorem isEmpty_iff (holds : chain.Holds contents) : chain.isEmpty = true ↔ contents = [] := by
  obtain ⟨row, line, rfl⟩ := holds
  exact line.isEmpty_iff

end Holds

end Chain

/-! ### An inbox in its room -/

namespace Mailroom

variable {room : Mailroom} {mailbox other : Mailbox} {pending : List Message}

/-- An inbox has these messages for its receiver, the oldest first. -/
def Holds (room : Mailroom) (mailbox : Mailbox) (pending : List Message) : Prop :=
  ∃ owner inbox, room.inboxes[mailbox.inbox]? = some (owner, inbox) ∧ inbox.chain.Holds pending

/-- How often the owner of an inbox was woken by those who sent to it. -/
def wakes (room : Mailroom) (mailbox : Mailbox) : Nat :=
  (room.inboxes[mailbox.inbox]?.map fun entry => entry.2.wakes).getD 0

theorem getElem?_inboxes_send {owner : TaskId} {inbox : Inbox}
    (known : room.inboxes[mailbox.inbox]? = some (owner, inbox)) (message : Message) :
    (room.send mailbox message).inboxes[mailbox.inbox]? =
      some (owner, (inbox.send message).1) := by
  have within : mailbox.inbox < room.inboxes.size := (Array.getElem?_eq_some_iff.mp known).1
  rw [Mailroom.send, known]
  simp only
  split <;> simp [inboxes_wake, within]

/-- A send wakes the owner of the inbox exactly if it raises the count, and else it is the message
that is put there and nothing more. -/
theorem send_eq_of_wakes {owner : TaskId} (owned : room.owner? mailbox.inbox = some owner)
    (message : Message) : room.send mailbox message =
      if room.wakes mailbox < (room.send mailbox message).wakes mailbox then
        (room.put mailbox message).wake owner
      else room.put mailbox message := by
  obtain ⟨⟨_, inbox⟩, known, rfl⟩ := Option.map_eq_some_iff.mp owned
  have before : room.wakes mailbox = inbox.wakes := by
    rw [wakes, known]
    rfl
  have after : (room.send mailbox message).wakes mailbox =
      if (inbox.send message).2 then inbox.wakes + 1 else inbox.wakes := by
    rw [wakes, getElem?_inboxes_send known]
    rfl
  rw [before, after, Mailroom.send, put, known]
  simp only
  cases (inbox.send message).2 with
  | false => exact (if_neg (Nat.lt_irrefl _)).symm
  | true => exact (if_pos (Nat.lt_succ_self _)).symm

namespace Holds

/-- A new inbox holds nothing. -/
theorem addInbox_self (room : Mailroom) (owner : TaskId) :
    (room.addInbox owner).1.Holds (room.addInbox owner).2 [] :=
  ⟨owner, .empty, Array.getElem?_push_size, Chain.Holds.empty⟩

/-- What is done to the woken tasks or to other inboxes leaves an inbox alone. -/
theorem of_inboxes (holds : room.Holds mailbox pending) {next : Mailroom}
    (same : next.inboxes[mailbox.inbox]? = room.inboxes[mailbox.inbox]?) :
    next.Holds mailbox pending := by
  rw [Holds, same]
  exact holds

/-- A message joins at the back, and the owner is woken exactly if nothing was there. -/
theorem send (holds : room.Holds mailbox pending) (message : Message) :
    (room.send mailbox message).Holds mailbox (pending ++ [message]) ∧
      (room.send mailbox message).wakes mailbox =
        room.wakes mailbox + if pending = [] then 1 else 0 := by
  obtain ⟨owner, inbox, known, line⟩ := holds
  obtain ⟨joined, woken⟩ := line.enqueue message
  have there := getElem?_inboxes_send known message
  refine ⟨⟨owner, _, there, joined⟩, ?_⟩
  rw [wakes, wakes, there, known]
  show (if (inbox.chain.enqueue message).2 then inbox.wakes + 1 else inbox.wakes) =
    inbox.wakes + if pending = [] then 1 else 0
  simp only [woken]
  split <;> rfl

/-- So the owner is woken by a send exactly if nothing was there. -/
theorem send_eq {owner : TaskId} (holds : room.Holds mailbox pending)
    (owned : room.owner? mailbox.inbox = some owner) (message : Message) :
    room.send mailbox message =
      if pending = [] then (room.put mailbox message).wake owner else room.put mailbox message := by
  rw [send_eq_of_wakes owned, (holds.send message).2]
  by_cases nothing : pending = []
  · rw [if_pos nothing, if_pos nothing, if_pos (Nat.lt_succ_self _)]
  · rw [if_neg nothing, if_neg nothing]
    exact if_neg (Nat.lt_irrefl _)

/-- The oldest message leaves, if there is one. -/
theorem receive (holds : room.Holds mailbox pending) :
    (room.receive mailbox).1.Holds mailbox pending.tail ∧
      (room.receive mailbox).2 = pending.head? := by
  obtain ⟨owner, inbox, known, line⟩ := holds
  obtain ⟨left, taken⟩ := line.dequeue
  have within : mailbox.inbox < room.inboxes.size := (Array.getElem?_eq_some_iff.mp known).1
  rw [Mailroom.receive, known]
  exact ⟨⟨owner, _, by simp [within]; rfl, left⟩, taken⟩

/-- If nothing is there, to look for it changes nothing. -/
theorem receive_nil (holds : room.Holds mailbox []) : room.receive mailbox = (room, none) := by
  obtain ⟨owner, inbox, known, row, line, nothing⟩ := holds
  obtain ⟨within, is⟩ := Array.getElem?_eq_some_iff.mp known
  have same : room.inboxes.setIfInBounds mailbox.inbox (owner, inbox) = room.inboxes := by
    rw [Array.setIfInBounds, dif_pos within, ← is]
    exact Array.set_getElem_self within
  rw [Mailroom.receive, known]
  simp only [Inbox.receive, line.dequeue_nil nothing]
  rw [same]

theorem isEmpty_iff (holds : room.Holds mailbox pending) :
    room.isEmpty mailbox = true ↔ pending = [] := by
  obtain ⟨owner, inbox, known, line⟩ := holds
  rw [Mailroom.isEmpty, known]
  exact line.isEmpty_iff

end Holds

end Mailroom

/-! ### Conversations -/

/-- What can be done with an inbox. Whoever sends does it through a clone of one mailbox. -/
inductive Use where
  | send (message : Message)
  | receive
  | look

/-- What is learned by a use of an inbox. -/
inductive Lesson where
  /-- How often the owner was woken by it. -/
  | sent (wakes : Nat)
  | received (message : Option Message)
  | looked (empty : Bool)

/-- One use after another, and what is learned by each. -/
def converse {State : Type} (use : State → Use → State × Lesson) :
    State → List Use → State × List Lesson
  | state, [] => (state, [])
  | state, first :: rest =>
    let (next, lesson) := use state first
    let (last, lessons) := converse use next rest
    (last, lesson :: lessons)

/-- A use of an inbox of a room. -/
def Mailroom.use (mailbox : Mailbox) (room : Mailroom) : Use → Mailroom × Lesson
  | .send message =>
    let next := room.send mailbox message
    (next, .sent (next.wakes mailbox - room.wakes mailbox))
  | .receive =>
    let (next, message) := room.receive mailbox
    (next, .received message)
  | .look => (room, .looked (room.isEmpty mailbox))

/-- Whoever uses an inbox, it stays its owner's. -/
theorem Mailroom.owner?_use (mailbox : Mailbox) (room : Mailroom) (use : Use) :
    (room.use mailbox use).1.owner? mailbox.inbox = room.owner? mailbox.inbox := by
  cases use with
  | send message => exact room.owner?_send mailbox message mailbox.inbox
  | receive =>
    show (room.receive mailbox).1.owner? mailbox.inbox = _
    rw [Mailroom.receive]
    cases known : room.inboxes[mailbox.inbox]? with
    | none => rfl
    | some entry =>
      show ((room.inboxes.setIfInBounds mailbox.inbox _)[mailbox.inbox]?).map Prod.fst = _
      rw [Array.getElem?_setIfInBounds_self_of_lt (Array.getElem?_eq_some_iff.mp known).1, owner?,
        known]
      rfl
  | look => rfl

/-- The same use of a list of messages. Nobody is woken for a message that comes behind others. -/
def listUse (pending : List Message) : Use → List Message × Lesson
  | .send message => (pending ++ [message], .sent (if pending = [] then 1 else 0))
  | .receive => (pending.tail, .received pending.head?)
  | .look => (pending, .looked (decide (pending = [])))

namespace Mailroom.Holds

variable {room : Mailroom} {mailbox : Mailbox} {pending : List Message}

theorem use (holds : room.Holds mailbox pending) (use : Use) :
    (room.use mailbox use).1.Holds mailbox (listUse pending use).1 ∧
      (room.use mailbox use).2 = (listUse pending use).2 := by
  cases use with
  | send message =>
    obtain ⟨joined, woken⟩ := holds.send message
    refine ⟨joined, ?_⟩
    simp only [Mailroom.use, listUse]
    rw [woken, Nat.add_sub_cancel_left]
  | receive =>
    obtain ⟨left, taken⟩ := holds.receive
    exact ⟨left, congrArg Lesson.received taken⟩
  | look =>
    refine ⟨holds, congrArg Lesson.looked ?_⟩
    rw [Bool.eq_iff_iff, holds.isEmpty_iff, decide_eq_true_iff]

theorem converse (holds : room.Holds mailbox pending) (uses : List Use) :
    (converse (Mailroom.use mailbox) room uses).1.Holds mailbox
        (TaskMachine.converse listUse pending uses).1 ∧
      (TaskMachine.converse (Mailroom.use mailbox) room uses).2 =
        (TaskMachine.converse listUse pending uses).2 := by
  induction uses generalizing room pending with
  | nil => exact ⟨holds, rfl⟩
  | cons first rest inductionHypothesis =>
    obtain ⟨next, lesson⟩ := holds.use first
    obtain ⟨last, lessons⟩ := inductionHypothesis next
    exact ⟨last, congrArg₂ List.cons lesson lessons⟩

end Mailroom.Holds

theorem Mailroom.owner?_converse (mailbox : Mailbox) (room : Mailroom) (uses : List Use) :
    (converse (Mailroom.use mailbox) room uses).1.owner? mailbox.inbox =
      room.owner? mailbox.inbox := by
  induction uses generalizing room with
  | nil => rfl
  | cons first rest inductionHypothesis =>
    exact (inductionHypothesis _).trans (Mailroom.owner?_use mailbox room first)

/-- Whatever is done with a new inbox, one thing after another, and whatever else is in the room:
all that is learned by it is what a list of messages would tell, and so is what the inbox holds in
the end. If a message is sent then, its owner is woken exactly if nothing is in the list, and that
is when the count of the inbox is raised. -/
theorem Mailroom.converse_addInbox (room : Mailroom) (owner : TaskId) (uses : List Use) :
    (converse (Mailroom.use (room.addInbox owner).2) (room.addInbox owner).1 uses).2 =
        (converse listUse [] uses).2 ∧
      (converse (Mailroom.use (room.addInbox owner).2) (room.addInbox owner).1 uses).1.Holds
        (room.addInbox owner).2 (converse listUse [] uses).1 ∧
      ∀ message,
        let last := (converse (Mailroom.use (room.addInbox owner).2) (room.addInbox owner).1 uses).1
        let pending := (converse listUse [] uses).1
        let sent := last.send (room.addInbox owner).2 message
        sent = (if pending = [] then (last.put (room.addInbox owner).2 message).wake owner
            else last.put (room.addInbox owner).2 message) ∧
          sent.wakes (room.addInbox owner).2 =
            last.wakes (room.addInbox owner).2 + if pending = [] then 1 else 0 := by
  obtain ⟨holds, learned⟩ := (Holds.addInbox_self room owner).converse uses
  have owned : (room.addInbox owner).1.owner? (room.addInbox owner).2.inbox = some owner :=
    congrArg (Option.map Prod.fst) Array.getElem?_push_size
  rw [← owner?_converse (room.addInbox owner).2 (room.addInbox owner).1 uses] at owned
  exact ⟨learned, holds, fun message => ⟨holds.send_eq owned message, (holds.send message).2⟩⟩

end TaskMachine
