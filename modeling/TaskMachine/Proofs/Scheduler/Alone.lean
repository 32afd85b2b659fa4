/-
What the thread of a scheduler does while nobody comes between is a run of an
exchange. To send a message is to go through the accesses of a sender one after
another, to take one is to go through all stages of the receiver, and so for the
other things that other threads could notice. So every scheduler that is in use
by its own thread only is `Tracked`: some exchange comes to it, with nobody in
the middle of anything.
-/

import TaskMachine.Proofs.Inbox.Order
import TaskMachine.Proofs.Scheduler.Wakeups

namespace TaskMachine

namespace Exchange

variable {exchange : Exchange} {inbox : Nat}

/-- Nobody is in the middle of anything. -/
structure Rests (exchange : Exchange) : Prop where
  free : exchange.thread = .free
  quiet : ∀ inbox, exchange.Quiet inbox
  done : ∀ inbox, ∃ taken, (exchange.traffic inbox).stage = .done taken

/-! ### Accesses one after another -/

theorem modify_modify {Entry : Type} (entries : Array Entry) (index : Nat)
    (first second : Entry → Entry) :
    (entries.modify index first).modify index second =
      entries.modify index fun entry => second (first entry) := by
  refine Array.ext_getElem? fun other => ?_
  simp only [Array.getElem?_modify]
  split
  · rw [Option.map_map]
    rfl
  · rfl

theorem modify_eq_set {Entry : Type} {entries : Array Entry} {index : Nat} {entry : Entry}
    (found : entries[index]? = some entry) (change : Entry → Entry) :
    entries.modify index change = entries.setIfInBounds index (change entry) := by
  refine Array.ext_getElem? fun other => ?_
  rw [Array.getElem?_modify, Array.getElem?_setIfInBounds]
  by_cases same : index = other
  · subst same
    obtain ⟨within, is⟩ := Array.getElem?_eq_some_iff.mp found
    simp [within, is]
  · simp [same]

/-- Of two accesses to one chain the second one says what is there. -/
theorem access_access (exchange : Exchange) (inbox : Nat) (first second : Traffic Message) :
    (exchange.access inbox first).access inbox second = exchange.access inbox second := by
  simp only [access, setMailroom, modify_modify, Function.update_idem]

/-- An access that leaves the chain as it was changes nothing. -/
theorem access_self (sane : exchange.Sane) :
    exchange.access inbox (exchange.traffic inbox) = exchange := by
  have same : exchange.scheduler.mailroom.inboxes.modify inbox (fun entry =>
      (entry.1, { entry.2 with chain := (exchange.traffic inbox).chain })) =
      exchange.scheduler.mailroom.inboxes := by
    refine Array.ext_getElem? fun other => ?_
    rw [Array.getElem?_modify]
    split
    · rename_i here
      subst here
      have chain := sane.chains inbox
      rw [Mailroom.chain] at chain
      cases found : exchange.scheduler.mailroom.inboxes[inbox]? with
      | none => rfl
      | some entry =>
        rw [found] at chain
        rw [Option.map_some, chain]
        rfl
    · rfl
  rw [access, setMailroom, same, Function.update_eq_self]

/-! ### Receiving -/

/-- The thread goes through the stages of the receiver. -/
theorem Reachable.receives (reachable : Reachable exchange) (known : exchange.Has inbox)
    (receiving : exchange.thread = .receiving inbox) {traffic last : Traffic Message}
    {moves : List (Move Message)} (run : Traffic.Run traffic moves last)
    (only : ∀ move ∈ moves, move = .receive) (now : exchange.traffic inbox = traffic) :
    Reachable (exchange.access inbox last) := by
  induction run generalizing exchange with
  | rest =>
    rw [← now, access_self reachable.sane]
    exact reachable
  | step step _ inductionHypothesis =>
    obtain rfl := only _ List.mem_cons_self
    cases step with
    | receive busy =>
      subst now
      have next := Reachable.step reachable (.receive known receiving busy)
      rw [← exchange.access_access inbox (exchange.traffic inbox).receive]
      refine inductionHypothesis next ?_ receiving (fun move member => only move
        (List.mem_cons_of_mem _ member)) (exchange.traffic_access_self inbox _)
      simpa [Has, access, setMailroom] using known

theorem Rests.access (rests : exchange.Rests) {traffic : Traffic Message}
    (senders : traffic.senders = (exchange.traffic inbox).senders)
    (done : ∃ taken, traffic.stage = .done taken) : (exchange.access inbox traffic).Rests where
  free := rests.free
  quiet other sender := by
    by_cases same : other = inbox
    · subst same
      rw [traffic_access_self, senders]
      exact rests.quiet other sender
    · rw [exchange.traffic_access_other inbox traffic same]
      exact rests.quiet other sender
  done other := by
    by_cases same : other = inbox
    · subst same
      rw [traffic_access_self]
      exact done
    · rw [exchange.traffic_access_other inbox traffic same]
      exact rests.done other

/-- The thread has gone through a chain and does nothing again. -/
theorem access_goOn_free (free : exchange.thread = .free) (thread : Thread)
    (first last : Traffic Message) :
    (((exchange.access inbox first).goOn thread).access inbox last).goOn .free =
      exchange.access inbox last := by
  rw [← exchange.access_access inbox first last, ← free]
  rfl

/-- The thread takes a message. -/
theorem Reachable.dequeues (reachable : Reachable exchange) (rests : exchange.Rests)
    (known : exchange.Has inbox) : ∃ traffic : Traffic Message,
      Reachable (exchange.access inbox traffic) ∧ (exchange.access inbox traffic).Rests ∧
      traffic.chain = (exchange.traffic inbox).chain.dequeue.1 := by
  obtain ⟨taken, done⟩ := rests.done inbox
  obtain ⟨moves, only, run⟩ := Traffic.Run.dequeue (exchange.traffic inbox) done
  cases run with
  | step begins run =>
    cases begins
    have begun := Reachable.step reachable (.begin known rests.free done)
    have there : ((exchange.access inbox (exchange.traffic inbox).begin).goOn
        (.receiving inbox)).Has inbox := by
      simpa [Has, access, setMailroom, goOn] using known
    have received := begun.receives there rfl run only
      (exchange.traffic_access_self inbox (exchange.traffic inbox).begin)
    have left := Reachable.step received (.leave rfl (by
      rw [traffic_access_self]))
    rw [access_goOn_free rests.free] at left
    exact ⟨_, left, rests.access rfl ⟨_, rfl⟩, rfl⟩

/-! ### Sending -/

/-- A sender goes through its accesses to the chain. If the stub was the head before, it is left
about to wake the owner of the inbox. -/
theorem Reachable.appends (reachable : Reachable exchange) (rests : exchange.Rests)
    (known : exchange.Has inbox) (message : Message) : ∃ traffic : Traffic Message,
      Reachable (if (exchange.traffic inbox).chain.head = Chain.stub then
        ((exchange.access inbox traffic).countWake inbox).call inbox 0 .waking
        else exchange.access inbox traffic) ∧ (exchange.access inbox traffic).Rests ∧
      traffic.chain = ((exchange.traffic inbox).chain.enqueue message).1 := by
  obtain ⟨resting, quiet⟩ := rests.quiet inbox 0
  have still (traffic : Traffic Message) : (exchange.access inbox traffic).Has inbox := by
    simpa [Has, access, setMailroom] using known
  obtain ⟨first, is⟩ : ∃ first, first = (exchange.traffic inbox).load 0 message := ⟨_, rfl⟩
  have loads : first.senders 0 = .loaded (exchange.traffic inbox).chain.links.size message := by
    simp [is, Traffic.load, Chain.allocate]
  obtain ⟨second, next⟩ : ∃ second,
      second = first.swap 0 (exchange.traffic inbox).chain.links.size message := ⟨_, rfl⟩
  have swaps : second.senders 0 =
      .halfway (exchange.traffic inbox).chain.head (exchange.traffic inbox).chain.links.size := by
    simp [next, is, Traffic.swap, Traffic.load, Chain.swapHead, Chain.allocate, Chain.setNext]
  have loaded := Reachable.step reachable (.load message known resting quiet)
  rw [← is] at loaded
  have swapped := Reachable.step loaded (.swap (still first) (by rwa [traffic_access_self]))
  rw [access_access, traffic_access_self, ← next] at swapped
  have hung := Reachable.step swapped (.hang (still second) (by rwa [traffic_access_self]))
  simp only [Exchange.hang, access_access, traffic_access_self] at hung
  refine ⟨_, hung, rests.access ?_ ?_, ?_⟩
  · simp only [Traffic.hang, next, is, Traffic.swap, Traffic.load, Function.update_idem]
    rw [← resting, Function.update_eq_self]
  · rw [next, is]
    exact rests.done inbox
  · rw [next, is]
    rfl

theorem call_call (exchange : Exchange) (inbox sender : Nat) (first second : Calling) :
    (exchange.call inbox sender first).call inbox sender second =
      exchange.call inbox sender second := by
  simp only [call, Function.update_self, Function.update_idem]

theorem call_self {sender : Nat} {calling : Calling}
    (same : exchange.calling inbox sender = calling) :
    exchange.call inbox sender calling = exchange := by
  rw [call, ← same, Function.update_eq_self, Function.update_eq_self]

/-- A sender that is about to wake the owner of an inbox does so. -/
theorem Reachable.wakes (reachable : Reachable (exchange.call inbox 0 .waking))
    (quiet : exchange.calling inbox 0 = .resting) {owner : TaskId}
    (owned : exchange.scheduler.mailroom.owner? inbox = some owner) :
    Reachable (exchange.setMailroom (exchange.scheduler.mailroom.wake owner)) := by
  obtain ⟨entry, found, rfl⟩ := Option.map_eq_some_iff.mp owned
  have calls (exchange : Exchange) (calling : Calling) :
      (exchange.call inbox 0 calling).calling inbox 0 = calling := by simp [call]
  have woken := Reachable.step reachable (.wake found (calls _ _))
  rw [Exchange.wake] at woken
  rw [Mailroom.wake]
  cases added : exchange.scheduler.mailroom.addWoken entry.1 with
  | mk room new =>
    rw [show (exchange.call inbox 0 .waking).scheduler.mailroom.addWoken entry.1 =
      (room, new) from added] at woken
    cases new with
    | false =>
      have done : Reachable (((exchange.setMailroom room).call inbox 0 .waking).call inbox 0
        .resting) := woken
      rwa [call_call, call_self] at done
      exact quiet
    | true =>
      have done : Reachable ((((exchange.setMailroom room.unpark).call inbox 0 .waking).call inbox 0
        .unparking).call inbox 0 .resting) := .step woken (.unpark (calls _ _))
      rwa [call_call, call_call, call_self] at done
      exact quiet

theorem send_eq {room : Mailroom} {mailbox : Mailbox} {owner : TaskId} {entry : Inbox}
    (owned : room.inboxes[mailbox.inbox]? = some (owner, entry)) (message : Message) :
    room.send mailbox message =
      if entry.chain.head = Chain.stub then
        ({ room with inboxes := room.inboxes.modify mailbox.inbox fun now =>
          (now.1, ⟨(entry.chain.enqueue message).1, now.2.wakes + 1⟩) } : Mailroom).wake owner
      else
        { room with inboxes := room.inboxes.modify mailbox.inbox fun now =>
          (now.1, ⟨(entry.chain.enqueue message).1, now.2.wakes⟩) } := by
  have wakes : (entry.chain.enqueue message).2 = decide (entry.chain.head = Chain.stub) := rfl
  by_cases still : entry.chain.head = Chain.stub
  · rw [if_pos still, modify_eq_set owned]
    simp [Mailroom.send, owned, Inbox.send, wakes, still]
  · rw [if_neg still, modify_eq_set owned]
    simp [Mailroom.send, owned, Inbox.send, wakes, still]

/-- The thread sends a message. -/
theorem Reachable.sends (reachable : Reachable exchange) (rests : exchange.Rests)
    (mailbox : Mailbox) (message : Message) : ∃ next : Exchange, Reachable next ∧ next.Rests ∧
      next.scheduler = { exchange.scheduler with
        mailroom := exchange.scheduler.mailroom.send mailbox message } := by
  cases owned : exchange.scheduler.mailroom.inboxes[mailbox.inbox]? with
  | none => exact ⟨exchange, reachable, rests, by rw [Mailroom.send, owned]⟩
  | some pair =>
    obtain ⟨owner, entry⟩ := pair
    obtain ⟨within, _⟩ := Array.getElem?_eq_some_iff.mp owned
    obtain ⟨traffic, appended, rested, chain⟩ := reachable.appends rests within message
    have same : (exchange.traffic mailbox.inbox).chain = entry.chain := by
      rw [reachable.sane.chains, Mailroom.chain, owned]
      rfl
    rw [same] at appended chain
    rw [send_eq owned, ← chain]
    by_cases still : entry.chain.head = Chain.stub
    · rw [if_pos still] at appended ⊢
      have kept : ((exchange.access mailbox.inbox traffic).countWake
          mailbox.inbox).scheduler.mailroom.owner? mailbox.inbox = some owner := by
        rw [owner?_countWake, owner?_access, Mailroom.owner?, owned]
        rfl
      refine ⟨_, appended.wakes (rests.quiet mailbox.inbox 0).2 kept,
        ⟨rested.free, rested.quiet, rested.done⟩, ?_⟩
      simp only [countWake, access, setMailroom, modify_modify]
    · rw [if_neg still] at appended ⊢
      exact ⟨_, appended, rested, rfl⟩

theorem receive_eq {room : Mailroom} {mailbox : Mailbox} {owner : TaskId} {entry : Inbox}
    (owned : room.inboxes[mailbox.inbox]? = some (owner, entry)) :
    (room.receive mailbox).1 =
      { room with inboxes := room.inboxes.modify mailbox.inbox fun now =>
        (now.1, { now.2 with chain := entry.chain.dequeue.1 }) } := by
  rw [modify_eq_set owned]
  simp [Mailroom.receive, owned, Inbox.receive]

/-- The thread takes a message out of a mailbox. -/
theorem Reachable.takes (reachable : Reachable exchange) (rests : exchange.Rests)
    (mailbox : Mailbox) : ∃ next : Exchange, Reachable next ∧ next.Rests ∧
      next.scheduler = { exchange.scheduler with
        mailroom := (exchange.scheduler.mailroom.receive mailbox).1 } := by
  cases owned : exchange.scheduler.mailroom.inboxes[mailbox.inbox]? with
  | none => exact ⟨exchange, reachable, rests, by rw [Mailroom.receive, owned]⟩
  | some pair =>
    obtain ⟨owner, entry⟩ := pair
    obtain ⟨within, _⟩ := Array.getElem?_eq_some_iff.mp owned
    obtain ⟨traffic, taken, rested, chain⟩ := reachable.dequeues rests within
    rw [reachable.sane.chains, Mailroom.chain, owned, Option.map_some, Option.getD_some] at chain
    refine ⟨_, taken, rested, ?_⟩
    rw [receive_eq owned, ← chain]
    rfl

/-! ### Waiting -/

theorem Sane.isEmpty (sane : exchange.Sane) (mailbox : Mailbox) :
    exchange.scheduler.mailroom.isEmpty mailbox =
      (exchange.traffic mailbox.inbox).chain.isEmpty := by
  rw [sane.chains, Mailroom.chain, Mailroom.isEmpty]
  cases exchange.scheduler.mailroom.inboxes[mailbox.inbox]? <;> rfl

/-- The thread sees that an inbox is empty, and moves the task to the wait queue. -/
theorem Reachable.suspends (reachable : Reachable exchange) (rests : exchange.Rests) {slot : Slot}
    {task : Task} (present : exchange.scheduler.roster.task? slot = some task)
    (empty : exchange.scheduler.mailroom.isEmpty task.mailbox = true) {scheduler : Scheduler}
    (runs : Scheduler.suspend slot .message exchange.scheduler = .ok ⟨⟩ scheduler) :
    Reachable { exchange with scheduler } ∧ Rests { exchange with scheduler } := by
  refine ⟨?_, ⟨rests.free, rests.quiet, rests.done⟩⟩
  rw [reachable.sane.isEmpty] at empty
  obtain ⟨⟨tail, loose⟩, head⟩ : ((exchange.traffic task.mailbox.inbox).chain.tail = Chain.stub ∧
      (exchange.traffic task.mailbox.inbox).chain.next?
        (exchange.traffic task.mailbox.inbox).chain.tail = none) ∧
      (exchange.traffic task.mailbox.inbox).chain.head = Chain.stub := by
    simpa [Chain.isEmpty] using empty
  have turned := Reachable.step reachable (.turn rests.free present)
  have looked := Reachable.step turned (.look rfl)
  have compared := Reachable.step looked (.compare (if_pos ⟨tail, loose⟩))
  have suspended := Reachable.step compared (.suspend (if_pos head) runs)
  rw [rests.free]
  exact suspended

/-- The thread resumes the tasks that were woken, one after another. -/
theorem Reachable.resumes {batch : List TaskId} {scheduler : Scheduler}
    (reachable : Reachable { exchange with scheduler, thread := .resuming batch }) :
    After (batch.forM fun id => Scheduler.resumeIf id .message) scheduler
      (fun _ next => Reachable { exchange with scheduler := next, thread := .resuming [] })
      fun _ _ => True := by
  induction batch generalizing scheduler with
  | nil => exact After.pure reachable
  | cons id rest inductionHypothesis =>
    refine After.bind ?_
    cases runs : Scheduler.resumeIf id .message scheduler with
    | ok result next =>
      exact After.of_ok runs (inductionHypothesis (.step reachable (.resume rfl runs)))
    | error crash next => exact After.of_error runs trivial

/-- The thread takes the tasks that were woken, and resumes them. -/
theorem Reachable.after_wakeWoken (reachable : Reachable exchange) (rests : exchange.Rests) :
    After Scheduler.wakeWoken exchange.scheduler
      (fun _ scheduler =>
        Reachable { exchange with scheduler } ∧ Rests { exchange with scheduler } ∧
        scheduler.registry = exchange.scheduler.registry ∧
        scheduler.nextId = exchange.scheduler.nextId) fun _ _ => True := by
  refine After.bind (After.modifyGet ?_)
  have taken := Reachable.step reachable (.takeWoken rests.free)
  have each := (Reachable.resumes taken).and (Scheduler.after_resumeEach _ _)
  refine each.mono (fun _ next resumed => ?_) fun _ _ _ => trivial
  refine ⟨?_, ⟨rests.free, rests.quiet, rests.done⟩, ?_, ?_⟩
  · rw [rests.free]
    exact .step resumed.1 (.finish rfl)
  · rw [resumed.2]
    rfl
  · rw [resumed.2]
    rfl

end Exchange

end TaskMachine
