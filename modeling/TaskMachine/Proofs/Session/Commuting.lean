/-
Who has been quicker does not show, if two senders have sent to different tasks.
Other threads send messages and wake tasks at any time, so their operations come
in an order that nobody has chosen. What such an operation does to the mailroom
is to append to one inbox, and to add at most one task to the woken ones. The
first is of no concern to what is sent to other inboxes, and the second is an
insertion in order, where it makes no difference which of two tasks comes first.

So two sequences of such operations come to the same if they are the same
operations, and the messages for each inbox are in the same order.
-/

import TaskMachine.Proofs.Inbox.Heard
import TaskMachine.Proofs.Session.Basic

namespace TaskMachine

namespace Mailroom

variable {room : Mailroom} {mailbox other : Mailbox} {message later : Message}

/-! ### Tasks that are woken -/

/-- Of two tasks that are added either can be the first. -/
theorem insertWoken_comm (first second : TaskId) (woken : List TaskId) :
    insertWoken first (insertWoken second woken) =
      insertWoken second (insertWoken first woken) := by
  obtain ⟨first⟩ := first
  obtain ⟨second⟩ := second
  induction woken with
  | nil =>
    simp only [insertWoken]
    grind
  | cons head rest inductionHypothesis =>
    obtain ⟨head⟩ := head
    simp only [insertWoken]
    grind [insertWoken]

/-- The token is there if it was before, or if either task is new among the woken ones. -/
theorem token_wake_wake (room : Mailroom) (first second : TaskId) :
    ((room.wake first).wake second).token = true ↔
      room.token = true ∨ first ∉ room.woken ∨ second ∉ room.woken := by
  simp only [token_wake, woken_wake, Bool.or_eq_true, Bool.not_eq_true', List.contains_iff_mem,
    ← Bool.not_eq_true, mem_insertWoken, not_or]
  constructor
  · rintro ((token | new) | ⟨_, new⟩)
    · exact Or.inl token
    · exact Or.inr (Or.inl new)
    · exact Or.inr (Or.inr new)
  · rintro (token | new | new)
    · exact Or.inl (Or.inl token)
    · exact Or.inl (Or.inr new)
    · by_cases same : second = first
      · exact Or.inl (Or.inr (same ▸ new))
      · exact Or.inr ⟨same, new⟩

theorem wake_comm (room : Mailroom) (first second : TaskId) :
    (room.wake first).wake second = (room.wake second).wake first := by
  have inboxes : ((room.wake first).wake second).inboxes =
      ((room.wake second).wake first).inboxes := by
    simp only [inboxes_wake]
  have woken : ((room.wake first).wake second).woken = ((room.wake second).wake first).woken := by
    simp only [woken_wake, insertWoken_comm second first]
  have token : ((room.wake first).wake second).token = ((room.wake second).wake first).token := by
    rw [Bool.eq_iff_iff, token_wake_wake, token_wake_wake, or_comm (a := first ∉ room.woken)]
  rw [Mailroom.mk.injEq]
  exact ⟨inboxes, woken, token⟩

/-! ### Messages that are sent -/

/-- The task that a message wakes, if it is the first one in its inbox. -/
def rung? (room : Mailroom) (mailbox : Mailbox) (message : Message) : Option TaskId :=
  match room.inboxes[mailbox.inbox]? with
  | none => none
  | some (owner, inbox) => if (inbox.send message).2 then some owner else none

/-- Wakes a task, if there is one to be woken. -/
def wake? (room : Mailroom) : Option TaskId → Mailroom
  | none => room
  | some id => room.wake id

/-- To send a message is to put it in its inbox, and to wake the task that it wakes. -/
theorem send_eq_wake? (room : Mailroom) (mailbox : Mailbox) (message : Message) :
    room.send mailbox message = (room.put mailbox message).wake? (room.rung? mailbox message) := by
  rw [send, put, rung?]
  cases room.inboxes[mailbox.inbox]? with
  | none => rfl
  | some entry =>
    obtain ⟨owner, inbox⟩ := entry
    simp only
    split <;> rfl

theorem wake?_comm (room : Mailroom) (first second : Option TaskId) :
    (room.wake? first).wake? second = (room.wake? second).wake? first := by
  cases first with
  | none => rfl
  | some id =>
    cases second with
    | none => rfl
    | some also => exact room.wake_comm id also

/-- To put a message in its inbox is to change that inbox, if it is there. -/
theorem put_eq (room : Mailroom) (mailbox : Mailbox) (message : Message) :
    room.put mailbox message = { room with
      inboxes := room.inboxes.modify mailbox.inbox fun entry =>
        (entry.1, (entry.2.send message).1) } := by
  have inboxes : (room.put mailbox message).inboxes = room.inboxes.modify mailbox.inbox
      fun entry => (entry.1, (entry.2.send message).1) := by
    refine Array.ext_getElem? fun index => ?_
    rw [put, Array.getElem?_modify]
    cases present : room.inboxes[mailbox.inbox]? with
    | none =>
      by_cases same : mailbox.inbox = index
      · subst same
        simp only [present, if_pos, Option.map_none]
      · rw [if_neg same]
    | some entry =>
      have within := (Array.getElem?_eq_some_iff.mp present).1
      by_cases same : mailbox.inbox = index
      · subst same
        simp only [present, if_pos, Option.map_some,
          Array.getElem?_setIfInBounds_self_of_lt within]
      · simp only [if_neg same, Array.getElem?_setIfInBounds_ne same]
  obtain ⟨woken, token⟩ := room.put_same mailbox message
  rw [Mailroom.mk.injEq]
  exact ⟨inboxes, woken, token⟩

theorem put_wake? (room : Mailroom) (id : Option TaskId) (mailbox : Mailbox) (message : Message) :
    (room.wake? id).put mailbox message = (room.put mailbox message).wake? id := by
  cases id with
  | none => rfl
  | some id =>
    rw [put_eq, put_eq, wake?, wake?, Mailroom.mk.injEq, inboxes_wake, inboxes_wake, woken_wake,
      woken_wake, token_wake, token_wake]
    exact ⟨rfl, rfl, rfl⟩

theorem put_comm (differ : mailbox ≠ other) (room : Mailroom) (message later : Message) :
    (room.put mailbox message).put other later = (room.put other later).put mailbox message := by
  have apart : mailbox.inbox ≠ other.inbox := fun same => differ (congrArg Mailbox.mk same)
  simp only [put_eq, Mailroom.mk.injEq, and_true]
  refine Array.ext_getElem? fun index => ?_
  simp only [Array.getElem?_modify]
  by_cases first : mailbox.inbox = index
  · have second : other.inbox ≠ index := fun same => apart (first.trans same.symm)
    rw [if_neg second, if_neg second]
  · rw [if_neg first, if_neg first]

theorem rung?_wake? (room : Mailroom) (id : Option TaskId) (mailbox : Mailbox)
    (message : Message) : (room.wake? id).rung? mailbox message = room.rung? mailbox message := by
  cases id with
  | none => rfl
  | some id => simp only [wake?, rung?, inboxes_wake]

theorem rung?_put (differ : mailbox ≠ other) (room : Mailroom) (message later : Message) :
    (room.put mailbox message).rung? other later = room.rung? other later := by
  have apart : mailbox.inbox ≠ other.inbox := fun same => differ (congrArg Mailbox.mk same)
  rw [rung?, rung?, put_eq, Array.getElem?_modify, if_neg apart]

/-- Messages for different inboxes can be sent in either order. -/
theorem send_comm (differ : mailbox ≠ other) (room : Mailroom) (message later : Message) :
    (room.send mailbox message).send other later =
      (room.send other later).send mailbox message := by
  simp only [send_eq_wake?, put_wake?, rung?_wake?, rung?_put differ, rung?_put differ.symm,
    put_comm differ]
  exact wake?_comm _ _ _

/-- A message can be sent before or after a task is woken. -/
theorem send_wake (room : Mailroom) (id : TaskId) (mailbox : Mailbox) (message : Message) :
    (room.wake id).send mailbox message = (room.send mailbox message).wake id := by
  have woken (room : Mailroom) : room.wake id = room.wake? (some id) := rfl
  rw [woken, woken, send_eq_wake?, send_eq_wake?, put_wake?, rung?_wake?]
  exact wake?_comm _ _ _

end Mailroom

/-! ### What others do to a mailroom -/

/-- What anyone can do to a mailroom at any time. -/
inductive Touch where
  /-- To send a message. -/
  | letter (letter : Letter)
  /-- To wake a task. -/
  | wake (id : TaskId)

namespace Touch

variable {room : Mailroom} {mailbox : Mailbox} {message : Message} {head : Touch}
  {first second : List Touch}

/-- What is done. -/
def make : Touch → Mailroom → Mailroom
  | .letter sent, room => room.send sent.mailbox sent.message
  | .wake id, room => room.wake id

/-- One after another. -/
def makeAll (touches : List Touch) (room : Mailroom) : Mailroom :=
  touches.foldl (fun room touch => touch.make room) room

/-- The message for a given inbox that is sent, if one is. -/
def sentTo? (mailbox : Mailbox) : Touch → Option Message
  | .letter sent => if sent.mailbox = mailbox then some sent.message else none
  | .wake _ => none

/-- The messages for a given inbox, in order. -/
def sentTo (mailbox : Mailbox) (touches : List Touch) : List Message :=
  touches.filterMap (sentTo? mailbox)

theorem sentTo?_eq_some_iff {touch : Touch} :
    touch.sentTo? mailbox = some message ↔ touch = .letter ⟨mailbox, message⟩ := by
  cases touch with
  | wake id => exact iff_of_false nofun nofun
  | letter sent =>
    obtain ⟨box, content⟩ := sent
    rw [sentTo?]
    split
    · rename_i same
      subst same
      simp
    · rename_i differ
      simp [differ]

/-- No inbox is sent messages by both. -/
def Apart (left right : Touch) : Prop :=
  ∀ mailbox, left.sentTo? mailbox = none ∨ right.sentTo? mailbox = none

theorem make_comm {left right : Touch} (apart : left.Apart right) (room : Mailroom) :
    right.make (left.make room) = left.make (right.make room) := by
  cases left with
  | wake id =>
    cases right with
    | wake also => exact room.wake_comm id also
    | letter sent => exact room.send_wake id sent.mailbox sent.message
  | letter sent =>
    cases right with
    | wake id => exact (room.send_wake id sent.mailbox sent.message).symm
    | letter other =>
      have differ : sent.mailbox ≠ other.mailbox := by
        intro same
        rcases apart sent.mailbox with none | none
        · rw [sentTo?, if_pos rfl] at none
          exact absurd none nofun
        · rw [sentTo?, if_pos same.symm] at none
          exact absurd none nofun
      exact Mailroom.send_comm differ room sent.message other.message

/-- What is apart from all others can as well be done first. -/
theorem makeAll_middle {front back : List Touch} (apart : ∀ touch ∈ front, touch.Apart head)
    (room : Mailroom) :
    makeAll (front ++ head :: back) room = makeAll (front ++ back) (head.make room) := by
  induction front generalizing room with
  | nil => rfl
  | cons first rest inductionHypothesis =>
    have later := inductionHypothesis (fun touch member => apart touch (.tail _ member))
      (first.make room)
    rw [make_comm (apart first (.head _))] at later
    exact later

/-- Behind some that are apart from it there is one that comes first in another order. -/
theorem exists_middle (perm : (head :: first).Perm second)
    (sameOrder : ∀ mailbox, sentTo mailbox (head :: first) = sentTo mailbox second) :
    ∃ front back, second = front ++ head :: back ∧ ∀ touch ∈ front, touch.Apart head := by
  cases head with
  | wake id =>
    obtain ⟨front, back, split⟩ := List.append_of_mem (perm.mem_iff.mp (.head _))
    exact ⟨front, back, split, fun _ _ _ => Or.inr rfl⟩
  | letter sent =>
    obtain ⟨mailbox, message⟩ := sent
    -- It is the first one of all that are for its inbox.
    have order : sentTo mailbox second = message :: sentTo mailbox first := by
      rw [← sameOrder, sentTo, List.filterMap_cons_some (sentTo?_eq_some_iff.mpr rfl)]
      rfl
    obtain ⟨front, found, back, split, others, sends, _⟩ := List.filterMap_eq_cons_iff.mp order
    obtain rfl := sentTo?_eq_some_iff.mp sends
    refine ⟨front, back, split, fun touch member other => ?_⟩
    by_cases same : mailbox = other
    · exact Or.inl (same ▸ others touch member)
    · exact Or.inr (if_neg same)

/-- The order makes no difference but for the messages for the same inbox. -/
theorem makeAll_eq (perm : first.Perm second)
    (sameOrder : ∀ mailbox, sentTo mailbox first = sentTo mailbox second) (room : Mailroom) :
    makeAll first room = makeAll second room := by
  induction first generalizing second room with
  | nil =>
    obtain rfl := perm.nil_eq
    rfl
  | cons head rest inductionHypothesis =>
    obtain ⟨front, back, rfl, apart⟩ := exists_middle perm sameOrder
    have permRest : rest.Perm (front ++ back) := (perm.trans List.perm_middle).cons_inv
    have orderRest (mailbox : Mailbox) : sentTo mailbox rest = sentTo mailbox (front ++ back) := by
      have same := sameOrder mailbox
      simp only [sentTo, List.filterMap_append] at same ⊢
      cases sends : head.sentTo? mailbox with
      | none =>
        rwa [List.filterMap_cons_none sends, List.filterMap_cons_none sends] at same
      | some message =>
        have before : front.filterMap (sentTo? mailbox) = [] :=
          List.filterMap_eq_nil_iff.mpr fun touch member =>
            (apart touch member mailbox).resolve_right (by rw [sends]; exact nofun)
        rw [List.filterMap_cons_some sends, List.filterMap_cons_some sends, before] at same
        rw [before]
        exact (List.cons.inj same).2
    rw [makeAll_middle apart]
    exact inductionHypothesis permRest orderRest (head.make room)

end Touch

/-! ### Operations -/

namespace Operation

/-- The operations that other threads can make at any time. -/
inductive Delivers : Operation → Prop
  | send (id : TaskId) (value : Value) (sender : Option TaskId) : Delivers (.send id value sender)
  | post (mailbox : Mailbox) (message : Message) : Delivers (.post mailbox message)
  | wake (id : TaskId) : Delivers (.wake id)

/-- What such an operation does to the mailroom. A message for a task that is gone is not sent. -/
def touch? (scheduler : Scheduler) : Operation → Option Touch
  | .send id value sender =>
    (scheduler.mailbox? id).map fun mailbox => .letter ⟨mailbox, value, sender⟩
  | .post mailbox message => some (.letter ⟨mailbox, message⟩)
  | .wake id => some (.wake id)
  | _ => none

/-- The messages that operations send to a mailbox, in order, be it under the number of its task. -/
def messagesTo (scheduler : Scheduler) (mailbox : Mailbox) (operations : List Operation) :
    List Message :=
  Touch.sentTo mailbox (operations.filterMap (touch? scheduler))

variable {scheduler : Scheduler} {operation : Operation} {operations first second : List Operation}

theorem perform_of_delivers (delivers : operation.Delivers) (scheduler : Scheduler) :
    operation.perform scheduler = .ok ⟨⟩ { scheduler with
      mailroom := Touch.makeAll (operation.touch? scheduler).toList scheduler.mailroom } := by
  cases delivers with
  | post | wake => rfl
  | send id value sender =>
    show (do let _ ← Scheduler.send id value sender : Scheduling Unit) scheduler = _
    rw [bind_apply, Scheduler.send, bind_apply, get_apply]
    cases found : scheduler.mailbox? id with
    | none =>
      simp only [touch?, found]
      rfl
    | some mailbox =>
      simp only [touch?, found]
      rfl

theorem performAll_of_delivers (delivers : ∀ operation ∈ operations, operation.Delivers)
    (scheduler : Scheduler) :
    operations.forM perform scheduler = .ok ⟨⟩ { scheduler with
      mailroom := Touch.makeAll (operations.filterMap (touch? scheduler)) scheduler.mailroom } := by
  induction operations generalizing scheduler with
  | nil => rfl
  | cons operation rest inductionHypothesis =>
    have first := perform_of_delivers (delivers operation (.head _)) scheduler
    -- Whom a message is for has nothing to do with the mailroom.
    have same (room : Mailroom) :
        touch? { scheduler with mailroom := room } = touch? scheduler := by
      funext operation
      cases operation <;> rfl
    have later := inductionHypothesis (fun operation member => delivers operation (.tail _ member))
      { scheduler with
        mailroom := Touch.makeAll (operation.touch? scheduler).toList scheduler.mailroom }
    rw [same] at later
    show (operation.perform >>= fun _ => rest.forM perform) scheduler = _
    rw [bind_apply, first]
    refine later.trans ?_
    cases touches : operation.touch? scheduler with
    | none => rw [List.filterMap_cons_none touches]; rfl
    | some touch => rw [List.filterMap_cons_some touches]; rfl

/-- Messages and calls that are the same but for their order succeed, whatever the scheduler, and
come to the same state, provided that the messages for each mailbox are in the same order. So there
is no difference in anything that is done with the scheduler later, or that is answered then. -/
theorem deliveries_commute (delivers : ∀ operation ∈ first, operation.Delivers)
    (perm : first.Perm second)
    (sameOrder : ∀ mailbox,
      messagesTo scheduler mailbox first = messagesTo scheduler mailbox second) :
    (∃ next, first.forM perform scheduler = .ok ⟨⟩ next ∧
      second.forM perform scheduler = .ok ⟨⟩ next) ∧
    ∀ {Result : Type} (further : Scheduling Result),
      (do first.forM perform; further) scheduler = (do second.forM perform; further) scheduler := by
  have one := performAll_of_delivers delivers scheduler
  have other := performAll_of_delivers (fun operation member =>
    delivers operation (perm.mem_iff.mpr member)) scheduler
  rw [← Touch.makeAll_eq (perm.filterMap _) sameOrder] at other
  refine ⟨⟨_, one, other⟩, fun further => ?_⟩
  rw [bind_apply, bind_apply, one, other]

end Operation

namespace Session

/-- Two tasks that wait for messages. -/
def listeners : Scheduler :=
  ((((start .standard 0 fun _ => []).continued (.spawn listening none)).continued
    (.spawn listening none)).continued .tick).scheduler

/-- The first task is sent two messages, one through its mailbox and one under its number, and the
second one is sent one and woken, before that or in between. -/
theorem listeners_commute : ∃ next,
    [Operation.post ⟨0⟩ ⟨.bool true, none⟩, .send ⟨1⟩ (.bool false) none, .send ⟨2⟩ .nil none,
      .wake ⟨2⟩].forM Operation.perform listeners = .ok ⟨⟩ next ∧
    [Operation.wake ⟨2⟩, .post ⟨0⟩ ⟨.bool true, none⟩, .send ⟨2⟩ .nil none,
      .send ⟨1⟩ (.bool false) none].forM Operation.perform listeners = .ok ⟨⟩ next := by
  refine (Operation.deliveries_commute ?_ ?_ fun mailbox => ?_).1
  · intro operation member
    simp only [List.mem_cons, List.not_mem_nil, or_false] at member
    rcases member with rfl | rfl | rfl | rfl
    exacts [.post _ _, .send _ _ _, .send _ _ _, .wake _]
  · exact (List.Perm.cons _ (.swap _ _ _)).trans
      (List.perm_append_comm : ([_, _, _] ++ [_]).Perm ([_] ++ [_, _, _]))
  · have first : listeners.mailbox? ⟨1⟩ = some ⟨0⟩ := by decide +kernel
    have second : listeners.mailbox? ⟨2⟩ = some ⟨1⟩ := by decide +kernel
    simp only [Operation.messagesTo, Touch.sentTo, List.filterMap_cons, Operation.touch?, first,
      second, Option.map_some, List.filterMap_nil, Touch.sentTo?]
    by_cases same : (⟨0⟩ : Mailbox) = mailbox
    · subst same
      simp
    · simp [same]

end Session

end TaskMachine
