/-
What becomes of the woken tasks and of the token while nobody takes them. Others
may send messages and wake tasks, and inboxes come and are emptied; all that this
does to the two is to wake some tasks, one after another. So a token that is
there stays there, and where there is none, no task has been woken since.
-/

import TaskMachine.Inbox.Mailroom

namespace TaskMachine.Mailroom

variable {room next other : Mailroom}

/-- The task that an inbox wakes. -/
def owner? (mailroom : Mailroom) (inbox : Nat) : Option TaskId :=
  mailroom.inboxes[inbox]?.map Prod.fst

theorem woken_wake (room : Mailroom) (id : TaskId) :
    (room.wake id).woken = insertWoken id room.woken := by
  rw [wake]
  cases is : room.addWoken id with
  | mk added new =>
    obtain ⟨rfl, _⟩ := Prod.mk.inj is
    cases new <;> rfl

theorem inboxes_wake (room : Mailroom) (id : TaskId) : (room.wake id).inboxes = room.inboxes := by
  rw [wake]
  cases is : room.addWoken id with
  | mk added new =>
    obtain ⟨rfl, _⟩ := Prod.mk.inj is
    cases new <;> rfl

theorem token_wake (room : Mailroom) (id : TaskId) :
    (room.wake id).token = (room.token || !room.woken.contains id) := by
  rw [wake, addWoken]
  cases room.woken.contains id with
  | true => exact (Bool.or_false _).symm
  | false => exact (Bool.or_true _).symm

/-- To wake a task is to add it to the woken ones, and to give the token if it was not there. -/
theorem wake_eq (room : Mailroom) (id : TaskId) : room.wake id =
    if (room.addWoken id).2 then (room.addWoken id).1.unpark else (room.addWoken id).1 := by
  rw [wake]
  cases room.addWoken id with
  | mk added new => cases new <;> rfl

/-- Puts a message in its inbox, and wakes nobody. -/
def put (room : Mailroom) (mailbox : Mailbox) (message : Message) : Mailroom :=
  match room.inboxes[mailbox.inbox]? with
  | none => room
  | some (owner, inbox) =>
    { room with
      inboxes := room.inboxes.setIfInBounds mailbox.inbox (owner, (inbox.send message).1) }

theorem put_same (room : Mailroom) (mailbox : Mailbox) (message : Message) :
    (room.put mailbox message).woken = room.woken ∧
      (room.put mailbox message).token = room.token := by
  rw [put]
  cases room.inboxes[mailbox.inbox]? <;> exact ⟨rfl, rfl⟩

/-- The inboxes stay whose they are. -/
theorem owner?_put (room : Mailroom) (mailbox : Mailbox) (message : Message) (inbox : Nat) :
    (room.put mailbox message).owner? inbox = room.owner? inbox := by
  rw [put]
  cases known : room.inboxes[mailbox.inbox]? with
  | none => rfl
  | some entry =>
    show ((room.inboxes.setIfInBounds mailbox.inbox _)[inbox]?).map Prod.fst = _
    rw [Array.getElem?_setIfInBounds, owner?]
    split
    · rename_i same
      rw [if_pos (Array.getElem?_eq_some_iff.mp known).1, ← same, known]
      rfl
    · rfl

/-- To send a message is to put it in its inbox, and to wake somebody or nobody. -/
theorem send_eq (room : Mailroom) (mailbox : Mailbox) (message : Message) :
    room.send mailbox message = room.put mailbox message ∨
      ∃ owner, room.send mailbox message = (room.put mailbox message).wake owner := by
  rw [Mailroom.send, put]
  cases room.inboxes[mailbox.inbox]? with
  | none => exact Or.inl rfl
  | some entry =>
    simp only
    split
    · exact Or.inr ⟨entry.1, rfl⟩
    · exact Or.inl rfl

theorem owner?_send (room : Mailroom) (mailbox : Mailbox) (message : Message) (inbox : Nat) :
    (room.send mailbox message).owner? inbox = room.owner? inbox := by
  rw [← room.owner?_put mailbox message inbox]
  rcases room.send_eq mailbox message with is | ⟨owner, is⟩
  · rw [is]
  · rw [is, owner?, inboxes_wake, owner?]

/-- Some tasks have been woken, whatever has become of the inboxes. -/
def Heard (room next : Mailroom) : Prop :=
  ∃ ids : List TaskId, next.woken = (ids.foldl wake room).woken ∧
    next.token = (ids.foldl wake room).token

theorem Heard.refl (room : Mailroom) : room.Heard room := ⟨[], rfl, rfl⟩

theorem Heard.congr (heard : room.Heard next) (woken : other.woken = next.woken)
    (token : other.token = next.token) : room.Heard other := by
  obtain ⟨ids, wokenNow, tokenNow⟩ := heard
  exact ⟨ids, woken.trans wokenNow, token.trans tokenNow⟩

theorem Heard.wake (heard : room.Heard next) (id : TaskId) : room.Heard (next.wake id) := by
  obtain ⟨ids, woken, token⟩ := heard
  refine ⟨ids ++ [id], ?_, ?_⟩
  · rw [woken_wake, woken, List.foldl_append]
    exact (woken_wake _ id).symm
  · rw [token_wake, woken, token, List.foldl_append]
    exact (token_wake _ id).symm

theorem Heard.send (heard : room.Heard next) (mailbox : Mailbox) (message : Message) :
    room.Heard (next.send mailbox message) := by
  obtain ⟨woken, token⟩ := next.put_same mailbox message
  rcases next.send_eq mailbox message with is | ⟨owner, is⟩
  · exact is ▸ heard.congr woken token
  · exact is ▸ (heard.congr woken token).wake owner

theorem Heard.receive (heard : room.Heard next) (mailbox : Mailbox) :
    room.Heard (next.receive mailbox).1 := by
  rw [Mailroom.receive]
  cases next.inboxes[mailbox.inbox]? with
  | none => exact heard
  | some entry => exact heard.congr rfl rfl

/-- Where there is no token afterwards there was none before, and whoever is woken was. -/
theorem Heard.quiet (heard : room.Heard next) (token : next.token = false) :
    room.token = false ∧ (next.woken ≠ [] → room.woken ≠ []) := by
  obtain ⟨ids, wokenNow, tokenNow⟩ := heard
  rw [tokenNow] at token
  rw [wokenNow]
  clear wokenNow tokenNow
  induction ids generalizing room with
  | nil => exact ⟨token, id⟩
  | cons first rest inductionHypothesis =>
    obtain ⟨before, woken⟩ := inductionHypothesis token
    rw [token_wake, Bool.or_eq_false_iff, Bool.not_eq_false'] at before
    refine ⟨before.1, fun _ none => ?_⟩
    rw [none] at before
    exact absurd before.2 nofun

end TaskMachine.Mailroom
