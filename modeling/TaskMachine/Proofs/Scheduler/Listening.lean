/-
What the operations of a thread do to what others wake it by. A pass takes the
woken tasks, all at once, before anything else. From then on, whatever the tasks
do in their turns, and whatever the embedder sends when it is told of something,
no operation but a wait takes the token, and none takes the woken tasks: they can
only have become more.
-/

import TaskMachine.Pool.Worker
import TaskMachine.Proofs.Inbox.Heard
import TaskMachine.Proofs.Scheduler.Preserved

namespace TaskMachine.Scheduler

/-- Whoever is woken, and the token, are as they were, but for tasks that were woken since. -/
def Hears (room : Mailroom) (scheduler : Scheduler) : Prop := room.Heard scheduler.mailroom

theorem stable_hears (room : Mailroom) : Stable (Hears room) where
  beside := fun heard beside => heard.congr beside.woken beside.token
  opens := fun _ heard => heard.congr rfl rfl
  sends := fun mailbox message heard => heard.send mailbox message
  receives := fun mailbox heard => heard.receive mailbox
  wakes := fun id heard => heard.wake id
  arrange := fun heard _ => heard
  alter := fun _ _ heard _ _ _ _ => heard
  number := fun heard => heard
  born := fun _ _ heard => heard.congr rfl rfl
  retimes := fun _ _ heard => heard
  rewaits := fun _ _ heard _ _ _ _ => heard
  leave := fun _ heard => heard

theorem abiding_hears (room : Mailroom) (broken : Prop) : Abiding (Hears room) broken where
  toStable := stable_hears room
  suspends := fun {_ slot _} heard _ _ =>
    (stable_hears room).preserves_suspend slot (fun heard => heard) _ heard

/-- A pass takes the woken tasks, and after that only wakes; and it tells what is left to do. -/
theorem after_tick_hears (scheduler : Scheduler) :
    After tick scheduler
      (fun left next => Hears scheduler.mailroom.takeWoken.1 next ∧ left = next.outlook)
      fun _ => Hears scheduler.mailroom.takeWoken.1 := by
  have abiding := abiding_hears scheduler.mailroom.takeWoken.1 True
  have resumes (woken : List TaskId) : Preserves (Hears scheduler.mailroom.takeWoken.1) True
      (woken.forM fun id => resumeIf id .message) :=
    .forM woken fun id => abiding.preserves_resumeIf id .message
  have taken : Hears scheduler.mailroom.takeWoken.1
      { scheduler with mailroom := scheduler.mailroom.takeWoken.1 } := .refl _
  refine After.bind (After.bind (After.modifyGet ?_))
  refine (resumes _ _ taken).mono (fun _ middle heard => ?_) fun _ _ heard => heard trivial
  refine After.bind ((abiding.preserves_pollTimers middle heard).mono (fun _ polled heard => ?_)
    fun _ _ heard => heard trivial)
  refine After.bind (After.get (After.bind ?_))
  exact (abiding.preserves_stepMany _ polled heard).mono
    (fun _ _ heard => After.bind (After.get (After.pure ⟨heard, rfl⟩)))
    fun _ _ heard => heard trivial

/-- To take in a task wakes at most. -/
theorem after_takeIn_hears (scheduler : Scheduler) (command : Command) (promise : Nat) :
    After (Pool.takeIn command promise) scheduler (fun _ => Hears scheduler.mailroom)
      fun _ => Hears scheduler.mailroom := by
  have stable := stable_hears scheduler.mailroom
  have inserts : Preserves (Hears scheduler.mailroom) True
      (insertTask command.id command.function none command.mailbox) := fun _ heard =>
    Steady.after_insertTask heard fun _ _ _ _ => heard
  have takes : Preserves (Hears scheduler.mailroom) True (Pool.takeIn command promise) :=
    inserts.bind fun _ => (stable.preserves_watch command.id promise).bind fun _ =>
      stable.preserves_schedule command.id
  exact (takes scheduler (.refl _)).mono (fun _ _ => id) fun _ _ heard => heard trivial

end TaskMachine.Scheduler
