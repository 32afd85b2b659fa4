/-
A scheduler in use is one in exchange with other threads, with nobody else
around: whatever operations led to it, an exchange comes to it too, by single
accesses, with nobody in the middle of anything. So what holds of every exchange
holds between operations.
-/

import TaskMachine.Proofs.Scheduler.Tracked
import TaskMachine.Proofs.Session.Basic

namespace TaskMachine

namespace Session

variable {session next : Session} {operation : Operation}

theorem tracked_start (config : Config) (patience : Nat) (respond : List Notice → List Letter) :
    (start config patience respond).scheduler.Tracked where
  exchange := ⟨_, .start config patience respond,
    ⟨rfl, fun _ _ => ⟨rfl, rfl⟩, fun _ => ⟨none, rfl⟩⟩, rfl⟩
  numbered _ _ found := absurd found nofun

/-- An operation keeps a scheduler tracked, if it succeeds or if tasks have no turns in it. -/
theorem after_perform_tracked (tracked : session.scheduler.Tracked) (operation : Operation)
    (permitted : session.Permits operation) :
    After operation.perform session.scheduler (fun _ => Scheduler.Tracked)
      fun _ next => operation.givesTurns = false → next.Tracked := by
  refine (operation.after_perform_lasting Scheduler.lasting_tracked tracked
    fun id function parent mailbox is => ?_).mono (fun _ _ => id) fun _ _ kept quiet =>
      kept (Or.inr quiet)
  rw [is] at permitted
  exact (tracked.after_insertTask permitted function parent mailbox).mono
    (fun _ _ tracked => tracked) fun _ _ kept => kept trivial

/-- An operation in which tasks have turns breaks off only if it has no end. -/
theorem after_turns (sound : session.Sound) (turns : operation.givesTurns = true) :
    After operation.perform session.scheduler (fun _ _ => True)
      fun crash _ => crash = .endless := by
  obtain ⟨lists, sound⟩ := sound
  cases operation with
  | step =>
    exact After.bind (sound.after_step.mono (fun _ _ _ => After.pure trivial) fun _ _ => And.left)
  | tick =>
    exact After.bind (sound.after_tick.mono (fun _ _ _ => After.pure trivial) fun _ _ => And.left)
  | run passes =>
    exact After.bind (sound.after_runWithin.mono (fun _ _ _ => After.pure trivial) fun _ _ => id)
  | _ => exact absurd turns nofun

theorem Step.tracked (steps : session.Step operation next) (sound : session.Sound)
    (tracked : session.scheduler.Tracked) : next.scheduler.Tracked := by
  cases steps with
  | success permitted succeeds =>
    exact (after_perform_tracked tracked operation permitted).ok succeeds
  | refusal permitted breaks ends =>
    cases turns : operation.givesTurns with
    | false => exact (after_perform_tracked tracked operation permitted).error breaks turns
    | true => exact absurd ((after_turns sound turns).error breaks) ends

theorem Reachable.tracked (reachable : session.Reachable) : session.scheduler.Tracked := by
  induction reachable with
  | start config patience respond => exact tracked_start config patience respond
  | step reachable steps inductionHypothesis =>
    exact steps.tracked reachable.sound inductionHypothesis

/-- Whatever an embedder asks of a scheduler, an exchange comes to the same state, with nobody in
the middle of anything. -/
theorem Reachable.exchange (reachable : session.Reachable) : ∃ exchange : Exchange,
    exchange.Reachable ∧ exchange.Rests ∧ exchange.scheduler = session.scheduler :=
  reachable.tracked.exchange

/-- Between operations a task that waits for messages is among those that were woken, unless its
inbox is empty. -/
theorem Reachable.woken (reachable : session.Reachable) {slot : Slot} {task : Task}
    (present : session.scheduler.roster.task? slot = some task)
    (waits : task.awaited = some .message)
    (owned : session.scheduler.mailroom.owner? task.mailbox.inbox = some task.id)
    (filled : session.scheduler.mailroom.isEmpty task.mailbox = false) :
    task.id ∈ session.scheduler.mailroom.woken := by
  obtain ⟨exchange, reached, rests, same⟩ := reachable.exchange
  rw [← same] at present owned filled ⊢
  rcases reached.sane.attended present (Or.inl waits) owned with
    ⟨tail, head⟩ | ⟨sender, link, halfway⟩ | ⟨sender, waking⟩ | listed
  · obtain ⟨row, fits⟩ := (reached.sane.reachable task.mailbox.inbox).row
    have loose := fits.strung.loose
    rw [head] at loose
    have empty : (exchange.traffic task.mailbox.inbox).chain.isEmpty = true := by
      simp [Chain.isEmpty, tail, head, loose]
    rw [reached.sane.isEmpty, empty] at filled
    exact absurd filled (by simp)
  · rw [(rests.quiet task.mailbox.inbox sender).1] at halfway
    exact absurd halfway (by simp)
  · rw [(rests.quiet task.mailbox.inbox sender).2] at waking
    exact absurd waking (by simp)
  · refine listed.resolve_right fun member => ?_
    rw [rests.free] at member
    exact absurd member List.not_mem_nil

end Session

end TaskMachine
