/-
A scheduler that a thread runs on its own, while others wake its tasks. The
thread makes pass after pass, and sleeps in between if tasks wait and none can
run, until a timer is due or it is given its token. A pass is not one step: it
takes the woken tasks first, and others can wake more before it comes to an end.
Nor is to wake a task: it is added to the woken ones, and if it was not there, the
token is given later.

So long as there are woken tasks, the thread does not sleep: either it has yet to
take them, or the token is there, or somebody is still to give it.
-/

import Mathlib.Logic.Relation
import TaskMachine.Proofs.Scheduler.Listening

namespace TaskMachine

/-- Where a thread is that runs a scheduler. -/
inductive Lookout.Spot where
  /-- It is about to make a pass. -/
  | ticking
  /-- It is in the middle of a pass, and has taken the woken tasks. -/
  | passing
  /-- It sleeps until a timer is due or it is given its token. -/
  | waiting
  /-- No task is left that could run or that waits, or a crash has ended the run. -/
  | ended
  deriving DecidableEq

/-- A scheduler that a thread runs, while others wake its tasks. -/
structure Lookout where
  scheduler : Scheduler
  spot : Lookout.Spot
  /-- How many have woken a task that was not woken yet, and are still to give the token. -/
  callers : Nat

/-- What can happen in single steps. -/
inductive Lookout.Event where
  /-- A pass begins, and takes the woken tasks. -/
  | take
  /-- The pass goes on. Whatever the tasks do, it takes neither the woken ones nor the token. -/
  | work (scheduler : Scheduler)
  /-- The pass comes to an end. -/
  | finish
  /-- A crash ends the pass. -/
  | fail
  /-- The thread goes on that has slept. -/
  | wait
  /-- Somebody puts a message in its inbox. -/
  | put (letter : Letter)
  /-- Somebody adds a task to the woken ones. -/
  | wake (id : TaskId)
  /-- Somebody who has added a task that was not there gives the token. -/
  | unpark
  /-- Time goes by. -/
  | elapse (duration : Nat)

namespace Lookout

/-- The mailroom is another. -/
def onMailroom (lookout : Lookout) (change : Mailroom → Mailroom) : Lookout :=
  { lookout with
    scheduler := { lookout.scheduler with mailroom := change lookout.scheduler.mailroom } }

/-- Where the thread goes on after a pass. -/
def spotAfter : Tick → Spot
  | .busy => .ticking
  | .waiting => .waiting
  | .idle => .ended

/-- Whether a thread that sleeps goes on: it has its token, or a timer is due. -/
def awake (lookout : Lookout) : Bool :=
  lookout.scheduler.mailroom.token ||
    match lookout.scheduler.agenda.nextDeadline with
    | some deadline => decide (deadline ≤ lookout.scheduler.clock)
    | none => false

/-- What is so after a step, if it can happen. -/
def occur (lookout : Lookout) : Event → Option Lookout
  | .take =>
    if lookout.spot = .ticking then
      some { lookout.onMailroom fun room => room.takeWoken.1 with spot := .passing }
    else none
  | .work scheduler =>
    if lookout.spot = .passing ∧
        scheduler.mailroom.woken = lookout.scheduler.mailroom.woken ∧
        scheduler.mailroom.token = lookout.scheduler.mailroom.token then
      some { lookout with scheduler }
    else none
  | .finish =>
    if lookout.spot = .passing then
      some { lookout with spot := spotAfter lookout.scheduler.outlook }
    else none
  | .fail => if lookout.spot = .passing then some { lookout with spot := .ended } else none
  | .wait =>
    if lookout.spot = .waiting ∧ lookout.awake = true then
      match Scheduler.wait lookout.scheduler with
      | .ok _ scheduler => some { lookout with scheduler, spot := .ticking }
      | .error _ scheduler => some { lookout with scheduler, spot := .ended }
    else none
  | .put letter => some (lookout.onMailroom fun room => room.put letter.mailbox letter.message)
  | .wake id =>
    let added := lookout.onMailroom fun room => (room.addWoken id).1
    if (lookout.scheduler.mailroom.addWoken id).2 then
      some { added with callers := lookout.callers + 1 }
    else some added
  | .unpark =>
    match lookout.callers with
    | 0 => none
    | callers + 1 => some { lookout.onMailroom Mailroom.unpark with callers }
  | .elapse duration =>
    some { lookout with
      scheduler := { lookout.scheduler with clock := lookout.scheduler.clock + duration } }

/-- What a step can lead to. -/
def Occurs (lookout next : Lookout) : Prop := ∃ event, lookout.occur event = some next

/-- What can come of any scheduler that a thread begins to run, whoever is about to give the token
then. -/
def Reachable (lookout : Lookout) : Prop :=
  ∃ scheduler callers, Relation.ReflTransGen Occurs ⟨scheduler, .ticking, callers⟩ lookout

/-- Woken tasks will still be taken, or the token is there, or somebody is to give it. -/
def CauseCovered (lookout : Lookout) : Prop :=
  lookout.scheduler.mailroom.woken ≠ [] →
    lookout.spot = .ticking ∨ lookout.spot = .ended ∨
      lookout.scheduler.mailroom.token = true ∨ 0 < lookout.callers

variable {lookout next : Lookout} {event : Event}

theorem CauseCovered.occur (covered : lookout.CauseCovered)
    (occurs : lookout.occur event = some next) : next.CauseCovered := by
  cases event with
  | take =>
    rw [Lookout.occur] at occurs
    split at occurs
    · obtain rfl := Option.some.inj occurs
      exact fun some => absurd rfl some
    · exact absurd occurs nofun
  | work scheduler =>
    rw [Lookout.occur] at occurs
    split at occurs
    · rename_i both
      obtain rfl := Option.some.inj occurs
      obtain ⟨_, woken, token⟩ := both
      intro called
      rw [token]
      exact covered (woken ▸ called)
    · exact absurd occurs nofun
  | finish =>
    rw [Lookout.occur] at occurs
    split at occurs
    · rename_i passing
      obtain rfl := Option.some.inj occurs
      intro called
      rcases covered called with ticking | ended | heard
      · exact absurd (passing.symm.trans ticking) nofun
      · exact absurd (passing.symm.trans ended) nofun
      · exact Or.inr (Or.inr heard)
    · exact absurd occurs nofun
  | fail =>
    rw [Lookout.occur] at occurs
    split at occurs
    · obtain rfl := Option.some.inj occurs
      exact fun _ => Or.inr (Or.inl rfl)
    · exact absurd occurs nofun
  | wait =>
    rw [Lookout.occur] at occurs
    split at occurs
    · split at occurs
      · obtain rfl := Option.some.inj occurs
        exact fun _ => Or.inl rfl
      · obtain rfl := Option.some.inj occurs
        exact fun _ => Or.inr (Or.inl rfl)
    · exact absurd occurs nofun
  | put letter =>
    obtain rfl := Option.some.inj occurs
    obtain ⟨woken, token⟩ :=
      lookout.scheduler.mailroom.put_same letter.mailbox letter.message
    intro called
    have before := covered (woken ▸ called)
    rw [← token] at before
    exact before
  | wake id =>
    simp only [Lookout.occur] at occurs
    split at occurs
    · obtain rfl := Option.some.inj occurs
      exact fun _ => Or.inr (Or.inr (Or.inr (Nat.succ_pos _)))
    · rename_i old
      obtain rfl := Option.some.inj occurs
      -- A task that was woken before is one for which somebody was to be told.
      refine fun _ => covered fun nobody => old ?_
      show (!lookout.scheduler.mailroom.woken.contains id) = true
      rw [nobody]
      rfl
  | unpark =>
    rw [Lookout.occur] at occurs
    split at occurs
    · exact absurd occurs nofun
    · obtain rfl := Option.some.inj occurs
      exact fun _ => Or.inr (Or.inr (Or.inl rfl))
  | elapse duration =>
    obtain rfl := Option.some.inj occurs
    exact covered

theorem Reachable.covered (reachable : lookout.Reachable) : lookout.CauseCovered := by
  obtain ⟨scheduler, callers, reaches⟩ := reachable
  induction reaches with
  | refl => exact fun _ => Or.inl rfl
  | tail _ occurs inductionHypothesis =>
    obtain ⟨event, occurs⟩ := occurs
    exact inductionHypothesis.occur occurs

/-! ### Passes that nobody interrupts -/

/-- To wake a task, with the token if it is to be given, is a run of steps. -/
theorem reaches_wake (lookout : Lookout) (id : TaskId) :
    Relation.ReflTransGen Occurs lookout (lookout.onMailroom fun room => room.wake id) := by
  have eq := lookout.scheduler.mailroom.wake_eq id
  cases new : (lookout.scheduler.mailroom.addWoken id).2 with
  | true =>
    rw [new, if_pos rfl] at eq
    have adds : lookout.occur (.wake id) = some
        { lookout.onMailroom fun room => (room.addWoken id).1 with
          callers := lookout.callers + 1 } := by
      simp only [Lookout.occur, new, if_true]
    have gives : ({ lookout.onMailroom fun room => (room.addWoken id).1 with
        callers := lookout.callers + 1 } : Lookout).occur .unpark =
          some (lookout.onMailroom fun room => room.wake id) := by
      simp only [Lookout.occur, onMailroom, eq]
    exact .head ⟨_, adds⟩ (.single ⟨_, gives⟩)
  | false =>
    rw [new] at eq
    refine .single ⟨.wake id, ?_⟩
    simp only [Lookout.occur, new, onMailroom, eq]
    rfl

theorem reaches_wakes (lookout : Lookout) (ids : List TaskId) :
    Relation.ReflTransGen Occurs lookout
      (lookout.onMailroom fun room => ids.foldl Mailroom.wake room) := by
  induction ids generalizing lookout with
  | nil => exact .refl
  | cons first rest inductionHypothesis =>
    exact (lookout.reaches_wake first).trans (inductionHypothesis _)

/-- A pass that nobody interrupts is a run of steps. -/
theorem reaches_tick {scheduler after : Scheduler} {left : Tick} {callers : Nat}
    (passes : Scheduler.tick scheduler = .ok left after) :
    Relation.ReflTransGen Occurs ⟨scheduler, .ticking, callers⟩
      ⟨after, spotAfter left, callers⟩ := by
  obtain ⟨⟨ids, woken, token⟩, rfl⟩ := (Scheduler.after_tick_hears scheduler).ok passes
  have takes : Occurs ⟨scheduler, .ticking, callers⟩
      ⟨{ scheduler with mailroom := scheduler.mailroom.takeWoken.1 }, .passing, callers⟩ :=
    ⟨.take, rfl⟩
  refine .head takes ((reaches_wakes _ ids).trans ?_)
  refine .head ⟨.work after, if_pos ⟨rfl, woken, token⟩⟩ (.single ⟨.finish, rfl⟩)

end Lookout

end TaskMachine
