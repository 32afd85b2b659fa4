/-
What a step of a thread does to what causes it to run. The thread looks for a
cause at three places of its round, one after another, and while it goes on from
one of them to the next it does not use its token up; when it does, or stops, it
is before them all again. So what it has not looked for yet is still ahead of it,
and what it has looked for was not there.
-/

import TaskMachine.Proofs.Pool.Strides

namespace TaskMachine

/-- How many of the places are behind a thread at which it looks for a cause to run: for a shutdown,
for tasks that were sent to it, and for tasks that were woken, which it takes first in a pass. A
thread that stops looks for nothing, and does not sleep. -/
def Phase.looked (passing : Bool) : Phase → Nat
  | .checking => 0
  | .receiving => 1
  | .ticking => if passing then 3 else 2
  | .counting _ next => next.looked passing
  | .filling _ _ _ next => next.looked passing
  | .waiting => 3
  | .parked => 3
  | .draining => 0
  | .closing => 0
  | .stopped => 0
  | .crashed _ => 0

/-- What becomes of a thread that had so many places behind it, and has so many then. -/
inductive Worker.OverlooksNothing (stopping : Bool) (before after : Nat) (worker next : Worker) :
    Prop
  /-- It has to look for everything again, or does not sleep any more. -/
  | begins (again : after = 0)
  /-- What causes it to run is nothing new, and the thread does not pass it by. -/
  | goesOn (quiet : next.token = false → worker.token = false)
      (shutdown : stopping = true → before = 0 → after = 0)
      (command : next.commands ≠ [] → worker.commands ≠ [] ∧ (before ≤ 1 → after ≤ 1))
      (woken : next.token = false → next.woken ≠ [] →
        worker.woken ≠ [] ∧ (before ≤ 2 → after ≤ 2))

/-- A thread that stays where it is overlooks nothing, if nothing is new. -/
theorem Worker.overlooksNothing_of_quiet {worker next : Worker} {stopping : Bool} {places : Nat}
    (commands : next.commands = worker.commands)
    (quiet : next.token = false → worker.token = false ∧ (next.woken ≠ [] → worker.woken ≠ [])) :
    worker.OverlooksNothing stopping places places next :=
  .goesOn (fun none => (quiet none).1) (fun _ first => first)
    (fun sent => ⟨commands ▸ sent, id⟩) fun none woken => ⟨(quiet none).2 woken, id⟩

variable {pool : Pool} {index : Nat} {worker after : Worker} {nextId : TaskId}
  {deed : Option Pool.Deed}

/-- A thread that does not make a pass overlooks nothing in its step. -/
theorem Stride.overlooksNothing (stride : Stride pool index worker after nextId deed)
    (elsewhere : worker.phase ≠ .ticking) :
    worker.OverlooksNothing pool.stopping (worker.phase.looked false) (after.phase.looked false)
      after := by
  -- What is kept or counted off is on the way to the same place.
  have stays {phase : Phase} {promises : Array (Option Nat)} {executing : Nat}
      (there : phase.looked false = worker.phase.looked false) :
      worker.OverlooksNothing pool.stopping (worker.phase.looked false) (phase.looked false)
        { worker with promises, executing, phase } := by
    rw [there]
    exact Worker.overlooksNothing_of_quiet rfl fun none => ⟨none, id⟩
  cases stride with
  | looks phase =>
    rw [phase]
    cases stopping : pool.stopping with
    | true => exact .begins rfl
    | false =>
      exact .goesOn id (fun stops => absurd stops Bool.false_ne_true)
        (fun commands => ⟨commands, fun _ => Nat.le_refl 1⟩)
        fun _ woken => ⟨woken, fun _ => Nat.le_succ 1⟩
  | receives phase empty =>
    rw [phase]
    exact .goesOn id (fun _ first => absurd first Nat.one_ne_zero)
      (fun commands => absurd empty commands) fun _ woken => ⟨woken, fun _ => Nat.le_refl 2⟩
  | @takesIn command rest scheduler phase next runs =>
    have heard := (Scheduler.after_takeIn_hears _ command worker.promises.size).ok runs
    rw [phase]
    exact .goesOn (fun none => (heard.quiet none).1)
      (fun _ first => absurd first Nat.one_ne_zero)
      (fun _ => ⟨next ▸ List.cons_ne_nil command rest, fun _ => Nat.le_refl 1⟩)
      fun none woken => ⟨(heard.quiet none).2 woken, id⟩
  | ticks phase => exact absurd phase elsewhere
  | goesOn phase | skips phase | countsOff phase | fills phase =>
    exact stays (by rw [phase]; rfl)
  | waits | wakes | crashes | drained | closes => exact .begins rfl
  | drains phase => exact .begins (congrArg (Phase.looked false) phase)

end TaskMachine
