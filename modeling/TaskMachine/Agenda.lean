/-
Timers. An `Agenda` keeps the timers that are still to fire, and a line of
timer numbers in the order in which they are due; of timers due at one time,
the one that joined the line first stands first. A timer that is cancelled
leaves the table at once but not the line: its number is skipped when it is
come across.

Times are nanoseconds on a clock that starts at zero. A timer with a period
joins the line again when it fires, at the end of the period but never in the
past, so that it cannot fall behind for good.
-/

import TaskMachine.TaskId
import TaskMachine.Table

namespace TaskMachine

/-- The number of a timer. -/
structure TimerId where
  number : Nat
  deriving DecidableEq, Repr, Inhabited

/-- A timer that is still to fire. -/
structure Timer where
  /-- The task that is told when it fires. -/
  task : TaskId
  /-- When it fires. -/
  deadline : Nat
  /-- The time between two firings, if it fires more than once. It is not zero. -/
  period : Option Nat
  deriving DecidableEq, Repr

/-- The timers of a scheduler. -/
structure Agenda where
  /-- The timers that are still to fire. -/
  pending : Table TimerId Timer
  /-- The timers in the order in which they are due, among others that were cancelled. -/
  line : List TimerId
  /-- The number of the timer started last. -/
  last : Nat
  deriving Inhabited

/-- A timer that fired, and the task that is told. -/
structure Firing where
  timer : TimerId
  task : TaskId
  deriving DecidableEq, Repr

namespace Agenda

/-! ### Times -/

/-- The nanoseconds of a second. -/
def second : Nat := Nat.pow 10 9

/-- The times before this one can be written down. -/
def instantEnd : Nat := Nat.pow 2 63 * second

/-- The longest duration. -/
def longest : Nat := Nat.pow 2 64 * second - 1

/-- How far off a timer is set whose deadline cannot be written down. -/
def farOff : Nat := (Nat.pow 2 32 - 1) * second

/-- The time so long after another, if it can be written down. -/
def later? (time duration : Nat) : Option Nat :=
  if time + duration < instantEnd then some (time + duration) else none

/-! ### The line -/

/-- No timers. -/
def empty : Agenda := ⟨.empty, [], 0⟩

/-- Whether a timer is still to fire, and later than at a given time. -/
def isLater (pending : Table TimerId Timer) (deadline : Nat) (timer : TimerId) : Bool :=
  match pending.find? timer with
  | some entry => decide (deadline < entry.deadline)
  | none => false

/-- The line with a timer in it that is due at a given time: in front of the first timer that is
due later, or at the end. -/
def lineUp (pending : Table TimerId Timer) (line : List TimerId) (deadline : Nat)
    (timer : TimerId) : List TimerId :=
  let sooner := line.takeWhile fun other => !isLater pending deadline other
  sooner ++ timer :: line.drop sooner.length

/-- Whether a timer is still to fire. -/
def hasPending (agenda : Agenda) : Bool := !agenda.pending.isEmpty

/-- When the next timer fires. -/
def nextDeadline (agenda : Agenda) : Option Nat :=
  (agenda.line.findSome? agenda.pending.find?).map Timer.deadline

/-- Starts a timer that fires after some time and then, if a period is given, once in every
period. A period of zero is none. -/
def start (agenda : Agenda) (now after : Nat) (period : Option Nat) (task : TaskId) :
    Agenda × TimerId :=
  let deadline := (later? now after).getD (now + farOff)
  let timer : TimerId := ⟨agenda.last + 1⟩
  ({ pending := agenda.pending.insert timer ⟨task, deadline, period.filter (· ≠ 0)⟩
     line := lineUp agenda.pending agenda.line deadline timer
     last := agenda.last + 1 },
    timer)

/-- Keeps a timer from firing. Tells whether it was still to fire. -/
def cancel (agenda : Agenda) (timer : TimerId) : Agenda × Bool :=
  ({ agenda with pending := agenda.pending.erase timer }, agenda.pending.contains timer)

/-! ### Firing -/

/-- What comes of looking at the head of the line. -/
inductive Glance where
  /-- Nothing is due. -/
  | nothing
  /-- A cancelled timer was dropped from the line. -/
  | dropped (agenda : Agenda)
  /-- A timer fired. -/
  | fired (agenda : Agenda) (firing : Firing)
  /-- The next firing of a timer cannot be written down. The timer has left the line. -/
  | overflow (agenda : Agenda)

/-- Looks at the head of the line. -/
def glance (agenda : Agenda) (now : Nat) : Glance :=
  match agenda.line with
  | [] => .nothing
  | timer :: rest =>
    match agenda.pending.find? timer with
    | none => .dropped { agenda with line := rest }
    | some entry =>
      if now < entry.deadline then .nothing
      else
        match entry.period with
        | none =>
          .fired { agenda with pending := agenda.pending.erase timer, line := rest }
            ⟨timer, entry.task⟩
        | some period =>
          match later? entry.deadline period with
          | none => .overflow { agenda with line := rest }
          | some following =>
            let deadline := max following now
            let pending := agenda.pending.insert timer { entry with deadline }
            .fired { agenda with pending, line := lineUp pending rest deadline timer }
              ⟨timer, entry.task⟩

/-- What comes of firing all timers that are due. -/
structure Firings where
  /-- The agenda afterwards. -/
  agenda : Agenda
  /-- The timers that fired, in order. -/
  fired : List Firing
  /-- Whether it broke off at a timer whose next firing cannot be written down. -/
  overflowed : Bool

/-- Looks at the head of the line so many times, or until nothing is due. -/
def fireWithin (now : Nat) : Nat → Agenda → Firings
  | 0, agenda => ⟨agenda, [], false⟩
  | glances + 1, agenda =>
    match agenda.glance now with
    | .nothing => ⟨agenda, [], false⟩
    | .dropped next => fireWithin now glances next
    | .fired next firing =>
      let rest := fireWithin now glances next
      { rest with fired := firing :: rest.fired }
    | .overflow next => ⟨next, [], true⟩

/-- Fires all timers that are due. Three glances for each place in the line are enough: a timer
with a period fires at most twice, and the third time that it is come across it is not due. -/
def fireDue (agenda : Agenda) (now : Nat) : Firings :=
  fireWithin now (3 * agenda.line.length + 1) agenda

end Agenda

end TaskMachine
