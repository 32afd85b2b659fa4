/-
What an instruction can make of a stack, whatever the host answers. Either the
frame on top goes on, or it calls and has another one on top of it, or it
returns and is gone, and then registers of its caller have changed, and nothing
else. One instruction after another, over as many turns as it takes and with any
hosts, is a run of such moves; so whatever each move keeps is kept by every
execution.
-/

import Mathlib.Logic.Relation
import TaskMachine.Proofs.Execution.Requests
import TaskMachine.Proofs.Execution.Slices

namespace TaskMachine

/-- The stack after an instruction, whether the execution goes on or not. -/
def Progress.stack : Progress → Stack
  | .proceed stack _ => stack
  | .stop stack _ => stack

/-- To land is to change registers. -/
theorem Frame.land_keeps (caller returning : Frame) (source destination count : Nat) :
    ∃ registers, (caller.land returning source destination count).1 =
      { caller with registers } := by
  induction count generalizing caller source destination with
  | zero => exact ⟨caller.registers, rfl⟩
  | succ count inductionHypothesis =>
    rw [land]
    split
    · rename_i value place _ _
      exact inductionHypothesis (caller.store place value) (source + 1) (destination + 1)
    · exact ⟨caller.registers, rfl⟩
    · exact ⟨caller.registers, rfl⟩

namespace Stack

variable {stack next last : Stack}

/-! ### Single instructions -/

/-- What an instruction can make of a stack. -/
inductive Moves (stack : Stack) : Stack → Prop
  /-- The frame on top goes on. -/
  | stays {frame : Frame} (continues : stack.top.Continues frame) :
      Moves stack { stack with top := frame }
  /-- It calls a function that is in one of its registers, with the registers behind it. -/
  | calls {instruction : Instruction} {function : Function} {arguments : List Value}
      (isAt : stack.top.IsAt .call instruction)
      (callee : stack.top.registers[instruction.a]? = some (.function function))
      (length : arguments.length = instruction.b)
      (handed : ∀ index < instruction.b, index < registerCount ∧
        stack.top.registers[instruction.a + 1 + index]? = arguments[index]?) :
      Moves stack ⟨.entering function arguments (some ⟨instruction.a, instruction.c⟩),
        stack.top.past :: stack.callers⟩
  /-- It returns to its caller. -/
  | returns {instruction : Instruction} {caller : Frame} {callers : List Frame}
      (isAt : stack.top.IsAt .ret instruction) (called : stack.callers = caller :: callers)
      (registers : Vector Value registerCount) :
      Moves stack ⟨{ caller with registers }, callers⟩

/-- What an instruction can do to a stack. When the host is asked, the frame on top has gone on. -/
inductive Does (stack : Stack) : Action → Prop
  | proceed {next : Stack} (moves : stack.Moves next) (cost : Nat) :
      Does stack (.proceed next cost)
  | stop {next : Stack} (moves : stack.Moves next) (status : Status) :
      Does stack (.stop next status)
  | spawn {frame : Frame} (continues : stack.top.Continues frame) (function : Function)
      (destination : Fin registerCount) :
      Does stack (.spawn { stack with top := frame } function destination)
  | receive {frame : Frame} (continues : stack.top.Continues frame)
      (destination : Fin registerCount) :
      Does stack (.receive { stack with top := frame } destination)
  | invoke {frame : Frame} (continues : stack.top.Continues frame) (hook : Hook) :
      Does stack (.invoke { stack with top := frame } hook)

theorem does_leave {instruction : Instruction} (isAt : stack.top.IsAt .ret instruction) :
    stack.Does (leave stack.top.past instruction.a instruction.b stack.callers) := by
  have stays : stack.Moves { stack with top := stack.top.past } :=
    .stays (Frame.continues_past isAt.present)
  cases called : stack.callers with
  | nil =>
    rw [called] at stays
    rw [leave]
    split
    · exact .stop stays _
    · exact .stop stays _
  | cons caller callers =>
    rw [leave]
    split
    · exact .proceed (.returns isAt called caller.registers) 2
    · rename_i landing _
      obtain ⟨registers, lands⟩ := caller.land_keeps stack.top.past instruction.a landing.register
        (min instruction.b landing.count)
      have returns : stack.Moves ⟨{ caller with registers }, callers⟩ :=
        .returns isAt called registers
      split
      · rename_i landed is
        rw [is] at lands
        obtain rfl : landed = { caller with registers } := lands
        exact .proceed returns 2
      · rename_i landed fault is
        rw [is] at lands
        obtain rfl : landed = { caller with registers } := lands
        exact .stop returns _

theorem does_act (stack : Stack) : stack.Does stack.act := by
  obtain ⟨continues, asked⟩ := stack.top.asked_next
  rw [act]
  split
  · rename_i frame fault faults
    rw [faults] at continues
    exact .stop (.stays continues) _
  · rename_i frame request asks
    rw [asks] at asked
    cases asked request rfl with
    | proceed continues => exact .proceed (.stays continues) 1
    | enter cost isAt callee length handed =>
      exact .proceed (.calls isAt callee length handed) cost
    | leave isAt => exact does_leave isAt
    | pause continues status => exact .stop (.stays continues) status
    | spawn continues function destination => exact .spawn continues function destination
    | receive continues destination => exact .receive continues destination
    | invoke continues hook => exact .invoke continues hook

/-- Some host makes of a stack another one by the next instruction. -/
def Becomes (stack next : Stack) : Prop :=
  ∃ (State : Type) (host : Host (StateM State)) (state : State),
    (stack.step host state).1.stack = next

/-- Whatever the host answers, the stack makes one of these moves. -/
theorem Becomes.moves (becomes : stack.Becomes next) : stack.Moves next := by
  obtain ⟨State, host, state, rfl⟩ := becomes
  have does := stack.does_act
  rw [step]
  cases acts : stack.act with
  | proceed after cost =>
    rw [acts] at does
    cases does with
    | proceed moves => exact moves
  | stop after status =>
    rw [acts] at does
    cases does with
    | stop moves => exact moves
  | spawn after function destination =>
    rw [acts] at does
    cases does with
    | spawn continues => exact .stays (continues.store _ _)
  | receive after destination =>
    rw [acts] at does
    cases does with
    | receive continues =>
      simp only [answer_bind]
      cases (host.receive state).1 with
      | some value => exact .stays (continues.store _ _)
      | none => exact .stays (.refl stack.top)
  | invoke after hook =>
    rw [acts] at does
    cases does with
    | invoke continues => exact .stays continues

/-! ### Executions -/

section

variable {State : Type} {host : Host (StateM State)} {state final : State} {status : Status}
  {limit fuel charged : Nat}

theorem reaches_of_advance
    (runs : stack.advance host limit fuel charged state = (some (last, status), final)) :
    Relation.ReflTransGen Becomes stack last := by
  induction fuel generalizing stack state charged with
  | zero => exact absurd (congrArg Prod.fst runs) nofun
  | succ fuel inductionHypothesis =>
    cases steps : stack.step host state with
    | mk progress middle =>
      have becomes : stack.Becomes progress.stack := ⟨State, host, state, by rw [steps]⟩
      cases progress with
      | stop next stopped =>
        rw [advance_of_stop steps] at runs
        obtain ⟨rfl, _⟩ := Prod.mk.inj (Option.some.inj (Prod.mk.inj runs).1)
        exact .single becomes
      | proceed next cost =>
        rw [advance_of_proceed steps] at runs
        split at runs
        · obtain ⟨rfl, _⟩ := Prod.mk.inj (Option.some.inj (Prod.mk.inj runs).1)
          exact .single becomes
        · exact .head becomes (inductionHypothesis runs)

/-- What a turn leaves is what instructions have made of the stack, one after another. -/
theorem reaches_of_execute
    (runs : stack.execute host limit fuel state = (some (last, status), final)) :
    Relation.ReflTransGen Becomes stack last :=
  reaches_of_advance runs

end

end Stack

end TaskMachine
