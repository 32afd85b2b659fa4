/-
What one instruction does. `Frame.next` reads the instruction at the program
counter of a frame and tells what it asks for, from this frame alone: who
called the frame plays no part. `Stack.act` carries that out on a whole stack,
as far as it can be done without the world outside; what needs the world is
left as an `Action` for the host. An instruction that faults has asked nothing
of the host.
-/

import TaskMachine.Frame
import TaskMachine.TaskId

namespace TaskMachine

/-- What a task that gave up its turn waits for. -/
inductive Wait where
  /-- So many nanoseconds. -/
  | timer (after : Nat)
  /-- A message in its inbox. -/
  | message
  deriving DecidableEq, Repr

/-- Why an execution stopped. -/
inductive Status where
  /-- The task can go on. -/
  | yielded
  /-- The task is blocked until something happens. -/
  | suspended (wait : Wait)
  /-- The function that the task started with has returned these values. -/
  | ended (values : List Value)
  /-- The task cannot go on. -/
  | faulted (fault : Fault)

/-- What an instruction asks for. The frames in it are past the instruction. -/
inductive Request where
  /-- To go on in the frame. -/
  | proceed (frame : Frame)
  /-- To go on in a frame of the called function, at so much cost. -/
  | enter (frame callee : Frame) (cost : Nat)
  /-- To return so many registers, from the first one on. -/
  | leave (frame : Frame) (first count : Nat)
  /-- To give up the turn. -/
  | pause (frame : Frame) (status : Status)
  /-- To start a child task and keep its number. -/
  | spawn (frame : Frame) (function : Function) (destination : Fin registerCount)
  /-- To take a message and keep its value. -/
  | receive (frame : Frame) (destination : Fin registerCount)
  /-- To invoke a callback. -/
  | invoke (frame : Frame) (hook : Hook)

namespace Frame

/-- The longest time that a task can wait, in milliseconds. -/
def longestWait : Float := 1e12

/-- The nanoseconds of a number of milliseconds, which is brought into range first. -/
def nanoseconds (milliseconds : Float) : Nat :=
  let inRange :=
    if milliseconds.isNaN then 0
    else if milliseconds < 0 then 0
    else if longestWait < milliseconds then longestWait
    else milliseconds
  (inRange * 1000000).toUInt64.toNat

/-- The result of an arithmetic instruction, kept in its register. -/
def arithmetic (frame : Frame) (instruction : Instruction) (operation : Float → Float → Float) :
    Except Fault Request := do
  let left ← frame.number instruction.b
  let right ← frame.number instruction.c
  let destination ← place instruction.a
  pure (.proceed (frame.store destination (.number (operation left right))))

/-- The two values that an instruction compares. -/
def compared (frame : Frame) (instruction : Instruction) : Except Fault (Value × Value) := do
  let left ← frame.operand instruction.b
  let right ← frame.operand instruction.c
  pure (left, right)

/-- Whether a comparison of two numbers holds. -/
def numbersCompare (frame : Frame) (instruction : Instruction) (test : Float → Float → Bool) :
    Except Fault Bool := do
  let (left, right) ← frame.compared instruction
  pure (test (← numeric left) (← numeric right))

/-- The offset of the jump at the program counter, if a jump is there. -/
def jumpAhead? (frame : Frame) : Option Int :=
  match frame.function.code[frame.pc]? with
  | some following => if following.opcode? = some .jump then some following.bss else none
  | none => none

/-- The end of a comparison: the jump behind it is passed over, and taken if the outcome is not
the expected one. -/
def branch (frame : Frame) (instruction : Instruction) (outcome : Except Fault Bool) :
    Frame × Except Fault Request :=
  match outcome with
  | .error fault => (frame, .error fault)
  | .ok holds =>
    match frame.jumpAhead? with
    | none => (frame, .error .expectedJump)
    | some offset =>
      let past := { frame with pc := frame.pc + 1 }
      if holds != (instruction.a != 0) then (past, (past.jump offset).map .proceed)
      else (past, .ok (.proceed past))

/-- What a yield asks for. -/
def yielding (frame : Frame) (instruction : Instruction) : Except Fault Request :=
  match instruction.a with
  | 0 => .ok (.pause frame .yielded)
  | 1 => do
    let milliseconds ← frame.number instruction.b
    pure (.pause frame (.suspended (.timer (nanoseconds milliseconds))))
  | 2 => do
    let destination ← place instruction.b
    pure (.receive frame destination)
  | kind => .error (.invalidYield kind)

/-- What a call asks for. Handing over arguments costs extra. -/
def calling (frame : Frame) (instruction : Instruction) : Except Fault Request := do
  let function ← callable (← frame.register instruction.a)
  let arguments ← (List.range instruction.b).mapM fun index => do
    let _ ← place index
    frame.register (instruction.a + 1 + index)
  let landing : Landing := ⟨instruction.a, instruction.c⟩
  pure (.enter frame (.entering function arguments (some landing))
    (if 0 < instruction.b then 2 else 1))

/-- What an instruction with a known operation asks for, of a frame that is past it. The frame
that comes with the request is the one that is left if the request is a fault. -/
def perform (frame : Frame) (instruction : Instruction) :
    Opcode → Frame × Except Fault Request
  | .ret => (frame, .ok (.leave frame instruction.a instruction.b))
  | .yield => (frame, frame.yielding instruction)
  | .move => (frame, do
      let value ← frame.register instruction.b
      let destination ← place instruction.a
      pure (.proceed (frame.store destination value)))
  | .loadConstant => (frame, do
      let value ← frame.constant instruction.bu
      let destination ← place instruction.a
      pure (.proceed (frame.store destination value)))
  | .call => (frame, frame.calling instruction)
  | .spawn => (frame, do
      let function ← callable (← frame.operand instruction.b)
      let destination ← place instruction.a
      pure (.spawn frame function destination))
  | .add => (frame, frame.arithmetic instruction (· + ·))
  | .subtract => (frame, frame.arithmetic instruction (· - ·))
  | .multiply => (frame, frame.arithmetic instruction (· * ·))
  | .divide => (frame, frame.arithmetic instruction (· / ·))
  | .not => (frame, do
      let value ← frame.register instruction.b
      let destination ← place instruction.a
      pure (.proceed (frame.store destination (.bool !value.truthy))))
  | .equal => frame.branch instruction (do
      let (left, right) ← frame.compared instruction
      pure (left == right))
  | .less => frame.branch instruction (frame.numbersCompare instruction fun x y => decide (x < y))
  | .lessEqual =>
    frame.branch instruction (frame.numbersCompare instruction fun x y => decide (x ≤ y))
  | .jump => (frame, (frame.jump instruction.bss).map .proceed)
  | .hook => (frame, do
      match (← frame.operand instruction.b).hook? with
      | some hook => pure (.invoke frame hook)
      | none => .error .typeMismatch)
  | .inspect => (frame, do
      let _ ← place instruction.a
      let _ ← place instruction.b
      let _ ← place instruction.c
      pure (.proceed frame))

/-- What the instruction at the program counter asks for. The frame that comes with the request
is the one that is left if the request is a fault. -/
def next (frame : Frame) : Frame × Except Fault Request :=
  match frame.function.code[frame.pc]? with
  | none => (frame, .error .invalidInstructionAddress)
  | some instruction =>
    let past := { frame with pc := frame.pc + 1 }
    match instruction.opcode? with
    | none => (past, .error (.invalidOpcode instruction.code))
    | some opcode => past.perform instruction opcode

end Frame

/-- What an instruction does to a stack, up to the part that the host has in it. -/
inductive Action where
  /-- The execution goes on with this stack, at so much cost. -/
  | proceed (stack : Stack) (cost : Nat)
  /-- The execution stops with this stack. -/
  | stop (stack : Stack) (status : Status)
  /-- The host starts a child task, whose number goes to a register of the top frame. -/
  | spawn (stack : Stack) (function : Function) (destination : Fin registerCount)
  /-- The host hands over a message, whose value goes to a register of the top frame. -/
  | receive (stack : Stack) (destination : Fin registerCount)
  /-- The host invokes a callback. -/
  | invoke (stack : Stack) (hook : Hook)

namespace Stack

/-- The return of a run of registers from a frame. In a frame that nobody called it ends the
execution; else the results land in the caller, at the cost of one unit more. -/
def leave (returning : Frame) (first count : Nat) : List Frame → Action
  | [] =>
    match returning.run first count with
    | .ok values => .stop ⟨returning, []⟩ (.ended values)
    | .error fault => .stop ⟨returning, []⟩ (.faulted fault)
  | caller :: callers =>
    match returning.landing with
    | none => .proceed ⟨caller, callers⟩ 2
    | some landing =>
      match caller.land returning first landing.register (min count landing.count) with
      | (landed, .ok ()) => .proceed ⟨landed, callers⟩ 2
      | (landed, .error fault) => .stop ⟨landed, callers⟩ (.faulted fault)

/-- What the next instruction does to a stack. -/
def act (stack : Stack) : Action :=
  match stack.top.next with
  | (frame, .error fault) => .stop { stack with top := frame } (.faulted fault)
  | (_, .ok request) =>
    match request with
    | .proceed frame => .proceed { stack with top := frame } 1
    | .enter frame callee cost => .proceed ⟨callee, frame :: stack.callers⟩ cost
    | .leave frame first count => leave frame first count stack.callers
    | .pause frame status => .stop { stack with top := frame } status
    | .spawn frame function destination => .spawn { stack with top := frame } function destination
    | .receive frame destination => .receive { stack with top := frame } destination
    | .invoke frame hook => .invoke { stack with top := frame } hook

end Stack

end TaskMachine
