/-
Activation records. A `Frame` is one call of a function: where it stands in the
code, its ten registers, and, if it was called by another frame, the registers
of the caller in which its results land. A `Stack` is the frame that is
executing with the frames that wait for it, nearest first. Whatever an
instruction does but call and return, it does to the frame on top.
-/

import TaskMachine.Fault
import TaskMachine.Instruction.Assembly
import TaskMachine.Value.Basic

namespace TaskMachine

/-- The number of registers of a frame. -/
abbrev registerCount : Nat := 10

/-- A register, as the embedder addresses it. -/
structure Register where
  index : UInt8
  deriving DecidableEq, Repr, Inhabited

/-- The registers of a caller in which the results of a call land. -/
structure Landing where
  /-- The first of the registers. -/
  register : Nat
  /-- How many results are wanted. -/
  count : Nat
  deriving DecidableEq, Repr

/-- One call of a function. -/
structure Frame where
  /-- The function that is executed. -/
  function : Function
  /-- The position of the next instruction. -/
  pc : Nat
  /-- The registers. -/
  registers : Vector Value registerCount
  /-- Where the results go, if the frame was called by another. -/
  landing : Option Landing

namespace Frame

/-- A frame at the start of a function, with the first registers given and all others nil. -/
def entering (function : Function) (arguments : List Value) (landing : Option Landing) : Frame :=
  { function
    pc := 0
    registers := Vector.ofFn fun place => (arguments[place.val]?).getD .nil
    landing }

instance : Inhabited Frame := ⟨entering default [] none⟩

/-! ### Operands -/

/-- The register with a given number, if there is one. -/
def place (index : Nat) : Except Fault (Fin registerCount) :=
  if bound : index < registerCount then .ok ⟨index, bound⟩ else .error .invalidRegister

/-- The value of the register with a given number. -/
def register (frame : Frame) (index : Nat) : Except Fault Value := do
  let place ← place index
  pure frame.registers[place]

/-- The constant with a given number. -/
def constant (frame : Frame) (index : Nat) : Except Fault Value :=
  match frame.function.constants[index]? with
  | some value => .ok value
  | none => .error .invalidConstant

/-- The value at an operand that addresses a register or a constant. -/
def operand (frame : Frame) (rk : Nat) : Except Fault Value :=
  if rk < constantBase then frame.register rk else frame.constant (rk - constantBase)

/-- A value that has to be a number. -/
def numeric (value : Value) : Except Fault Float :=
  match value.number? with
  | some number => .ok number
  | none => .error .typeMismatch

/-- A value that has to be a function. -/
def callable (value : Value) : Except Fault Function :=
  match value.function? with
  | some function => .ok function
  | none => .error .notAFunction

/-- The number at an operand that addresses a register or a constant. -/
def number (frame : Frame) (rk : Nat) : Except Fault Float := do
  numeric (← frame.operand rk)

/-- The values of so many registers, from a given one on. -/
def run (frame : Frame) (first count : Nat) : Except Fault (List Value) :=
  (List.range count).mapM fun offset => frame.register (first + offset)

/-! ### Changes -/

/-- The frame with a value stored in a register. -/
def store (frame : Frame) (place : Fin registerCount) (value : Value) : Frame :=
  { frame with registers := frame.registers.set place value }

/-- The frame with the program counter moved by an offset. The end of the code is a place to
jump to, though no instruction is there. -/
def jump (frame : Frame) (offset : Int) : Except Fault Frame :=
  let target := (frame.pc : Int) + offset
  if 0 ≤ target ∧ target ≤ frame.function.code.size then .ok { frame with pc := target.toNat }
  else .error .invalidInstructionAddress

/-- The caller after the results of a call have landed, one after another. If a register does
not exist, the results before it have landed all the same. -/
def land (caller returning : Frame) (source destination : Nat) :
    Nat → Frame × Except Fault Unit
  | 0 => (caller, .ok ())
  | count + 1 =>
    match returning.register source, place destination with
    | .ok value, .ok place =>
      land (caller.store place value) returning (source + 1) (destination + 1) count
    | .error fault, _ => (caller, .error fault)
    | .ok _, .error fault => (caller, .error fault)

end Frame

/-- The frame that is executing, and those that wait for it. -/
structure Stack where
  /-- The frame that is executing. -/
  top : Frame
  /-- The frames that wait for it, nearest first. -/
  callers : List Frame
  deriving Inhabited

namespace Stack

/-- The stack of a task that is about to execute a function. -/
def entering (function : Function) : Stack := ⟨.entering function [] none, []⟩

/-- The number of frames. -/
def depth (stack : Stack) : Nat := stack.callers.length + 1

/-! ### Access from outside -/

/-- What is reported for a register that does not exist. -/
def noRegister (register : Register) : String :=
  "index out of bounds: the len is " ++ registerCount.repr ++ " but the index is " ++
    register.index.toNat.repr

/-- The value of a register of the executing frame, if there is such a register. -/
def read? (stack : Stack) (register : Register) : Option Value :=
  stack.top.registers[register.index.toNat]?

/-- The stack with a value stored in a register of the executing frame, if there is such a
register. -/
def write? (stack : Stack) (register : Register) (value : Value) : Option Stack :=
  if bound : register.index.toNat < registerCount then
    some { stack with top := stack.top.store ⟨register.index.toNat, bound⟩ value }
  else none

end Stack

end TaskMachine
