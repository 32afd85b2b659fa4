/-
Faults end the task that raises them. They are what a program can do wrong;
what an embedder can do wrong with the machine is a `Crash`.
-/

namespace TaskMachine

/-- Why a task cannot go on. -/
inductive Fault where
  /-- The number in an instruction's operation field stands for no operation. -/
  | invalidOpcode (number : Nat)
  /-- There is no such kind of yield. -/
  | invalidYield (kind : Nat)
  /-- An operand is not of the type that the instruction needs. -/
  | typeMismatch
  /-- The value to call or start is no function. -/
  | notAFunction
  /-- No jump follows a comparison. -/
  | expectedJump
  /-- There is no instruction at the program counter, or where a jump leads. -/
  | invalidInstructionAddress
  /-- There is no such register. -/
  | invalidRegister
  /-- There is no such constant. -/
  | invalidConstant
  deriving DecidableEq, Repr, Inhabited

namespace Fault

/-- What kind of fault it is. -/
def kind : Fault → String
  | invalidOpcode _ => "invalid opcode"
  | invalidYield _ => "invalid yield"
  | typeMismatch => "type mismatch"
  | notAFunction => "not a function"
  | expectedJump => "expected jump"
  | invalidInstructionAddress => "invalid instruction address"
  | invalidRegister => "invalid register"
  | invalidConstant => "invalid constant"

/-- What the fault is reported as. -/
def message : Fault → String
  | invalidOpcode number => "invalid opcode " ++ number.repr
  | invalidYield kind => "invalid yield kind " ++ kind.repr
  | fault => fault.kind

end Fault

end TaskMachine
