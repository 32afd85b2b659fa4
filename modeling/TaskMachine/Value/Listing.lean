/-
How values and faults are listed for debugging. A number has as few digits as
determine it, and always a point or an exponent. A function is listed with its
constants and its instructions.
-/

import TaskMachine.Decimal.Shortest
import TaskMachine.Fault
import TaskMachine.Instruction.Text
import TaskMachine.Value.Basic

namespace TaskMachine

/-- Items in brackets, with commas between them. -/
def bracketed (items : List String) : String := "[" ++ ", ".intercalate items ++ "]"

namespace Value

/-- A number is written positionally from 0.0001 on and below 10 ^ 16. -/
def listedNumber : Decimal.Layout := ⟨-3, 16⟩

mutual

/-- The listing of a value. -/
def listing : Value → String
  | .nil => "Nil"
  | .bool true => "True"
  | .bool false => "False"
  | .number amount => "Number(" ++ String.ofList (listedNumber.text amount) ++ ")"
  | .function callee => "Function(" ++ functionListing callee ++ ")"
  | .hook callback => "Opaque(Hook(" ++ callback.label ++ "))"

/-- The listing of a function. -/
def functionListing : Function → String
  | ⟨_, ⟨constants⟩, code⟩ =>
    "Function \x7b constants: " ++ bracketed (listings constants) ++ ", instructions: " ++
      bracketed (code.toList.map Instruction.text) ++ " \x7d"

/-- The listings of several values. -/
def listings : List Value → List String
  | [] => []
  | value :: rest => listing value :: listings rest

end

end Value

/-- The listing of a fault. -/
def Fault.listing : Fault → String
  | .invalidOpcode number => "InvalidOpcode(" ++ number.repr ++ ")"
  | .invalidYield kind => "InvalidYield(" ++ kind.repr ++ ")"
  | .typeMismatch => "TypeMismatch"
  | .notAFunction => "NotAFunction"
  | .expectedJump => "ExpectedJump"
  | .invalidInstructionAddress => "InvalidInstructionAddress"
  | .invalidRegister => "InvalidRegister"
  | .invalidConstant => "InvalidConstant"

end TaskMachine
