/-
How the small types of the library are exchanged: each with the function that
writes it and the function that reads it. A number that stands for a thing is
written bare and read only if it is in the range of the thing. A choice among
cases is written by the name of the case, with what the case carries.
-/

import TaskMachine.Scheduler.Basic
import TaskMachine.Wire.Datum

namespace TaskMachine

/-! ### Numbers -/

/-- A task's number as a datum. -/
def TaskId.toDatum (id : TaskId) : Datum := .whole id.number

/-- The task's number that a datum stands for. -/
def TaskId.ofDatum? (datum : Datum) : Option TaskId :=
  (datum.natBelow? (Nat.pow 2 64)).map TaskId.mk

/-- A register's number as a datum. -/
def Register.toDatum (register : Register) : Datum := .whole register.index.toNat

/-- The register's number that a datum stands for. -/
def Register.ofDatum? (datum : Datum) : Option Register :=
  (datum.natBelow? 256).map fun number => ⟨number.toUInt8⟩

/-- Options as a datum. -/
def Flags.toDatum (flags : Flags) : Datum := .whole flags.bits.toNat

/-- The options that a datum stands for. -/
def Flags.ofDatum? (datum : Datum) : Option Flags :=
  (datum.natBelow? 256).map fun number => ⟨number.toUInt8⟩

/-! ### Cases -/

/-- A state of a task as a datum. -/
def TaskState.toDatum (state : TaskState) : Datum := .text state.name

/-- The state of a task that a datum stands for. -/
def TaskState.ofDatum? (datum : Datum) : Option TaskState := do
  let name ← datum.bareCase?
  TaskState.all.find? fun state => state.name = name

namespace Fault

/-- The faults that carry nothing. -/
def bare : List Fault :=
  [typeMismatch, notAFunction, expectedJump, invalidInstructionAddress, invalidRegister,
    invalidConstant]

/-- The name of a fault among the cases. -/
def caseName : Fault → String
  | invalidOpcode _ => "InvalidOpcode"
  | invalidYield _ => "InvalidYield"
  | typeMismatch => "TypeMismatch"
  | notAFunction => "NotAFunction"
  | expectedJump => "ExpectedJump"
  | invalidInstructionAddress => "InvalidInstructionAddress"
  | invalidRegister => "InvalidRegister"
  | invalidConstant => "InvalidConstant"

/-- A fault as a datum. -/
def toDatum : Fault → Datum
  | invalidOpcode number => .record [(caseName (invalidOpcode number), .whole number)]
  | invalidYield kind => .record [(caseName (invalidYield kind), .whole kind)]
  | fault => .text fault.caseName

/-- The fault that a datum stands for. -/
def ofDatum? (datum : Datum) : Option Fault :=
  match datum.case? with
  | some ("InvalidOpcode", some content) => (content.natBelow? (Nat.pow 2 8)).map invalidOpcode
  | some ("InvalidYield", some content) => (content.natBelow? (Nat.pow 2 32)).map invalidYield
  | _ => do
    let name ← datum.bareCase?
    bare.find? fun fault => fault.caseName = name

end Fault

/-! ### Settings -/

namespace Config

/-- Settings as a datum. -/
def toDatum (config : Config) : Datum := .record [("exec_limit", .whole config.execLimit)]

/-- The settings that a datum stands for: a record, whose other fields are passed over, or a
list of the values alone. -/
def ofDatum? : Datum → Option Config
  | .list [limit] => (limit.natBelow? (Nat.pow 2 64)).map Config.mk
  | datum => do
    let limit ← datum.field? "exec_limit"
    (limit.natBelow? (Nat.pow 2 64)).map Config.mk

end Config

end TaskMachine
