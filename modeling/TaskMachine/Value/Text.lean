/-
How values are written. A number has six decimals. A function is written by
its number, in the form of an address, and a hook shows nothing of itself.
`Value.inBytes` is the text of a value as far as it fits.
-/

import TaskMachine.Value.Basic
import TaskMachine.Decimal.Fixed
import TaskMachine.Text.Bounded

namespace TaskMachine.Value

/-- The number of decimals in the text of a number. -/
def decimals : Nat := 6

/-- The text of a value. -/
def chars : Value → List Char
  | .nil => "nil".toList
  | .bool true => "true".toList
  | .bool false => "false".toList
  | .number amount => Decimal.fixed decimals amount
  | .function callee => "<function 0x".toList ++ Nat.toDigits 16 callee.identity ++ ['>']
  | .hook _ => "<opaque>".toList

/-- The text of a value. -/
def text (value : Value) : String := String.ofList value.chars

/-- The text of a value as it is written to a buffer with given bytes. -/
def into (value : Value) (bytes : List UInt8) : String :=
  ((Text.Buffer.unwritten bytes).write value.chars).1.text

/-- As much of the text of a value, in whole characters, as fits in so many bytes. -/
def inBytes (value : Value) (size : Nat) : String := value.into (List.replicate size 0)

end TaskMachine.Value
