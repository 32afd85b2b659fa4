/-
The values that registers, constants and messages hold, and the functions that
tasks run. A function is its constants and its code. Functions are told apart
by who they are and not by what they contain: `identity` is the number of the
function, two values that hold functions are equal exactly if the numbers are,
and a comparison of contents is a separate question (`Function.sameContents`).
The same goes for hooks, the callbacks of the embedder, which are known by
their labels.
-/

import TaskMachine.Instruction.Basic

namespace TaskMachine

/-- A callback of the embedder. -/
structure Hook where
  /-- What the embedder knows the callback by. -/
  label : String
  deriving DecidableEq, Repr, Inhabited

mutual

/-- A unit of code with the constants that it refers to. -/
structure Function where
  /-- The number that tells the function from all others. -/
  identity : Nat
  /-- The constants. -/
  constants : Array Value
  /-- The instructions. -/
  code : Array Instruction

/-- A value that instructions can work on. -/
inductive Value where
  /-- The absence of a value. -/
  | nil
  /-- A truth value. -/
  | bool (truth : Bool)
  /-- A number. -/
  | number (number : Float)
  /-- A function that can be called or started as a task. -/
  | function (function : Function)
  /-- A callback of the embedder. -/
  | hook (hook : Hook)

end

instance : Inhabited Value := ⟨.nil⟩

instance : Inhabited Function := ⟨⟨0, #[], #[]⟩⟩

namespace Value

/-- Whether two values are equal: numbers as numbers, so that no NaN equals itself and both
zeros are equal, and functions and hooks by who they are. -/
def same : Value → Value → Bool
  | .nil, .nil => true
  | .bool left, .bool right => left == right
  | .number left, .number right => left == right
  | .function left, .function right => left.identity == right.identity
  | .hook left, .hook right => left.label == right.label
  | _, _ => false

instance : BEq Value := ⟨same⟩

/-- Whether the value is one of the three that stand for themselves alone. -/
def isAtom : Value → Bool
  | .nil | .bool _ => true
  | _ => false

/-- Whether the value counts as true: all values do but nil, false and the two zeros. -/
def truthy : Value → Bool
  | .nil => false
  | .bool truth => truth
  | .number amount => amount != 0
  | .function _ | .hook _ => true

/-- The number that the value is, if it is one. -/
def number? : Value → Option Float
  | .number amount => some amount
  | _ => none

/-- The function that the value is, if it is one. -/
def function? : Value → Option Function
  | .function callee => some callee
  | _ => none

/-- The hook that the value is, if it is one. -/
def hook? : Value → Option Hook
  | .hook callback => some callback
  | _ => none

end Value

/-- Whether two functions have equal constants and the same code. -/
def Function.sameContents (left right : Function) : Bool :=
  left.constants == right.constants && left.code == right.code

end TaskMachine
