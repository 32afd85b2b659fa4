/-
The instructions by name, each with the operands that its operation reads. An
operand that addresses a register or a constant (written `rk` below) addresses
a register below `constantBase` and the constant with the number that is left
above it otherwise.
-/

import TaskMachine.Instruction.Basic

namespace TaskMachine

/-- Operands from this one on address constants; those below it address registers. -/
def constantBase : Nat := 255

namespace Instruction

/-- Returns `count` registers from `first` on. -/
def returning (first count : Nat) : Instruction := abc .ret first count 0

/-- Gives up the turn. -/
def yieldNow : Instruction := abc .yield 0 0 0

/-- Waits for the number of milliseconds at `rk`. -/
def sleep (rk : Nat) : Instruction := abc .yield 1 rk 0

/-- Waits for a message and keeps its value in a register. -/
def receive (destination : Nat) : Instruction := abc .yield 2 destination 0

/-- Copies the register `source` to the register `destination`. -/
def moveRegister (destination source : Nat) : Instruction := abc .move destination source 0

/-- Copies a constant to a register. -/
def loadConstant (destination constant : Nat) : Instruction :=
  abu .loadConstant destination constant

/-- Calls the function in a register with so many arguments, for so many results. -/
def call (function arguments results : Nat) : Instruction := abc .call function arguments results

/-- Starts a child task that runs the function at `rk`. -/
def spawn (destination rk : Nat) : Instruction := abc .spawn destination rk 0

/-- Adds the numbers at two operands. -/
def add (destination left right : Nat) : Instruction := abc .add destination left right

/-- Subtracts the numbers at two operands. -/
def subtract (destination left right : Nat) : Instruction := abc .subtract destination left right

/-- Multiplies the numbers at two operands. -/
def multiply (destination left right : Nat) : Instruction := abc .multiply destination left right

/-- Divides the numbers at two operands. -/
def divide (destination left right : Nat) : Instruction := abc .divide destination left right

/-- Stores the truth value that the register `source` is not. -/
def negate (destination source : Nat) : Instruction := abc .not destination source 0

/-- Takes the jump that follows if the equality of two values is not the expected one. -/
def equal (expected left right : Nat) : Instruction := abc .equal expected left right

/-- Takes the jump that follows if `<` on two numbers is not the expected one. -/
def less (expected left right : Nat) : Instruction := abc .less expected left right

/-- Takes the jump that follows if `≤` on two numbers is not the expected one. -/
def lessEqual (expected left right : Nat) : Instruction := abc .lessEqual expected left right

/-- Moves the program counter by an offset, counted from the instruction that follows. -/
def jump (offset : Int) : Instruction := wideSigned .jump offset

/-- Invokes the hook at `rk`. -/
def hook (rk : Nat) : Instruction := abc .hook 0 rk 0

/-- Checks that three registers exist. -/
def inspect (a b c : Nat) : Instruction := abc .inspect a b c

end Instruction

end TaskMachine
