/-
The operations of the task machine. Each has a number, by which an instruction
word names it, a mnemonic, by which listings name it, and a layout, which says
how the operand bits of its instructions are read. `Opcode.ofCode?` is the
inverse of `Opcode.code`: it knows exactly the seventeen numbers below
seventeen.
-/

namespace TaskMachine

/-- An operation that the machine can execute. -/
inductive Opcode where
  /-- Returns a run of registers to the caller. -/
  | ret
  /-- Gives up the turn: at once, until a time has passed, or until a message is there. -/
  | yield
  /-- Copies one register to another. -/
  | move
  /-- Copies a constant to a register. -/
  | loadConstant
  /-- Calls the function in a register, with the registers behind it as arguments. -/
  | call
  /-- Starts a child task and keeps its number in a register. -/
  | spawn
  /-- Adds two numbers. -/
  | add
  /-- Subtracts two numbers. -/
  | subtract
  /-- Multiplies two numbers. -/
  | multiply
  /-- Divides two numbers. -/
  | divide
  /-- Turns a register into the truth value it is not. -/
  | not
  /-- Compares two values for equality and skips or takes the jump that follows. -/
  | equal
  /-- Compares two numbers by `<` and skips or takes the jump that follows. -/
  | less
  /-- Compares two numbers by `≤` and skips or takes the jump that follows. -/
  | lessEqual
  /-- Moves the program counter. -/
  | jump
  /-- Invokes a callback of the embedder. -/
  | hook
  /-- Checks that three registers exist, for a listing of their contents. -/
  | inspect
  deriving DecidableEq, Repr, Inhabited

namespace Opcode

/-- Every operation, in the order of the numbers. -/
def all : List Opcode :=
  [ret, yield, move, loadConstant, call, spawn, add, subtract, multiply, divide, not, equal, less,
    lessEqual, jump, hook, inspect]

/-- The number that stands for the operation in an instruction word. -/
def code : Opcode → Nat
  | ret => 0
  | yield => 1
  | move => 2
  | loadConstant => 3
  | call => 4
  | spawn => 5
  | add => 6
  | subtract => 7
  | multiply => 8
  | divide => 9
  | not => 10
  | equal => 11
  | less => 12
  | lessEqual => 13
  | jump => 14
  | hook => 15
  | inspect => 16

/-- The operation with a given number, if there is one. -/
def ofCode? (number : Nat) : Option Opcode :=
  all[number]?

/-- The name of the operation in listings. -/
def mnemonic : Opcode → String
  | ret => "RETURN"
  | yield => "YIELD"
  | move => "MOVE"
  | loadConstant => "LOADK"
  | call => "CALL"
  | spawn => "SPAWN"
  | add => "ADD"
  | subtract => "SUB"
  | multiply => "MUL"
  | divide => "DIV"
  | not => "NOT"
  | equal => "EQ"
  | less => "LT"
  | lessEqual => "LE"
  | jump => "JUMP"
  | hook => "HOOK"
  | inspect => "DBGREG"

/-- How the operand bits of an instruction are divided. -/
inductive Layout where
  /-- Three operands, of 8, 9 and 9 bits. -/
  | three
  /-- Two operands, of 8 and 18 bits. -/
  | two
  /-- One signed operand of 26 bits. -/
  | offset
  deriving DecidableEq, Repr

/-- The layout that an operation's instructions use. -/
def layout : Opcode → Layout
  | loadConstant => .two
  | jump => .offset
  | _ => .three

/-! ### Numbers and operations -/

@[simp] theorem ofCode?_code (opcode : Opcode) : ofCode? opcode.code = some opcode := by
  cases opcode <;> rfl

theorem code_lt (opcode : Opcode) : opcode.code < 17 := by
  cases opcode <;> decide

/-- A number stands for an operation exactly when it is that operation's number. -/
theorem ofCode?_eq_some_iff {number : Nat} {opcode : Opcode} :
    ofCode? number = some opcode ↔ opcode.code = number := by
  constructor
  · intro found
    obtain ⟨bound, rfl⟩ := List.getElem?_eq_some_iff.1 found
    have ofPosition : ∀ position : Fin 17, (all.get position).code = position := by
      decide
    exact ofPosition ⟨number, bound⟩
  · rintro rfl
    exact ofCode?_code opcode

end Opcode

end TaskMachine
