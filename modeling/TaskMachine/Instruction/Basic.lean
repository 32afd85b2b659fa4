/-
Instructions are words of 32 bits. The low 6 bits hold the number of the
operation and the other 26 bits hold its operands, in layouts that overlap: an
operand is a `Field` of the word, that is, a run of bits with an offset and a
width. A signed operand is stored with a bias of half of its range. Encoding
keeps of every operand only the bits that its field has room for, so it never
fails and never spills into a neighbouring field.
-/

import TaskMachine.Instruction.Opcode

namespace TaskMachine

/-- A run of bits of an instruction word. -/
structure Field where
  /-- The position of the lowest bit. -/
  offset : Nat
  /-- The number of bits. -/
  width : Nat
  deriving DecidableEq, Repr

namespace Field

/-- The number of the operation. -/
def operation : Field := ⟨0, 6⟩

/-- The operand `A`. -/
def a : Field := ⟨6, 8⟩

/-- The operand `B`. -/
def b : Field := ⟨14, 9⟩

/-- The operand `C`. -/
def c : Field := ⟨23, 9⟩

/-- The operands `B` and `C` read as one. -/
def wide : Field := ⟨14, 18⟩

/-- All operand bits read as one. -/
def widest : Field := ⟨6, 26⟩

/-- The number of values that the field can hold. -/
def range (field : Field) : Nat := Nat.pow 2 field.width

/-- The largest value that the field can hold. -/
def max (field : Field) : Nat := field.range - 1

/-- What is added to a signed operand before it is stored. -/
def bias (field : Field) : Nat := field.max / 2

/-- The smallest signed operand that the field can hold. -/
def signedMin (field : Field) : Int := -field.bias

/-- The largest signed operand that the field can hold. -/
def signedMax (field : Field) : Int := field.max - field.bias

/-- The value of the field in a word. -/
def read (field : Field) (word : UInt32) : Nat :=
  word.toNat / Nat.pow 2 field.offset % field.range

/-- The signed operand that the field of a word holds. -/
def readSigned (field : Field) (word : UInt32) : Int :=
  field.read word - field.bias

/-- What an operand adds to the word: its low bits, moved to the field's place. -/
def place (field : Field) (operand : Nat) : Nat :=
  operand % field.range * Nat.pow 2 field.offset

/-- The operand that stands for a signed one. -/
def unsigned (field : Field) (operand : Int) : Nat :=
  ((operand + field.bias) % field.range).toNat

end Field

/-- An instruction, as it is encoded. -/
structure Instruction where
  /-- The encoding. -/
  word : UInt32
  deriving DecidableEq, Repr, Inhabited

namespace Instruction

/-! ### Operands -/

/-- The number in the operation's field, which need not be that of an operation. -/
def code (instruction : Instruction) : Nat := Field.operation.read instruction.word

/-- The operation, if the number in its field stands for one. -/
def opcode? (instruction : Instruction) : Option Opcode := Opcode.ofCode? instruction.code

/-- The operand `A`. -/
def a (instruction : Instruction) : Nat := Field.a.read instruction.word

/-- The operand `B`. -/
def b (instruction : Instruction) : Nat := Field.b.read instruction.word

/-- The operand `C`. -/
def c (instruction : Instruction) : Nat := Field.c.read instruction.word

/-- The operand `Bu`, of 18 bits. -/
def bu (instruction : Instruction) : Nat := Field.wide.read instruction.word

/-- The signed operand `Bs`, of 18 bits. -/
def bs (instruction : Instruction) : Int := Field.wide.readSigned instruction.word

/-- The operand `Buu`, of 26 bits. -/
def buu (instruction : Instruction) : Nat := Field.widest.read instruction.word

/-- The signed operand `Bss`, of 26 bits. -/
def bss (instruction : Instruction) : Int := Field.widest.readSigned instruction.word

/-! ### Encoding -/

/-- An instruction with the operands `A`, `B` and `C`. -/
def abc (opcode : Opcode) (a b c : Nat) : Instruction :=
  ⟨(opcode.code + Field.a.place a + Field.b.place b + Field.c.place c).toUInt32⟩

/-- An instruction with the operands `A` and `Bu`. -/
def abu (opcode : Opcode) (a bu : Nat) : Instruction :=
  ⟨(opcode.code + Field.a.place a + Field.wide.place bu).toUInt32⟩

/-- An instruction with the operands `A` and `Bs`. -/
def abs (opcode : Opcode) (a : Nat) (bs : Int) : Instruction :=
  abu opcode a (Field.wide.unsigned bs)

/-- An instruction with the operand `Buu`. -/
def wide (opcode : Opcode) (buu : Nat) : Instruction :=
  ⟨(opcode.code + Field.widest.place buu).toUInt32⟩

/-- An instruction with the operand `Bss`. -/
def wideSigned (opcode : Opcode) (bss : Int) : Instruction :=
  wide opcode (Field.widest.unsigned bss)

end Instruction

end TaskMachine
