/-
How an instruction is listed: the mnemonic of its operation and the operands of
its layout, in decimal and with blanks between them. A word whose operation is
unknown is listed by the number of the operation and by the whole word, as
eight hexadecimal digits. The layouts show every bit, so a listing determines
the word that it was made from.
-/

import TaskMachine.Instruction.Basic

namespace TaskMachine.Instruction

/-- The hexadecimal digits of a number, with zeros in front up to a number of places. -/
def hexadecimal (places number : Nat) : String :=
  let digits := Nat.toDigits 16 number
  String.ofList (List.replicate (places - digits.length) '0' ++ digits)

/-- The operands that a layout shows. -/
def operandTexts (instruction : Instruction) : Opcode.Layout → List String
  | .three => [instruction.a.repr, instruction.b.repr, instruction.c.repr]
  | .two => [instruction.a.repr, instruction.bu.repr]
  | .offset => [instruction.bss.repr]

/-- The listing of an instruction. -/
def text (instruction : Instruction) : String :=
  match instruction.opcode? with
  | some opcode => " ".intercalate (opcode.mnemonic :: instruction.operandTexts opcode.layout)
  | none => "?" ++ instruction.code.repr ++ " 0x" ++ hexadecimal 8 instruction.word.toNat

end TaskMachine.Instruction
