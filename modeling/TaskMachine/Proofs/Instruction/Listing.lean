/-
A listing tells which instruction it is of. It is a row of words with blanks
between them, and no word holds a blank, so the words can be told apart. The
first one names the operation, or says that it is unknown; the others are
numbers, which can be told from their digits, and among them they show every bit
of the instruction: those of a layout are what the instruction is encoded from,
and where the operation is unknown the whole word is shown.
-/

import Mathlib
import TaskMachine.Instruction.Text
import TaskMachine.Proofs.Instruction.Layouts

namespace TaskMachine

/-! ### Digits -/

namespace Instruction

/-- The number that a hexadecimal digit stands for. -/
def digitValue (digit : Char) : Nat :=
  if digit.isDigit then digit.toNat - '0'.toNat else digit.toNat - 'a'.toNat + 10

/-- The number that hexadecimal digits stand for. -/
def ofHexadecimal (digits : List Char) : Nat :=
  digits.foldl (fun number digit => 16 * number + digitValue digit) 0

theorem digitValue_digitChar {number : Nat} (small : number < 16) :
    digitValue number.digitChar = number := by
  revert number
  decide

theorem ofHexadecimal_toDigits (number : Nat) :
    ofHexadecimal (Nat.toDigits 16 number) = number := by
  induction number using Nat.strongRecOn with
  | ind number inductionHypothesis =>
    rw [Nat.toDigits_eq_if (by decide)]
    by_cases small : number < 16
    · rw [if_pos small, ofHexadecimal, List.foldl_cons, List.foldl_nil,
        digitValue_digitChar small]
      omega
    · have before := inductionHypothesis (number / 16) (by omega)
      rw [ofHexadecimal] at before
      rw [if_neg small, ofHexadecimal, List.foldl_append, before, List.foldl_cons,
        List.foldl_nil, digitValue_digitChar (Nat.mod_lt _ (by decide))]
      omega

/-- Zeros in front count for nothing. -/
theorem ofHexadecimal_padded (zeros : Nat) (digits : List Char) :
    ofHexadecimal (List.replicate zeros '0' ++ digits) = ofHexadecimal digits := by
  induction zeros with
  | zero => rfl
  | succ zeros inductionHypothesis => exact inductionHypothesis

theorem hexadecimal_injective (places : Nat) : Function.Injective (hexadecimal places) := by
  intro number other same
  have shows (number : Nat) : ofHexadecimal (hexadecimal places number).toList = number := by
    rw [hexadecimal, String.toList_ofList, ofHexadecimal_padded, ofHexadecimal_toDigits]
  rw [← shows number, same, shows other]

/-! ### Words without blanks -/

theorem blank_notMem_toDigits {base : Nat} (more : 1 < base) (number : Nat) :
    ' ' ∉ Nat.toDigits base number := by
  induction number using Nat.strongRecOn with
  | ind number inductionHypothesis =>
    have digit (value : Nat) : ' ' ≠ value.digitChar := (Nat.digitChar_ne ' ' (by decide)).symm
    rw [Nat.toDigits_eq_if more]
    by_cases small : number < base
    · rw [if_pos small]
      exact fun member => digit _ (List.mem_singleton.mp member)
    · rw [if_neg small, List.mem_append, List.mem_singleton, not_or]
      exact ⟨inductionHypothesis (number / base) (Nat.div_lt_self (by omega) more), digit _⟩

theorem blank_notMem_repr (number : Nat) : ' ' ∉ number.repr.toList := by
  rw [Nat.repr_eq_ofList_toDigits, String.toList_ofList]
  exact blank_notMem_toDigits (by decide) number

theorem blank_notMem_intRepr (number : Int) : ' ' ∉ number.repr.toList := by
  rw [Int.repr_eq_if]
  by_cases positive : 0 ≤ number
  · rw [if_pos positive]
    exact blank_notMem_repr _
  · rw [if_neg positive, String.toList_append, List.mem_append, not_or]
    exact ⟨by decide, blank_notMem_repr _⟩

theorem blank_notMem_hexadecimal (places number : Nat) :
    ' ' ∉ (hexadecimal places number).toList := by
  rw [hexadecimal, String.toList_ofList, List.mem_append, not_or]
  refine ⟨fun member => ?_, blank_notMem_toDigits (by decide) number⟩
  exact absurd (List.eq_of_mem_replicate member) (by decide)

theorem blank_notMem_mnemonic (opcode : Opcode) : ' ' ∉ opcode.mnemonic.toList := by
  cases opcode <;> decide

/-! ### The words of a listing -/

/-- The words of a listing. -/
def words (instruction : Instruction) : List String :=
  match instruction.opcode? with
  | some opcode => opcode.mnemonic :: instruction.operandTexts opcode.layout
  | none => ["?" ++ instruction.code.repr, "0x" ++ hexadecimal 8 instruction.word.toNat]

theorem text_eq (instruction : Instruction) :
    instruction.text = " ".intercalate instruction.words := by
  unfold text words
  cases instruction.opcode? with
  | some opcode => rfl
  | none =>
    refine String.toList_inj.mp ?_
    simp

theorem blank_notMem_operandTexts (instruction : Instruction) (layout : Opcode.Layout) :
    ∀ operand ∈ instruction.operandTexts layout, ' ' ∉ operand.toList := by
  cases layout with
  | three =>
    simp only [operandTexts, List.forall_mem_cons]
    exact ⟨blank_notMem_repr _, blank_notMem_repr _, blank_notMem_repr _, nofun⟩
  | two =>
    simp only [operandTexts, List.forall_mem_cons]
    exact ⟨blank_notMem_repr _, blank_notMem_repr _, nofun⟩
  | offset =>
    simp only [operandTexts, List.forall_mem_cons]
    exact ⟨blank_notMem_intRepr _, nofun⟩

theorem blank_notMem_words (instruction : Instruction) :
    ∀ word ∈ instruction.words, ' ' ∉ word.toList := by
  unfold words
  cases instruction.opcode? with
  | some opcode =>
    exact List.forall_mem_cons.mpr
      ⟨blank_notMem_mnemonic opcode, blank_notMem_operandTexts instruction opcode.layout⟩
  | none =>
    simp only [List.forall_mem_cons, String.toList_append, List.mem_append, not_or]
    exact ⟨⟨by decide, blank_notMem_repr _⟩, ⟨by decide, blank_notMem_hexadecimal _ _⟩, nofun⟩

/-- The words are what the blanks of a listing divide. -/
theorem splitOn_text (instruction : Instruction) :
    instruction.text.toList.splitOn ' ' = instruction.words.map String.toList := by
  have words : instruction.words.map String.toList ≠ [] := by
    unfold words
    cases instruction.opcode? <;> exact List.cons_ne_nil _ _
  rw [text_eq, String.toList_intercalate]
  refine List.splitOn_intercalate ' ' (fun word member => ?_) words
  obtain ⟨_, among, rfl⟩ := List.mem_map.mp member
  exact blank_notMem_words instruction _ among

theorem words_eq_of_text_eq {instruction other : Instruction}
    (same : instruction.text = other.text) : instruction.words = other.words := by
  refine List.map_injective_iff.mpr (fun _ _ => String.toList_injective) ?_
  rw [← splitOn_text, same, splitOn_text]

/-! ### What the words tell -/

/-- An operation has its own name. -/
theorem mnemonic_injective : Function.Injective Opcode.mnemonic := by
  -- The first operation with a name is the one whose name it is.
  have first (opcode : Opcode) :
      Opcode.all.find? (fun other => other.mnemonic = opcode.mnemonic) = some opcode := by
    cases opcode <;> decide
  intro opcode other same
  have found := first opcode
  rw [same, first other] at found
  exact (Option.some.inj found).symm

/-- No operation is named as if it were unknown. -/
theorem mnemonic_ne_unknown (opcode : Opcode) (code : String) : opcode.mnemonic ≠ "?" ++ code := by
  intro same
  have heads : opcode.mnemonic.toList.head? = some '?' := by
    rw [same, String.toList_append]
    rfl
  revert heads
  cases opcode <;> decide

section

variable {instruction other : Instruction} {opcode : Opcode}

/-- The operands of a layout show every bit. -/
theorem eq_of_operandTexts_eq (known : instruction.opcode? = some opcode)
    (knownToo : other.opcode? = some opcode) {layout : Opcode.Layout}
    (same : instruction.operandTexts layout = other.operandTexts layout) : instruction = other := by
  cases layout with
  | three =>
    simp only [operandTexts, List.cons.injEq, Nat.repr_inj, and_true] at same
    obtain ⟨sameA, sameB, sameC⟩ := same
    rw [← eq_abc known, ← eq_abc knownToo, sameA, sameB, sameC]
  | two =>
    simp only [operandTexts, List.cons.injEq, Nat.repr_inj, and_true] at same
    obtain ⟨sameA, sameB⟩ := same
    rw [← eq_abu known, ← eq_abu knownToo, sameA, sameB]
  | offset =>
    simp only [operandTexts, List.cons.injEq, Int.repr_inj, and_true] at same
    rw [← eq_wideSigned known, ← eq_wideSigned knownToo, same]

theorem eq_of_words_eq (same : instruction.words = other.words) : instruction = other := by
  unfold words at same
  cases known : instruction.opcode? with
  | some opcode =>
    cases knownToo : other.opcode? with
    | some opcode' =>
      rw [known, knownToo] at same
      obtain ⟨named, shown⟩ := List.cons.inj same
      obtain rfl := mnemonic_injective named
      exact eq_of_operandTexts_eq known knownToo shown
    | none =>
      rw [known, knownToo] at same
      exact absurd (List.cons.inj same).1 (mnemonic_ne_unknown opcode _)
  | none =>
    cases knownToo : other.opcode? with
    | some opcode =>
      rw [known, knownToo] at same
      exact absurd (List.cons.inj same).1.symm (mnemonic_ne_unknown opcode _)
    | none =>
      rw [known, knownToo] at same
      have shown := (String.append_right_inj _).mp (List.cons.inj (List.cons.inj same).2).1
      have number := UInt32.toNat_inj.mp (hexadecimal_injective 8 shown)
      cases instruction
      cases other
      exact congrArg Instruction.mk number

end

/-! ### The main statement -/

/-- Listings are alike only of one instruction, whether or not its operation is known. -/
theorem text_eq_iff (instruction other : Instruction) :
    instruction.text = other.text ↔ instruction = other :=
  ⟨fun same => eq_of_words_eq (words_eq_of_text_eq same), congrArg text⟩

end Instruction

end TaskMachine
