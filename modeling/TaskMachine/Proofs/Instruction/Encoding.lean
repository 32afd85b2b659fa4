/-
Encoding an instruction and reading its operands are inverse to each other, in
every layout. An operand of any size comes back as the number that its field can
hold and that is congruent to it modulo the range of the field; and a word with
a known operation is the one that is encoded from its own operands.

The words are those that a machine makes which has 32 bits only: operands are
masked and shifted, put together bit by bit, and a bias is added to signed ones
without regard to what is carried out of the word.
-/

import TaskMachine.Proofs.Instruction.Layouts

namespace TaskMachine

/-! ### Machine words -/

namespace Field

/-- An operand that is masked and shifted to the field's place. -/
def shifted (field : Field) (operand : UInt32) : UInt32 :=
  (operand &&& field.max.toUInt32) <<< field.offset.toUInt32

/-- What a field of a word holds, shifted to the end of the word and masked. -/
def extracted (field : Field) (word : UInt32) : UInt32 :=
  (word >>> field.offset.toUInt32) &&& field.max.toUInt32

/-- A signed operand with the bias that is added to it before it is stored. -/
def biased (field : Field) (operand : Int32) : UInt32 :=
  (operand + Int32.ofNat field.bias).toUInt32

/-- A word to which operands are joined bit by bit, each in its field. -/
def joined (low : UInt32) (parts : List (Field × UInt32)) : UInt32 :=
  parts.foldl (fun word part => word ||| part.1.shifted part.2) low

variable {field : Field} {fields : List Field} {position : Nat} {low : UInt32}

theorem toNat_and_max (narrow : field.width ≤ 32) (word : UInt32) :
    (word &&& field.max.toUInt32).toNat = word.toNat % field.range := by
  have inWord : field.range ≤ 2 ^ 32 := Nat.pow_le_pow_right Nat.two_pos narrow
  have positive := field.range_pos
  have mask : field.max.toUInt32.toNat = 2 ^ field.width - 1 :=
    Nat.mod_eq_of_lt (by unfold max; omega)
  rw [UInt32.toNat_and, mask, Nat.and_two_pow_sub_one_eq_mod]
  rfl

theorem toNat_offset (short : field.offset < 32) :
    field.offset.toUInt32.toNat % 32 = field.offset := by
  rw [Nat.toUInt32, UInt32.toNat_ofNat']
  omega

theorem toNat_shifted (fits : field.offset + field.width ≤ 32) (short : field.offset < 32)
    (operand : UInt32) : (field.shifted operand).toNat = field.place operand.toNat := by
  have inWord : 2 ^ (field.offset + field.width) ≤ 2 ^ 32 := Nat.pow_le_pow_right Nat.two_pos fits
  have small := add_place_lt (Nat.two_pow_pos field.offset) operand.toNat
  rw [shifted, UInt32.toNat_shiftLeft, toNat_offset short, toNat_and_max (by omega),
    Nat.shiftLeft_eq, ← place_eq, Nat.mod_eq_of_lt (by omega)]

/-- A field is read by shifting and masking. -/
theorem toNat_extracted (narrow : field.width ≤ 32) (short : field.offset < 32) (word : UInt32) :
    (field.extracted word).toNat = field.read word := by
  rw [extracted, toNat_and_max narrow, UInt32.toNat_shiftRight, toNat_offset short,
    Nat.shiftRight_eq_div_pow]
  rfl

/-- Bits that do not meet are joined by adding. -/
theorem toNat_or_shifted (fits : field.offset + field.width ≤ 32) (short : field.offset < 32)
    (below : low.toNat < 2 ^ field.offset) (operand : UInt32) :
    (low ||| field.shifted operand).toNat = low.toNat + field.place operand.toNat := by
  rw [UInt32.toNat_or, toNat_shifted fits short, place_eq, Nat.or_comm, Nat.add_comm,
    Nat.mul_comm, Nat.two_pow_add_eq_or_of_lt below]

theorem Tile.position_le (tile : Tile position fields) : position ≤ 32 := by
  induction fields generalizing position with
  | nil => exact Nat.le_of_eq tile
  | cons field rest inductionHypothesis => exact Nat.le_of_add_right_le (inductionHypothesis tile.2)

/-- Operands that are joined in the fields of a layout are added up. -/
theorem Tile.toNat_joined (tile : Tile position fields)
    (nonempty : ∀ field ∈ fields, 0 < field.width) (low : UInt32)
    (below : low.toNat < 2 ^ position) {operands : List UInt32}
    (each : operands.length = fields.length) :
    (joined low (fields.zip operands)).toNat =
      low.toNat + placeAll fields (operands.map UInt32.toNat) := by
  induction fields generalizing position low operands with
  | nil => rfl
  | cons field rest inductionHypothesis =>
    obtain ⟨operand, others, rfl⟩ := List.exists_cons_of_length_eq_add_one each
    obtain ⟨rfl, above⟩ := tile
    have wide := nonempty field List.mem_cons_self
    have fits := above.position_le
    have here := toNat_or_shifted fits (by omega) below operand
    have lower : (low ||| field.shifted operand).toNat < 2 ^ (field.offset + field.width) := by
      rw [here]
      exact add_place_lt below operand.toNat
    rw [List.zip_cons_cons, joined, List.foldl_cons, ← joined,
      inductionHypothesis above (fun other member => nonempty other (List.mem_cons_of_mem _ member))
        _ lower (Nat.succ.inj each), here, List.map_cons, placeAll_cons, Nat.add_assoc]

/-- The operand that stands for a signed one is the same whether or not a carry is lost. -/
theorem toNat_biased_mod (narrow : field.width ≤ 32) (operand : Int32) :
    (field.biased operand).toNat % field.range = field.unsigned operand.toInt := by
  have divides : (field.range : Int) ∣ 2 ^ 32 := by
    exact_mod_cast Nat.pow_dvd_pow 2 narrow
  have word (number : Int32) : (number.toUInt32.toNat : Int) ≡ number.toInt [ZMOD 2 ^ 32] := by
    have signed : number.toInt = (number.toUInt32.toNat : Int).bmod (2 ^ 32) :=
      number.toBitVec.toInt_eq_toNat_bmod
    rw [signed]
    exact Int.bmod_emod.symm
  have carried : (operand + Int32.ofNat field.bias).toInt ≡ operand.toInt + field.bias
      [ZMOD 2 ^ 32] := by
    rw [Int32.toInt_add, Int32.toInt_ofNat', Int.add_bmod_bmod]
    exact Int.bmod_emod
  have same := ((word _).trans carried).of_dvd divides
  have positive := field.range_pos
  have least := Int.emod_nonneg (operand.toInt + field.bias) (by omega : (field.range : Int) ≠ 0)
  refine Int.ofNat_inj.mp ?_
  rw [unsigned, Int.toNat_of_nonneg least, Int.natCast_mod]
  exact same

theorem place_biased (narrow : field.width ≤ 32) (operand : Int32) :
    field.place (field.biased operand).toNat = field.place (field.unsigned operand.toInt) := by
  have stored := toNat_biased_mod narrow operand
  rw [place_eq, place_eq, Nat.mod_eq_of_lt (field.unsigned_lt _), stored]

end Field

namespace Instruction

/-! ### The words of instructions -/

theorem ofOperands_eq_joined (opcode : Opcode) {fields : List Field} (tile : Field.Tile 6 fields)
    (nonempty : ∀ field ∈ fields, 0 < field.width) (operands : List UInt32)
    (each : operands.length = fields.length) :
    ofOperands (Field.operation :: fields) (opcode.code :: operands.map UInt32.toNat) =
      ⟨Field.joined opcode.code.toUInt32 (fields.zip operands)⟩ := by
  have small := opcode.code_lt
  have code : opcode.code.toUInt32.toNat = opcode.code := Nat.mod_eq_of_lt (by omega)
  have sum := tile.toNat_joined nonempty opcode.code.toUInt32 (by omega) each
  rw [code] at sum
  rw [ofOperands, Field.placeAll_cons, place_code, ← sum]
  exact congrArg Instruction.mk (UInt32.ofNat_toNat ..)

theorem abc_eq_joined (opcode : Opcode) (a b c : UInt32) :
    abc opcode a.toNat b.toNat c.toNat =
      ⟨Field.joined opcode.code.toUInt32 [(Field.a, a), (Field.b, b), (Field.c, c)]⟩ :=
  (abc_eq ..).trans
    (ofOperands_eq_joined opcode tile_three.2 (by decide) [a, b, c] rfl)

theorem abu_eq_joined (opcode : Opcode) (a bu : UInt32) :
    abu opcode a.toNat bu.toNat =
      ⟨Field.joined opcode.code.toUInt32 [(Field.a, a), (Field.wide, bu)]⟩ :=
  (abu_eq ..).trans (ofOperands_eq_joined opcode tile_two.2 (by decide) [a, bu] rfl)

theorem wide_eq_joined (opcode : Opcode) (buu : UInt32) :
    wide opcode buu.toNat = ⟨Field.joined opcode.code.toUInt32 [(Field.widest, buu)]⟩ :=
  (wide_eq ..).trans (ofOperands_eq_joined opcode tile_one.2 (by decide) [buu] rfl)

theorem abs_eq_joined (opcode : Opcode) (a : UInt32) (bs : Int32) :
    abs opcode a.toNat bs.toInt =
      ⟨Field.joined opcode.code.toUInt32
        [(Field.a, a), (Field.wide, Field.wide.biased bs)]⟩ := by
  rw [← abu_eq_joined, abu, Field.place_biased (by decide)]
  rfl

theorem wideSigned_eq_joined (opcode : Opcode) (bss : Int32) :
    wideSigned opcode bss.toInt =
      ⟨Field.joined opcode.code.toUInt32 [(Field.widest, Field.widest.biased bss)]⟩ := by
  rw [← wide_eq_joined, wide, Field.place_biased (by decide)]
  rfl

/-! ### The main statement -/

/-- What is encoded is read again, each operand as its field can hold it; a word with a known
operation is encoded from what is read from it; and all words are made by masks and shifts. -/
theorem layouts_inverse :
    (∀ (opcode : Opcode) (a b c : Nat), (abc opcode a b c).opcode? = some opcode ∧
      (abc opcode a b c).a = a % 2 ^ 8 ∧ (abc opcode a b c).b = b % 2 ^ 9 ∧
        (abc opcode a b c).c = c % 2 ^ 9) ∧
    (∀ (opcode : Opcode) (a bu : Nat), (abu opcode a bu).opcode? = some opcode ∧
      (abu opcode a bu).a = a % 2 ^ 8 ∧ (abu opcode a bu).bu = bu % 2 ^ 18) ∧
    (∀ (opcode : Opcode) (buu : Nat), (wide opcode buu).opcode? = some opcode ∧
      (wide opcode buu).buu = buu % 2 ^ 26) ∧
    (∀ (opcode : Opcode) (a : Nat) (bs : Int), (abs opcode a bs).opcode? = some opcode ∧
      (abs opcode a bs).a = a % 2 ^ 8 ∧ (abs opcode a bs).bs ≡ bs [ZMOD 2 ^ 18] ∧
        -131071 ≤ (abs opcode a bs).bs ∧ (abs opcode a bs).bs ≤ 131072) ∧
    (∀ (opcode : Opcode) (bss : Int), (wideSigned opcode bss).opcode? = some opcode ∧
      (wideSigned opcode bss).bss ≡ bss [ZMOD 2 ^ 26] ∧
        -33554431 ≤ (wideSigned opcode bss).bss ∧ (wideSigned opcode bss).bss ≤ 33554432) ∧
    (∀ (instruction : Instruction) (opcode : Opcode), instruction.opcode? = some opcode →
      abc opcode instruction.a instruction.b instruction.c = instruction ∧
        abu opcode instruction.a instruction.bu = instruction ∧
        abs opcode instruction.a instruction.bs = instruction ∧
        wide opcode instruction.buu = instruction ∧
        wideSigned opcode instruction.bss = instruction) ∧
    (∀ (opcode : Opcode) (a b c bu buu : UInt32) (bs bss : Int32),
      abc opcode a.toNat b.toNat c.toNat =
          ⟨Field.joined opcode.code.toUInt32 [(Field.a, a), (Field.b, b), (Field.c, c)]⟩ ∧
        abu opcode a.toNat bu.toNat =
          ⟨Field.joined opcode.code.toUInt32 [(Field.a, a), (Field.wide, bu)]⟩ ∧
        abs opcode a.toNat bs.toInt = ⟨Field.joined opcode.code.toUInt32
          [(Field.a, a), (Field.wide, Field.wide.biased bs)]⟩ ∧
        wide opcode buu.toNat = ⟨Field.joined opcode.code.toUInt32 [(Field.widest, buu)]⟩ ∧
        wideSigned opcode bss.toInt = ⟨Field.joined opcode.code.toUInt32
          [(Field.widest, Field.widest.biased bss)]⟩) ∧
    ∀ field ∈ [Field.operation, Field.a, Field.b, Field.c, Field.wide, Field.widest],
      ∀ word, field.read word = (field.extracted word).toNat := by
  refine ⟨decode_abc, decode_abu, decode_wide, decode_abs, decode_wideSigned,
    fun instruction opcode known => ?_, fun opcode a b c bu buu bs bss => ?_,
    fun field member word => ?_⟩
  · exact ⟨eq_abc known, eq_abu known, eq_abs known, eq_wide known, eq_wideSigned known⟩
  · exact ⟨abc_eq_joined opcode a b c, abu_eq_joined opcode a bu, abs_eq_joined opcode a bs,
      wide_eq_joined opcode buu, wideSigned_eq_joined opcode bss⟩
  · have fits : field.width ≤ 32 ∧ field.offset < 32 := by
      revert field
      decide
    exact (Field.toNat_extracted fits.1 fits.2 word).symm

/-- A word of ones over the operation that loads a constant is made again from the signed operands
of either layout, each the largest there is. -/
theorem ones_inverse :
    (⟨0xffffffc3⟩ : Instruction).opcode? = some .loadConstant ∧
      abs .loadConstant 255 131072 = ⟨0xffffffc3⟩ ∧
      wideSigned .loadConstant 33554432 = ⟨0xffffffc3⟩ := by
  have known : (⟨0xffffffc3⟩ : Instruction).opcode? = some .loadConstant := by decide
  obtain ⟨_, _, signed, _, widest⟩ := layouts_inverse.2.2.2.2.2.1 ⟨0xffffffc3⟩ .loadConstant known
  exact ⟨known, signed, widest⟩

end Instruction

end TaskMachine
