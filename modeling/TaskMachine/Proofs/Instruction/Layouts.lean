/-
A layout is a list of fields that tile the instruction word: each begins where
the one below it ends, and the last one ends with the word. Operands that are
put into such fields do not touch one another, so every field gives back the low
bits of its own operand; and since no bit of the word is left out, the operands
that are read from a word put the same word together again.

The three layouts are tilings of one word, so both directions are proved once,
by induction on the fields from the lowest one up. A signed operand is one that
is moved by half of the range before it is put into its field.
-/

import Mathlib.Data.Int.ModEq
import Mathlib.Tactic.GCongr
import Mathlib.Tactic.Ring
import TaskMachine.Instruction.Basic

namespace TaskMachine

namespace Field

/-! ### Fields that tile a word -/

/-- Fields that follow one another from a position up to the end of the word. -/
def Tile : Nat → List Field → Prop
  | position, [] => position = 32
  | position, field :: rest => field.offset = position ∧ Tile (position + field.width) rest

/-- What operands add to a word, each in its field. -/
def placeAll (fields : List Field) (operands : List Nat) : Nat :=
  (List.zipWith place fields operands).sum

/-- The same counted from the lowest field on, so that each operand is followed by those above. -/
def pack : List Field → List Nat → Nat
  | field :: rest, operand :: others =>
    operand % field.range + 2 ^ field.width * pack rest others
  | _, _ => 0

variable {field : Field} {fields : List Field} {operands : List Nat} {position low : Nat}
  {word : UInt32}

theorem range_pos (field : Field) : 0 < field.range := Nat.two_pow_pos field.width

theorem read_lt (field : Field) (word : UInt32) : field.read word < field.range :=
  Nat.mod_lt _ field.range_pos

theorem read_eq (field : Field) (word : UInt32) :
    field.read word = word.toNat / 2 ^ field.offset % 2 ^ field.width := rfl

theorem place_eq (field : Field) (operand : Nat) :
    field.place operand = operand % field.range * 2 ^ field.offset := rfl

theorem placeAll_cons (field : Field) (rest : List Field) (operand : Nat) (others : List Nat) :
    placeAll (field :: rest) (operand :: others) = field.place operand + placeAll rest others :=
  List.sum_cons

@[simp] theorem placeAll_nil : placeAll [] [] = 0 := rfl

/-- An operand in its field stays below the end of the field, with what stands below it. -/
theorem add_place_lt (below : low < 2 ^ field.offset) (operand : Nat) :
    low + field.place operand < 2 ^ (field.offset + field.width) := by
  have bounded : operand % field.range < 2 ^ field.width := Nat.mod_lt _ field.range_pos
  calc
    low + field.place operand < (operand % field.range + 1) * 2 ^ field.offset := by
      rw [place_eq, Nat.succ_mul]
      omega
    _ ≤ 2 ^ field.width * 2 ^ field.offset := Nat.mul_le_mul_right _ bounded
    _ = 2 ^ (field.offset + field.width) := by rw [Nat.pow_add, Nat.mul_comm]

namespace Tile

theorem placeAll_eq (tile : Tile position fields) (operands : List Nat) :
    placeAll fields operands = 2 ^ position * pack fields operands := by
  induction fields generalizing position operands with
  | nil => rfl
  | cons field rest inductionHypothesis =>
    cases operands with
    | nil => rfl
    | cons operand others =>
      obtain ⟨rfl, above⟩ := tile
      rw [placeAll_cons, inductionHypothesis above, place_eq, pack, Nat.pow_add]
      ring

/-- What is put into fields ends with the word, whatever stands below the fields. -/
theorem pack_le (tile : Tile position fields) (operands : List Nat) :
    2 ^ position * (pack fields operands + 1) ≤ 2 ^ 32 := by
  induction fields generalizing position operands with
  | nil =>
    obtain rfl : position = 32 := tile
    exact Nat.le_refl _
  | cons field rest inductionHypothesis =>
    obtain ⟨rfl, above⟩ := tile
    cases operands with
    | nil =>
      have room := inductionHypothesis above []
      calc
        2 ^ field.offset * (0 + 1) ≤ 2 ^ (field.offset + field.width) * (pack rest [] + 1) := by
          gcongr <;> omega
        _ ≤ 2 ^ 32 := room
    | cons operand others =>
      have room := inductionHypothesis above others
      have bounded : operand % field.range + 1 ≤ 2 ^ field.width := Nat.mod_lt _ field.range_pos
      calc
        2 ^ field.offset * (operand % field.range + 2 ^ field.width * pack rest others + 1)
            = 2 ^ field.offset *
                (operand % field.range + 1 + 2 ^ field.width * pack rest others) := by ring
        _ ≤ 2 ^ field.offset * (2 ^ field.width + 2 ^ field.width * pack rest others) := by
            gcongr
        _ = 2 ^ (field.offset + field.width) * (pack rest others + 1) := by
            rw [Nat.pow_add]
            ring
        _ ≤ 2 ^ 32 := room

/-- Every field gives back the low bits of its operand, whatever stands below the fields. -/
theorem reads (tile : Tile position fields) (below : low < 2 ^ position)
    (each : operands.length = fields.length)
    (is : word.toNat = low + 2 ^ position * pack fields operands) :
    fields.map (fun field => field.read word) =
      List.zipWith (fun field operand => operand % field.range) fields operands := by
  induction fields generalizing position low operands with
  | nil => rfl
  | cons field rest inductionHypothesis =>
    obtain ⟨operand, others, rfl⟩ := List.exists_cons_of_length_eq_add_one each
    obtain ⟨rfl, above⟩ := tile
    have bounded : operand % field.range < 2 ^ field.width := Nat.mod_lt _ field.range_pos
    rw [List.map_cons, List.zipWith_cons_cons]
    congr 1
    · rw [read_eq, is, Nat.add_mul_div_left _ _ (Nat.two_pow_pos _), Nat.div_eq_of_lt below,
        Nat.zero_add, pack, Nat.add_mul_mod_self_left, Nat.mod_eq_of_lt bounded]
    · -- For the fields above, this one counts as what stands below.
      refine inductionHypothesis above (add_place_lt below operand) (Nat.succ.inj each) ?_
      rw [is, pack, place_eq, Nat.pow_add]
      ring

/-- The operands that fields hold put together what the word holds from the position on. -/
theorem pack_reads (tile : Tile position fields) (word : UInt32) :
    pack fields (fields.map fun field => field.read word) = word.toNat / 2 ^ position := by
  induction fields generalizing position with
  | nil =>
    obtain rfl : position = 32 := tile
    exact (Nat.div_eq_of_lt word.toNat_lt).symm
  | cons field rest inductionHypothesis =>
    obtain ⟨rfl, above⟩ := tile
    rw [List.map_cons, pack, inductionHypothesis above, Nat.mod_eq_of_lt (field.read_lt word),
      read_eq, Nat.pow_add, ← Nat.div_div_eq_div_mul, Nat.mod_add_div]

end Tile

/-! ### Signed operands -/

theorem signedMax_eq (field : Field) : field.signedMax = field.range - 1 - field.bias := by
  have positive := field.range_pos
  unfold signedMax max
  omega

theorem unsigned_lt (field : Field) (operand : Int) : field.unsigned operand < field.range := by
  have positive := field.range_pos
  have below := Int.emod_lt_of_pos (operand + field.bias) (by omega : (0 : Int) < field.range)
  unfold unsigned
  omega

/-- A signed operand is given back as the number congruent to it that the field can hold. -/
theorem readSigned_of_read {operand : Int} (holds : field.read word = field.unsigned operand) :
    field.readSigned word ≡ operand [ZMOD field.range] ∧
      field.signedMin ≤ field.readSigned word ∧ field.readSigned word ≤ field.signedMax := by
  have positive := field.range_pos
  have least := Int.emod_nonneg (operand + field.bias) (by omega : (field.range : Int) ≠ 0)
  have below := field.unsigned_lt operand
  have moved : field.readSigned word = (operand + field.bias) % field.range - field.bias := by
    rw [readSigned, holds, unsigned, Int.toNat_of_nonneg least]
  refine ⟨?_, ?_, ?_⟩
  · rw [moved]
    calc
      (operand + field.bias) % field.range - field.bias
          ≡ operand + field.bias - field.bias [ZMOD field.range] := (Int.mod_modEq _ _).sub_right _
      _ = operand := Int.add_sub_cancel _ _
  · rw [readSigned, signedMin]
    omega
  · rw [readSigned, signedMax_eq, holds]
    omega

/-- The operand that a field holds is the one that stands for its signed one. -/
theorem unsigned_readSigned (field : Field) (word : UInt32) :
    field.unsigned (field.readSigned word) = field.read word := by
  have below := field.read_lt word
  rw [unsigned, readSigned, Int.sub_add_cancel, Int.emod_eq_of_lt (by omega) (by omega)]
  rfl

end Field

namespace Instruction

variable {fields : List Field}

/-! ### Layouts -/

/-- The instruction with operands in the fields of a layout. -/
def ofOperands (fields : List Field) (operands : List Nat) : Instruction :=
  ⟨(Field.placeAll fields operands).toUInt32⟩

/-- Every field gives back the low bits of its operand. -/
theorem reads_ofOperands (tile : Field.Tile 0 fields) (operands : List Nat)
    (each : operands.length = fields.length) :
    fields.map (fun field => field.read (ofOperands fields operands).word) =
      List.zipWith (fun field operand => operand % field.range) fields operands := by
  have room := tile.pack_le operands
  have fits : Field.placeAll fields operands < 2 ^ 32 := by
    rw [tile.placeAll_eq]
    omega
  refine tile.reads Nat.one_pos each ?_
  rw [← tile.placeAll_eq, Nat.zero_add]
  exact Nat.mod_eq_of_lt fits

/-- An instruction is put together from the operands that it holds. -/
theorem ofOperands_reads (tile : Field.Tile 0 fields) (instruction : Instruction) :
    ofOperands fields (fields.map fun field => field.read instruction.word) = instruction := by
  rw [ofOperands, tile.placeAll_eq, tile.pack_reads, Nat.pow_zero, Nat.div_one, Nat.one_mul]
  exact congrArg Instruction.mk (UInt32.ofNat_toNat ..)

theorem place_code (opcode : Opcode) : Field.operation.place opcode.code = opcode.code := by
  have small : opcode.code < Field.operation.range := Nat.lt_trans opcode.code_lt (by decide)
  rw [Field.place_eq, Nat.mod_eq_of_lt small]
  exact Nat.mul_one _

theorem tile_three : Field.Tile 0 [Field.operation, Field.a, Field.b, Field.c] :=
  ⟨rfl, rfl, rfl, rfl, rfl⟩

theorem tile_two : Field.Tile 0 [Field.operation, Field.a, Field.wide] := ⟨rfl, rfl, rfl, rfl⟩

theorem tile_one : Field.Tile 0 [Field.operation, Field.widest] := ⟨rfl, rfl, rfl⟩

theorem abc_eq (opcode : Opcode) (a b c : Nat) :
    abc opcode a b c =
      ofOperands [Field.operation, Field.a, Field.b, Field.c] [opcode.code, a, b, c] := by
  simp only [abc, ofOperands, Field.placeAll_cons, Field.placeAll_nil, place_code, Nat.add_zero,
    Nat.add_assoc]

theorem abu_eq (opcode : Opcode) (a bu : Nat) :
    abu opcode a bu =
      ofOperands [Field.operation, Field.a, Field.wide] [opcode.code, a, bu] := by
  simp only [abu, ofOperands, Field.placeAll_cons, Field.placeAll_nil, place_code, Nat.add_zero,
    Nat.add_assoc]

theorem wide_eq (opcode : Opcode) (buu : Nat) :
    wide opcode buu = ofOperands [Field.operation, Field.widest] [opcode.code, buu] := by
  simp only [wide, ofOperands, Field.placeAll_cons, Field.placeAll_nil, place_code, Nat.add_zero]

/-! ### Reading what was encoded -/

theorem opcode?_of_read {instruction : Instruction} {opcode : Opcode}
    (holds : Field.operation.read instruction.word = opcode.code % Field.operation.range) :
    instruction.opcode? = some opcode := by
  have small : opcode.code < Field.operation.range := Nat.lt_trans opcode.code_lt (by decide)
  rw [Nat.mod_eq_of_lt small] at holds
  exact Opcode.ofCode?_eq_some_iff.mpr holds.symm

theorem decode_abc (opcode : Opcode) (a b c : Nat) :
    (abc opcode a b c).opcode? = some opcode ∧ (abc opcode a b c).a = a % 2 ^ 8 ∧
      (abc opcode a b c).b = b % 2 ^ 9 ∧ (abc opcode a b c).c = c % 2 ^ 9 := by
  have reads := reads_ofOperands tile_three [opcode.code, a, b, c] rfl
  rw [← abc_eq] at reads
  simp only [List.map_cons, List.map_nil, List.zipWith_cons_cons, List.zipWith_nil_left,
    List.cons.injEq, and_true] at reads
  obtain ⟨holdsCode, holdsA, holdsB, holdsC⟩ := reads
  exact ⟨opcode?_of_read holdsCode, holdsA, holdsB, holdsC⟩

theorem decode_abu (opcode : Opcode) (a bu : Nat) :
    (abu opcode a bu).opcode? = some opcode ∧ (abu opcode a bu).a = a % 2 ^ 8 ∧
      (abu opcode a bu).bu = bu % 2 ^ 18 := by
  have reads := reads_ofOperands tile_two [opcode.code, a, bu] rfl
  rw [← abu_eq] at reads
  simp only [List.map_cons, List.map_nil, List.zipWith_cons_cons, List.zipWith_nil_left,
    List.cons.injEq, and_true] at reads
  obtain ⟨holdsCode, holdsA, holdsB⟩ := reads
  exact ⟨opcode?_of_read holdsCode, holdsA, holdsB⟩

theorem decode_wide (opcode : Opcode) (buu : Nat) :
    (wide opcode buu).opcode? = some opcode ∧ (wide opcode buu).buu = buu % 2 ^ 26 := by
  have reads := reads_ofOperands tile_one [opcode.code, buu] rfl
  rw [← wide_eq] at reads
  simp only [List.map_cons, List.map_nil, List.zipWith_cons_cons, List.zipWith_nil_left,
    List.cons.injEq, and_true] at reads
  obtain ⟨holdsCode, holdsB⟩ := reads
  exact ⟨opcode?_of_read holdsCode, holdsB⟩

theorem decode_abs (opcode : Opcode) (a : Nat) (bs : Int) :
    (abs opcode a bs).opcode? = some opcode ∧ (abs opcode a bs).a = a % 2 ^ 8 ∧
      (abs opcode a bs).bs ≡ bs [ZMOD 2 ^ 18] ∧
        -131071 ≤ (abs opcode a bs).bs ∧ (abs opcode a bs).bs ≤ 131072 := by
  obtain ⟨known, holdsA, holdsB⟩ := decode_abu opcode a (Field.wide.unsigned bs)
  have holds : Field.wide.read (abs opcode a bs).word = Field.wide.unsigned bs :=
    holdsB.trans (Nat.mod_eq_of_lt (Field.wide.unsigned_lt bs))
  exact ⟨known, holdsA, Field.readSigned_of_read holds⟩

theorem decode_wideSigned (opcode : Opcode) (bss : Int) :
    (wideSigned opcode bss).opcode? = some opcode ∧
      (wideSigned opcode bss).bss ≡ bss [ZMOD 2 ^ 26] ∧
        -33554431 ≤ (wideSigned opcode bss).bss ∧ (wideSigned opcode bss).bss ≤ 33554432 := by
  obtain ⟨known, holdsB⟩ := decode_wide opcode (Field.widest.unsigned bss)
  have holds : Field.widest.read (wideSigned opcode bss).word = Field.widest.unsigned bss :=
    holdsB.trans (Nat.mod_eq_of_lt (Field.widest.unsigned_lt bss))
  exact ⟨known, Field.readSigned_of_read holds⟩

/-! ### Encoding what was read -/

section

variable {instruction : Instruction} {opcode : Opcode}

theorem eq_abc (known : instruction.opcode? = some opcode) :
    abc opcode instruction.a instruction.b instruction.c = instruction := by
  have code : opcode.code = Field.operation.read instruction.word :=
    Opcode.ofCode?_eq_some_iff.mp known
  rw [abc_eq, code]
  exact ofOperands_reads tile_three instruction

theorem eq_abu (known : instruction.opcode? = some opcode) :
    abu opcode instruction.a instruction.bu = instruction := by
  have code : opcode.code = Field.operation.read instruction.word :=
    Opcode.ofCode?_eq_some_iff.mp known
  rw [abu_eq, code]
  exact ofOperands_reads tile_two instruction

theorem eq_wide (known : instruction.opcode? = some opcode) :
    wide opcode instruction.buu = instruction := by
  have code : opcode.code = Field.operation.read instruction.word :=
    Opcode.ofCode?_eq_some_iff.mp known
  rw [wide_eq, code]
  exact ofOperands_reads tile_one instruction

theorem eq_abs (known : instruction.opcode? = some opcode) :
    abs opcode instruction.a instruction.bs = instruction := by
  have stored : Field.wide.unsigned instruction.bs = instruction.bu :=
    Field.wide.unsigned_readSigned instruction.word
  rw [abs, stored, eq_abu known]

theorem eq_wideSigned (known : instruction.opcode? = some opcode) :
    wideSigned opcode instruction.bss = instruction := by
  have stored : Field.widest.unsigned instruction.bss = instruction.buu :=
    Field.widest.unsigned_readSigned instruction.word
  rw [wideSigned, stored, eq_wide known]

end

end Instruction

end TaskMachine
