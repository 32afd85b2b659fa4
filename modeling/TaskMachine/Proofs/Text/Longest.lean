/-
What a buffer holds of a text that was written to it is the longest part of the
text, in whole characters from its start, that the buffer has room for. In which
pieces the text arrives plays no part: the pieces are written as one text would
be. A character that does not fit ends the writing, so that what was written
before it and what would have come after it are never joined.

The bytes that are written are those of whole characters, so they can always be
read as a text again.
-/

import Mathlib.Data.List.Basic
import TaskMachine.Value.Text

namespace TaskMachine.Text

variable {size : Nat} {text taken rest other : List Char} {lent : List UInt8} {buffer : Buffer}
  {character : Char}

/-! ### How many bytes a text has -/

/-- The number of bytes of a text. -/
def width : List Char → Nat
  | [] => 0
  | character :: rest => character.utf8Size + width rest

@[simp] theorem width_nil : width [] = 0 := rfl

@[simp] theorem width_cons (character : Char) (rest : List Char) :
    width (character :: rest) = character.utf8Size + width rest := rfl

@[simp] theorem width_append (text rest : List Char) :
    width (text ++ rest) = width text + width rest := by
  induction text with
  | nil => exact (Nat.zero_add _).symm
  | cons character text inductionHypothesis => simp [inductionHypothesis, Nat.add_assoc]

@[simp] theorem length_encoded (text : List Char) :
    (text.flatMap String.utf8EncodeChar).length = width text := by
  induction text with
  | nil => rfl
  | cons character rest inductionHypothesis => simp [inductionHypothesis]

@[simp] theorem size_utf8Encode (text : List Char) : text.utf8Encode.size = width text := by
  rw [List.utf8Encode, List.size_toByteArray, length_encoded]

/-! ### The longest part of a text that fits -/

/-- What is taken of a text, from its start and in whole characters, is the most that so many bytes
have room for. -/
structure Longest (size : Nat) (text taken : List Char) : Prop where
  begins : taken <+: text
  fits : taken.utf8Encode.size ≤ size
  longest : ∀ other, other <+: text → other.utf8Encode.size ≤ size → other <+: taken

/-- Nothing is left of the text, or the first character of what is left has no room. -/
def Stops (size : Nat) (taken : List Char) : List Char → Prop
  | [] => True
  | character :: _ => size < width taken + character.utf8Size

theorem longest_of_stops (fits : width taken ≤ size) (stops : Stops size taken rest) :
    Longest size (taken ++ rest) taken where
  begins := List.prefix_append _ _
  fits := by rwa [size_utf8Encode]
  longest := fun other begins otherFits => by
    rw [size_utf8Encode] at otherFits
    rcases List.prefix_or_prefix_of_prefix begins (List.prefix_append taken rest) with
      shorter | ⟨more, rfl⟩
    · exact shorter
    · cases more with
      | nil => simp
      | cons character more =>
        -- what is longer has the character that did not fit
        obtain ⟨beyond, rfl⟩ := (List.prefix_append_right_inj taken).mp begins
        rw [width_append, width_cons] at otherFits
        have full : size < width taken + character.utf8Size := stops
        omega

theorem Longest.mono {large : Nat} (longest : Longest size text taken)
    (larger : Longest large text other) (le : size ≤ large) : taken <+: other :=
  larger.longest taken longest.begins (Nat.le_trans longest.fits le)

/-! ### What a buffer holds -/

namespace Buffer

/-- A text was written to a buffer, and nothing behind it. -/
structure Holds (buffer : Buffer) (lent : List UInt8) (taken : List Char) : Prop where
  bytes : buffer.bytes = taken.flatMap String.utf8EncodeChar ++ lent.drop (width taken)
  written : buffer.written = width taken
  fits : width taken ≤ lent.length

theorem holds_unwritten (lent : List UInt8) : (unwritten lent).Holds lent [] :=
  ⟨rfl, rfl, Nat.zero_le _⟩

theorem Holds.length (holds : buffer.Holds lent taken) : buffer.bytes.length = lent.length := by
  have fits := holds.fits
  rw [holds.bytes, List.length_append, length_encoded, List.length_drop]
  omega

theorem Holds.contents (holds : buffer.Holds lent taken) : buffer.contents = taken.utf8Encode := by
  rw [Buffer.contents, holds.bytes, holds.written, List.take_left' (length_encoded taken),
    List.utf8Encode]

/-- A character that fits is written. -/
theorem Holds.put?_fitting (holds : buffer.Holds lent taken)
    (fits : width taken + character.utf8Size ≤ lent.length) :
    ∃ next, buffer.put? character = some next ∧ next.Holds lent (taken ++ [character]) := by
  have room : buffer.written + character.utf8Size ≤ buffer.bytes.length := by
    rw [holds.written, holds.length]
    exact fits
  have behind : buffer.bytes.drop (width taken + character.utf8Size) =
      lent.drop (width taken + character.utf8Size) := by
    rw [holds.bytes, ← length_encoded taken, List.drop_length_add_append, List.drop_drop]
  rw [put?, dif_pos room]
  refine ⟨_, rfl, ?_, ?_, by simpa using fits⟩
  · simp only [holds.written, behind, List.flatMap_append, List.flatMap_singleton, width_append,
      width_cons, width_nil, Nat.add_zero]
    rw [holds.bytes, List.take_left' (length_encoded taken)]
  · simp [holds.written]

/-- A character that does not fit is not written. -/
theorem Holds.put?_full (holds : buffer.Holds lent taken)
    (full : lent.length < width taken + character.utf8Size) : buffer.put? character = none := by
  refine dif_neg fun room => ?_
  rw [holds.written, holds.length] at room
  exact Nat.not_lt_of_le room full

/-- As much of a text is written as fits. -/
theorem Holds.write (holds : buffer.Holds lent taken) (text : List Char) :
    ∃ more rest, text = more ++ rest ∧ (buffer.write text).1.Holds lent (taken ++ more) ∧
      Stops lent.length (taken ++ more) rest ∧ ((buffer.write text).2 = true ↔ rest = []) := by
  induction text generalizing buffer taken with
  | nil => exact ⟨[], [], rfl, by simpa [Buffer.write] using holds, trivial, by simp [Buffer.write]⟩
  | cons character text inductionHypothesis =>
    rcases Nat.lt_or_ge lent.length (width taken + character.utf8Size) with full | fits
    · refine ⟨[], character :: text, rfl, ?_⟩
      simpa [Buffer.write, holds.put?_full full, Stops] using ⟨holds, full⟩
    · obtain ⟨next, puts, held⟩ := holds.put?_fitting fits
      obtain ⟨more, rest, rfl, later, stops, complete⟩ := inductionHypothesis held
      refine ⟨character :: more, rest, rfl, ?_⟩
      rw [Buffer.write, puts]
      rw [List.append_assoc] at later stops
      exact ⟨later, stops, complete⟩

/-! ### Pieces -/

theorem write_append (buffer : Buffer) (text rest : List Char) :
    buffer.write (text ++ rest) =
      match buffer.write text with
      | (next, true) => next.write rest
      | (next, false) => (next, false) := by
  induction text generalizing buffer with
  | nil => rfl
  | cons character text inductionHypothesis =>
    rw [List.cons_append, Buffer.write, Buffer.write]
    cases buffer.put? character with
    | none => rfl
    | some next => exact inductionHypothesis next

/-- In which pieces a text arrives plays no part. -/
theorem writePieces_eq (buffer : Buffer) (pieces : List (List Char)) :
    buffer.writePieces pieces = buffer.write pieces.flatten := by
  induction pieces generalizing buffer with
  | nil => rfl
  | cons piece pieces inductionHypothesis =>
    rw [List.flatten_cons, write_append, writePieces]
    rcases buffer.write piece with ⟨next, _ | _⟩
    · rfl
    · exact inductionHypothesis next

/-- The bytes of whole characters are a text. -/
theorem Holds.text? (holds : buffer.Holds lent taken) :
    String.fromUTF8? buffer.contents = some (String.ofList taken) := by
  rw [holds.contents, String.fromUTF8?, dif_pos ByteArray.isValidUTF8_utf8Encode]
  exact congrArg some (String.toByteArray_inj.mp String.toByteArray_ofList.symm)

/-- What becomes of a text that is written to a buffer in pieces. -/
theorem writePieces_unwritten (lent : List UInt8) (pieces : List (List Char)) :
    ∃ taken, Longest lent.length pieces.flatten taken ∧
      ((unwritten lent).writePieces pieces).1.Holds lent taken ∧
      (((unwritten lent).writePieces pieces).2 = true ↔
        pieces.flatten.utf8Encode.size ≤ lent.length) := by
  rw [writePieces_eq]
  obtain ⟨taken, rest, text, holds, stops, complete⟩ := (holds_unwritten lent).write pieces.flatten
  rw [List.nil_append] at holds stops
  refine ⟨taken, ?_, holds, ?_⟩
  · rw [text]
    exact longest_of_stops holds.fits stops
  · rw [complete, text, size_utf8Encode, width_append]
    cases rest with
    | nil => simpa using holds.fits
    | cons character rest =>
      have full : lent.length < width taken + character.utf8Size := stops
      simp only [reduceCtorEq, width_cons, false_iff]
      omega

end Buffer

end TaskMachine.Text

namespace TaskMachine.Value

open Text

/-- The text of a value is read from the bytes that were written, whatever was in the buffer and in
whatever pieces the text came. -/
theorem text?_writePieces {value : Value} (lent : List UInt8) {pieces : List (List Char)}
    (whole : pieces.flatten = value.text.toList) :
    String.fromUTF8? ((Buffer.unwritten lent).writePieces pieces).1.contents =
      some (value.inBytes lent.length) := by
  -- both buffers hold the longest part, and there is only one
  obtain ⟨taken, longest, holds, _⟩ := Buffer.writePieces_unwritten lent pieces
  obtain ⟨other, otherLongest, otherHolds, _⟩ :=
    Buffer.writePieces_unwritten (List.replicate lent.length 0) [value.chars]
  rw [whole, text, String.toList_ofList] at longest
  rw [List.flatten_singleton, List.length_replicate] at otherLongest
  have same : taken = other :=
    (longest.mono otherLongest (Nat.le_refl _)).eq_of_length_le
      (otherLongest.mono longest (Nat.le_refl _)).length_le
  rw [Buffer.writePieces_eq, List.flatten_singleton] at otherHolds
  rw [holds.text?, inBytes, into, Buffer.text, otherHolds.text?, same, Option.getD_some]

/-- What a value shows in so many bytes is the longest part of its text. -/
theorem shows_longest (value : Value) (size : Nat) :
    Longest size value.text.toList (value.inBytes size).toList := by
  obtain ⟨taken, longest, holds, _⟩ :=
    Buffer.writePieces_unwritten (List.replicate size 0) [value.text.toList]
  have whole : [value.text.toList].flatten = value.text.toList := List.flatten_singleton
  have shown := text?_writePieces (List.replicate size 0) whole
  rw [List.length_replicate] at longest shown
  rw [List.flatten_singleton] at longest
  rw [← Option.some.inj (holds.text?.symm.trans shown), String.toList_ofList]
  exact longest

/-- However a text is cut into pieces, a buffer takes the longest part of it, in whole characters,
that it has room for, and leaves its other bytes alone; the bytes are those of a text, and an error
is reported just if the text has more bytes than the buffer. So a value shows the longest part of
its text, which is a part of what it shows in more bytes. -/
theorem inBytes_longest :
    (∀ (lent : List UInt8) (pieces : List (List Char)),
      let written := (Buffer.unwritten lent).writePieces pieces
      (∃ taken, Longest lent.length pieces.flatten taken ∧
        written.1.contents = taken.utf8Encode ∧ written.1.text = String.ofList taken) ∧
      written.1.contents.IsValidUTF8 ∧
      written.1.bytes.drop written.1.written = lent.drop written.1.written ∧
      (written.2 = false ↔ lent.length < pieces.flatten.utf8Encode.size)) ∧
    ∀ value : Value,
      (∀ (lent : List UInt8) (pieces : List (List Char)), pieces.flatten = value.text.toList →
        String.fromUTF8? ((Buffer.unwritten lent).writePieces pieces).1.contents =
          some (value.inBytes lent.length)) ∧
      (∀ size, Longest size value.text.toList (value.inBytes size).toList) ∧
      ∀ small large, small ≤ large →
        (value.inBytes small).toList <+: (value.inBytes large).toList := by
  refine ⟨fun lent pieces => ?_, fun value => ⟨fun lent pieces => text?_writePieces lent,
    value.shows_longest, fun small large le => ?_⟩⟩
  · obtain ⟨taken, longest, holds, complete⟩ := Buffer.writePieces_unwritten lent pieces
    refine ⟨⟨taken, longest, holds.contents, ?_⟩, ?_, ?_, ?_⟩
    · rw [Buffer.text, holds.text?, Option.getD_some]
    · rw [holds.contents]
      exact ByteArray.isValidUTF8_utf8Encode
    · rw [holds.bytes, holds.written, List.drop_left' (length_encoded taken)]
    · rw [← Bool.not_eq_true, complete, Nat.not_le]
  · exact (value.shows_longest small).mono (value.shows_longest large) le

/-- A character of two bytes does not fit behind one of one byte, and the third one, which would
have fitted, is not written either. -/
theorem accented_inBytes :
    ((Buffer.unwritten [7, 7]).writePieces [['a'], ['é', 'b']]).2 = false ∧
    ((Buffer.unwritten [7, 7]).writePieces [['a'], ['é', 'b']]).1.contents.size = 1 ∧
    ∃ taken, Longest 2 ['a', 'é', 'b'] taken ∧
      ((Buffer.unwritten [7, 7]).writePieces [['a'], ['é', 'b']]).1.text = String.ofList taken := by
  obtain ⟨⟨taken, longest, _, shown⟩, _, _, incomplete⟩ :=
    inBytes_longest.1 [7, 7] [['a'], ['é', 'b']]
  exact ⟨incomplete.mpr (by decide +kernel), by decide +kernel, taken, longest, shown⟩

end TaskMachine.Value
