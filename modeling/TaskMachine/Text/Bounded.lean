/-
Texts with a bound on their bytes. A buffer takes whole characters, in order,
and stops at the first one that has no room left: what it holds is then a
prefix of the text, and no later and shorter character is let in. The bytes of
a character overwrite what was there, and the bytes behind the text are not
touched.
-/

namespace TaskMachine.Text

/-- A buffer for text. -/
structure Buffer where
  /-- All its bytes. -/
  bytes : List UInt8
  /-- How many of them, from the first one on, were written. -/
  written : Nat
  within : written ≤ bytes.length

namespace Buffer

/-- A buffer with nothing written to it, whatever its bytes are. -/
def unwritten (bytes : List UInt8) : Buffer := ⟨bytes, 0, Nat.zero_le _⟩

/-- Writes one character, if it fits. -/
def put? (buffer : Buffer) (character : Char) : Option Buffer :=
  if fits : buffer.written + character.utf8Size ≤ buffer.bytes.length then
    some
      { bytes := buffer.bytes.take buffer.written ++ String.utf8EncodeChar character ++
          buffer.bytes.drop (buffer.written + character.utf8Size)
        written := buffer.written + character.utf8Size
        within := by
          simp only [List.length_append, List.length_take, String.length_utf8EncodeChar,
            List.length_drop]
          omega }
  else none

/-- Writes characters until one does not fit, and tells whether all of them did. -/
def write (buffer : Buffer) : List Char → Buffer × Bool
  | [] => (buffer, true)
  | character :: rest =>
    match buffer.put? character with
    | some next => next.write rest
    | none => (buffer, false)

/-- Writes pieces of a text one after another until one does not fit. -/
def writePieces (buffer : Buffer) : List (List Char) → Buffer × Bool
  | [] => (buffer, true)
  | piece :: rest =>
    match buffer.write piece with
    | (next, true) => next.writePieces rest
    | (next, false) => (next, false)

/-- The bytes that were written. -/
def contents (buffer : Buffer) : ByteArray := (buffer.bytes.take buffer.written).toByteArray

/-- The text that was written. If the bytes are none, it is empty. -/
def text (buffer : Buffer) : String := (String.fromUTF8? buffer.contents).getD ""

end Buffer

end TaskMachine.Text
