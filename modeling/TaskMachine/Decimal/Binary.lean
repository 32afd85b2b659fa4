/-
What a floating-point number is: not a number, an infinity, or a sign with a
whole number of units of some power of two. Every decimal text of a number is
made from this reading in exact arithmetic, so no text depends on how floating
point operations round.
-/

namespace TaskMachine.Decimal

/-- What the bits of a double precision number say. -/
inductive Binary where
  /-- No number. -/
  | nan
  /-- An infinity. -/
  | infinite (negative : Bool)
  /-- The number `± mantissa * 2 ^ exponent`. -/
  | finite (negative : Bool) (mantissa : Nat) (exponent : Int)
  deriving DecidableEq, Repr

namespace Binary

/-- The reading of 64 bits: one of sign, eleven of exponent and 52 of fraction. A number with
the least exponent has no leading bit besides its fraction. -/
def ofBits (bits : UInt64) : Binary :=
  let word := bits.toNat
  let negative := Nat.pow 2 63 ≤ word
  let field : Nat := word / Nat.pow 2 52 % Nat.pow 2 11
  let fraction := word % Nat.pow 2 52
  if field = 2047 then
    if fraction = 0 then .infinite negative else .nan
  else if field = 0 then .finite negative fraction (-1074)
  else .finite negative (Nat.pow 2 52 + fraction) ((field : Int) - 1075)

/-- The reading of a number. -/
def ofFloat (number : Float) : Binary := ofBits number.toBits

end Binary

/-- A magnitude, as a fraction of whole numbers. -/
structure Ratio where
  numerator : Nat
  denominator : Nat
  deriving DecidableEq, Repr

/-- The magnitude `mantissa * 2 ^ exponent`. -/
def Ratio.ofBinary (mantissa : Nat) (exponent : Int) : Ratio :=
  ⟨mantissa * Nat.pow 2 exponent.toNat, Nat.pow 2 (-exponent).toNat⟩

end TaskMachine.Decimal
