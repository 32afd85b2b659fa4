/-
Decimal texts with a fixed number of places. The exact magnitude is rounded to
the nearest multiple of the last place; a magnitude half way between two of
them goes to the even one.
-/

import TaskMachine.Decimal.Binary

namespace TaskMachine.Decimal

/-- The whole number nearest to a fraction; of two that are equally near, the even one. -/
def Ratio.roundHalfEven (ratio : Ratio) : Nat :=
  let quotient := ratio.numerator / ratio.denominator
  let twice := 2 * (ratio.numerator % ratio.denominator)
  if twice < ratio.denominator then quotient
  else if ratio.denominator < twice then quotient + 1
  else if quotient % 2 = 0 then quotient
  else quotient + 1

/-- A magnitude in units of the last of so many decimal places. -/
def Ratio.inPlaces (ratio : Ratio) (places : Nat) : Ratio :=
  ⟨ratio.numerator * Nat.pow 10 places, ratio.denominator⟩

/-- The digits of a number, with zeros in front up to a number of places. -/
def paddedDigits (places number : Nat) : List Char :=
  let digits := Nat.toDigits 10 number
  List.replicate (places - digits.length) '0' ++ digits

/-- A whole number of units of the last place: a point before the last `places` digits. -/
def pointed (places units : Nat) : List Char :=
  Nat.toDigits 10 (units / Nat.pow 10 places) ++
    '.' :: paddedDigits places (units % Nat.pow 10 places)

/-- The text of a number with so many places after the point. A negative number keeps its sign
even where it is rounded to zero. -/
def fixed (places : Nat) (number : Float) : List Char :=
  match Binary.ofFloat number with
  | .nan => ['N', 'a', 'N']
  | .infinite negative => (if negative then ['-'] else []) ++ ['i', 'n', 'f']
  | .finite negative mantissa exponent =>
    (if negative then ['-'] else []) ++
      pointed places ((Ratio.ofBinary mantissa exponent).inPlaces places).roundHalfEven

end TaskMachine.Decimal
