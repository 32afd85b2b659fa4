/-
The shortest decimal text of a number that still determines it. The reals that
round to a number form an interval, whose ends belong to it exactly if the
mantissa is even. For one digit, two digits and so on, up to the seventeen that
always suffice, the two neighbours of the number on that decimal grid are
tried; the first grid with a neighbour in the interval wins, and of two
neighbours in it the nearer one, the upper one if they are equally near.

Where the point goes is a matter of the text: `Layout` says which magnitudes
are written positionally, and all others get an exponent.
-/

import TaskMachine.Decimal.Binary

namespace TaskMachine.Decimal

/-- Decimal digits with a place: the magnitude `0.d₁d₂… * 10 ^ point`. -/
structure Digits where
  /-- The digits, the first of them not zero. -/
  digits : List Char
  /-- The power of ten that the digits, read as a fraction, are multiplied by. -/
  point : Int
  deriving DecidableEq, Repr

/-- The magnitudes that round to a number: its own magnitude and the ends of the interval, all
over one denominator. -/
structure Rounding where
  lower : Nat
  value : Nat
  upper : Nat
  denominator : Nat
  /-- Whether the ends round to the number as well. -/
  closed : Bool
  deriving DecidableEq, Repr

/-- The interval of a number that is not zero. Below a power of two, where the exponent changes,
the numbers lie twice as close together. -/
def Rounding.ofBinary (mantissa : Nat) (exponent : Int) : Rounding :=
  let scale := Nat.pow 2 (exponent - 2).toNat
  let below := if mantissa = Nat.pow 2 52 ∧ exponent ≠ -1074 then 1 else 2
  { lower := (4 * mantissa - below) * scale
    value := 4 * mantissa * scale
    upper := (4 * mantissa + 2) * scale
    denominator := Nat.pow 2 (2 - exponent).toNat
    closed := mantissa % 2 = 0 }

/-- Whether `count` units of `10 ^ unit` round to the number. -/
def Rounding.holds (rounding : Rounding) (count : Nat) (unit : Int) : Bool :=
  let candidate := count * Nat.pow 10 unit.toNat * rounding.denominator
  let scale := Nat.pow 10 (-unit).toNat
  if rounding.closed then
    decide (rounding.lower * scale ≤ candidate ∧ candidate ≤ rounding.upper * scale)
  else
    decide (rounding.lower * scale < candidate ∧ candidate < rounding.upper * scale)

/-- The number of zeros between the point and the first digit of a magnitude below one. -/
def leadingZeros (numerator denominator : Nat) : Nat → Nat
  | 0 => 0
  | fuel + 1 =>
    if denominator ≤ 10 * numerator then 0
    else leadingZeros (10 * numerator) denominator fuel + 1

/-- The least power of ten above a magnitude. -/
def Rounding.magnitude (rounding : Rounding) : Int :=
  if rounding.denominator ≤ rounding.value then
    (Nat.toDigits 10 (rounding.value / rounding.denominator)).length
  else -(leadingZeros rounding.value rounding.denominator 400 : Int)

/-- The neighbour on the grid of `10 ^ unit` that rounds to the number, if one does. -/
def Rounding.onGrid (rounding : Rounding) (unit : Int) : Option Nat :=
  let numerator := rounding.value * Nat.pow 10 (-unit).toNat
  let denominator := rounding.denominator * Nat.pow 10 unit.toNat
  let floor := numerator / denominator
  let nearer := if 2 * (numerator % denominator) < denominator then floor else floor + 1
  let other := if nearer = floor then floor + 1 else floor
  if rounding.holds nearer unit then some nearer
  else if rounding.holds other unit then some other
  else none

/-- The digits of the first grid that has a neighbour in the interval, from the grid with
`count` digits on, for so many grids. -/
def Rounding.search (rounding : Rounding) (count : Nat) : Nat → Nat × Int
  | 0 => (0, 0)
  | grids + 1 =>
    let unit := rounding.magnitude - count
    match rounding.onGrid unit with
    | some found => (found, unit)
    | none => rounding.search (count + 1) grids

/-- The shortest digits of a number that is not zero. -/
def shortest (mantissa : Nat) (exponent : Int) : Digits :=
  let (found, unit) := (Rounding.ofBinary mantissa exponent).search 1 17
  let written := Nat.toDigits 10 found
  { digits := (written.reverse.dropWhile (· == '0')).reverse
    point := unit + written.length }

/-! ### Placing the point -/

/-- Which numbers are written positionally. -/
structure Layout where
  /-- The least `point` of digits that are written positionally. -/
  leastPoint : Int
  /-- The greatest `point` of digits that are written positionally. -/
  greatestPoint : Int
  deriving DecidableEq, Repr

/-- Digits written with a point and at least one digit on either side of it. -/
def Digits.positional (number : Digits) : List Char :=
  let zeros (count : Int) := List.replicate count.toNat '0'
  if number.point ≤ 0 then '0' :: '.' :: (zeros (-number.point) ++ number.digits)
  else
    let padded := number.digits ++ zeros (number.point - number.digits.length)
    let whole := padded.take number.point.toNat
    let rest := padded.drop number.point.toNat
    whole ++ '.' :: (if rest.isEmpty then ['0'] else rest)

/-- Digits written with an exponent of ten, and a point only if there is more than one. -/
def Digits.scientific (number : Digits) : List Char :=
  let exponent := (number.point - 1).repr.toList
  match number.digits with
  | [] => '0' :: 'e' :: exponent
  | [digit] => digit :: 'e' :: exponent
  | digit :: rest => digit :: '.' :: rest ++ 'e' :: exponent

/-- The shortest text of a number. -/
def Layout.text (layout : Layout) (number : Float) : List Char :=
  match Binary.ofFloat number with
  | .nan => ['N', 'a', 'N']
  | .infinite negative => (if negative then ['-'] else []) ++ ['i', 'n', 'f']
  | .finite negative mantissa exponent =>
    let sign := if negative then ['-'] else []
    if mantissa = 0 then sign ++ ['0', '.', '0']
    else
      let digits := shortest mantissa exponent
      sign ++ if layout.leastPoint ≤ digits.point ∧ digits.point ≤ layout.greatestPoint then
          digits.positional
        else digits.scientific

end TaskMachine.Decimal
