/-!
# Shortest decimals

A finite floating-point number is written with the fewest decimal digits that read
back as the same number and, among those, with the ones nearest to it. The digits
are found in exact arithmetic on the grids of one, two, and up to seventeen digits:
the first grid with a point in the interval of reals that round to the number wins.
-/

namespace SchemaLoom

/-- A decimal number `digits * 10 ^ exponent`, with its sign. -/
structure Decimal where
  negative : Bool
  digits : Nat
  exponent : Int
  deriving DecidableEq, Repr, Inhabited

namespace Decimal

/-- The positive number `mantissa * 2 ^ exponent`. -/
structure Binary where
  mantissa : Nat
  exponent : Int

/-- A power of two that may be negative, as numerator and denominator. -/
def powerOfTwo (exponent : Int) : Nat × Nat :=
  if 0 ≤ exponent then (Nat.pow 2 exponent.toNat, 1) else (1, Nat.pow 2 (-exponent).toNat)

/-- A power of ten that may be negative, as numerator and denominator. -/
def powerOfTen (exponent : Int) : Nat × Nat :=
  if 0 ≤ exponent then (Nat.pow 10 exponent.toNat, 1) else (1, Nat.pow 10 (-exponent).toNat)

/-- The number of decimal places before the first digit of the fraction
`numerator / denominator` that is not zero, at most the given bound. -/
def leadingPlaces (numerator denominator : Nat) : Nat -> Nat
  | 0 => 0
  | bound + 1 =>
      if denominator ≤ numerator then 0
      else leadingPlaces (numerator * 10) denominator bound + 1

/-- The greatest exponent of ten not above a positive fraction. -/
def order (numerator denominator : Nat) : Int :=
  if denominator ≤ numerator then
    ((Nat.toDigits 10 (numerator / denominator)).length : Int) - 1
  else -(leadingPlaces numerator denominator 400 : Int)

/-- The interval of reals that round to a number, in quarters of its last binary
place, and whether its ends belong to it. -/
structure Interval where
  low : Nat
  middle : Nat
  high : Nat
  closed : Bool

/-- The interval of a number. Just above a power of two the lower half is narrower. -/
def Binary.interval (number : Binary) : Interval :=
  { low := 4 * number.mantissa -
      (if number.mantissa == 0x10000000000000 && number.exponent > -1074 then 1 else 2)
    middle := 4 * number.mantissa
    high := 4 * number.mantissa + 2
    closed := number.mantissa % 2 == 0 }

/-- Whether an interval holds the point `units * 10 ^ place`, given the size of a
quarter of the last binary place. -/
def Interval.holds (interval : Interval) (quarter : Nat × Nat) (units : Nat) (place : Int) :
    Bool :=
  let unit := powerOfTen place
  let point := units * unit.1 * quarter.2
  let low := interval.low * quarter.1 * unit.2
  let high := interval.high * quarter.1 * unit.2
  if interval.closed then low ≤ point && point ≤ high else low < point && point < high

/-- The distance of a point of a grid from the middle of an interval, up to a factor
that depends on the grid alone. -/
def Interval.distance (interval : Interval) (quarter : Nat × Nat) (units : Nat) (place : Int) :
    Nat :=
  let unit := powerOfTen place
  let point := units * unit.1 * quarter.2
  let middle := interval.middle * quarter.1 * unit.2
  (point - middle) + (middle - point)

/-- The point of a grid nearest to a number among those that read back as it. -/
def pointOnGrid? (interval : Interval) (quarter : Nat × Nat) (place : Int) : Option Nat :=
  let unit := powerOfTen place
  let below := interval.middle * quarter.1 * unit.2 / (unit.1 * quarter.2)
  let holds (units : Nat) : Bool := interval.holds quarter units place
  let distance (units : Nat) : Nat := interval.distance quarter units place
  if holds below && holds (below + 1) then
    if distance below < distance (below + 1) then some below
    else if distance (below + 1) < distance below then some (below + 1)
    else if below % 2 == 0 then some below else some (below + 1)
  else if holds below then some below
  else if holds (below + 1) then some (below + 1)
  else none

/-- A positive number without the zeros at its end. -/
def dropZeros (digits : Nat) (exponent : Int) : Nat -> Nat × Int
  | 0 => (digits, exponent)
  | bound + 1 =>
      if digits != 0 && digits % 10 == 0 then dropZeros (digits / 10) (exponent + 1) bound
      else (digits, exponent)

/-- The point of the first grid that has one, on grids from the given number of
digits on. -/
def searchGrids (interval : Interval) (quarter : Nat × Nat) (order : Int) (digits : Nat) :
    Nat -> Nat × Int
  | 0 => (0, 0)
  | bound + 1 =>
      let place : Int := order - (digits : Int) + 1
      match pointOnGrid? interval quarter place with
      | some units => dropZeros units place 20
      | none => searchGrids interval quarter order (digits + 1) bound

/-- The shortest digits and exponent of a positive number. -/
def Binary.shortest (number : Binary) : Nat × Int :=
  let quarter := powerOfTwo (number.exponent - 2)
  let interval := number.interval
  searchGrids interval quarter (order (interval.middle * quarter.1) quarter.2) 1 17

/-- The binary form of a floating-point number without its sign. -/
def magnitude (x : Float) : Binary :=
  let bits := x.toBits.toNat
  let biased : Nat := bits / 0x10000000000000 % 0x800
  let fraction : Nat := bits % 0x10000000000000
  if biased == 0 then { mantissa := fraction, exponent := -1074 }
  else { mantissa := 0x10000000000000 + fraction, exponent := (biased : Int) - 1075 }

/-- Whether a floating-point number has its sign bit set. -/
def isNegative (x : Float) : Bool :=
  x.toBits.toNat / 0x8000000000000000 == 1

/-- The decimal of a floating-point number whose digits and exponent are found from its
binary form, or none if it is not finite. -/
def ofFloatBy? (decimal : Binary -> Nat × Int) (x : Float) : Option Decimal :=
  if !x.isFinite then none
  else
    let number := magnitude x
    if number.mantissa == 0 then some { negative := isNegative x, digits := 0, exponent := 0 }
    else
      let (digits, exponent) := decimal number
      some { negative := isNegative x, digits, exponent }

/-- The shortest decimal of a floating-point number, or none if it is not finite. -/
def ofFloat? : Float -> Option Decimal :=
  ofFloatBy? Binary.shortest

/-- A positive number rounded to the given count of digits; a half goes up. -/
def Binary.rounded (number : Binary) (count : Nat) : Nat × Int :=
  let scale := powerOfTwo number.exponent
  let numerator := number.mantissa * scale.1
  let place := order numerator scale.2 - (count : Int) + 1
  let unit := powerOfTen place
  let units := (2 * numerator * unit.2 + unit.1 * scale.2) / (2 * unit.1 * scale.2)
  dropZeros units place 400

/-- A floating-point number rounded to the given count of digits, or none if it is
not finite. -/
def ofFloatRounded? (x : Float) (count : Nat) : Option Decimal :=
  ofFloatBy? (Binary.rounded · count) x

/-- The floating-point number nearest to a decimal. It is infinite for a decimal that
is too large, and zero for one that is too small. -/
def toFloat (decimal : Decimal) : Float :=
  let size : Int := (Nat.toDigits 10 decimal.digits).length
  let magnitude : Float :=
    if decimal.digits == 0 || decimal.exponent + size < -400 then 0
    else if 400 < decimal.exponent then Float.ofScientific 1 false 400
    else Float.ofScientific decimal.digits (decimal.exponent < 0) decimal.exponent.natAbs
  if decimal.negative then -magnitude else magnitude

/-- The digits of a number in base ten. -/
def digitText (digits : Nat) : String :=
  String.ofList (Nat.toDigits 10 digits)

/-- The given number of zeros. -/
def zeros (count : Nat) : String :=
  String.ofList (List.replicate count '0')

/-- A decimal without exponent and with at least one digit on both sides of the
point. -/
def positional (decimal : Decimal) : String :=
  let text := digitText decimal.digits
  let sign := if decimal.negative then "-" else ""
  let point := (text.length : Int) + decimal.exponent
  if decimal.digits == 0 then sign ++ "0.0"
  else if 0 ≤ decimal.exponent then sign ++ text ++ zeros decimal.exponent.toNat ++ ".0"
  else if 0 < point then
    sign ++ String.ofList (text.toList.take point.toNat) ++ "." ++
      String.ofList (text.toList.drop point.toNat)
  else sign ++ "0." ++ zeros (-point).toNat ++ text

/-- A decimal with one digit before the point and an exponent. -/
def scientific (decimal : Decimal) : String :=
  let text := Nat.toDigits 10 decimal.digits
  let sign := if decimal.negative then "-" else ""
  let exponent := (text.length : Int) + decimal.exponent - 1
  sign ++ String.ofList (text.take 1) ++
    (if text.length == 1 then "" else "." ++ String.ofList (text.drop 1)) ++
    "e" ++ toString exponent

/-- A decimal as JSON output shows it: positional where the point stands at most
sixteen digits after the first digit or four zeros before it, else with an exponent. -/
def text (decimal : Decimal) : String :=
  let point := ((digitText decimal.digits).length : Int) + decimal.exponent
  if decimal.digits == 0 || (-5 < point && point ≤ 16) then decimal.positional
  else decimal.scientific

end Decimal

end SchemaLoom
