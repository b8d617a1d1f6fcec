import SchemaLoom.Json.Token

/-!
# The values of numbers

Whole numbers of 64 bits are exact. Every other number is computed in floating
point from its first digits and a power of ten: digits beyond 64 bits count for
their place only, and the scaling is one multiplication or division, repeated for
very small numbers. A negative zero is a floating-point number. A number too large
for floating point has no value.
-/

namespace SchemaLoom.Json

/-- The value of a number. -/
inductive Number where
  | integer (value : Int)
  | real (value : Float)

namespace Number

/-- The first number beyond 64 bits. -/
def wordLimit : Nat :=
  0x10000000000000000

/-- Takes digits into a number while it stays within 64 bits; what is left over
follows it. -/
def takeDigits (value : Nat) : List Nat -> Nat × List Nat
  | [] => (value, [])
  | digit :: digits =>
      if value * 10 + digit < wordLimit then takeDigits (value * 10 + digit) digits
      else (value, digit :: digits)

/-- A positive power of ten up to the largest one that floating point has. -/
def powerOfTen (exponent : Nat) : Float :=
  Float.ofScientific 1 false exponent

/-- Brings an exponent below the smallest power of ten into reach, at most the given
number of times; then the value has long become zero. -/
def raise (value : Float) (exponent : Int) : Nat -> Float × Int
  | 0 => (value, exponent)
  | bound + 1 =>
      if exponent < -308 && value != 0 then
        raise (value / powerOfTen 308) (exponent + 308) bound
      else (value, exponent)

/-- A number scaled by a power of ten, unless it is too large. -/
def scale? (significand : Nat) (exponent : Int) : Option Float :=
  let (value, place) := raise significand.toUInt64.toFloat exponent 4
  if value == 0 then some value
  else if place > 308 then none
  else if 0 ≤ place then
    let scaled := value * powerOfTen place.toNat
    if scaled.isInf then none else some scaled
  else some (value / powerOfTen (-place).toNat)

/-- The exponent that digits give, unless it does not fit 31 bits. -/
def exponentValue? (digits : List Nat) : Option Nat :=
  let value := digits.foldl (fun total digit => total * 10 + digit) 0
  if value < 0x80000000 then some value else none

/-- The magnitude of a number with a fraction or an exponent, or beyond 64 bits. -/
def magnitude? (number : Numeral) : Option Float :=
  let (whole, beyond) := takeDigits 0 number.whole
  let (significand, dropped) := takeDigits whole number.fraction
  let place := (beyond.length : Int) - ((number.fraction.length - dropped.length : Nat) : Int)
  match number.exponent with
  | none => scale? significand place
  | some (negative, digits) =>
      match exponentValue? digits with
      | some exponent => scale? significand (if negative then place - exponent else place + exponent)
      | none => if significand != 0 && !negative then none else some 0

/-- The value of a number, or none if it is too large. -/
def ofNumeral? (number : Numeral) : Option Number :=
  let (whole, beyond) := takeDigits 0 number.whole
  let exact := beyond.isEmpty && number.fraction.isEmpty && number.exponent.isNone
  if exact && !number.negative then some (.integer whole)
  else if exact && 0 < whole && whole ≤ 0x8000000000000000 then some (.integer (-whole))
  else
    (if exact then some whole.toUInt64.toFloat else magnitude? number).map fun value =>
      .real (if number.negative then -value else value)

end Number

end SchemaLoom.Json
