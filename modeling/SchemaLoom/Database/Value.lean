import SchemaLoom.Json.Basic
import SchemaLoom.Text.Letters

/-!
# Stored values

A value is stored under the affinity of its column, which the declared type decides:
a numeric column turns numeric text into a number and a whole number of either kind
into an integer, a text column turns numbers into text.
-/

namespace SchemaLoom

/-- A value in a row. -/
inductive Value where
  | null
  | integer (value : Int)
  | real (value : Float)
  | text (value : String)
  | blob (bytes : List Nat)
  deriving Inhabited

namespace Value

/-- A value as JSON: a blob is the list of its bytes, and an infinite number is null. -/
def toJson : Value -> Json
  | null => .null
  | integer value => .integer value
  | real value =>
      match Decimal.ofFloat? value with
      | some decimal => .decimal decimal
      | none => .null
  | text value => .string value
  | blob bytes => .array (bytes.map fun (byte : Nat) => .integer byte)

/-- The integer equal to a floating-point number, if it lies well within 64 bits. -/
def wholeNumber? (value : Float) : Option Int :=
  if value.floor == value && value.abs < 9223372036854775808.0 then some value.toInt64.toInt
  else none

/-- Whether two values are the same for a key. Null is the same as nothing. -/
def sameKey : Value -> Value -> Bool
  | integer left, integer right => left == right
  | real left, real right => left == right
  | integer left, real right => wholeNumber? right == some left
  | real left, integer right => wholeNumber? left == some right
  | text left, text right => left == right
  | blob left, blob right => left == right
  | _, _ => false

/-- Whether a value is null. -/
def isNull : Value -> Bool
  | null => true
  | _ => false

/-- The text of a floating-point number in a text column: at most fifteen digits,
and at least one after the point. -/
def realText (value : Float) : String :=
  match Decimal.ofFloatRounded? value 15 with
  | none => if value > 0 then "Inf" else "-Inf"
  | some decimal =>
      let digits := Nat.toDigits 10 decimal.digits
      let exponent := (digits.length : Int) + decimal.exponent - 1
      if decimal.digits == 0 then "0.0"
      else if -4 ≤ exponent && exponent ≤ 14 then decimal.positional
      else
        let size := exponent.natAbs
        (if decimal.negative then "-" else "") ++ String.ofList (digits.take 1) ++ "." ++
          (if digits.length == 1 then "0" else String.ofList (digits.drop 1)) ++
          (if exponent < 0 then "e-" else "e+") ++ (if size < 10 then "0" else "") ++ toString size

/-- The number of decimal digits, and what follows them. -/
def takeDecimal (text : List Char) : List Char × List Char :=
  (text.takeWhile Char.isDigit, text.dropWhile Char.isDigit)

/-- The natural number that digits write. -/
def ofDigits (digits : List Char) : Nat :=
  digits.foldl (fun total digit => total * 10 + (digit.toNat - 0x30)) 0

/-- The bounds of integers. -/
def fitsInteger (value : Int) : Bool :=
  -0x8000000000000000 ≤ value && value < 0x8000000000000000

/-- The exponent at the end of a number, if what is left of the text is one. -/
def exponent? (text : List Char) : Option Int :=
  match text with
  | [] => some 0
  | mark :: rest =>
      if mark == 'e' || mark == 'E' then
        let negative := rest.head? == some '-'
        let digits := if negative || rest.head? == some '+' then rest.drop 1 else rest
        if digits.isEmpty || !digits.all Char.isDigit then none
        else if negative then some (-(ofDigits digits : Int))
        else some (ofDigits digits)
      else none

/-- A number without its sign: digits, a fraction and an exponent, of which only one
digit has to be there. Digits alone are an integer if they fit. -/
def unsigned? (negative : Bool) (text : List Char) : Option Value :=
  let (whole, rest) := takeDecimal text
  let pointed := rest.head? == some '.'
  let (fraction, tail) := if pointed then takeDecimal (rest.drop 1) else ([], rest)
  if whole.isEmpty && fraction.isEmpty then none
  else
    match exponent? tail with
    | none => none
    | some exponent =>
        let magnitude := if negative then -(ofDigits whole : Int) else ofDigits whole
        if !pointed && tail.isEmpty && fitsInteger magnitude then some (.integer magnitude)
        else
          let number : Decimal :=
            { negative
              digits := ofDigits (whole ++ fraction)
              exponent := exponent - fraction.length }
          some (.real number.toFloat)

/-- Whether a character is a blank around a number in text. -/
def isSpace (c : Char) : Bool :=
  c == ' ' || (9 ≤ c.toNat && c.toNat ≤ 13)

/-- The number that a text is, apart from blanks around it. -/
def numberOfText? (text : String) : Option Value :=
  let body := ((text.toList.dropWhile isSpace).reverse.dropWhile isSpace).reverse
  match body with
  | '-' :: rest => unsigned? true rest
  | '+' :: rest => unsigned? false rest
  | _ => unsigned? false body

/-- A floating-point number as an integer where it is one. -/
def preferInteger (value : Float) : Value :=
  match wholeNumber? value with
  | some whole => .integer whole
  | none => .real value

end Value

/-- How a column treats the values it stores. -/
inductive Affinity where
  | integer
  | text
  | blob
  | real
  | numeric
  deriving DecidableEq, Repr

namespace Affinity

/-- The affinity of a declared type, by the letters it contains. -/
def ofType (type : String) : Affinity :=
  let letters := Text.asciiUpper type.toList
  let has (part : String) : Bool := Text.contains part.toList letters
  if has "INT" then .integer
  else if has "CHAR" || has "CLOB" || has "TEXT" then .text
  else if has "BLOB" || letters.isEmpty then .blob
  else if has "REAL" || has "FLOA" || has "DOUB" then .real
  else .numeric

/-- A number as a column of numbers stores it. -/
def numberAs (affinity : Affinity) (value : Value) : Value :=
  match affinity, value with
  | .real, .integer whole => .real (Float.ofInt whole)
  | .real, .real value => .real (if value == 0 then 0 else value)
  | _, .real value => Value.preferInteger value
  | _, other => other

/-- A value as a column stores it. -/
def apply (affinity : Affinity) (value : Value) : Value :=
  match affinity, value with
  | .blob, other => other
  | .text, .integer whole => .text (toString whole)
  | .text, .real number => .text (Value.realText number)
  | .text, other => other
  | kind, .text written =>
      match Value.numberOfText? written with
      | some number => kind.numberAs number
      | none => .text written
  | kind, other => kind.numberAs other

end Affinity

end SchemaLoom
