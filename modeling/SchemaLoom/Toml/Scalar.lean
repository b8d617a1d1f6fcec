import SchemaLoom.Decimal
import SchemaLoom.Toml.Basic

/-!
# Numbers, dates and truth values in documents

A value that is neither quoted nor bracketed is one run of characters, read as a whole.
Underscores may stand between digits. An integer fits 64 bits; a number with a
fraction does not exceed floating point; a date exists in the calendar.
-/

namespace SchemaLoom.Toml

/-- Whether a character can stand in a bare value. -/
def isBare (c : Char) : Bool :=
  c.isAlphanum || c == '_' || c == '-' || c == '+' || c == '.' || c == ':'

/-- Digits with single underscores between them, without the underscores. -/
def digits? (isDigit : Char -> Bool) (text : List Char) : Option (List Char) :=
  let plain := text.filter (· != '_')
  let pieces := (String.ofList text).splitOn "_"
  if pieces.all (fun piece => !piece.isEmpty) && plain.all isDigit then some plain else none

/-- The number that digits write in a base. -/
def ofDigits (base : Nat) (digits : List Char) : Nat :=
  digits.foldl (fun total c =>
    total * base +
      (if c.isDigit then c.toNat - 0x30
        else if c.toNat < 0x60 then c.toNat - 0x37
        else c.toNat - 0x57)) 0

/-- A number that fits 64 bits. -/
def bounded (value : Int) : Option Toml :=
  if -0x8000000000000000 ≤ value && value < 0x8000000000000000 then some (.integer value)
  else none

/-- A sign, and what follows it. -/
def takeSign : List Char -> Bool × List Char
  | '-' :: rest => (true, rest)
  | '+' :: rest => (false, rest)
  | text => (false, text)

/-- Decimal digits of which the first is a zero only if it is the only one. -/
def whole? (text : List Char) : Option (List Char) :=
  match digits? Char.isDigit text with
  | some ('0' :: _ :: _) => none
  | found => found

/-- An integer in base ten with a sign, or in another base without. -/
def integer? : List Char -> Option Toml
  | '0' :: 'x' :: rest =>
      let isDigit (c : Char) : Bool :=
        c.isDigit || ('a' ≤ c && c ≤ 'f') || ('A' ≤ c && c ≤ 'F')
      (digits? isDigit rest).bind fun digits => bounded (ofDigits 16 digits)
  | '0' :: 'o' :: rest =>
      (digits? (fun c => '0' ≤ c && c ≤ '7') rest).bind fun digits => bounded (ofDigits 8 digits)
  | '0' :: 'b' :: rest =>
      (digits? (fun c => c == '0' || c == '1') rest).bind fun digits => bounded (ofDigits 2 digits)
  | text =>
      let (negative, rest) := takeSign text
      (whole? rest).bind fun digits =>
        bounded (if negative then -(ofDigits 10 digits : Int) else ofDigits 10 digits)

/-- The exponent after the mantissa of a number; an empty text is none. -/
def exponent? : List Char -> Option Int
  | [] => some 0
  | _ :: rest =>
      let (negative, rest) := takeSign rest
      (digits? Char.isDigit rest).map fun digits =>
        if negative then -(ofDigits 10 digits : Int) else ofDigits 10 digits

/-- A number with a fraction or an exponent. Only a positive one can be too large. -/
def real? (text : List Char) : Option Toml :=
  let (negative, rest) := takeSign text
  if rest == "inf".toList || rest == "nan".toList then some .real
  else
    let isMark (c : Char) : Bool := c == 'e' || c == 'E'
    let mantissa := rest.takeWhile fun c => !isMark c
    let scale := rest.dropWhile fun c => !isMark c
    let whole := mantissa.takeWhile (· != '.')
    let fraction := (mantissa.dropWhile (· != '.')).drop 1
    let pointed := mantissa.contains '.'
    if !pointed && scale.isEmpty then none
    else
      match whole? whole, (if pointed then digits? Char.isDigit fraction else some []),
        exponent? scale with
      | some whole, some fraction, some exponent =>
          let number : Decimal :=
            { negative, digits := ofDigits 10 (whole ++ fraction)
              exponent := exponent - fraction.length }
          if number.toFloat.isInf && !negative then none else some .real
      | _, _, _ => none

/-- The number that exactly so many digits write. -/
def fixed? (count : Nat) (text : List Char) : Option Nat :=
  if text.length == count && text.all Char.isDigit then some (ofDigits 10 text) else none

/-- The number of days in a month. -/
def daysIn (year month : Nat) : Nat :=
  if month == 2 then
    if year % 4 == 0 && (year % 100 != 0 || year % 400 == 0) then 29 else 28
  else if month == 4 || month == 6 || month == 9 || month == 11 then 30
  else 31

/-- Whether a text is a date. -/
def isDate (text : List Char) : Bool :=
  match fixed? 4 (text.take 4), fixed? 2 ((text.drop 5).take 2), fixed? 2 (text.drop 8) with
  | some year, some month, some day =>
      text[4]? == some '-' && text[7]? == some '-' && 1 ≤ month && month ≤ 12 && 1 ≤ day &&
        day ≤ daysIn year month
  | _, _, _ => false

/-- Whether a text is a fraction of a second, or nothing. -/
def isFraction : List Char -> Bool
  | [] => true
  | c :: digits => c == '.' && !digits.isEmpty && digits.all Char.isDigit

/-- Whether a text is a time of day. -/
def isTime (text : List Char) : Bool :=
  match fixed? 2 (text.take 2), fixed? 2 ((text.drop 3).take 2), fixed? 2 ((text.drop 6).take 2) with
  | some hour, some minute, some second =>
      text[2]? == some ':' && text[5]? == some ':' && hour ≤ 23 && minute ≤ 59 && second ≤ 60 &&
        isFraction (text.drop 8)
  | _, _, _ => false

/-- Whether a text is the distance from the prime meridian in hours and minutes. -/
def isOffset (text : List Char) : Bool :=
  text == ['Z'] || text == ['z'] ||
    match fixed? 2 ((text.drop 1).take 2), fixed? 2 (text.drop 4) with
    | some hours, some minutes =>
        (text.head? == some '+' || text.head? == some '-') && text[3]? == some ':' &&
          hours ≤ 23 && minutes ≤ 59
    | _, _ => false

/-- Whether a text is a time of day, perhaps with an offset. -/
def isZonedTime (text : List Char) : Bool :=
  let isStart (c : Char) : Bool := c == 'Z' || c == 'z' || c == '+' || c == '-'
  let offset := text.dropWhile fun c => !isStart c
  isTime (text.takeWhile fun c => !isStart c) && (offset.isEmpty || isOffset offset)

/-- Whether a text is a date, a time, or a date with a time after a separator. -/
def isMoment (text : List Char) : Bool :=
  let separator := text[10]?
  isDate text || isTime text ||
    ((separator == some 'T' || separator == some 't' || separator == some ' ') &&
      isDate (text.take 10) && isZonedTime (text.drop 11))

/-- The value that a bare run of characters is. -/
def scalar? (text : List Char) : Option Toml :=
  if text == "true".toList then some (.boolean true)
  else if text == "false".toList then some (.boolean false)
  else if isMoment text then some .moment
  else (integer? text).or (real? text)

/-- Splits a bare value off a text. A date takes the time after a space along. -/
def takeBare (text : List Char) : List Char × List Char :=
  let run := text.takeWhile isBare
  let rest := text.dropWhile isBare
  match rest with
  | ' ' :: c :: more =>
      if isBare c && isDate run then
        (run ++ ' ' :: (c :: more).takeWhile isBare, (c :: more).dropWhile isBare)
      else (run, rest)
  | _ => (run, rest)

end SchemaLoom.Toml
