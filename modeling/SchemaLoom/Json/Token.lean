import SchemaLoom.Text.Letters

/-!
# JSON tokens

The lexer never fails: where the text stops being JSON, the list of tokens ends with
one that says how. Strings keep their escaped surrogates apart and numbers keep
their digits, because what is skipped is held to fewer rules than what is read.
-/

namespace SchemaLoom.Json

/-- Why a text is not JSON. -/
inductive Fault where
  /-- Something stands where it must not. -/
  | malformed
  /-- The text ends too soon. -/
  | ended
  deriving DecidableEq, Repr

/-- A place where a text stops being JSON: the fault if the value there is read, and
the fault if it is skipped. -/
structure Break where
  whenRead : Fault
  whenSkipped : Fault
  deriving DecidableEq, Repr

namespace Break

/-- A break that is the same fault for every reader. -/
def always (fault : Fault) : Break :=
  { whenRead := fault, whenSkipped := fault }

/-- A number without its next digit: an end of the text counts as such only where
the number is read. -/
def missingDigit (rest : List Char) : Break :=
  { whenRead := if rest.isEmpty then .ended else .malformed, whenSkipped := .malformed }

end Break

/-- A part of a string: a character, or an escaped surrogate, which stands for one
only in a pair. -/
inductive Piece where
  | char (c : Char)
  | surrogate (unit : Nat)
  deriving DecidableEq, Repr

/-- A string as written, up to its closing quote or the fault before it. -/
structure Quoted where
  pieces : List Piece
  fault : Option Fault
  deriving DecidableEq, Repr

/-- A number as written, by its digits. -/
structure Numeral where
  negative : Bool
  whole : List Nat
  fraction : List Nat
  /-- The sign and digits after the `e`. -/
  exponent : Option (Bool × List Nat)
  deriving DecidableEq, Repr

/-- A token of JSON. -/
inductive Token where
  | openArray
  | closeArray
  | openObject
  | closeObject
  | comma
  | colon
  | null
  | bool (value : Bool)
  | number (value : Numeral)
  | string (value : Quoted)
  | broken (place : Break)
  deriving DecidableEq, Repr

/-- The part of a string that the code unit of an escape stands for. -/
def Piece.ofUnit (unit : Nat) : Piece :=
  if 0xD800 ≤ unit && unit ≤ 0xDFFF then .surrogate unit else .char (Char.ofNat unit)

/-- The part of a string that an escape by four hexadecimal digits stands for. -/
def Piece.ofHex? (a b c d : Char) : Option Piece :=
  match Text.hexValue? a, Text.hexValue? b, Text.hexValue? c, Text.hexValue? d with
  | some a, some b, some c, some d => some (.ofUnit (((a * 16 + b) * 16 + c) * 16 + d))
  | _, _, _, _ => none

/-- The character that an escape by one letter stands for. -/
def escapedChar? (c : Char) : Option Char :=
  if c == '\x22' || c == '\\' || c == '/' then some c
  else if c == 'b' then some '\x08'
  else if c == 'f' then some '\x0c'
  else if c == 'n' then some '\n'
  else if c == 'r' then some '\r'
  else if c == 't' then some '\t'
  else none

namespace Quoted

/-- A string that stops at a fault right away. -/
def stop (fault : Fault) : Quoted :=
  { pieces := [], fault := some fault }

/-- Puts a part in front of a string. -/
def cons (piece : Piece) (text : Quoted) : Quoted :=
  { text with pieces := piece :: text.pieces }

/-- Reads a string from just after its opening quote. An escape by hexadecimal
digits needs four bytes of text to be judged by its digits. -/
def read : List Char -> Quoted × List Char
  | [] => (stop .ended, [])
  | '\\' :: 'u' :: a :: b :: c :: d :: rest =>
      match Piece.ofHex? a b c d with
      | some piece =>
          let (text, remaining) := read rest
          (text.cons piece, remaining)
      | none => (stop .malformed, [])
  | '\\' :: 'u' :: rest =>
      (stop (if (String.ofList rest).utf8ByteSize < 4 then .ended else .malformed), [])
  | '\\' :: c :: rest =>
      match escapedChar? c with
      | some escaped =>
          let (text, remaining) := read rest
          (text.cons (.char escaped), remaining)
      | none => (stop .malformed, [])
  | ['\\'] => (stop .ended, [])
  | c :: rest =>
      if c == '\x22' then ({ pieces := [], fault := none }, rest)
      else if c.toNat < 0x20 then (stop .malformed, [])
      else
        let (text, remaining) := read rest
        (text.cons (.char c), remaining)

/-- Reading a string leaves no more than the text. -/
theorem read_length (text : List Char) : (read text).2.length ≤ text.length := by
  fun_induction read text <;> simp_all <;> omega

end Quoted

/-- The leading digits of a text, and what follows them. -/
def digits : List Char -> List Nat × List Char
  | [] => ([], [])
  | c :: rest =>
      if c.isDigit then
        let (values, remaining) := digits rest
        ((c.toNat - 0x30) :: values, remaining)
      else ([], c :: rest)

/-- No text grows when its digits are read. -/
theorem digits_length (text : List Char) : (digits text).2.length ≤ text.length := by
  fun_induction digits text <;> simp_all
  omega

namespace Numeral

/-- Reads the exponent of a number, if there is one. -/
def readExponent (number : Numeral) (text : List Char) : Token × List Char :=
  match text with
  | c :: rest =>
      if c == 'e' || c == 'E' then
        let negative := rest.head? == some '-'
        let unsigned := if negative || rest.head? == some '+' then rest.drop 1 else rest
        match digits unsigned with
        | ([], remaining) => (.broken (.missingDigit remaining), [])
        | (values, remaining) =>
            (.number { number with exponent := some (negative, values) }, remaining)
      else (.number number, c :: rest)
  | [] => (.number number, [])

/-- Reads the fraction of a number, if there is one, and its exponent. -/
def readFraction (number : Numeral) (text : List Char) : Token × List Char :=
  match text with
  | '.' :: rest =>
      match digits rest with
      | ([], remaining) => (.broken (.missingDigit remaining), [])
      | (values, remaining) => readExponent { number with fraction := values } remaining
  | _ => readExponent number text

/-- Reads a number from after its first digit on. A zero has no digits after it. -/
def read (negative : Bool) (first : Nat) (text : List Char) : Token × List Char :=
  let (values, remaining) := digits text
  if first == 0 && !values.isEmpty then (.broken (.always .malformed), [])
  else
    readFraction { negative, whole := first :: values, fraction := [], exponent := none }
      remaining

/-- Reads a number from after its minus sign on. -/
def readNegative (text : List Char) : Token × List Char :=
  match text with
  | c :: rest =>
      if c.isDigit then read true (c.toNat - 0x30) rest
      else (.broken (.missingDigit text), [])
  | [] => (.broken (.missingDigit []), [])

/-- No text grows when an exponent is read. -/
theorem readExponent_length (number : Numeral) (text : List Char) :
    (readExponent number text).2.length ≤ text.length := by
  unfold readExponent
  split
  · rename_i c rest
    split
    · generalize shorter : (if (rest.head? == some '-' || rest.head? == some '+') = true
        then rest.drop 1 else rest) = unsigned
      have bound : unsigned.length ≤ rest.length := by
        rw [← shorter]
        split <;> simp
      have read := digits_length unsigned
      simp only [shorter]
      split
      · simp
      · rename_i values remaining equal
        rw [equal] at read
        simp at read ⊢
        omega
    · simp
  · simp

/-- No text grows when a fraction is read. -/
theorem readFraction_length (number : Numeral) (text : List Char) :
    (readFraction number text).2.length ≤ text.length := by
  unfold readFraction
  split
  · rename_i rest
    have read := digits_length rest
    split
    · simp
    · rename_i values remaining _ equal
      rw [equal] at read
      have exponent := readExponent_length { number with fraction := values } remaining
      simp at read exponent ⊢
      omega
  · exact readExponent_length number text

/-- Reading a number leaves no more than the text. -/
theorem read_length (negative : Bool) (first : Nat) (text : List Char) :
    (read negative first text).2.length ≤ text.length := by
  unfold read
  have leading := digits_length text
  split
  rename_i values remaining equal
  rw [equal] at leading
  split
  · simp
  · exact Nat.le_trans (readFraction_length _ remaining) leading

/-- No text grows when a sign and its number are read. -/
theorem readNegative_length (text : List Char) :
    (readNegative text).2.length ≤ text.length := by
  unfold readNegative
  split
  · split
    · exact Nat.le_succ_of_le (read_length _ _ _)
    · simp
  · simp

end Numeral

/-- Reads the rest of a word of the language, such as `true` after its first letter. -/
def readWord (token : Token) : List Char -> List Char -> Token × List Char
  | [], text => (token, text)
  | _ :: _, [] => (.broken (.always .ended), [])
  | expected :: word, c :: rest =>
      if c == expected then readWord token word rest else (.broken (.always .malformed), [])

/-- No text grows when a word is read. -/
theorem readWord_length (token : Token) (word text : List Char) :
    (readWord token word text).2.length ≤ text.length := by
  fun_induction readWord token word text <;> simp_all
  omega

/-- Whether a character may stand between tokens. -/
def isSpace (c : Char) : Bool :=
  c == ' ' || c == '\t' || c == '\n' || c == '\r'

/-- The token that a character is by itself. -/
def punctuation? (c : Char) : Option Token :=
  if c == '[' then some .openArray
  else if c == ']' then some .closeArray
  else if c == '\x7b' then some .openObject
  else if c == '\x7d' then some .closeObject
  else if c == ',' then some .comma
  else if c == ':' then some .colon
  else none

/-- Reads the token that begins with the given character. -/
def readToken (c : Char) (rest : List Char) : Token × List Char :=
  match punctuation? c with
  | some token => (token, rest)
  | none =>
      if c == 'n' then readWord .null "ull".toList rest
      else if c == 't' then readWord (.bool true) "rue".toList rest
      else if c == 'f' then readWord (.bool false) "alse".toList rest
      else if c == '\x22' then
        let text := Quoted.read rest
        (.string text.1, text.2)
      else if c == '-' then Numeral.readNegative rest
      else if c.isDigit then Numeral.read false (c.toNat - 0x30) rest
      else (.broken (.always .malformed), [])

/-- A token takes at least its first character. -/
theorem readToken_length (c : Char) (rest : List Char) :
    (readToken c rest).2.length ≤ rest.length := by
  unfold readToken
  split
  · exact Nat.le_refl _
  · split
    · exact readWord_length ..
    · split
      · exact readWord_length ..
      · split
        · exact readWord_length ..
        · split
          · exact Quoted.read_length rest
          · split
            · exact Numeral.readNegative_length rest
            · split
              · exact Numeral.read_length ..
              · exact Nat.zero_le _

/-- Whether nothing after a token can be read as a token any more. -/
def Token.isLast : Token -> Bool
  | broken _ => true
  | string value => value.fault.isSome
  | _ => false

/-- The tokens of a text, up to the first that is broken. -/
def tokens : List Char -> List Token
  | [] => []
  | c :: rest =>
      if isSpace c then tokens rest
      else
        let next := readToken c rest
        next.1 :: (if next.1.isLast then [] else tokens next.2)
termination_by text => text.length
decreasing_by
  · simp
  · exact Nat.lt_succ_of_le (readToken_length c rest)

end SchemaLoom.Json
