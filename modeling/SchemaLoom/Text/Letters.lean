import SchemaLoom.Text.Blank

/-!
# Letters compared without regard to case

Two comparisons are in use. Names and types compare by ASCII case only. Keywords
of statements compare by simple case folding, under which the Kelvin sign is a
`K` and the long s is an `S`. Hexadecimal digits have the same value in either case.
-/

namespace SchemaLoom.Text

/-- A text with its ASCII capitals made small. -/
def asciiLower (text : List Char) : List Char :=
  text.map Char.toLower

/-- A text with its ASCII small letters made capital. -/
def asciiUpper (text : List Char) : List Char :=
  text.map Char.toUpper

/-- The value of a hexadecimal digit. -/
def hexValue? (c : Char) : Option Nat :=
  if c.isDigit then some (c.toNat - 0x30)
  else if 'a' ≤ c && c ≤ 'f' then some (c.toNat - 0x57)
  else if 'A' ≤ c && c ≤ 'F' then some (c.toNat - 0x37)
  else none

/-- Equality of texts up to ASCII case. -/
def sameIgnoringCase (left right : List Char) : Bool :=
  asciiLower left == asciiLower right

/-- The small form of a character as far as it reaches into ASCII. Beyond the ASCII
capitals only the Kelvin sign and the dotted capital I have such a form; every other
character has a small form without ASCII letters and stands for itself. -/
def smallForm (c : Char) : List Char :=
  if c == '\u212A' then ['k']
  else if c == '\u0130' then ['i', '\u0307']
  else [c.toLower]

/-- A text in small letters, exact in every place where an ASCII letter can stand. -/
def lowercase (text : List Char) : List Char :=
  text.flatMap smallForm

/-- Whether a character folds to the given ASCII capital. -/
def foldsTo (capital c : Char) : Bool :=
  c.toUpper == capital || (capital == 'K' && c == '\u212A') || (capital == 'S' && c == '\u017F')

/-- What follows a keyword, given in capitals, at the start of a text. -/
def dropKeyword? : List Char → List Char → Option (List Char)
  | [], text => some text
  | _ :: _, [] => none
  | capital :: keyword, c :: text => if foldsTo capital c then dropKeyword? keyword text else none

/-- What follows one or more blanks at the start of a text. -/
def dropBlanks? : List Char → Option (List Char)
  | [] => none
  | c :: text => if isBlank c then some (trimStart text) else none

/-- What follows a given beginning of a text. -/
def dropStart? : List Char → List Char → Option (List Char)
  | [], text => some text
  | _ :: _, [] => none
  | expected :: start, c :: text => if c = expected then dropStart? start text else none

/-- Whether a text begins with the given characters. -/
def startsWith (start text : List Char) : Bool :=
  (dropStart? start text).isSome

/-- Whether a text ends with the given characters. -/
def endsWith (ending text : List Char) : Bool :=
  startsWith ending.reverse text.reverse

/-- Whether the given characters stand somewhere in a text. -/
def contains (part : List Char) : List Char → Bool
  | [] => part.isEmpty
  | c :: text => startsWith part (c :: text) || contains part text

/-- The pieces of text joined with a separator between neighbours. -/
def join (separator : String) : List String → String
  | [] => ""
  | [piece] => piece
  | piece :: pieces => piece ++ separator ++ join separator pieces

/-- A keyword takes at least its own length from a text. -/
theorem dropKeyword?_suffix {keyword text rest : List Char}
    (found : dropKeyword? keyword text = some rest) :
    rest <:+ text ∧ rest.length + keyword.length = text.length := by
  induction keyword generalizing text with
  | nil => simp_all [dropKeyword?]
  | cons capital keyword inductionHypothesis =>
      cases text with
      | nil => simp [dropKeyword?] at found
      | cons c text =>
          rw [dropKeyword?] at found
          split at found
          · obtain ⟨suffix, length⟩ := inductionHypothesis found
            exact ⟨suffix.trans (List.suffix_cons c text), by simp; omega⟩
          · simp at found

/-- Blanks are taken from the front of a text. -/
theorem dropBlanks?_suffix {text rest : List Char} (found : dropBlanks? text = some rest) :
    rest <:+ text := by
  cases text with
  | nil => simp [dropBlanks?] at found
  | cons c text =>
      rw [dropBlanks?] at found
      split at found
      · cases found
        exact (trimStart_suffix text).trans (List.suffix_cons c text)
      · simp at found

end SchemaLoom.Text
