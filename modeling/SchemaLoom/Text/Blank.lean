/-!
# Blank characters

Blanks are the characters with the Unicode property `White_Space`. The zero-width
space, the byte-order mark and the information separators do not have it. Texts
are lists of characters here; a `String` is converted once, at the edge of each
operation.
-/

namespace SchemaLoom.Text

/-- Whether a character has the Unicode property `White_Space`. -/
def isBlank (c : Char) : Bool :=
  let code := c.toNat
  (9 ≤ code && code ≤ 13) || code == 0x20 || code == 0x85 || code == 0xA0 || code == 0x1680 ||
    (0x2000 ≤ code && code ≤ 0x200A) || code == 0x2028 || code == 0x2029 || code == 0x202F ||
    code == 0x205F || code == 0x3000

/-- A text without its leading blanks. -/
def trimStart (text : List Char) : List Char :=
  text.dropWhile isBlank

/-- A text without its trailing blanks. -/
def trimEnd (text : List Char) : List Char :=
  (text.reverse.dropWhile isBlank).reverse

/-- A text without its leading and trailing blanks. -/
def trim (text : List Char) : List Char :=
  trimEnd (trimStart text)

/-- Whether a text holds nothing but blanks. -/
def isBlankText (text : List Char) : Bool :=
  text.all isBlank

/-- The first line of a text. Lines end at a line feed, which takes a carriage
return right before it along. -/
def firstLine (text : List Char) : List Char :=
  let line := text.takeWhile (· ≠ '\n')
  if line.length < text.length && line.getLast? == some '\r' then line.dropLast else line

/-- What is left after leading blanks is a suffix of the text. -/
theorem trimStart_suffix (text : List Char) : trimStart text <:+ text :=
  List.dropWhile_suffix isBlank

end SchemaLoom.Text
