import SchemaLoom.Text.Letters

/-!
# Quoted text in documents

Text stands between quotes, in which a backslash escapes, or between apostrophes, in
which it does not. Three of either enclose text over several lines; the line break
right after the opening is left out, and a break of two characters reads as one.
Each reader starts after the opening and gives the text and what follows the closing.
-/

namespace SchemaLoom.Toml

/-- Whether a character can stand in a comment or in quoted text. -/
def isPrintable (c : Char) : Bool :=
  c == '\t' || (0x20 ≤ c.toNat && c.toNat != 0x7F)

/-- Whether a character is a blank within a line. -/
def isSpace (c : Char) : Bool :=
  c == ' ' || c == '\t'

/-- The character that hexadecimal digits number. -/
def charOfHex? (digits : List Char) : Option Char :=
  match digits.mapM Text.hexValue? with
  | none => none
  | some values =>
      let code := values.foldl (fun total value => total * 16 + value) 0
      if code.isValidChar then some (Char.ofNat code) else none

/-- The character that a letter after a backslash stands for. -/
def escaped? (c : Char) : Option Char :=
  match c with
  | 'b' => some '\x08'
  | 't' => some '\t'
  | 'n' => some '\n'
  | 'f' => some '\x0c'
  | 'r' => some '\r'
  | '\x22' => some '\x22'
  | '\\' => some '\\'
  | _ => none

/-- What reading quoted text gives: the text and what follows it. -/
abbrev Quoted := Option (List Char × List Char)

/-- Puts a character in front of quoted text. -/
def before (c : Option Char) (rest : Quoted) : Quoted :=
  match c, rest with
  | some c, some (text, after) => some (c :: text, after)
  | _, _ => none

/-- Text in quotes on one line. -/
def basicText : List Char -> Quoted
  | [] => none
  | '\x22' :: rest => some ([], rest)
  | '\\' :: 'u' :: a :: b :: c :: d :: rest => before (charOfHex? [a, b, c, d]) (basicText rest)
  | '\\' :: 'U' :: a :: b :: c :: d :: e :: f :: g :: h :: rest =>
      before (charOfHex? [a, b, c, d, e, f, g, h]) (basicText rest)
  | '\\' :: c :: rest => before (escaped? c) (basicText rest)
  | c :: rest => if isPrintable c then before (some c) (basicText rest) else none

/-- Text in apostrophes on one line. -/
def literalText : List Char -> Quoted
  | [] => none
  | '\x27' :: rest => some ([], rest)
  | c :: rest => if isPrintable c then before (some c) (literalText rest) else none

/-- Where a text over several lines stands: in its characters, between a backslash and
the end of its line, or in the blanks after that. -/
inductive Fold where
  | none
  | line
  | blanks

/-- Text in three quotes. A backslash at the end of a line leaves out all blanks up to
the next character. Up to two quotes may stand before the closing ones. -/
def basicLines : Fold -> List Char -> Quoted
  | _, [] => none
  | .line, '\r' :: '\n' :: rest => basicLines .blanks rest
  | .line, c :: rest =>
      if c == '\n' then basicLines .blanks rest
      else if isSpace c then basicLines .line rest
      else none
  | .blanks, '\r' :: '\n' :: rest => basicLines .blanks rest
  | _, '\x22' :: '\x22' :: '\x22' :: '\x22' :: '\x22' :: rest => some (['\x22', '\x22'], rest)
  | _, '\x22' :: '\x22' :: '\x22' :: '\x22' :: rest => some (['\x22'], rest)
  | _, '\x22' :: '\x22' :: '\x22' :: rest => some ([], rest)
  | _, '\\' :: 'u' :: a :: b :: c :: d :: rest =>
      before (charOfHex? [a, b, c, d]) (basicLines .none rest)
  | _, '\\' :: 'U' :: a :: b :: c :: d :: e :: f :: g :: h :: rest =>
      before (charOfHex? [a, b, c, d, e, f, g, h]) (basicLines .none rest)
  | _, '\\' :: '\r' :: '\n' :: rest => basicLines .blanks rest
  | _, '\\' :: c :: rest =>
      if c == '\n' then basicLines .blanks rest
      else if isSpace c then basicLines .line rest
      else before (escaped? c) (basicLines .none rest)
  | fold, '\r' :: '\n' :: rest =>
      match fold with
      | .blanks => basicLines .blanks rest
      | _ => before (some '\n') (basicLines .none rest)
  | fold, c :: rest =>
      match fold with
      | .blanks =>
          if c == '\n' || isSpace c then basicLines .blanks rest
          else if isPrintable c then before (some c) (basicLines .none rest)
          else none
      | _ =>
          if c == '\n' || isPrintable c then before (some c) (basicLines .none rest) else none

/-- Text in three apostrophes. Up to two may stand before the closing ones. -/
def literalLines : List Char -> Quoted
  | [] => none
  | '\x27' :: '\x27' :: '\x27' :: '\x27' :: '\x27' :: rest => some (['\x27', '\x27'], rest)
  | '\x27' :: '\x27' :: '\x27' :: '\x27' :: rest => some (['\x27'], rest)
  | '\x27' :: '\x27' :: '\x27' :: rest => some ([], rest)
  | '\r' :: '\n' :: rest => before (some '\n') (literalLines rest)
  | c :: rest =>
      if c == '\n' || isPrintable c then before (some c) (literalLines rest) else none

/-- What follows a line break at the start of a text, if there is one. -/
def lineBreak? : List Char -> Option (List Char)
  | '\n' :: rest => some rest
  | '\r' :: '\n' :: rest => some rest
  | _ => none

/-- A text without the line break at its start. -/
def skipBreak (text : List Char) : List Char :=
  (lineBreak? text).getD text

/-- Text in quotes or apostrophes of any number, from its opening on. -/
def quotedText : List Char -> Quoted
  | '\x22' :: '\x22' :: '\x22' :: rest => basicLines .none (skipBreak rest)
  | '\x22' :: rest => basicText rest
  | '\x27' :: '\x27' :: '\x27' :: rest => literalLines (skipBreak rest)
  | '\x27' :: rest => literalText rest
  | _ => none

end SchemaLoom.Toml
