import SchemaLoom.Text.Blank

/-!
# Comments, quoted runs and fragments

Statements are scanned one character at a time. Quoted runs are copied whatever
they hold, comments count as one blank, and a separator cuts only outside
parentheses, quoted runs and comments. A quoted run or comment without an end
reaches to the end of the text; a closing parenthesis without an opening one is an
ordinary character.
-/

namespace SchemaLoom.Ddl

open SchemaLoom.Text

/-- The character that ends a quoted identifier opened by the given one: double
quotes and backticks close themselves, brackets close in pairs. -/
def identifierClose? (c : Char) : Option Char :=
  if c == '\x22' || c == '\x60' then some c
  else if c == '[' then some ']'
  else none

/-- The character that ends a quoted run opened by the given one. Besides quoted
identifiers there are literals in single quotes. -/
def quoteClose? (c : Char) : Option Char :=
  if c == '\x27' then some c else identifierClose? c

/-- What the characters read so far have left open. -/
inductive Mode where
  | plain
  | quoted (close : Char)
  | lineComment
  | blockComment
  deriving DecidableEq, Repr

namespace Mode

/-- The mode after an ordinary character. -/
def afterPlain (c : Char) : Mode :=
  match quoteClose? c with
  | some close => quoted close
  | none => plain

/-- The mode after a character of a quoted run. -/
def afterQuoted (close c : Char) : Mode :=
  if c == close then plain else quoted close

/-- The mode after a character of a comment that runs to the end of its line. -/
def afterLineComment (c : Char) : Mode :=
  if c == '\n' then plain else lineComment

end Mode

/-- The parenthesis depth after an ordinary character. -/
def depthAfter (depth : Nat) (c : Char) : Nat :=
  if c == '(' then depth + 1 else if c == ')' then depth - 1 else depth

/-- The text with every comment replaced by one space. -/
def replaceComments : Mode -> List Char -> List Char
  | _, [] => []
  | .plain, '-' :: '-' :: rest => ' ' :: replaceComments .lineComment rest
  | .plain, '/' :: '*' :: rest => ' ' :: replaceComments .blockComment rest
  | .plain, c :: rest => c :: replaceComments (Mode.afterPlain c) rest
  | .quoted close, c :: rest => c :: replaceComments (Mode.afterQuoted close c) rest
  | .lineComment, c :: rest => replaceComments (Mode.afterLineComment c) rest
  | .blockComment, '*' :: '/' :: rest => replaceComments .plain rest
  | .blockComment, _ :: rest => replaceComments .blockComment rest

/-- A script without its comments. -/
def stripComments (script : List Char) : List Char :=
  replaceComments .plain script

/-- Puts a character in front of the first of several pieces. -/
def consFirst (c : Char) : List (List Char) -> List (List Char)
  | [] => [[c]]
  | piece :: pieces => (c :: piece) :: pieces

/-- The pieces between separators outside parentheses, quoted runs and comments.
There is one piece more than there are such separators. -/
def cut (separator : Char) : Mode -> Nat -> List Char -> List (List Char)
  | _, _, [] => [[]]
  | .plain, depth, '-' :: '-' :: rest => consFirst ' ' (cut separator .lineComment depth rest)
  | .plain, depth, '/' :: '*' :: rest => consFirst ' ' (cut separator .blockComment depth rest)
  | .plain, depth, c :: rest =>
      if c == separator && depth == 0 then [] :: cut separator .plain 0 rest
      else consFirst c (cut separator (Mode.afterPlain c) (depthAfter depth c) rest)
  | .quoted close, depth, c :: rest =>
      consFirst c (cut separator (Mode.afterQuoted close c) depth rest)
  | .lineComment, depth, c :: rest => cut separator (Mode.afterLineComment c) depth rest
  | .blockComment, depth, '*' :: '/' :: rest => cut separator .plain depth rest
  | .blockComment, depth, _ :: rest => cut separator .blockComment depth rest

/-- The fragments of a text: its pieces without surrounding blanks, the blank ones
left out. -/
def fragments (separator : Char) (text : List Char) : List (List Char) :=
  ((cut separator .plain 0 text).map trim).filter fun piece => !piece.isEmpty

/-- The statements of a script, which semicolons separate. -/
def statements (script : String) : List String :=
  (fragments ';' script.toList).map String.ofList

end SchemaLoom.Ddl
