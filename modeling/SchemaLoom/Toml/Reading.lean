import SchemaLoom.Toml.Quoted
import SchemaLoom.Toml.Scalar

/-!
# Reading documents

A document is read line by line: headers, and keys with their values. Arrays may run
over several lines, tables in braces may not. There is one way for a document to be
wrong, so every reader gives an option. Brackets nest at most 79 levels and a key has
at most 79 parts.
-/

namespace SchemaLoom.Toml

/-- A text without the blanks at its start. -/
def skipSpace (text : List Char) : List Char :=
  text.dropWhile isSpace

/-- A text without the comment at its start. -/
def skipComment : List Char -> List Char
  | '#' :: rest => rest.dropWhile isPrintable
  | text => text

/-- What follows the end of a line, which may have blanks and a comment before it. -/
def lineEnd? (text : List Char) : Option (List Char) :=
  match skipComment (skipSpace text) with
  | [] => some []
  | rest => lineBreak? rest

/-- A text without blanks, comments and line breaks at its start, at most as many as
the bound. -/
def skipLines : Nat -> List Char -> List Char
  | 0, text => text
  | bound + 1, text =>
      match lineBreak? (skipComment (skipSpace text)) with
      | some rest => skipLines bound rest
      | none => skipComment (skipSpace text)

/-- The greatest depth of brackets and the greatest number of parts of a key. -/
def depthLimit : Nat :=
  79

/-- Whether a character can stand in a key without quotes. -/
def isKeyPart (c : Char) : Bool :=
  c.isAlphanum || c == '_' || c == '-'

/-- Reads one part of a key. -/
def keyPart (text : List Char) : Option (String × List Char) :=
  match text with
  | '\x22' :: rest => (basicText rest).map fun (part, rest) => (String.ofList part, rest)
  | '\x27' :: rest => (literalText rest).map fun (part, rest) => (String.ofList part, rest)
  | _ =>
      let part := text.takeWhile isKeyPart
      if part.isEmpty then none else some (String.ofList part, text.dropWhile isKeyPart)

/-- Reads the parts of a key, with blanks around each, at most as many as the bound:
the parts but the last, and the last. -/
def keyParts : Nat -> List Char -> Option ((List String × String) × List Char)
  | 0, _ => none
  | bound + 1, text => do
      let (part, rest) ← keyPart (skipSpace text)
      match skipSpace rest with
      | '.' :: rest => do
          let ((path, name), rest) ← keyParts bound rest
          return ((part :: path, name), rest)
      | rest => return (([], part), rest)

/-- Reads a key. -/
def key (text : List Char) : Option ((List String × String) × List Char) :=
  keyParts depthLimit text

mutual

/-- Reads a value inside the given number of brackets. -/
def value : Nat -> Nat -> List Char -> Option (Toml × List Char)
  | 0, _, _ => none
  | bound + 1, depth, text =>
      match text with
      | '[' :: rest =>
          if depth < depthLimit then
            (items bound (depth + 1) rest).map fun (items, rest) => (.array items, rest)
          else none
      | '\x7b' :: rest =>
          if depth < depthLimit then
            match skipSpace rest with
            | '\x7d' :: rest => some (.table .braces [], rest)
            | rest =>
                (members bound (depth + 1) [] rest).map fun (members, rest) =>
                  (.table .braces members, rest)
          else none
      | _ =>
          if text.head? == some '\x22' || text.head? == some '\x27' then
            (quotedText text).map fun (text, rest) => (.string (String.ofList text), rest)
          else
            let (run, rest) := takeBare text
            (scalar? run).map fun scalar => (scalar, rest)

/-- Reads the items of an array and its closing bracket. -/
def items : Nat -> Nat -> List Char -> Option (List Toml × List Char)
  | 0, _, _ => none
  | bound + 1, depth, text =>
      match skipLines text.length text with
      | ']' :: rest => some ([], rest)
      | start => do
          let (item, rest) ← value bound depth start
          match skipLines rest.length rest with
          | ',' :: rest => do
              let (others, rest) ← items bound depth rest
              return (item :: others, rest)
          | ']' :: rest => return ([item], rest)
          | _ => none

/-- Reads the members of a table in braces, after those read before, and its closing
brace. -/
def members : Nat -> Nat -> Members -> List Char -> Option (Members × List Char)
  | 0, _, _, _ => none
  | bound + 1, depth, earlier, text => do
      let ((path, name), rest) ← key text
      match rest with
      | '=' :: rest => do
          let (item, rest) ← value bound depth (skipSpace rest)
          let found ← assign item path name earlier
          match skipSpace rest with
          | ',' :: rest => members bound depth found rest
          | '\x7d' :: rest => return (found, rest)
          | _ => none
      | _ => none

end

/-- What is read of a document: its items, and the table that keys go to. -/
structure Progress where
  members : Members := []
  path : List String := []

/-- Reads a header of one table. -/
def tableHeader (progress : Progress) (text : List Char) : Option (Progress × List Char) := do
  let ((path, name), rest) ← key text
  match rest with
  | ']' :: rest => do
      let members ← openTable path name progress.members
      return ({ members, path := path ++ [name] }, ← lineEnd? rest)
  | _ => none

/-- Reads a header of one more table of several. -/
def elementHeader (progress : Progress) (text : List Char) : Option (Progress × List Char) := do
  let ((path, name), rest) ← key text
  match rest with
  | ']' :: ']' :: rest => do
      let members ← openElement path name progress.members
      return ({ members, path := path ++ [name] }, ← lineEnd? rest)
  | _ => none

/-- Reads a key with its value. -/
def assignment (progress : Progress) (text : List Char) : Option (Progress × List Char) := do
  let ((path, name), rest) ← key text
  match rest with
  | '=' :: rest => do
      let start := skipSpace rest
      let (item, rest) ← value (3 * start.length + 3) 0 start
      let members ← descend (assign item path name) progress.path progress.members
      return ({ progress with members }, ← lineEnd? rest)
  | _ => none

/-- Reads the lines of a document, at most as many as the bound. -/
def lines : Nat -> Progress -> List Char -> Option Members
  | 0, _, _ => none
  | bound + 1, progress, text =>
      match skipSpace text with
      | [] => some progress.members
      | '[' :: '[' :: rest => do
          let (progress, rest) ← elementHeader progress rest
          lines bound progress rest
      | '[' :: rest => do
          let (progress, rest) ← tableHeader progress rest
          lines bound progress rest
      | start =>
          match lineEnd? start with
          | some rest => lines bound progress rest
          | none => do
              let (progress, rest) ← assignment progress start
              lines bound progress rest

/-- A text without the byte-order mark at its start. -/
def skipMark : List Char -> List Char
  | '\uFEFF' :: text => text
  | text => text

/-- The items of a document, unless it is wrong. -/
def ofText? (text : String) : Option Members :=
  lines (text.length + 1) {} (skipMark text.toList)

end SchemaLoom.Toml
