import SchemaLoom.Database.Value

/-!
# Tokens of a statement

A database statement is a row of tokens. Each token keeps its spelling, the blanks and
comments before it and its byte offset, so that failures can point into the statement
and pieces of it can be shown as written. A character that starts no token makes a
token of its own kind, which no statement contains. A null character ends a statement,
whatever stands behind it; one in quotes spoils them, because they are never closed then.
-/

namespace SchemaLoom.Database

/-- What a token is, by its spelling alone. -/
inductive TokenKind where
  | word
  | quoted
  | text
  | blob
  | number
  | symbol
  | illegal
  deriving DecidableEq, Repr

/-- A token as it stands in a statement. -/
structure Token where
  kind : TokenKind
  before : String
  source : String
  offset : Nat
  deriving DecidableEq, Repr

/-- Whether a character can stand inside a word. -/
def isWordPart (c : Char) : Bool :=
  c.isAlphanum || c == '_' || c == '$' || 0x80 ≤ c.toNat

/-- Whether a character can start a word. -/
def startsWord (c : Char) : Bool :=
  c.isAlpha || c == '_' || 0x80 ≤ c.toNat

/-- Whether a character is a hexadecimal digit. -/
def isHexDigit (c : Char) : Bool :=
  c.isDigit || ('a' ≤ c && c ≤ 'f') || ('A' ≤ c && c ≤ 'F')

/-- How a stretch between two tokens goes on. -/
inductive Gap where
  | start
  | blank
  | line
  | block

/-- The blanks and comments at the start of a text, and what follows them. A vertical
tab is a blank only after another one. A null character belongs to no comment. -/
def splitGap : Gap -> List Char -> List Char × List Char
  | _, [] => ([], [])
  | .line, c :: rest =>
      if c == '\x00' then ([], c :: rest)
      else if c == '\n' then
        let (gap, tail) := splitGap .blank rest
        (c :: gap, tail)
      else
        let (gap, tail) := splitGap .line rest
        (c :: gap, tail)
  | .block, '*' :: '/' :: rest =>
      let (gap, tail) := splitGap .start rest
      ('*' :: '/' :: gap, tail)
  | .block, c :: rest =>
      if c == '\x00' then ([], c :: rest)
      else
        let (gap, tail) := splitGap .block rest
        (c :: gap, tail)
  | _, '-' :: '-' :: rest =>
      let (gap, tail) := splitGap .line rest
      ('-' :: '-' :: gap, tail)
  | _, '/' :: '*' :: c :: rest =>
      if c == '\x00' then ([], '/' :: '*' :: c :: rest)
      else
        let (gap, tail) := splitGap .block (c :: rest)
        ('/' :: '*' :: gap, tail)
  | .blank, c :: rest =>
      if c == '\uFEFF' then
        let (gap, tail) := splitGap .start rest
        (c :: gap, tail)
      else if Value.isSpace c then
        let (gap, tail) := splitGap .blank rest
        (c :: gap, tail)
      else ([], c :: rest)
  | .start, c :: rest =>
      if c == '\uFEFF' then
        let (gap, tail) := splitGap .start rest
        (c :: gap, tail)
      else if Value.isSpace c && c != '\x0b' then
        let (gap, tail) := splitGap .blank rest
        (c :: gap, tail)
      else ([], c :: rest)

/-- A text is its leading gap and what follows. -/
theorem splitGap_append (gap : Gap) (text : List Char) :
    (splitGap gap text).1 ++ (splitGap gap text).2 = text := by
  fun_induction splitGap gap text <;> simp_all

/-- The number of characters up to a closing quote, where a doubled quote is text. -/
def closing? (quote : Char) : List Char -> Option Nat
  | [] => none
  | [c] => if c == quote then some 1 else none
  | c :: d :: rest =>
      if c == quote then
        if d == quote then (closing? quote rest).map (· + 2) else some 1
      else (closing? quote (d :: rest)).map (· + 1)

/-- What a quoted text says: a doubled quote stands for one. -/
def undouble (quote : Char) : List Char -> List Char
  | [] => []
  | [c] => [c]
  | c :: d :: rest =>
      if c == quote && d == quote then c :: undouble quote rest else c :: undouble quote (d :: rest)

/-- The length of an exponent at the start of a text. -/
def exponentLength : List Char -> Nat
  | mark :: sign :: rest =>
      if mark == 'e' || mark == 'E' then
        if sign.isDigit then 1 + ((sign :: rest).takeWhile Char.isDigit).length
        else if sign == '+' || sign == '-' then
          let digits := (rest.takeWhile Char.isDigit).length
          if digits == 0 then 0 else 2 + digits
        else 0
      else 0
  | _ => 0

/-- The length of a fraction at the start of a text. -/
def fractionLength : List Char -> Nat
  | '.' :: rest => 1 + (rest.takeWhile Char.isDigit).length
  | _ => 0

/-- The kind and the length of a number at the start of a text. A word that hangs on
to a number spoils it. -/
def numberLexeme (text : List Char) : TokenKind × Nat :=
  let whole := (text.takeWhile Char.isDigit).length
  let fraction := fractionLength (text.drop whole)
  let number := whole + fraction + exponentLength (text.drop (whole + fraction))
  let attached := ((text.drop number).takeWhile isWordPart).length
  (if attached == 0 then .number else .illegal, number + attached)

/-- The kind of a bytes literal and its length after the leading letter, up to the
closing quote. -/
def blobLexeme (rest : List Char) : TokenKind × Nat :=
  let digits := ((rest.drop 1).takeWhile isHexDigit).length
  let body := ((rest.drop 1).takeWhile (· != '\x27')).length
  let closed := ((rest.drop 1).drop body).head? == some '\x27'
  (if digits == body && digits % 2 == 0 && closed then .blob else .illegal,
    1 + body + (if closed then 1 else 0))

/-- The characters that go on an operator after its first one. -/
def operatorLength (first : Char) (rest : List Char) : Nat :=
  let second := rest.head?.getD ' '
  match first with
  | '<' => if second == '=' || second == '>' || second == '<' then 1 else 0
  | '>' => if second == '=' || second == '>' then 1 else 0
  | '=' => if second == '=' then 1 else 0
  | '!' => if second == '=' then 1 else 0
  | '|' => if second == '|' then 1 else 0
  | '-' => if second == '>' then (if rest[1]? == some '>' then 2 else 1) else 0
  | _ => 0

/-- The kind of a token in quotes, which a null character inside spoils. -/
def enclosedKind (kind : TokenKind) (inside : List Char) : TokenKind :=
  if inside.contains '\x00' then .illegal else kind

/-- The kind of the token that a character starts, and the number of characters after
it that belong to the token. -/
def lexeme (first : Char) (rest : List Char) : TokenKind × Nat :=
  let enclosed (kind : TokenKind) (length : Option Nat) : TokenKind × Nat :=
    match length with
    | some length => (enclosedKind kind (rest.take length), length)
    | none => (.illegal, rest.length)
  if first == '\x27' then enclosed .text (closing? first rest)
  else if first == '\x22' || first == '\x60' then enclosed .quoted (closing? first rest)
  else if first == '[' then
    enclosed .quoted
      (if rest.contains ']' then some ((rest.takeWhile (· != ']')).length + 1) else none)
  else if (first == 'x' || first == 'X') && rest.head? == some '\x27' then blobLexeme rest
  else if startsWord first then (.word, (rest.takeWhile isWordPart).length)
  else if first.isDigit || (first == '.' && (rest.head?.map Char.isDigit).getD false) then
    let (kind, length) := numberLexeme (first :: rest)
    (kind, length - 1)
  else if first == '?' then (.symbol, (rest.takeWhile Char.isDigit).length)
  else if "$@#:".toList.contains first then
    let length := (rest.takeWhile isWordPart).length
    (if length == 0 then .illegal else .symbol, length)
  else if first == '!' && rest.head? != some '=' then (.illegal, 0)
  else if "()+-*/%=<>!|&~,;.".toList.contains first then (.symbol, operatorLength first rest)
  else (.illegal, 0)

/-- The number of bytes of a text. -/
def byteLength (text : List Char) : Nat :=
  (String.ofList text).utf8ByteSize

/-- The tokens of a text that starts at an offset, up to its end or to a null character
between tokens. -/
def tokensFrom (offset : Nat) (text : List Char) : List Token :=
  match _found : splitGap .start text with
  | (_, []) => []
  | (gap, first :: rest) =>
      if first == '\x00' then []
      else
        let (kind, length) := lexeme first rest
        let source := first :: rest.take length
        let start := offset + byteLength gap
        { kind, before := String.ofList gap, source := String.ofList source, offset := start } ::
          tokensFrom (start + byteLength source) (rest.drop length)
termination_by text.length
decreasing_by
  have whole := congrArg List.length (splitGap_append .start text)
  rw [_found] at whole
  simp at whole ⊢
  omega

/-- The tokens of a statement. -/
def tokens (statement : String) : List Token :=
  tokensFrom 0 statement.toList

namespace Token

/-- A token as failures show it, up to a null character. -/
def shown (token : Token) : String :=
  String.ofList (token.source.toList.takeWhile (· != '\x00'))

/-- What stands between the quotes of a token. -/
def inside (token : Token) : String :=
  let body := (token.source.toList.drop 1).dropLast
  match token.source.toList.head? with
  | some '[' => String.ofList body
  | some quote => String.ofList (undouble quote body)
  | none => ""

/-- Whether a token is a word, given in capitals. -/
def isWord (token : Token) (word : String) : Bool :=
  token.kind == .word && Text.asciiUpper token.source.toList == word.toList

/-- Whether a token is one of several words. -/
def isOneOf (token : Token) (words : List String) : Bool :=
  words.any token.isWord

/-- Whether a token is a symbol. -/
def isSymbol (token : Token) (symbol : String) : Bool :=
  token.kind == .symbol && token.source == symbol

/-- The words that never name anything. -/
def reserved : List String :=
  ["ADD", "ALL", "ALTER", "AND", "AS", "AUTOINCREMENT", "BETWEEN", "CASE", "CHECK", "COLLATE",
    "COMMIT", "CONSTRAINT", "CREATE", "DEFAULT", "DEFERRABLE", "DELETE", "DISTINCT", "DROP",
    "ELSE", "ESCAPE", "EXCEPT", "EXISTS", "FOREIGN", "FROM", "GROUP", "HAVING", "IN", "INDEX",
    "INSERT", "INTERSECT", "INTO", "IS", "ISNULL", "JOIN", "LIMIT", "NOT", "NOTHING", "NOTNULL",
    "NULL", "ON", "OR", "ORDER", "PRIMARY", "REFERENCES", "RETURNING", "SELECT", "SET", "TABLE",
    "THEN", "TO", "TRANSACTION", "UNION", "UNIQUE", "UPDATE", "USING", "VALUES", "WHEN", "WHERE"]

/-- The words that name things but are no part of a type. -/
def beyondTypes : List String :=
  ["CROSS", "FULL", "GENERATED", "INDEXED", "INNER", "LEFT", "NATURAL", "OUTER", "RIGHT"]

/-- The name that a token is. A text literal may stand for a name. -/
def name? (token : Token) : Option String :=
  match token.kind with
  | .word => if token.isOneOf reserved then none else some token.source
  | .quoted => some token.inside
  | .text => some token.inside
  | _ => none

/-- Whether a token can be part of a type. -/
def isTypePart (token : Token) : Bool :=
  token.name?.isSome && !token.isOneOf beyondTypes

/-- A row of tokens as written. -/
def spelling : List Token -> String
  | [] => ""
  | token :: tokens =>
      token.source ++ String.join (tokens.map fun later => later.before ++ later.source)

end Token

end SchemaLoom.Database
