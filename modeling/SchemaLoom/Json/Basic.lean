import SchemaLoom.Decimal

/-!
# JSON values and their text

Objects keep their members in order. A value is written on one line without blanks,
or over several lines with two more spaces for each level; empty arrays and objects
take no line of their own either way.
-/

namespace SchemaLoom

/-- A JSON value. -/
inductive Json where
  | null
  | bool (value : Bool)
  | integer (value : Int)
  | decimal (value : Decimal)
  | string (value : String)
  | array (items : List Json)
  | object (members : List (String × Json))
  deriving Inhabited

namespace Json

/-- The hexadecimal digit of a number below sixteen. -/
def hexDigit (digit : Nat) : Char :=
  if digit < 10 then Char.ofNat (0x30 + digit) else Char.ofNat (0x57 + digit)

/-- A character inside a string. Quotes, backslashes and control characters are
escaped, the common ones by a letter. -/
def escape (c : Char) : List Char :=
  if c == '\x22' then ['\\', '\x22']
  else if c == '\\' then ['\\', '\\']
  else if c == '\x08' then ['\\', 'b']
  else if c == '\x0c' then ['\\', 'f']
  else if c == '\n' then ['\\', 'n']
  else if c == '\r' then ['\\', 'r']
  else if c == '\t' then ['\\', 't']
  else if c.toNat < 0x20 then
    ['\\', 'u', '0', '0', hexDigit (c.toNat / 16), hexDigit (c.toNat % 16)]
  else [c]

/-- A string between quotes. -/
def quote (text : String) : List Char :=
  '\x22' :: text.toList.flatMap escape ++ ['\x22']

/-- How values are laid out. -/
inductive Layout where
  | compact
  | pretty
  deriving DecidableEq, Repr

namespace Layout

/-- What stands before an item at a level. -/
def lineBreak : Layout -> Nat -> List Char
  | compact, _ => []
  | pretty, level => '\n' :: List.replicate (2 * level) ' '

/-- What stands between a name and its value. -/
def colon : Layout -> List Char
  | compact => [':']
  | pretty => [':', ' ']

end Layout

mutual

/-- The characters of a value at a level. -/
def write (layout : Layout) (level : Nat) : Json -> List Char
  | null => "null".toList
  | bool value => (if value then "true" else "false").toList
  | integer value => (toString value).toList
  | decimal value => value.text.toList
  | string value => quote value
  | array [] => ['[', ']']
  | array (item :: items) =>
      '[' :: layout.lineBreak (level + 1) ++ write layout (level + 1) item ++
        writeItems layout (level + 1) items ++ layout.lineBreak level ++ [']']
  | object [] => ['\x7b', '\x7d']
  | object ((name, value) :: members) =>
      '\x7b' :: layout.lineBreak (level + 1) ++ quote name ++ layout.colon ++
        write layout (level + 1) value ++ writeMembers layout (level + 1) members ++
        layout.lineBreak level ++ ['\x7d']

/-- The characters of the items after the first one. -/
def writeItems (layout : Layout) (level : Nat) : List Json -> List Char
  | [] => []
  | item :: items =>
      ',' :: layout.lineBreak level ++ write layout level item ++ writeItems layout level items

/-- The characters of the members after the first one. -/
def writeMembers (layout : Layout) (level : Nat) : List (String × Json) -> List Char
  | [] => []
  | (name, value) :: members =>
      ',' :: layout.lineBreak level ++ quote name ++ layout.colon ++
        write layout level value ++ writeMembers layout level members

end

/-- The text of a value. -/
def render (layout : Layout) (value : Json) : String :=
  String.ofList (write layout 0 value)

/-- The text of a value on one line. -/
def compact (value : Json) : String :=
  value.render .compact

/-- The text of a value over several lines. -/
def pretty (value : Json) : String :=
  value.render .pretty

end Json

end SchemaLoom
