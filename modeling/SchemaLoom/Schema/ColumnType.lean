import SchemaLoom.Text.Letters

/-!
# Column types

A column has one of the three types that a name can suggest, or any type that a
statement declared. The three are recognised in any ASCII case; every other
spelling is kept without its surrounding blanks.
-/

namespace SchemaLoom

/-- The type of a column. -/
inductive ColumnType where
  | integer
  | text
  | date
  | declared (spelling : String)
  deriving DecidableEq, Repr, Inhabited

namespace ColumnType

/-- The type that a spelling denotes. -/
def ofSpelling (spelling : String) : ColumnType :=
  let body := Text.trim spelling.toList
  if Text.sameIgnoringCase body "INTEGER".toList then .integer
  else if Text.sameIgnoringCase body "TEXT".toList then .text
  else if Text.sameIgnoringCase body "DATE".toList then .date
  else .declared (String.ofList body)

/-- How a type is written in a statement. -/
def spelling : ColumnType -> String
  | integer => "INTEGER"
  | text => "TEXT"
  | date => "DATE"
  | declared spelling => spelling

end ColumnType

end SchemaLoom
