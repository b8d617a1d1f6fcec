import SchemaLoom.Database.Statement

/-!
# Tables

A table is built from the clauses of its definition, one after the other. A primary
key on a single column of type `INTEGER` orders the rows itself and has no index; any
other key and every unique constraint is an index, and two on the same columns are
one. Indexes and foreign keys stand with the last declared first.
-/

namespace SchemaLoom.Database

/-- Whether two names are the same to the database. -/
def sameName (left right : String) : Bool :=
  Text.sameIgnoringCase left.toList right.toList

/-- A column of a table. The type is the one read back. -/
structure Column where
  name : String
  type : String
  notNull : Bool := false
  default : Value := .null

/-- Columns, by position, whose values no two rows share. -/
structure Index where
  columns : List Nat
  primary : Bool
  deriving DecidableEq, Repr

/-- Columns, by position, that refer to another table, and what becomes of a row when the
one that it refers to is deleted. -/
structure ForeignKey where
  columns : List Nat
  target : String
  targets : List String
  onDelete : Action
  deriving DecidableEq, Repr

/-- The column that orders the rows of a table. An automatic one never gives a number
again. -/
structure RowKey where
  column : Nat
  automatic : Bool
  deriving DecidableEq, Repr

/-- A table with its rows in key order. -/
structure Table where
  name : String
  columns : List Column
  primaryKey : Option (List Nat) := none
  rowKey : Option RowKey := none
  indexes : List Index := []
  foreignKeys : List ForeignKey := []
  rows : List (List Value) := []

/-- The types that are read back in capitals. -/
def standardTypes : List String :=
  ["ANY", "BLOB", "INT", "INTEGER", "REAL", "TEXT"]

/-- Whether a character opens a quoted name. -/
def opensQuote (c : Char) : Bool :=
  c == '\x22' || c == '\x27' || c == '\x60' || c == '['

/-- Whether a type starts with a quote. -/
def startsQuoted (spelling : String) : Bool :=
  (spelling.toList.head?.map opensQuote).getD false

/-- A type without the quotes around all of it. -/
def withoutQuotes (spelling : String) : String :=
  let inner := (spelling.toList.drop 1).dropLast
  if startsQuoted spelling && !inner.any opensQuote then String.ofList inner else spelling

/-- A type that starts with a quoted name is that name alone. -/
def leadingName (spelling : String) : String :=
  match spelling.toList with
  | [] => spelling
  | quote :: rest =>
      if !startsQuoted spelling then spelling
      else
        let closing := if quote == '[' then ']' else quote
        match closing? closing rest with
        | some length => String.ofList (undouble closing (rest.take (length - 1)))
        | none => String.ofList rest

/-- A type as it is read back: standard types in capitals, others as they are spelled. -/
def typeReadBack (spelling : String) : String :=
  if spelling.utf8ByteSize < 3 then leadingName spelling
  else
    let type := withoutQuotes spelling
    (standardTypes.find? (sameName type)).getD (leadingName type)

/-- How a column treats what it stores. -/
def Column.affinity (column : Column) : Affinity :=
  if column.type == "ANY" then .numeric else .ofType column.type

namespace Table

/-- The position of a column of a given name. -/
def position? (table : Table) (name : String) : Option Nat :=
  table.columns.findIdx? fun column => sameName column.name name

/-- The name of the column at a position. -/
def columnName (table : Table) (position : Nat) : String :=
  (table.columns[position]?.map Column.name).getD ""

/-- A column with its table in front. -/
def qualified (table : Table) (position : Nat) : String :=
  table.name ++ "." ++ table.columnName position

/-- The position of the column declared last. -/
def last (table : Table) : Nat :=
  table.columns.length - 1

/-- The problem of a key that lists no column of the table. -/
def notInKey (mention : Mention) : Problem :=
  if mention.isDoubleQuoted then { cause := .expressionInKey }
  else { cause := .noSuchColumn mention.name, offset := some mention.offset }

/-- The positions of the columns that a key lists; without a list it is the column
declared last. -/
def positions (table : Table) : Option (List Mention) -> Except Problem (List Nat)
  | none => .ok [table.last]
  | some mentions =>
      mentions.mapM fun mention =>
        (table.position? mention.name).elim (.error (notInKey mention)) .ok

/-- Adds an index. On the columns of an earlier index it adds only that these may be
the primary key. -/
def addIndex (table : Table) (columns : List Nat) (primary : Bool) : Table :=
  if table.indexes.any fun index => index.columns == columns then
    { table with
      indexes := table.indexes.map fun index =>
        if index.columns == columns then { index with primary := index.primary || primary }
        else index }
  else { table with indexes := { columns, primary } :: table.indexes }

/-- Whether a key may order the rows: it is one column of type `INTEGER`. -/
def rowKeyColumn? (table : Table) (listed : Option (List Mention)) : Option Nat :=
  let candidate :=
    match listed with
    | none => some table.last
    | some [mention] => table.position? mention.name
    | some _ => none
  candidate.filter fun position => table.columns[position]?.map Column.type == some "INTEGER"

/-- Adds the primary key. -/
def addPrimaryKey (table : Table) (listed : Option (List Mention)) (descending automatic : Bool) :
    Except Problem Table :=
  if table.primaryKey.isSome then .error { cause := .severalPrimaryKeys table.name }
  else
    match (table.rowKeyColumn? listed).filter fun _ => !descending with
    | some column =>
        .ok { table with primaryKey := some [column], rowKey := some { column, automatic } }
    | none =>
        if automatic then .error { cause := .misplacedAutoincrement }
        else
          (table.positions listed).map fun columns =>
            ({ table with primaryKey := some columns } : Table).addIndex columns true

/-- The positions of the columns that a foreign key lists. -/
def referring (table : Table) (names : List String) : Except Problem (List Nat) :=
  names.mapM fun name =>
    (table.position? name).elim (.error { cause := .unknownKeyColumn name }) .ok

/-- Adds a foreign key. -/
def addReference (table : Table) (columns : Option (List String)) (target : Mention)
    (targets : List String) (onDelete : Action) : Except Problem Table :=
  let add (columns : List Nat) : Table :=
    { table with
      foreignKeys := { columns, target := target.name, targets, onDelete } :: table.foreignKeys }
  match columns with
  | none =>
      if targets.length > 1 then
        .error
          { cause := .columnReferenceCount (table.columnName table.last) target.source
            offset := some target.offset }
      else .ok (add [table.last])
  | some names =>
      if !targets.isEmpty && targets.length != names.length then
        .error { cause := .referenceCount }
      else
        (table.referring names).map add

/-- Changes the column declared last. -/
def changeLast (table : Table) (change : Column -> Column) : Table :=
  { table with columns := table.columns.modify table.last change }

/-- The greatest number of columns of a table. -/
def columnLimit : Nat :=
  2000

/-- A table with one more clause of its definition. -/
def addClause (table : Table) : Clause -> Except Problem Table
  | .column name type =>
      if columnLimit ≤ table.columns.length then .error { cause := .tooManyColumns table.name }
      else if (table.position? name).isSome then .error { cause := .duplicateColumn name }
      else .ok { table with columns := table.columns ++ [{ name, type := typeReadBack type }] }
  | .notNull => .ok (table.changeLast fun column => { column with notNull := true })
  | .default value => .ok (table.changeLast fun column => { column with default := value })
  | .primaryKey columns descending automatic => table.addPrimaryKey columns descending automatic
  | .unique columns => (table.positions columns).map fun columns => table.addIndex columns false
  | .reference columns target targets onDelete =>
      table.addReference columns target targets onDelete

/-- The empty table that a definition describes. -/
def ofDefinition (definition : TableDefinition) : Except Problem Table := do
  let table ← definition.clauses.foldlM addClause { name := definition.table.name, columns := [] }
  match definition.fault with
  | some problem => .error problem
  | none => .ok table

end Table

end SchemaLoom.Database
