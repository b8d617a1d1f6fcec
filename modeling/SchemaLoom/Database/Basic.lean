import SchemaLoom.Database.Reading
import SchemaLoom.Database.Reference
import SchemaLoom.Script.Basic

/-!
# The database

A database performs statements. One that is refused leaves the tables as they are; an
insertion or deletion that fails at a row or for want of one also resets the number of
changed rows.
-/

namespace SchemaLoom.Database

/-- Whether a row of the table of numbers is about a table. -/
def isNumberOf (name : String) : List Value -> Bool
  | .text other :: _ => other == name
  | _ => false

/-- The largest number that the row key of a table has given. -/
def numberGiven (database : Database) (table : Table) : Option Int :=
  match table.rowKey, database.table? sequenceName with
  | some { automatic := true, .. }, some sequence =>
      match sequence.rows.find? (isNumberOf table.name) with
      | some [_, .integer number] => some number
      | _ => none
  | _, _ => none

/-- Keeps the largest number that the row key of a table has given. -/
def keepNumber (database : Database) (name : String) (number : Int) : Database :=
  match database.table? sequenceName with
  | none => database
  | some sequence =>
      let row : List Value := [.text name, .integer number]
      let rows :=
        if sequence.rows.any (isNumberOf name) then
          sequence.rows.map fun other => if isNumberOf name other then row else other
        else sequence.rows ++ [row]
      database.replace { sequence with rows }

/-- Forgets the numbers that the row key of a table has given. -/
def forgetNumber (database : Database) (name : String) : Database :=
  match database.table? sequenceName with
  | none => database
  | some sequence =>
      database.replace
        { sequence with rows := sequence.rows.filter fun row => !isNumberOf name row }

/-- What a statement gives: nothing but its changes, or rows under column names. -/
inductive Answer where
  | changed
  | rows (columns : List String) (rows : List (List Value))

/-- Adds a table. -/
def addTable (database : Database) (table : Table) : Database :=
  let numbered := (table.rowKey.map RowKey.automatic).getD false
  let sequence :=
    if numbered && (database.table? sequenceName).isNone then [sequenceTable] else []
  { database with tables := database.tables ++ [table] ++ sequence }

/-- Creates a table. -/
def create (definition : TableDefinition) (database : Database) : Except Problem Database :=
  let name := definition.table.name
  if isReserved name then .error { cause := .reservedName name }
  else if (database.table? name).isSome then
    if definition.onlyIfMissing then
      match definition.fault with
      | some problem => .error problem
      | none => .ok database
    else
      .error
        { cause := .tableExists definition.table.source, offset := some definition.table.offset }
  else (Table.ofDefinition definition).map database.addTable

/-- The table that a statement names. -/
def required (database : Database) (mention : Mention) : Except Problem Table :=
  match database.table? mention.name with
  | some table => .ok table
  | none => .error { cause := .noSuchTable mention.name }

/-- The database whose rows of a table are deleted. -/
def emptied (database : Database) (table : Table) : Except Problem Database :=
  let (count, left) := database.deleteRows table.name table.rows.length
  { left with changes := count }.complete

/-- The database that a table is taken from. The rows of one that foreign keys refer to
are deleted before. -/
def released (database : Database) (table : Table) : Except Problem Database :=
  if (database.keysTo table.name).isEmpty then .ok database
  else
    match database.dependentProblem? (database.deletionProblem? database.tables.length) table with
    | some problem => .error problem
    | none => database.emptied table

/-- Drops a table. -/
def drop (mention : Mention) (onlyIfPresent : Bool) (database : Database) :
    Except Problem Database :=
  match database.table? mention.name with
  | none =>
      if onlyIfPresent then .ok database else .error { cause := .noSuchTable mention.name }
  | some table =>
      if isReserved table.name then .error { cause := .keptTable table.name }
      else
        (database.released table).map fun left =>
          (left.without table.name).forgetNumber table.name

/-- Deletes the rows of a table. -/
def clear (mention : Mention) (database : Database) : Except Problem Database := do
  let table ← database.required mention
  match database.deletionProblem? (database.tables.length + 1) table with
  | some problem => .error problem
  | none => database.emptied table

/-- The value of a term that stands in no table. A name in double quotes that names
nothing is text. -/
def valueOf : Term -> Except Problem Value
  | .value value => .ok value
  | .named mention kind =>
      if mention.isDoubleQuoted then .ok (.text mention.name)
      else if kind == .word && sameName mention.name "TRUE" then .ok (.integer 1)
      else if kind == .word && sameName mention.name "FALSE" then .ok (.integer 0)
      else .error { cause := .noSuchColumn mention.name, offset := some mention.offset }

/-- Whether rows have different lengths. -/
def uneven {α : Type} : List (List α) -> Bool
  | [] => false
  | first :: rows => rows.any fun row => row.length != first.length

/-- Whether a term has a value by itself. -/
def isConstant : Term -> Bool
  | .value _ => true
  | .named mention kind =>
      kind == .word && (sameName mention.name "TRUE" || sameName mention.name "FALSE")

/-- Whether two neighbouring rows of constants have different lengths, which is seen
before any name is looked up. -/
def unevenAtOnce : List (List Term) -> Bool
  | first :: second :: rows =>
      (first.all isConstant && second.all isConstant && first.length != second.length)
        || unevenAtOnce (second :: rows)
  | _ => false

/-- Rows of values, all of one length. The last row is looked at first. -/
def valuesOf : List (List Term) -> Except Problem (List (List Value))
  | [] => .ok []
  | row :: rows => do
      let later ← valuesOf rows
      let values ← row.mapM valueOf
      if uneven (values :: later) then .error { cause := .unevenRows }
      return values :: later

/-- The positions of the columns that an insertion lists, or of all. -/
def insertedColumns (table : Table) (mention : Mention) :
    Option (List String) -> Except Problem (List Nat)
  | none => .ok (List.range table.columns.length)
  | some names =>
      names.mapM fun name =>
        (table.position? name).elim (.error { cause := .noColumnNamed mention.name name }) .ok

/-- A row for all columns from values for some of them. A column without a value gets
its default. -/
def fullRow (table : Table) (columns : List Nat) (values : List Value) : List Value :=
  (table.columns.zipIdx).map fun (column, position) =>
    match (columns.zip values).find? fun (listed, _) => listed == position with
    | some (_, value) => value
    | none => column.default

/-- The rows that an insertion adds to a table. -/
def insertion (mention : Mention) (columns : Option (List String)) (rows : List (List Term))
    (database : Database) : Except Problem (Table × List (List Value)) := do
  if unevenAtOnce rows then .error { cause := .unevenRows }
  let table ← database.required mention
  let positions ← insertedColumns table mention columns
  let values ← valuesOf rows
  let count := ((values.head?).map List.length).getD 0
  if count != positions.length then
    .error
      { cause :=
          match columns with
          | none => .valueCount mention.name positions.length count
          | some _ => .listedValueCount count positions.length }
  match database.insertionProblem? table values.length with
  | some problem => .error problem
  | none => return (table, values.map (fullRow table positions))

/-- Adds rows to a table. -/
def insert (mention : Mention) (columns : Option (List String)) (rows : List (List Term))
    (database : Database) : Except Problem Answer × Database :=
  match database.insertion mention columns rows with
  | .error problem => (.error problem, database)
  | .ok (table, added) =>
      let used := database.numberGiven table
      match table.insertRows used added with
      | .error cause => (.error { cause }, { database with changes := 0 })
      | .ok filled =>
          let kept : Database := { database.replace filled with changes := added.length }
          let numbered :=
            match filled.numbersGiven used with
            | some number => kept.keepNumber table.name number
            | none => kept
          match numbered.complete with
          | .error problem => (.error problem, { database with changes := 0 })
          | .ok after => (.ok .changed, after)

/-- Where a value of a selection comes from. -/
inductive Cell where
  | stored (position : Nat)
  | fixed (value : Value)

/-- The value of a cell in a row. -/
def Cell.valueIn (row : List Value) : Cell -> Value
  | stored position => (row[position]?).getD .null
  | fixed value => value

/-- The columns that an item of a selection gives, by name. -/
def cells (table : Option Table) : Selected -> Except Problem (List (String × Cell))
  | .everything =>
      match table with
      | none => .error { cause := .noTables }
      | some table =>
          .ok (table.columns.zipIdx.map fun (column, position) => (column.name, .stored position))
  | .term term spelling givenName => do
      let found :=
        match term with
        | .named mention _ =>
            table.bind fun table => (table.position? mention.name).map fun position =>
              (table.columnName position, Cell.stored position)
        | .value _ => none
      match found with
      | some (name, cell) => return [(givenName.getD name, cell)]
      | none => return [(givenName.getD spelling, .fixed (← valueOf term))]

/-- Whether an item selects everything. -/
def Selected.isEverything : Selected -> Bool
  | .everything => true
  | .term .. => false

/-- The rows of a selection. -/
def selection (items : List Selected) (mention : Option Mention) (database : Database) :
    Except Problem Answer := do
  let table ← mention.mapM database.required
  if table.isNone && items.any Selected.isEverything then .error { cause := .noTables }
  let columns := (← items.mapM (cells table)).flatten
  let rows := (table.map Table.rows).getD [[]]
  return .rows (columns.map Prod.fst)
    (rows.map fun row => columns.map fun column => column.2.valueIn row)

/-- The database after a statement that failed. -/
def afterRefusal (database : Database) : Cause -> Database
  | .referenceFailed => { database with changes := 0 }
  | _ => database

/-- Performs a statement. -/
def perform (statement : Statement) (database : Database) : Except Problem Answer × Database :=
  let change (result : Except Problem Database) : Except Problem Answer × Database :=
    match result with
    | .ok changed => (.ok .changed, changed)
    | .error problem => (.error problem, database.afterRefusal problem.cause)
  match statement with
  | .create definition => change (database.create definition)
  | .drop mention onlyIfPresent => change (database.drop mention onlyIfPresent)
  | .delete mention => change (database.clear mention)
  | .insert mention columns rows => database.insert mention columns rows
  | .select items mention => (database.selection items mention, database)
  | .values rows =>
      if unevenAtOnce rows then (.error { cause := .unevenRows }, database)
      else ((valuesOf rows).map (Answer.rows []), database)

/-- What a statement reports. Only one that asks for rows may give any. -/
def outcome (statement : String) (database : Database) : Answer -> Except Cause Script.Outcome
  | .changed => .ok (.executed database.changes)
  | .rows columns rows =>
      if Script.isQuery statement then
        .ok (.rows columns (rows.map fun row => row.map Value.toJson))
      else if rows.isEmpty then .ok (.executed database.changes)
      else .error .returnedRows

/-- Executes the text of a statement. -/
def execute : Script.Execute Database (Script.SinkError Failure) Script.Outcome :=
  fun statement database =>
    let refuse (problem : Problem) : Script.SinkError Failure :=
      .database { problem, statement }
    match Statement.ofText statement with
    | .error problem => (.error (refuse problem), database)
    | .ok read =>
        match database.perform read with
        | (.error problem, after) => (.error (refuse problem), after)
        | (.ok answer, after) =>
            ((outcome statement after answer).mapError fun cause => refuse { cause }, after)

end SchemaLoom.Database
