import SchemaLoom.Database.Failure
import SchemaLoom.Database.State

/-!
# References between rows

A row whose foreign key is set refers to a row of another table, or of its own, by the
columns of a key of that table. The row it refers to has to be there: rows that would
be left without theirs are deleted as well where the key cascades, and otherwise the
statement that would leave them is refused. A key of a table is its row key or a unique
index; a foreign key that leads to a missing table or to other columns is a problem as
soon as rows are inserted or deleted, but not before.

Of the actions of a key two are performed: to cascade, and to do nothing. One that restricts
a deletion, or sets a null or a default value, is kept with its key and not performed, so
what is said about deletions is said of keys without such an action.
-/

namespace SchemaLoom.Database

namespace ForeignKey

/-- Whether a key passes the deletion of a row on to those that refer to it. -/
def cascades (key : ForeignKey) : Bool :=
  key.onDelete == .cascade

/-- The values that a row has in the columns of a key. -/
def valuesIn (key : ForeignKey) (row : List Value) : List Value :=
  key.columns.map fun column => (row[column]?).getD .null

/-- Whether a key refers to nothing in a row, for which one null is enough. -/
def isUnset (key : ForeignKey) (row : List Value) : Bool :=
  (key.valuesIn row).any Value.isNull

end ForeignKey

namespace Table

/-- Whether no two rows of a table have the same values in the given columns. -/
def isKey (table : Table) (columns : List Nat) : Bool :=
  (table.rowKey.any fun key => [key.column] == columns) ||
    table.indexes.any fun index =>
      index.columns.length == columns.length && index.columns.all columns.contains

/-- The columns that a foreign key refers to in a table: those it lists if they are a
key, or else the primary key. Tables of the database itself have no keys. -/
def referred? (table : Table) (key : ForeignKey) : Option (List Nat) :=
  if isReserved table.name then none
  else if key.targets.isEmpty then
    table.primaryKey.filter fun columns => columns.length == key.columns.length
  else (key.targets.mapM table.position?).filter table.isKey

/-- Whether a row has the given values in the given columns. The values count as the
columns would store them. -/
def isReferred (table : Table) (columns : List Nat) (values row : List Value) : Bool :=
  (columns.zip values).all fun (column, value) =>
    match table.columns[column]?, row[column]? with
    | some declared, some other => (declared.affinity.apply value).sameKey other
    | _, _ => false

end Table

/-- Whether a key of a row is set and refers to no row. -/
def isOrphan (database : Database) (key : ForeignKey) (row : List Value) : Bool :=
  !key.isUnset row &&
    !(database.table? key.target).any fun table =>
      (table.referred? key).any fun columns =>
        table.rows.any (table.isReferred columns (key.valuesIn row))

/-- Whether there is a row that lacks the one it refers to. -/
def hasOrphan (database : Database) : Bool :=
  database.tables.any fun table =>
    table.rows.any fun row => table.foreignKeys.any fun key => database.isOrphan key row

/-- The database, unless there is a row that lacks the one it refers to. -/
def complete (database : Database) : Except Problem Database :=
  if database.hasOrphan then .error { cause := .referenceFailed } else .ok database

/-- The number of rows in all tables. -/
def rowCount (database : Database) : Nat :=
  (database.tables.flatMap Table.rows).length

/-- The database without the rows that are to go with the ones they referred to. -/
def withoutDependents (database : Database) : Database :=
  { database with
    tables := database.tables.map fun table =>
      { table with
        rows := table.rows.filter fun row =>
          !table.foreignKeys.any fun key => key.cascades && database.isOrphan key row } }

/-- Deletes dependent rows until none is left, in at most the given number of rounds. -/
def cascade : Nat -> Database -> Database
  | 0, database => database
  | bound + 1, database =>
      let fewer := database.withoutDependents
      if fewer.rowCount == database.rowCount then database else cascade bound fewer

/-- Deletes rows of a table one after the other, at most as many as the bound, each with
those that depend on it. The number is that of the rows whose turn came. -/
def deleteRows (name : String) : Nat -> Database -> Nat × Database
  | 0, database => (0, database)
  | bound + 1, database =>
      match database.table? name with
      | none => (0, database)
      | some table =>
          match table.rows with
          | [] => (0, database)
          | _ :: rows =>
              let (count, left) :=
                deleteRows name bound (cascade database.rowCount (database.replace { table with rows }))
              (count + 1, left)

/-- The foreign keys that refer to a table, each with the table that has it. The newest
stand first. -/
def keysTo (database : Database) (name : String) : List (Table × ForeignKey) :=
  database.tables.reverse.flatMap fun table =>
    (table.foreignKeys.filter fun key => sameName key.target name).map fun key => (table, key)

/-- The problem of a foreign key whose columns are no key where it leads to. -/
def mismatch? (child parent : Table) (key : ForeignKey) : Option Problem :=
  if (parent.referred? key).isSome then none
  else some { cause := .keyMismatch child.name key.target }

/-- The problem of the foreign keys of a table. -/
def keyProblem? (database : Database) (table : Table) : Option Problem :=
  table.foreignKeys.findSome? fun key =>
    match database.table? key.target with
    | none => some { cause := .noSuchTable ("main." ++ key.target) }
    | some parent => mismatch? table parent key

/-- The problem of the foreign keys that refer to a table. -/
def referenceProblem? (database : Database) (table : Table) : Option Problem :=
  (database.keysTo table.name).findSome? fun (child, key) => mismatch? child table key

/-- The problem of the foreign keys that refer to a table and cascade. Of several, that of
the oldest is reported. -/
def cascadeProblem? (database : Database) (table : Table) : Option Problem :=
  (database.keysTo table.name).reverse.findSome? fun (child, key) =>
    if key.cascades then mismatch? child table key else none

/-- The problem of the tables that lose rows with those of a table, given that of losing
them. -/
def dependentProblem? (database : Database) (problem? : Table -> Option Problem) (table : Table) :
    Option Problem :=
  (database.keysTo table.name).findSome? fun (child, key) =>
    if key.cascades && (table.referred? key).isSome then problem? child else none

/-- The problem of deleting rows of a table. Deletions that are passed on are followed as
often as the bound says. -/
def deletionProblem? (database : Database) : Nat -> Table -> Option Problem
  | 0, _ => none
  | bound + 1, table =>
      (database.cascadeProblem? table).or
        ((database.keyProblem? table).or
          ((database.referenceProblem? table).or
            (database.dependentProblem? (deletionProblem? database bound) table)))

/-- The problem of inserting rows into a table. Only where there are several, the keys
that refer to the table are looked at. -/
def insertionProblem? (database : Database) (table : Table) (count : Nat) : Option Problem :=
  (database.keyProblem? table).or
    (if 1 < count then database.referenceProblem? table else none)

end SchemaLoom.Database
