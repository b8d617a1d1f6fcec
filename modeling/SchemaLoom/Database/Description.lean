import SchemaLoom.Database.Basic
import SchemaLoom.Schema.Basic

/-!
# Reading a schema back

A database describes each of its tables as a schema of one entity: the columns with
their types and constraints, and the foreign keys of one column that name the column
they refer to.
-/

namespace SchemaLoom.Database

/-- Whether a table is left out of the list of tables: its name is `sqlite` in any
case followed by at least one character. -/
def isHidden (name : String) : Bool :=
  Text.sameIgnoringCase (name.toList.take 6) "sqlite".toList && 7 ≤ name.length

/-- The names of the tables in the order of their characters. -/
def tableNames (database : Database) : List String :=
  ((database.tables.map Table.name).filter fun name => !isHidden name).mergeSort
    fun left right => decide (left ≤ right)

namespace Table

/-- The column at a position as an attribute. It is unique where it has an index of
its own that is not the primary key. -/
def attributeOf (table : Table) (column : Column) (position : Nat) : Attribute :=
  { name := column.name
    columnType := .ofSpelling column.type
    primaryKey := ((table.primaryKey.getD []).contains position)
    unique := table.indexes.any fun index => !index.primary && index.columns == [position]
    notNull := column.notNull }

/-- The relationship that a foreign key describes, if it is one of a single column to
a column that it names. -/
def relationship? (table : Table) (asked : String) (key : ForeignKey) : Option Relationship :=
  match key.columns, key.targets with
  | [column], [target] =>
      some
        { fromTable := asked
          fromColumn := table.columnName column
          toTable := key.target
          toColumn := target }
  | _, _ => none

/-- A table as a schema, under the name that was asked for. -/
def describe (table : Table) (asked : String) : Schema :=
  { entities :=
      [{ name := asked
         attributes := table.columns.zipIdx.map fun (column, position) =>
          table.attributeOf column position }]
    relationships := table.foreignKeys.filterMap (table.relationship? asked) }

end Table

/-- The names of the table of all tables. -/
def catalogNames : List String :=
  ["sqlite_master", "sqlite_schema", "sqlite_temp_master", "sqlite_temp_schema"]

/-- The table of all tables. -/
def catalogTable : Table :=
  let column (name type : String) : Column := { name, type }
  { name := "sqlite_master"
    columns :=
      [column "type" "TEXT", column "name" "TEXT", column "tbl_name" "TEXT",
        column "rootpage" "INT", column "sql" "TEXT"] }

/-- A table of a database as a schema. -/
def describe (database : Database) (asked : String) :
    Except (Script.SinkError Failure) Schema :=
  match database.table? asked with
  | some table => .ok (table.describe asked)
  | none =>
      if catalogNames.any (sameName asked) then .ok (catalogTable.describe asked)
      else .error (.unknownTable asked)

/-- All tables of a database as one schema, in the order of their names. -/
def schema (database : Database) : Except (Script.SinkError Failure) Schema :=
  (database.tableNames.mapM database.describe).map fun described =>
    described.foldl Schema.append Schema.empty

end SchemaLoom.Database
