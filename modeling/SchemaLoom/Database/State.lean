import SchemaLoom.Database.Row

/-!
# The state of a database

A database is a list of tables and the number of rows that the last insertion or
deletion changed. Tables whose names begin with a certain prefix belong to the database
itself; one of them keeps the numbers that automatic row keys have given.
-/

namespace SchemaLoom

open Database in
/-- The state of a database. -/
structure Database where
  tables : List Table := []
  changes : Nat := 0

namespace Database

/-- The table that keeps the numbers given by automatic row keys. -/
def sequenceName : String :=
  "sqlite_sequence"

/-- The empty table of numbers given by automatic row keys. -/
def sequenceTable : Table :=
  { name := sequenceName, columns := [{ name := "name", type := "" }, { name := "seq", type := "" }] }

/-- Whether a name is kept for tables of the database itself. -/
def isReserved (name : String) : Bool :=
  Text.sameIgnoringCase (name.toList.take 7) "sqlite_".toList

/-- The table of a given name. -/
def table? (database : Database) (name : String) : Option Table :=
  database.tables.find? fun table => sameName table.name name

/-- The database without a table. -/
def without (database : Database) (name : String) : Database :=
  { database with tables := database.tables.filter fun table => !sameName table.name name }

/-- The database with a table in place of the one of the same name. -/
def replace (database : Database) (table : Table) : Database :=
  { database with
    tables := database.tables.map fun other =>
      if sameName other.name table.name then table else other }

end Database

end SchemaLoom
