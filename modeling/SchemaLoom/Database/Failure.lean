/-!
# Failures of the database

A cause says what went wrong. A problem is a cause with the place in the statement
that it points at, if it points at one. A failure is a problem of a statement;
its wording shows the statement only where it points into it.
-/

namespace SchemaLoom.Database

/-- Why the database refuses a statement, or does not open. -/
inductive Cause where
  | unexpected (token : String)
  | incomplete
  | unrecognized (token : String)
  | tableOption (name : String)
  | reservedName (name : String)
  | tableExists (name : String)
  | noSuchTable (name : String)
  | noSuchColumn (name : String)
  | duplicateColumn (name : String)
  | tooManyColumns (table : String)
  | unknownKeyColumn (name : String)
  | referenceCount
  | columnReferenceCount (column table : String)
  | severalPrimaryKeys (table : String)
  | misplacedAutoincrement
  | expressionInKey
  | noTables
  | noColumnNamed (table column : String)
  | valueCount (table : String) (columns values : Nat)
  | listedValueCount (values columns : Nat)
  | unevenRows
  | uniqueFailed (primary : Bool) (columns : List String)
  | notNullFailed (column : String)
  | typeMismatch
  | full
  | keyMismatch (table target : String)
  | referenceFailed
  | keptTable (name : String)
  | returnedRows
  | notADatabase
  | cannotOpen (path : String)
  deriving DecidableEq, Repr

namespace Cause

/-- The wording of a cause. -/
def wording : Cause -> String
  | unexpected token => "near \"" ++ token ++ "\": syntax error"
  | incomplete => "incomplete input"
  | unrecognized token => "unrecognized token: \"" ++ token ++ "\""
  | tableOption name => "unknown table option: " ++ name
  | reservedName name => "object name reserved for internal use: " ++ name
  | tableExists name => "table " ++ name ++ " already exists"
  | noSuchTable name => "no such table: " ++ name
  | noSuchColumn name => "no such column: " ++ name
  | duplicateColumn name => "duplicate column name: " ++ name
  | tooManyColumns table => "too many columns on " ++ table
  | unknownKeyColumn name => "unknown column \"" ++ name ++ "\" in foreign key definition"
  | referenceCount =>
      "number of columns in foreign key does not match the number of columns in the referenced table"
  | columnReferenceCount column table =>
      "foreign key on " ++ column ++ " should reference only one column of table " ++ table
  | severalPrimaryKeys table => "table \"" ++ table ++ "\" has more than one primary key"
  | misplacedAutoincrement => "AUTOINCREMENT is only allowed on an INTEGER PRIMARY KEY"
  | expressionInKey => "expressions prohibited in PRIMARY KEY and UNIQUE constraints"
  | noTables => "no tables specified"
  | noColumnNamed table column => "table " ++ table ++ " has no column named " ++ column
  | valueCount table columns values =>
      "table " ++ table ++ " has " ++ toString columns ++ " columns but " ++ toString values ++
        " values were supplied"
  | listedValueCount values columns =>
      toString values ++ " values for " ++ toString columns ++ " columns"
  | unevenRows => "all VALUES must have the same number of terms"
  | uniqueFailed _ columns =>
      "UNIQUE constraint failed: " ++ String.intercalate ", " columns
  | notNullFailed column => "NOT NULL constraint failed: " ++ column
  | typeMismatch => "datatype mismatch"
  | full => "database or disk is full"
  | keyMismatch table target =>
      "foreign key mismatch - \"" ++ table ++ "\" referencing \"" ++ target ++ "\""
  | referenceFailed => "FOREIGN KEY constraint failed"
  | keptTable name => "table " ++ name ++ " may not be dropped"
  | returnedRows => "Execute returned results - did you mean to call query?"
  | notADatabase => "file is not a database"
  | cannotOpen path => "unable to open database file: " ++ path

/-- The number of the class that a cause belongs to, with the wording of the class.
Only the misuse of a statement that returns rows has none. -/
def class? : Cause -> Option (Nat × String)
  | uniqueFailed true _ => some (1555, "A PRIMARY KEY constraint failed")
  | uniqueFailed false _ => some (2067, "A UNIQUE constraint failed")
  | notNullFailed _ => some (1299, "A NOT NULL constraint failed")
  | referenceFailed => some (787, "Foreign key constraint failed")
  | typeMismatch => some (20, "Data type mismatch")
  | full => some (13, "Insertion failed because database is full")
  | notADatabase => some (26, "File opened that is not a database file")
  | cannotOpen _ => some (14, "Unable to open the database file")
  | returnedRows => none
  | _ => some (1, "SQL error or missing database")

end Cause

/-- A cause and the byte offset that it points at. -/
structure Problem where
  cause : Cause
  offset : Option Nat := none
  deriving DecidableEq, Repr

/-- A problem of a statement. -/
structure Failure where
  problem : Problem
  statement : String
  deriving DecidableEq, Repr

/-- The wording of a failure. -/
def Failure.message (error : Failure) : String :=
  match error.problem.offset with
  | none => error.problem.cause.wording
  | some offset =>
      error.problem.cause.wording ++ " in " ++ error.statement ++ " at offset " ++ toString offset

end SchemaLoom.Database
