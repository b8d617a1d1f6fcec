import SchemaLoom.Database.Description

/-!
# Stores

A store is what a database file holds: a database together with the statements that
led to it. The journal of these statements is what is written to the file, and running
it again gives the database. A file that holds something else is a foreign store, of
which nothing can be read.
-/

namespace SchemaLoom.Database

/-- What a database file holds. -/
inductive Store where
  | kept (database : Database) (journal : List String)
  | foreign

namespace Store

/-- The store of an empty file. -/
def empty : Store :=
  .kept {} []

/-- Whether a statement that succeeded changed what the file holds. -/
def isRecorded (statement : String) (before after : Database) : Bool :=
  match Statement.ofText statement with
  | .ok (.create _) | .ok (.drop _ _) => before.tables.length != after.tables.length
  | .ok (.insert _ _ _) | .ok (.delete _) => true
  | _ => false

/-- Whether a statement needs no table to be read. -/
def needsNoTable (statement : String) : Bool :=
  match Statement.ofText statement with
  | .error _ | .ok (.select _ none) | .ok (.values _) => true
  | _ => false

/-- The error of everything that reads a foreign store. -/
def unreadable (statement : String) : Script.SinkError Failure :=
  .database { problem := { cause := .notADatabase }, statement }

/-- Executes the text of a statement. -/
def execute : Script.Execute Store (Script.SinkError Failure) Script.Outcome
  | statement, .foreign =>
      if needsNoTable statement then ((Database.execute statement {}).1, .foreign)
      else (.error (unreadable statement), .foreign)
  | statement, .kept database journal =>
      match Database.execute statement database with
      | (.error error, after) => (.error error, .kept after journal)
      | (.ok outcome, after) =>
          (.ok outcome,
            .kept after (if isRecorded statement database after then journal ++ [statement]
              else journal))

/-- The names of the tables. -/
def tableNames : Store -> Except (Script.SinkError Failure) (List String)
  | kept database _ => .ok database.tableNames
  | foreign => .error (unreadable "")

/-- A table as a schema. -/
def describe (asked : String) : Store -> Except (Script.SinkError Failure) Schema
  | kept database _ => database.describe asked
  | foreign => .error (unreadable "")

/-- All tables as one schema. -/
def schema : Store -> Except (Script.SinkError Failure) Schema
  | kept database _ => database.schema
  | foreign => .error (unreadable "")

/-- The store that a journal leads to. Only the tables count, not what the last
statement changed. -/
def ofJournal (journal : List String) : Store :=
  let replayed := journal.foldl (fun database statement =>
    (Database.execute statement database).2) {}
  .kept { replayed with changes := 0 } journal

/-- A store as a new connection finds it. -/
def reopened : Store -> Store
  | kept database journal => .kept { database with changes := 0 } journal
  | foreign => .foreign

/-- A journal as text: every statement between apostrophes, which are doubled inside. -/
def renderJournal (journal : List String) : List Char :=
  journal.flatMap fun statement =>
    '\x27' :: (statement.toList.flatMap fun c => if c == '\x27' then [c, c] else [c]) ++ ['\x27', '\n']

/-- The statements in the text of a journal, at most as many as the bound. -/
def journalOf? : Nat -> List Char -> Option (List String)
  | _, [] => some []
  | 0, _ :: _ => none
  | bound + 1, c :: rest =>
      if c == '\n' then journalOf? bound rest
      else if c == '\x27' then
        match closing? '\x27' rest with
        | some length =>
            (journalOf? bound (rest.drop length)).map
              (String.ofList (undouble '\x27' (rest.take (length - 1))) :: ·)
        | none => none
      else none

end Store

end SchemaLoom.Database
