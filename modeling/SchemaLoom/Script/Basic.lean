import SchemaLoom.Ddl.Fragment
import SchemaLoom.Ddl.Render
import SchemaLoom.Json.Basic
import SchemaLoom.Text.Letters

/-!
# Running scripts

A script runs statement by statement against a sink: any state with a function that
executes one statement. The run stops at the first failure, and what was executed
before it stays. A sink may change its state also when it fails.
-/

namespace SchemaLoom.Script

/-- A way to execute one statement in a state. -/
abbrev Execute (State Error Result : Type) :=
  String -> State -> Except Error Result × State

/-- What executing the statement at a position gave. -/
structure StatementReport (Result : Type) where
  index : Nat
  statement : String
  outcome : Result
  deriving DecidableEq, Repr

/-- The statement that stopped a script, and why. -/
structure ScriptError (Error : Type) where
  index : Nat
  statement : String
  source : Error
  deriving DecidableEq, Repr

variable {State Error Result : Type}

/-- Runs statements from a position on. -/
def runFrom (execute : Execute State Error Result) (index : Nat) :
    List String -> State ->
      Except (ScriptError Error) (List (StatementReport Result)) × State
  | [], state => (.ok [], state)
  | statement :: statements, state =>
      match execute statement state with
      | (.error source, after) => (.error { index, statement, source }, after)
      | (.ok outcome, after) =>
          match runFrom execute (index + 1) statements after with
          | (.error failure, final) => (.error failure, final)
          | (.ok reports, final) => (.ok ({ index, statement, outcome } :: reports), final)

/-- Runs the statements of a script in order. -/
def run (execute : Execute State Error Result) (script : String) (state : State) :
    Except (ScriptError Error) (List (StatementReport Result)) × State :=
  runFrom execute 0 (Ddl.statements script) state

/-- Drops tables through a sink. -/
def dropTables (execute : Execute State Error Result) (tables : List String) (state : State) :
    Except (ScriptError Error) (List (StatementReport Result)) × State :=
  run execute (Ddl.dropScript tables) state

/-- Whether a statement asks for rows: its first six characters are `SELECT` in any
ASCII case. -/
def isQuery (statement : String) : Bool :=
  Text.sameIgnoringCase ((Text.trimStart statement.toList).take 6) "SELECT".toList

/-- What a statement gives: rows, or the number of rows that it changed. -/
inductive Outcome where
  | rows (columns : List String) (rows : List (List Json))
  | executed (changes : Nat)
  deriving Inhabited

/-- An outcome as JSON. -/
def Outcome.toJson : Outcome -> Json
  | rows columns values =>
      .object
        [("type", .string "rows"), ("columns", .array (columns.map Json.string)),
          ("rows", .array (values.map Json.array))]
  | executed changes =>
      .object [("type", .string "executed"), ("changes", .integer changes)]

/-- The report of a statement as JSON. -/
def StatementReport.toJson (report : StatementReport Outcome) : Json :=
  .object
    [("index", .integer report.index), ("statement", .string report.statement),
      ("outcome", report.outcome.toJson)]

/-- Why a sink failed. The type of database errors is open. -/
inductive SinkError (Database : Type) where
  | database (error : Database)
  | rejected (statement : String)
  | unknownTable (table : String)
  deriving DecidableEq, Repr

/-- The wording of a sink error, given that of a database error. -/
def SinkError.message {Database : Type} (wording : Database -> String) :
    SinkError Database -> String
  | database error => "SQLite error: " ++ wording error
  | rejected statement => "Statement rejected: " ++ statement
  | unknownTable table => "No such table: " ++ table

/-- The wording of a script error, given that of its source. -/
def ScriptError.message (wording : Error -> String) (failure : ScriptError Error) : String :=
  "statement " ++ toString failure.index ++ " failed: " ++ wording failure.source

end SchemaLoom.Script
