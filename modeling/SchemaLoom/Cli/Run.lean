import SchemaLoom.Cli.Arguments
import SchemaLoom.Reply.Normalized
import SchemaLoom.Schema.DiagramJson
import SchemaLoom.Settings.Loading

/-!
# Running commands

A command gives text for standard output, or a failure: a chain of messages from the
outermost to the innermost. The settings are loaded before the command looks at
anything else, and input is read before a database is opened.
-/

namespace SchemaLoom.Cli

/-- A failure: what could not be done, then why, then why that. -/
abbrev Failure := List String

/-- The messages of a failure of the database. -/
def databaseFailure (failure : Database.Failure) : Failure :=
  ["SQLite error: " ++ failure.message, failure.message] ++
    match failure.problem.cause.class? with
    | some (number, wording) => ["Error code " ++ toString number ++ ": " ++ wording]
    | none => []

/-- The messages of a failure of a sink. -/
def sinkFailure : Script.SinkError Database.Failure -> Failure
  | .database failure => databaseFailure failure
  | error => [error.message Database.Failure.message]

/-- The messages of a failure of a script. -/
def scriptFailure (failed : Script.ScriptError (Script.SinkError Database.Failure)) : Failure :=
  failed.message (Script.SinkError.message Database.Failure.message) :: sinkFailure failed.source

/-- The messages of settings that cannot be loaded. -/
def settingsFailure (error : SettingsError) : Failure :=
  ["failed to load settings", error.message] ++
    match error with
    | .unreadable reason => [reason.message]
    | _ => []

/-- The messages of a store that cannot be opened. -/
def openFailure (path : String) : OpenError -> Failure
  | .file error => ["failed to open database " ++ path, "IO error: " ++ error.message, error.message]
  | .refused failure => ("failed to open database " ++ path) :: databaseFailure failure

/-- A line of output. -/
def line (text : String) : String :=
  text ++ "\n"

section

variable {m : Type -> Type} [Monad m] (host : Host m)

/-- The text of a source: a file, or standard input for a dash. -/
def readSource (source : String) : m (Except Failure String) := do
  if source == "-" then
    return (← host.input).mapError fun error => ["failed to read stdin", error.message]
  else
    return (← host.readText source).mapError fun error =>
      ["failed to read " ++ source, error.message]

/-- Whether a path stands for a store that is not kept. -/
def isTransient (path : String) : Bool :=
  path.isEmpty || path == ":memory:"

/-- Uses a store and keeps it. -/
def withStore {α : Type} (path : String)
    (use : Database.Store -> Except Failure α × Database.Store) : m (Except Failure α) := do
  if isTransient path then return (use .empty).1
  else
    match ← host.openStore path with
    | .error error => return .error (openFailure path error)
    | .ok store => do
        let (result, after) := use store
        host.saveStore path after
        return result

/-- The reports of a script as JSON. -/
def reportsJson (reports : List (Script.StatementReport Script.Outcome)) : Json :=
  .array (reports.map Script.StatementReport.toJson)

/-- Runs a script on a store. -/
def applyScript (layout : Json.Layout) (script : String) (store : Database.Store) :
    Except Failure String × Database.Store :=
  let (result, after) := Script.run Database.Store.execute script store
  ((result.mapError scriptFailure).map fun reports => line ((reportsJson reports).render layout), after)

/-- Describes one table of a store, or all. -/
def describeStore (layout : Json.Layout) (table : Option String) (store : Database.Store) :
    Except Failure String :=
  let described :=
    match table with
    | some table => store.describe table
    | none => store.schema
  (described.mapError fun error => "failed to describe database" :: sinkFailure error).map
    fun schema => line (schema.jsonText layout)

/-- Drops tables of a store, all of them if none is named, or shows how. -/
def dropFromStore (layout : Json.Layout) (apply : Bool) (tables : List String)
    (store : Database.Store) : Except Failure String × Database.Store :=
  let named : Except Failure (List String) :=
    if tables.isEmpty then
      store.tableNames.mapError fun error => "failed to list tables" :: sinkFailure error
    else .ok tables
  match named with
  | .error failure => (.error failure, store)
  | .ok tables =>
      if apply then applyScript layout (Ddl.dropScript tables) store
      else (.ok (line (Ddl.dropScript tables)), store)

/-- Performs a command. -/
def perform (settings : Settings) (layout : Json.Layout) :
    Command -> m (Except Failure String)
  | .generate source => do
      match ← readSource host source with
      | .error failure => return .error failure
      | .ok text =>
          match Schema.ofJsonText text with
          | .error _ => return .error ["invalid schema JSON"]
          | .ok schema => return .ok (line (Ddl.render schema))
  | .parse source diagram detail => do
      match ← readSource host source with
      | .error failure => return .error failure
      | .ok text =>
          let schema := Ddl.schemaOf text
          if !diagram then return .ok (line (schema.jsonText layout))
          else
            match DetailLevel.ofName? detail with
            | none => return .error ["invalid detail level: " ++ detail]
            | some level =>
                return .ok (line ((Diagram.ofSchema schema level).toJson.render layout))
  | .split source => do
      return (← readSource host source).map fun text =>
        String.join ((Ddl.statements text).map fun statement => line (statement ++ ";"))
  | .normalize source => do
      let text : Except Failure (Option String) ←
        match source with
        | none => pure (.ok none)
        | some source => do pure ((← readSource host source).map some)
      return text.map fun text =>
        line ((Normalized.ofReply (Reply.ofText? text)).toJson.render layout)
  | .apply source database => do
      match ← readSource host source with
      | .error failure => return .error failure
      | .ok script =>
          withStore host (database.getD settings.databasePath) (applyScript layout script)
  | .describe table database =>
      withStore host (database.getD settings.databasePath) fun store =>
        (describeStore layout table store, store)
  | .drop database apply tables => do
      if !apply && !tables.isEmpty then return .ok (line (Ddl.dropScript tables))
      else
        withStore host (database.getD settings.databasePath) (dropFromStore layout apply tables)

/-- What a run leaves behind: an exit code, text on standard output, and perhaps the
text of an error. -/
structure Result where
  exit : Nat
  output : String := ""
  error : Option String := none
  deriving DecidableEq, Repr

/-- Runs the program on its arguments. -/
def run (arguments : List String) : m Result := do
  match Request.ofArguments arguments with
  | .misuse => return { exit := 2 }
  | .help => return { exit := 0 }
  | .version => return { exit := 0, output := line "erdforge 0.1.0" }
  | .run invocation => do
      let failed (failure : Failure) : Result :=
        { exit := 1, error := some (String.intercalate ": " failure) }
      match ← Settings.load host invocation.config with
      | .error error => return failed (settingsFailure error)
      | .ok settings => do
          let layout : Json.Layout :=
            if settings.pretty && !invocation.compact then .pretty else .compact
          match ← perform host settings layout invocation.command with
          | .error failure => return failed failure
          | .ok output => return { exit := 0, output }

end

end SchemaLoom.Cli
