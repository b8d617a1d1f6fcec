import SchemaLoom.Host.Error
import SchemaLoom.Json.Basic
import SchemaLoom.Settings.Template
import SchemaLoom.Toml.Reading

/-!
# Settings

Settings say where the database is and how output is laid out. They come from a
document with a `database` and an `output` table; what it leaves out has a default and
what it has beyond that is ignored. The environment may override the path of the
database, and the path may refer to environment variables.
-/

namespace SchemaLoom

/-- The settings of the program. -/
structure Settings where
  databasePath : String := "./data/database.sqlite"
  pretty : Bool := true
  deriving DecidableEq, Repr

/-- Why there are no settings. -/
inductive SettingsError where
  | fileNotFound (path : String)
  | unreadable (error : FileError)
  | malformed
  | missingVariable (name : String)
  deriving DecidableEq, Repr

/-- The wording of a settings error. A malformed document is not described further. -/
def SettingsError.message : SettingsError -> String
  | fileNotFound path => "Config file not found: " ++ path
  | unreadable error => "Failed to read config file: " ++ error.message
  | malformed => "Failed to parse config file"
  | missingVariable name => "Missing environment variable: " ++ name

namespace Settings

/-- The item that a table holds under a name. An array stands for a table of which it
lists the items in order, and a date for one without any. -/
def field? (name : String) : Toml -> Option (Option Toml)
  | .table _ members => some (Toml.member? members name)
  | .array items => some items.head?
  | .tables elements => some (elements.head?.map (.table .header))
  | .moment => some none
  | _ => none

/-- What a document sets under a name in a named table, or the default where it has nothing
there. -/
def setting? {α : Type} (table name : String) (read : Toml -> Option α) (default : α)
    (document : Toml.Members) : Option α :=
  match Toml.member? document table with
  | none => some default
  | some item =>
      match field? name item with
      | none => none
      | some none => some default
      | some (some written) => read written

/-- The path of the database in a document. -/
def path? : Toml.Members -> Option String :=
  setting? "database" "path" Toml.string? ({} : Settings).databasePath

/-- The layout of output in a document. -/
def pretty? : Toml.Members -> Option Bool :=
  setting? "output" "pretty" Toml.boolean? ({} : Settings).pretty

/-- The settings in the text of a document. -/
def ofText (text : String) : Except SettingsError Settings :=
  match Toml.ofText? text with
  | none => .error .malformed
  | some document =>
      match path? document, pretty? document with
      | some databasePath, some pretty => .ok { databasePath, pretty }
      | _, _ => .error .malformed

/-- A text with the values of environment variables in place of its references. -/
def expand (environment : String -> Option String) (text : String) :
    Except SettingsError String :=
  ((Template.ofText text).fill environment).mapError .missingVariable |>.map String.ofList

/-- The environment variable that overrides the path of the database. -/
def pathVariable : String :=
  "DB_PATH"

/-- The path of the database before references are replaced. -/
def unexpandedPath (settings : Settings) (environment : String -> Option String) : String :=
  (environment pathVariable).getD settings.databasePath

/-- Settings as an environment completes them. -/
def inEnvironment (settings : Settings) (environment : String -> Option String) :
    Except SettingsError Settings :=
  (expand environment (settings.unexpandedPath environment)).map fun databasePath =>
    { settings with databasePath }

/-- Settings as JSON. -/
def toJson (settings : Settings) : Json :=
  .object
    [("database", .object [("path", .string settings.databasePath)]),
      ("output", .object [("pretty", .bool settings.pretty)])]

end Settings

end SchemaLoom
