import SchemaLoom.Host.Basic
import SchemaLoom.Settings.Basic

/-!
# Loading settings

Settings come from the file that is asked for, which has to be there, or else from
`erdforge.toml` if it is there, or else they are the defaults. Then the environment
completes them.
-/

namespace SchemaLoom.Settings

/-- The file that settings come from when none is asked for. -/
def defaultFile : String :=
  "erdforge.toml"

/-- The settings in a file. -/
def ofFile {m : Type -> Type} [Monad m] (host : Host m) (path : String) :
    m (Except SettingsError Settings) := do
  match ← host.readText path with
  | .error error => return .error (.unreadable error)
  | .ok text => return ofText text

/-- The settings before the environment completes them. -/
def written {m : Type -> Type} [Monad m] (host : Host m) :
    Option String -> m (Except SettingsError Settings)
  | some path => do
      if ← host.isPresent path then ofFile host path else return .error (.fileNotFound path)
  | none => do
      if ← host.isPresent defaultFile then ofFile host defaultFile else return .ok {}

/-- The values of environment variables. -/
def valuesOf {m : Type -> Type} [Monad m] (host : Host m) (names : List String) :
    m (List (String × Option String)) :=
  names.mapM fun name => return (name, ← host.environment name)

/-- Loads the settings. -/
def load {m : Type -> Type} [Monad m] (host : Host m) (path : Option String) :
    m (Except SettingsError Settings) := do
  match ← written host path with
  | .error error => return .error error
  | .ok settings => do
      let path := (← host.environment pathVariable).getD settings.databasePath
      let values ← valuesOf host (pathVariable :: (Template.ofText path).references)
      return settings.inEnvironment fun name =>
        (values.find? fun entry => entry.1 == name).bind Prod.snd

end SchemaLoom.Settings
