import SchemaLoom.Database.Store
import SchemaLoom.Host.Error

/-!
# Hosts

The program reaches its surroundings only through a host: environment variables,
standard input, text files and stores. The monad says what the host can do; a host in
memory makes the whole program a function.
-/

namespace SchemaLoom

/-- Why a store cannot be opened. -/
inductive OpenError where
  | file (error : FileError)
  | refused (failure : Database.Failure)
  deriving DecidableEq, Repr

/-- What the program needs of its surroundings. -/
structure Host (m : Type -> Type) where
  /-- The value of an environment variable. -/
  environment : String -> m (Option String)
  /-- The text on standard input. -/
  input : m (Except FileError String)
  /-- Whether there is a file or directory at a path. -/
  isPresent : String -> m Bool
  /-- The text of a file. -/
  readText : String -> m (Except FileError String)
  /-- The store in a file, which is made if it is missing, with its directories. -/
  openStore : String -> m (Except OpenError Database.Store)
  /-- Keeps a store in its file. -/
  saveStore : String -> Database.Store -> m Unit

end SchemaLoom
