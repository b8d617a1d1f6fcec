/-!
# Commands

What the program can be asked to do, and the arguments of each request.
-/

namespace SchemaLoom.Cli

/-- A request. -/
inductive Command where
  /-- Writes the tables of a schema given as JSON. -/
  | generate (source : String)
  /-- Reads tables into a schema, or into a diagram of it. -/
  | parse (source : String) (diagram : Bool) (detail : String)
  /-- Lists the statements of a script. -/
  | split (source : String)
  /-- Turns a reply into tables and a schema. -/
  | normalize (source : Option String)
  /-- Runs a script on a database. -/
  | apply (source : String) (database : Option String)
  /-- Describes one table of a database, or all. -/
  | describe (table database : Option String)
  /-- Drops tables of a database, or shows how. -/
  | drop (database : Option String) (apply : Bool) (tables : List String)
  deriving DecidableEq, Repr

/-- A request with what holds for every request: the file of the settings, and whether
JSON is put on one line. -/
structure Invocation where
  command : Command
  config : Option String
  compact : Bool
  deriving DecidableEq, Repr

/-- What the arguments of the program ask for. -/
inductive Request where
  | run (invocation : Invocation)
  | version
  | help
  | misuse
  deriving DecidableEq, Repr

end SchemaLoom.Cli
