/-!
# Documents of tables

A document is a table of named items, some of them tables again. Every table remembers
how it came to be, because that decides what may still be added to it: a header names
a table once, a dotted key adds only to tables that dotted keys made, and a table in
braces is complete.
-/

namespace SchemaLoom

namespace Toml

/-- How a table came to be: by its own header, by a longer header, by a dotted key, or
in braces. -/
inductive Origin where
  | header
  | implied
  | dotted
  | braces
  deriving DecidableEq, Repr

end Toml

/-- An item of a document. Dates and times and numbers with a fraction keep no value. -/
inductive Toml where
  | string (value : String)
  | integer (value : Int)
  | real
  | boolean (value : Bool)
  | moment
  | array (items : List Toml)
  | table (origin : Toml.Origin) (members : List (String × Toml))
  | tables (elements : List (List (String × Toml)))
  deriving Inhabited

namespace Toml

/-- The text that an item is. -/
def string? : Toml -> Option String
  | .string value => some value
  | _ => none

/-- The truth value that an item is. -/
def boolean? : Toml -> Option Bool
  | .boolean value => some value
  | _ => none

/-- The named items of a table. -/
abbrev Members := List (String × Toml)

/-- The item of a given name. -/
def member? (members : Members) (name : String) : Option Toml :=
  (members.find? fun member => member.1 == name).map Prod.snd

/-- Changes the item of a given name, or adds it, unless the change is refused. -/
def update (name : String) (change : Option Toml -> Option Toml) (members : Members) :
    Option Members :=
  match member? members name with
  | none => (change none).map fun item => members ++ [(name, item)]
  | some item =>
      (change (some item)).map fun item =>
        members.map fun member => if member.1 == name then (name, item) else member

/-- Changes the last of several tables. -/
def updateLast (change : Members -> Option Members) (elements : List Members) : Option Toml :=
  (change (elements.getLast?.getD [])).map fun last => .tables (elements.dropLast ++ [last])

/-- Changes the table at the path of a header. Tables on the way are made where they
are missing; of several tables the last one is meant. -/
def descend (change : Members -> Option Members) : List String -> Members -> Option Members
  | [], members => change members
  | name :: path, members =>
      update name (fun
        | none => (descend change path []).map (.table .implied)
        | some (.table .braces _) => none
        | some (.table origin inner) => (descend change path inner).map (.table origin)
        | some (.tables elements) => updateLast (descend change path) elements
        | some _ => none) members

/-- Opens the table that a header names. -/
def openTable (path : List String) (name : String) : Members -> Option Members :=
  descend
    (update name fun
      | none => some (.table .header [])
      | some (.table .implied inner) => some (.table .header inner)
      | some _ => none) path

/-- Opens one more of the tables that a double header names. -/
def openElement (path : List String) (name : String) : Members -> Option Members :=
  descend
    (update name fun
      | none => some (.tables [[]])
      | some (.tables elements) => some (.tables (elements ++ [[]]))
      | some _ => none) path

/-- Adds an item under a dotted key. The table that takes the item must come from a
dotted key itself, unless the key has a single part. -/
def assign (item : Toml) : List String -> String -> Members -> Option Members
  | [], name, members =>
      update name (fun
        | none => some item
        | some _ => none) members
  | parent :: path, name, members =>
      update parent (fun
        | none => (assign item path name []).map (.table .dotted)
        | some (.table .dotted inner) => (assign item path name inner).map (.table .dotted)
        | some (.table .implied inner) =>
            if path.isEmpty then none else (assign item path name inner).map (.table .implied)
        | some (.tables elements) =>
            if path.isEmpty then none else updateLast (assign item path name) elements
        | some _ => none) members

end Toml

end SchemaLoom
