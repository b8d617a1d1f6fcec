import SchemaLoom.Host.Basic

/-!
# A host in memory

The files are entries under paths of names from the root; every directory on the way
has an entry of its own. Paths are relative to the root and may go up, but not beyond
it.
-/

namespace SchemaLoom

/-- What a path leads to. -/
inductive FileEntry where
  | directory
  | text (content : String)
  | store (store : Database.Store)

/-- A tree of files. -/
structure Files where
  entries : List (List String × FileEntry) := []

namespace Files

/-- The entry of a path of names. The root is a directory. -/
def entry? (files : Files) : List String -> Option FileEntry
  | [] => some .directory
  | path => (files.entries.find? fun entry => entry.1 == path).map Prod.snd

/-- Whether a path of names leads to a directory. -/
def isDirectory (files : Files) (path : List String) : Bool :=
  match files.entry? path with
  | some .directory => true
  | _ => false

/-- The files with an entry in place of the one of the same path. -/
def put (files : Files) (path : List String) (entry : FileEntry) : Files :=
  { entries := files.entries.filter (fun other => other.1 != path) ++ [(path, entry)] }

/-- The names in a path as it is written, with `.` for a slash at the end. -/
def steps (path : String) : List String :=
  let names := (path.splitOn "/").filter fun name => name != ""
  if path.endsWith "/" then names ++ ["."] else names

/-- The names in a path apart from those that stay in place. -/
def names (path : String) : List String :=
  (steps path).filter fun name => name != "."

/-- Follows names from an entry; what they lead to has to be there. -/
def follow (files : Files) (start : List String) : List String -> Except FileError (List String)
  | [] => .ok start
  | name :: rest =>
      if !files.isDirectory start then .error .notDirectory
      else if name == "." then follow files start rest
      else if name == ".." then follow files start.dropLast rest
      else if (files.entry? (start ++ [name])).isSome then follow files (start ++ [name]) rest
      else .error .notFound

/-- The entry that a path leads to. An empty path leads nowhere. -/
def resolve (files : Files) (path : String) : Except FileError FileEntry :=
  if path.isEmpty then .error .notFound
  else
    (files.follow [] (steps path)).map fun found => (files.entry? found).getD .directory

/-- The text of a file. A store that was written to is no text. -/
def readText (files : Files) (path : String) : Except FileError String :=
  match files.resolve path with
  | .error error => .error error
  | .ok .directory => .error .isDirectory
  | .ok (.text content) => .ok content
  | .ok (.store _) => .error .notText

/-- Makes one directory, given by the names before it and its own. -/
def makeDirectory (files : Files) (before : List String) (name : String) :
    Except FileError Files :=
  match files.follow [] before with
  | .error error => .error error
  | .ok found =>
      if !files.isDirectory found then .error .notDirectory
      else if name == ".." || (files.entry? (found ++ [name])).isSome then .error .alreadyExists
      else .ok (files.put (found ++ [name]) .directory)

/-- Whether names lead to a directory. -/
def leadsToDirectory (files : Files) (names : List String) : Bool :=
  match files.follow [] names with
  | .ok found => files.isDirectory found
  | .error _ => false

/-- Makes a directory and those on the way to it, given by its names from the last one
back. -/
def makeDirectories (files : Files) : List String -> Except FileError Files
  | [] => .ok files
  | name :: before =>
      let unlessThere (files : Files) (error : FileError) : Except FileError Files :=
        if files.leadsToDirectory (before.reverse ++ [name]) then .ok files else .error error
      match files.makeDirectory before.reverse name with
      | .ok made => .ok made
      | .error .notFound =>
          match files.makeDirectories before with
          | .error error => .error error
          | .ok made =>
              match made.makeDirectory before.reverse name with
              | .ok made => .ok made
              | .error error => unlessThere made error
      | .error error => unlessThere files error

/-- The path that names write, going up without looking. -/
def flatten (names : List String) : List String :=
  names.foldl (fun path name => if name == ".." then path.dropLast else path ++ [name]) []

/-- Opens the store in a file. A file without content is an empty store, and one with
text is a foreign one. -/
def openStore (files : Files) (path : String) : Except OpenError (Database.Store × Files) :=
  let names := names path
  match files.makeDirectories (names.dropLast).reverse with
  | .error error => .error (.file error)
  | .ok files =>
      let refused : OpenError :=
        .refused { problem := { cause := .cannotOpen path }, statement := "" }
      let place := flatten names
      match files.entry? place with
      | some .directory => .error refused
      | some (.store store) => .ok (store.reopened, files)
      | some (.text content) => .ok (if content.isEmpty then .empty else .foreign, files)
      | none =>
          if files.isDirectory place.dropLast then .ok (.empty, files.put place (.text ""))
          else .error refused

/-- Keeps a store in its file. One that was never written to leaves the file empty. -/
def saveStore (files : Files) (path : String) : Database.Store -> Files
  | .kept database journal =>
      if journal.isEmpty then files
      else files.put (flatten (names path)) (.store (.kept database journal))
  | .foreign => files

/-- Adds a text file with the directories on the way to it. -/
def addText (files : Files) (path : String) (content : String) : Files :=
  let names := names path
  let withDirectories := (files.makeDirectories (names.dropLast).reverse).toOption.getD files
  withDirectories.put names (.text content)

end Files

/-- The state of a host in memory. -/
structure Memory where
  files : Files := {}
  «variables» : List (String × String) := []
  input : String := ""

namespace Memory

/-- The value of an environment variable. -/
def value? (memory : Memory) (name : String) : Option String :=
  (memory.«variables».find? fun entry => entry.1 == name).map Prod.snd

/-- The host in memory. -/
def host : Host (StateM Memory) where
  environment name := return (← get).value? name
  input := return .ok (← get).input
  isPresent path := return ((← get).files.resolve path).isOk
  readText path := return (← get).files.readText path
  openStore path := do
    let memory ← get
    match memory.files.openStore path with
    | .error error => return .error error
    | .ok (store, files) => do
        set { memory with files }
        return .ok store
  saveStore path store :=
    modify fun memory => { memory with files := memory.files.saveStore path store }

end Memory

end SchemaLoom
