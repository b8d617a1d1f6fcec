import SchemaLoom.Cli.Run

/-!
# The program

The host of the operating system, and the entry point. A store file starts with a byte
that no text contains and holds the journal of its store; an empty file is an empty
store, and anything else is a foreign one.
-/

namespace SchemaLoom.Program

/-- The file error that an error of the operating system amounts to. -/
def fileError : IO.Error -> FileError
  | .noFileOrDirectory .. => .notFound
  | .alreadyExists .. => .alreadyExists
  | .inappropriateType _ code _ => if code == 20 then .notDirectory else .isDirectory
  | .resourceBusy .. | .otherError .. | .userError .. => .notText
  | _ => .isDirectory

/-- The result of an action, with its error as a file error. -/
def attempt {α : Type} (action : IO α) : IO (Except FileError α) := do
  try
    return .ok (← action)
  catch error =>
    return .error (fileError error)

/-- The byte that starts a store file. -/
def storeMark : UInt8 :=
  0xFF

/-- The store that the bytes of a file hold. -/
def storeOf (bytes : ByteArray) : Database.Store :=
  if bytes.isEmpty then .empty
  else if bytes[0]? != some storeMark then .foreign
  else
    match String.fromUTF8? (bytes.extract 1 bytes.size) with
    | none => .foreign
    | some text =>
        match Database.Store.journalOf? text.length text.toList with
        | none => .foreign
        | some journal => .ofJournal journal

/-- The bytes of the file of a store. -/
def bytesOf (journal : List String) : ByteArray :=
  (ByteArray.empty.push storeMark).append
    (String.ofList (Database.Store.renderJournal journal)).toUTF8

/-- The directory part of a path. -/
def directoryOf (path : String) : String :=
  let names := path.splitOn "/"
  if names.length ≤ 1 then "" else String.intercalate "/" names.dropLast

/-- Opens the store in a file. -/
def openStore (path : String) : IO (Except OpenError Database.Store) := do
  let directory := directoryOf path
  let made ← attempt (if directory.isEmpty then pure () else IO.FS.createDirAll directory)
  match made with
  | .error error => return .error (.file error)
  | .ok _ => do
      let refused : OpenError :=
        .refused { problem := { cause := .cannotOpen path }, statement := "" }
      match ← attempt (IO.FS.readBinFile path) with
      | .ok bytes => return .ok (storeOf bytes)
      | .error .notFound =>
          match ← attempt (IO.FS.writeBinFile path ByteArray.empty) with
          | .ok _ => return .ok .empty
          | .error _ => return .error refused
      | .error _ => return .error refused

/-- Keeps a store in its file. -/
def saveStore (path : String) : Database.Store -> IO Unit
  | .kept _ journal =>
      if journal.isEmpty then pure () else IO.FS.writeBinFile path (bytesOf journal)
  | .foreign => pure ()

/-- All of standard input. -/
def readInput : IO String := do
  (← IO.getStdin).readToEnd

/-- The host of the operating system. -/
def host : Host IO where
  environment name := IO.getEnv name
  input := attempt readInput
  isPresent path := do
    match ← attempt (IO.FS.Handle.mk path .read) with
    | .ok _ => return true
    | .error _ => return false
  readText path := attempt (IO.FS.readFile path)
  openStore := openStore
  saveStore := saveStore

end SchemaLoom.Program

open SchemaLoom in
/-- Runs the program. -/
def main (arguments : List String) : IO UInt32 := do
  let result ← Cli.run Program.host arguments
  IO.print result.output
  if let some error := result.error then IO.eprintln ("erdforge error: " ++ error)
  return result.exit.toUInt32
