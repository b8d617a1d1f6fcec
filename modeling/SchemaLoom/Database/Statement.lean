import SchemaLoom.Database.Failure
import SchemaLoom.Database.Token

/-!
# Statements of the database

The statements are: create and drop a table, insert rows, delete all rows, and select
from a table or from nothing. A table definition is a list of clauses in the order in
which they are written, because that is the order in which they take effect.

No other statement is read. Temporary and virtual tables, tables that are renamed or
altered, tables behind the name of a database, updates and transactions are refused as
syntax errors, and what is proved of scripts is proved of scripts of the statements above.
-/

namespace SchemaLoom.Database

/-- A name at a place of a statement. -/
structure Mention where
  name : String
  source : String
  offset : Nat
  deriving DecidableEq, Repr

/-- Whether a name stands in double quotes. Where it names nothing it is text. -/
def Mention.isDoubleQuoted (mention : Mention) : Bool :=
  mention.source.toList.head? == some '\x22'

/-- A value written in a statement, or a name that stands for one. -/
inductive Term where
  | value (value : Value)
  | named (mention : Mention) (kind : TokenKind)

/-- What a foreign key does with a row when the one that it refers to is deleted. -/
inductive Action where
  | noAction
  | restrict
  | setNull
  | setDefault
  | cascade
  deriving DecidableEq, Repr

/-- A clause of a table definition. A key without columns of its own and a reference
without columns of its own concern the column before it. -/
inductive Clause where
  | column (name type : String)
  | notNull
  | default (value : Value)
  | primaryKey (columns : Option (List Mention)) (descending automatic : Bool)
  | unique (columns : Option (List Mention))
  | reference (columns : Option (List String)) (target : Mention) (targets : List String)
      (onDelete : Action)

/-- A table definition: the clauses that can be read, and what stops the reading before
the end of the statement. -/
structure TableDefinition where
  table : Mention
  onlyIfMissing : Bool
  clauses : List Clause
  fault : Option Problem

/-- An item of a selection: everything, or a term with its spelling and a name. -/
inductive Selected where
  | everything
  | term (term : Term) (spelling : String) (givenName : Option String)

/-- A statement. -/
inductive Statement where
  | create (definition : TableDefinition)
  | drop (table : Mention) (onlyIfPresent : Bool)
  | delete (table : Mention)
  | insert (table : Mention) (columns : Option (List String)) (rows : List (List Term))
  | select (items : List Selected) (table : Option Mention)
  | values (rows : List (List Term))

end SchemaLoom.Database
