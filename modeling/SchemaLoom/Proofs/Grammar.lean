import SchemaLoom.Proofs.Pieces

/-!
# The grammar of table statements

A document lists tables, and a table lists columns, foreign keys and keys. Blanks and
comments may stand between all words and marks, keywords are written in any case, and
identifiers bare or in one of three kinds of quotes. Each part carries the proof that
it is well-formed, so every document has a text, and the schema that the text is
meant to describe. That reading finds this schema is not part of this module.
-/

namespace SchemaLoom.Ddl.Grammar

open SchemaLoom.Text

/-- A type: a word of letters, perhaps with parameters. -/
structure DeclaredType where
  word : List Char
  nonempty : word ≠ []
  letters : word.all Char.isAlpha
  unreserved : ∀ reserved ∈ reservedWords, sameIgnoringCase word reserved.toList = false
  parameters : Option (Layout × Listed Number)

namespace DeclaredType

/-- The word of a type has word characters only. -/
theorem wordChars (type : DeclaredType) : ∀ c ∈ type.word, isAsciiWord c :=
  fun c member => isAsciiWord_of_isAlpha (List.all_eq_true.1 type.letters c member)

/-- The text of a type. -/
def piece (type : DeclaredType) : Piece :=
  .ordinary type.word (ordinary_of_isAsciiWord type.wordChars) ++
    match type.parameters with
    | none => .empty
    | some (gap, numbers) => gap.piece ++ numbers.piece Number.piece

/-- A type as it is kept: without what stands before its parameters. -/
def spelling (type : DeclaredType) : List Char :=
  type.word ++
    match type.parameters with
    | none => []
    | some (_, numbers) => (numbers.piece Number.piece).plain

end DeclaredType

/-- What a column refers to. -/
structure Reference where
  word : Keyword "REFERENCES"
  space : Spacing
  table : QualifiedName
  gap : Layout
  column : Padded Identifier

namespace Reference

/-- The text of a reference. -/
def piece (reference : Reference) : Piece :=
  reference.word.piece ++ (reference.space.piece ++ (reference.table.piece ++
    (reference.gap.piece ++ (reference.column.piece Identifier.piece).enclosed)))

/-- The relationship from a column of a table to what is referred to. -/
def relationship (table column : String) (reference : Reference) : Relationship :=
  { fromTable := table
    fromColumn := column
    toTable := reference.table.string
    toColumn := reference.column.item.string }

end Reference

/-- A clause of a column. -/
inductive Clause where
  | primaryKey (words : Pair "PRIMARY" "KEY")
  | unique (word : Keyword "UNIQUE")
  | notNull (words : Pair "NOT" "NULL")
  | references (reference : Reference)

namespace Clause

/-- The kinds of clauses. -/
inductive Kind where
  | primaryKey
  | unique
  | notNull
  | references
  deriving DecidableEq, Repr

/-- The kind of a clause. -/
def kind : Clause -> Kind
  | primaryKey _ => .primaryKey
  | unique _ => .unique
  | notNull _ => .notNull
  | references _ => .references

/-- The text of a clause. -/
def piece : Clause -> Piece
  | primaryKey words => words.piece
  | unique word => word.piece
  | notNull words => words.piece
  | references reference => reference.piece

/-- What a clause refers to. -/
def reference? : Clause -> Option Reference
  | references reference => some reference
  | _ => none

/-- Whether a clause ends with a word. The others end with a parenthesis. -/
def endsInWord (clause : Clause) : Bool :=
  clause.reference?.isNone

end Clause

/-- The clauses of a column, each with the layout before it. -/
abbrev Clauses := List (Layout × Clause)

namespace Clauses

/-- The text of clauses. -/
def piece (clauses : Clauses) : Piece :=
  .joined (clauses.map fun part => part.1.piece ++ part.2.piece)

/-- Whether a kind of clause is among the clauses. -/
def has (clauses : Clauses) (kind : Clause.Kind) : Bool :=
  clauses.any fun part => part.2.kind == kind

/-- The first reference among the clauses. -/
def reference? (clauses : Clauses) : Option Reference :=
  clauses.findSome? fun part => part.2.reference?

/-- Clauses that do not run into a word before them. The flag says whether a word stands
before the clauses. -/
def Apart : Bool -> Clauses -> Prop
  | _, [] => True
  | afterWord, (gap, clause) :: rest => (afterWord -> gap ≠ []) ∧ Apart clause.endsInWord rest

end Clauses

/-- A column: its name, its type, and clauses in any order. -/
structure Column where
  name : Identifier
  space : Spacing
  type : DeclaredType
  clauses : Clauses
  apart : clauses.Apart true

/-- The text of a column. -/
def Column.piece (column : Column) : Piece :=
  column.name.piece ++ (column.space.piece ++ (column.type.piece ++ column.clauses.piece))

/-- A foreign key: its column, and what that refers to. -/
structure ForeignKey where
  words : Pair "FOREIGN" "KEY"
  gap : Layout
  column : Padded Identifier
  space : Layout
  reference : Reference

/-- The text of a foreign key. -/
def ForeignKey.piece (foreign : ForeignKey) : Piece :=
  foreign.words.piece ++ (foreign.gap.piece ++
    ((foreign.column.piece Identifier.piece).enclosed ++
      (foreign.space.piece ++ foreign.reference.piece)))

/-- The words that open a key. -/
inductive KeyOpening where
  | primary (words : Pair "PRIMARY" "KEY")
  | unique (word : Keyword "UNIQUE")

/-- The text of the words that open a key. -/
def KeyOpening.piece : KeyOpening -> Piece
  | primary words => words.piece
  | unique word => word.piece

/-- A key of a whole table, with the columns that it lists. -/
structure Key where
  opening : KeyOpening
  gap : Layout
  columns : Listed Identifier

namespace Key

/-- The text of a key. -/
def piece (key : Key) : Piece :=
  key.opening.piece ++ (key.gap.piece ++ key.columns.piece Identifier.piece)

/-- Whether a key names a column, in any ASCII case. -/
def names (key : Key) (column : Identifier) : Bool :=
  key.columns.items.any fun item => sameIgnoringCase item.name column.name

/-- Whether a key makes a column part of the primary key. -/
def makesPrimary (key : Key) (column : Identifier) : Bool :=
  match key.opening with
  | .primary _ => key.names column
  | .unique _ => false

/-- Whether a key makes a column unique, which it does only to a single one. -/
def makesUnique (key : Key) (column : Identifier) : Bool :=
  match key.opening with
  | .primary _ => false
  | .unique _ => key.names column && key.columns.others.isEmpty

end Key

/-- A definition of a table. -/
inductive Item where
  | column (declared : Column)
  | foreignKey (foreign : ForeignKey)
  | key (stated : Key)

namespace Item

/-- The text of a definition. -/
def piece : Item -> Piece
  | column declared => declared.piece
  | foreignKey foreign => foreign.piece
  | key stated => stated.piece

/-- The column that a definition defines. -/
def column? : Item -> Option Column
  | column declared => some declared
  | _ => none

/-- The key that a definition defines. -/
def key? : Item -> Option Key
  | key stated => some stated
  | _ => none

/-- The relationship that a definition of a table states. -/
def relationship? (table : String) : Item -> Option Relationship
  | column declared =>
      declared.clauses.reference?.map (Reference.relationship table declared.name.string)
  | foreignKey foreign =>
      some (foreign.reference.relationship table foreign.column.item.string)
  | key _ => none

end Item

/-- What stands between the parentheses of a table. -/
inductive Content where
  | blank (layout : Layout)
  | items (listed : Listed Item)

namespace Content

/-- The text of a content with its parentheses. -/
def piece : Content -> Piece
  | blank layout => layout.piece.enclosed
  | items listed => listed.piece Item.piece

/-- The definitions of a content. -/
def definitions : Content -> List Item
  | blank _ => []
  | items listed => listed.items

end Content

/-- The condition that a table does not exist yet. -/
structure Condition where
  word : Keyword "IF"
  space : Spacing
  others : Pair "NOT" "EXISTS"
  after : Spacing

/-- The text of a condition. -/
def Condition.piece (condition : Condition) : Piece :=
  condition.word.piece ++
    (condition.space.piece ++ (condition.others.piece ++ condition.after.piece))

/-- A table statement without the semicolon that may end it. -/
structure Table where
  words : Pair "CREATE" "TABLE"
  space : Spacing
  condition : Option Condition
  name : QualifiedName
  gap : Layout
  content : Content

namespace Table

/-- The text of a table statement up to its content. -/
def head (table : Table) : Piece :=
  table.words.piece ++ (table.space.piece ++
    ((table.condition.elim .empty Condition.piece) ++ (table.name.piece ++ table.gap.piece)))

/-- The text of a table statement. -/
def piece (table : Table) : Piece :=
  table.head ++ table.content.piece

/-- The keys of a table. -/
def keys (table : Table) : List Key :=
  table.content.definitions.filterMap Item.key?

/-- The attribute that a column of a table becomes. -/
def attributeOf (table : Table) (column : Column) : Attribute :=
  { name := column.name.string
    columnType := .ofSpelling (String.ofList column.type.spelling)
    primaryKey := column.clauses.has .primaryKey ||
      table.keys.any fun key => key.makesPrimary column.name
    unique := column.clauses.has .unique ||
      table.keys.any fun key => key.makesUnique column.name
    notNull := column.clauses.has .notNull }

/-- The entity that a table becomes. -/
def entity (table : Table) : Entity :=
  { name := table.name.string
    attributes := (table.content.definitions.filterMap Item.column?).map table.attributeOf }

/-- The relationships that a table states. -/
def relationships (table : Table) : List Relationship :=
  table.content.definitions.filterMap (Item.relationship? table.name.string)

end Table

/-- What may stand between statements. -/
inductive Separator where
  | filler (space : Filler)
  | semicolon

/-- The text of a separator. -/
def Separator.piece : Separator -> Piece
  | filler space => space.piece
  | semicolon => .ordinary [';'] (by decide)

/-- The text of separators. -/
def separatorsPiece (separators : List Separator) : Piece :=
  .joined (separators.map Separator.piece)

/-- A comment that may stand at the end of a document, where no line ends it. -/
abbrev Remark := {text : List Char // '\n' ∉ text}

/-- Tables with separators around them, and perhaps a last comment. -/
structure Document where
  tables : List (List Separator × Table)
  ending : List Separator
  remark : Option Remark

namespace Document

/-- The text of a document up to its last comment. -/
def piece (document : Document) : Piece :=
  .joined (document.tables.map fun part => separatorsPiece part.1 ++ part.2.piece) ++
    separatorsPiece document.ending

/-- The text of a document. -/
def text (document : Document) : String :=
  String.ofList (document.piece.written ++
    document.remark.elim [] fun remark => '-' :: '-' :: remark.1)

/-- The schema that a document describes. -/
def schema (document : Document) : Schema :=
  { entities := document.tables.map fun part => part.2.entity
    relationships := document.tables.flatMap fun part => part.2.relationships }

end Document

end SchemaLoom.Ddl.Grammar
