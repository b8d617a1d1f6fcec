import SchemaLoom.Ddl.Definition

/-!
# Documents

Reading a document never fails. Table statements are found wherever their head
stands, their bodies are read definition by definition, and whatever was meant as a
table or a column but cannot be used is reported as a gap, in reading order.
-/

namespace SchemaLoom.Ddl

open SchemaLoom.Text

/-- Something meant as a definition that reading had to leave out. -/
inductive Gap where
  | unrecognizedBlock (snippet : String)
  | malformedForeignKey (table definition : String)
  | missingColumnType (table definition : String)
  deriving DecidableEq, Repr

/-- The wording of a gap. -/
def Gap.message : Gap -> String
  | unrecognizedBlock snippet => "unrecognized CREATE TABLE block: " ++ snippet
  | malformedForeignKey table definition =>
      "malformed foreign key in " ++ table ++ ": " ++ definition
  | missingColumnType table definition =>
      "column without a type in " ++ table ++ ": " ++ definition

/-- A schema read from a document, and the gaps that reading left. -/
structure Report where
  schema : Schema
  gaps : List Gap
  deriving DecidableEq, Repr

/-- The beginning of a text by which a reader finds it again: at most 80 characters
of its first line. -/
def snippet (text : List Char) : String :=
  String.ofList (trim ((firstLine text).take 80))

/-- The words at the head of a table statement. -/
def createTable : Phrase :=
  .ofWords ["CREATE", "TABLE"]

/-- The words that make a table statement conditional. -/
def ifNotExists : Phrase :=
  .ofWords ["IF", "NOT", "EXISTS"]

/-- The name before an opening parenthesis, and what follows the parenthesis. -/
def nameAndBody? (text : List Char) : Option (List Char × List Char) :=
  match qualified? text with
  | none => none
  | some (name, rest) =>
      match trimStart rest with
      | '(' :: body => some (name, body)
      | _ => none

/-- The table name of a statement head at the start of a text, and the text from
the body on. -/
def tableHead? (text : List Char) : Option (List Char × List Char) :=
  match (createTable.drop? text).bind dropBlanks? with
  | none => none
  | some rest =>
      match ((ifNotExists.drop? rest).bind dropBlanks?).bind nameAndBody? with
      | some found => some found
      | none => nameAndBody? rest

/-- A statement head within a text. -/
structure Head where
  /-- The text before the head. -/
  skipped : List Char
  /-- The text from the head on. -/
  start : List Char
  name : List Char
  /-- The text from the body on. -/
  body : List Char

/-- The first statement head of a text. The flag says whether a word character
stands before the text. -/
def findHead? : Bool -> List Char -> Option Head
  | _, [] => none
  | afterWord, c :: rest =>
      match if afterWord then none else tableHead? (c :: rest) with
      | some (name, body) => some { skipped := [], start := c :: rest, name, body }
      | none =>
          (findHead? (isWordChar c) rest).map fun head =>
            { head with skipped := c :: head.skipped }

/-- The body of a table is the end of the text, and shorter than it. -/
theorem nameAndBody?_suffix {text name body : List Char}
    (found : nameAndBody? text = some (name, body)) :
    body <:+ text ∧ body.length < text.length := by
  rw [nameAndBody?] at found
  split at found
  · cases found
  · rename_i written rest before
    obtain ⟨suffix, shorter⟩ := qualified?_suffix before
    split at found
    · rename_i inner opened
      cases found
      have start : '(' :: body <:+ rest := opened ▸ trimStart_suffix rest
      have whole := ((List.suffix_cons '(' body).trans start).trans suffix
      have length := start.length_le
      exact ⟨whole, by simp at length; omega⟩
    · cases found

/-- A statement head takes at least one character from the front of a text. -/
theorem tableHead?_suffix {text name body : List Char}
    (found : tableHead? text = some (name, body)) :
    body <:+ text ∧ body.length < text.length := by
  rw [tableHead?] at found
  split at found
  · cases found
  · rename_i rest before
    obtain ⟨middle, phrase, blanks⟩ := Option.bind_eq_some_iff.1 before
    have suffix : rest <:+ text := (dropBlanks?_suffix blanks).trans (Phrase.drop?_suffix phrase)
    have inner : body <:+ rest ∧ body.length < rest.length := by
      split at found
      · rename_i parts guarded
        cases found
        obtain ⟨after, condition, named⟩ := Option.bind_eq_some_iff.1 guarded
        obtain ⟨tail, words, spaces⟩ := Option.bind_eq_some_iff.1 condition
        have start : after <:+ rest :=
          (dropBlanks?_suffix spaces).trans (Phrase.drop?_suffix words)
        obtain ⟨inside, shorter⟩ := nameAndBody?_suffix named
        exact ⟨inside.trans start, Nat.lt_of_lt_of_le shorter start.length_le⟩
      · exact nameAndBody?_suffix found
    exact ⟨inner.1.trans suffix, Nat.lt_of_lt_of_le inner.2 suffix.length_le⟩

/-- What follows the head of a statement is shorter than the searched text. -/
theorem findHead?_body_length {afterWord : Bool} {text : List Char} {head : Head}
    (found : findHead? afterWord text = some head) : head.body.length < text.length := by
  induction text generalizing afterWord head with
  | nil => cases found
  | cons c text inductionHypothesis =>
      rw [findHead?] at found
      split at found
      · rename_i name body here
        cases found
        split at here
        · cases here
        · exact (tableHead?_suffix here).2
      · obtain ⟨later, inner, equal⟩ := Option.map_eq_some_iff.1 found
        have shorter := inductionHypothesis inner
        subst equal
        simpa using Nat.lt_succ_of_lt shorter

/-- A table statement of a document, or the place of one that cannot be read. -/
inductive Block where
  | table (name : String) (body : List Char)
  | unrecognized (snippet : String)
  deriving DecidableEq, Repr

/-- The heads in a text that no table statement was read from. -/
def unrecognizedHeads (skipped : List Char) : List Block :=
  (createTable.occurrences false skipped).map fun start => .unrecognized (snippet start)

/-- The block at a statement head whose body has been read. -/
def Head.block (head : Head) : Body -> Block
  | .closed body _ => .table (nameOf head.name) body
  | .unclosed _ => .unrecognized (snippet head.start)

/-- The blocks of a text without comments. After a table statement, and after the
semicolon that ends an unreadable one, reading starts afresh. -/
def blocks (text : List Char) : List Block :=
  match _found : findHead? false text with
  | none => unrecognizedHeads text
  | some head =>
      unrecognizedHeads head.skipped ++
        head.block (Body.read none 0 head.body) :: blocks (Body.read none 0 head.body).rest
termination_by text.length
decreasing_by
  exact Nat.lt_of_le_of_lt (Body.read_rest_suffix none 0 head.body).length_le
    (findHead?_body_length _found)

/-- Sets the flags of the columns that a key of the table names. Only a unique key
of a single column makes that column unique. -/
def TableKey.applyTo (key : TableKey) (declared : Attribute) : Attribute :=
  let names (columns : List String) : Bool :=
    columns.any fun column => sameIgnoringCase column.toList declared.name.toList
  match key with
  | .primary columns => if names columns then { declared with primaryKey := true } else declared
  | .unique columns =>
      if names columns && columns.length == 1 then { declared with unique := true } else declared
  | .other => declared

namespace Definition

/-- The column of a definition. -/
def attribute? : Definition -> Option Attribute
  | column declared _ => some declared
  | _ => none

/-- The relationship of a definition. -/
def relationship? : Definition -> Option Relationship
  | column _ reference => reference
  | foreignKey relationship => some relationship
  | _ => none

/-- The table constraint of a definition. -/
def key? : Definition -> Option TableKey
  | key clause => some clause
  | _ => none

/-- The gap that a definition of a table leaves. -/
def gap? (table : String) : Definition -> Option Gap
  | malformedForeignKey text => some (.malformedForeignKey table text)
  | untypedColumn text => some (.missingColumnType table text)
  | _ => none

end Definition

/-- The definitions of a table body. -/
def definitions (table : String) (body : List Char) : List Definition :=
  (fragments ',' body).map (Definition.read table)

/-- The entity of a table, its keys applied to all columns whatever their order. -/
def entityOf (table : String) (items : List Definition) : Entity :=
  { name := table
    attributes := (items.filterMap Definition.attribute?).map fun declared =>
      (items.filterMap Definition.key?).foldl (fun column key => key.applyTo column) declared }

namespace Block

/-- The definitions of a block; one that cannot be read has none. -/
def definitions : Block -> List Definition
  | table name body => Ddl.definitions name body
  | unrecognized _ => []

/-- The entity of a block. -/
def entity? (block : Block) : Option Entity :=
  match block with
  | table name _ => some (entityOf name block.definitions)
  | unrecognized _ => none

/-- The relationships of a block. -/
def relationships (block : Block) : List Relationship :=
  block.definitions.filterMap Definition.relationship?

/-- The gaps of a block. -/
def gaps (block : Block) : List Gap :=
  match block with
  | table name _ => block.definitions.filterMap (Definition.gap? name)
  | unrecognized snippet => [.unrecognizedBlock snippet]

end Block

/-- The report of a list of blocks. -/
def Report.ofBlocks (found : List Block) : Report :=
  { schema :=
      { entities := found.filterMap Block.entity?
        relationships := found.flatMap Block.relationships }
    gaps := found.flatMap Block.gaps }

/-- Reads a document. -/
def Report.ofDocument (document : String) : Report :=
  .ofBlocks (blocks (stripComments document.toList))

/-- The schema of a document. -/
def schemaOf (document : String) : Schema :=
  (Report.ofDocument document).schema

end SchemaLoom.Ddl
