import SchemaLoom.Ddl.Identifier
import SchemaLoom.Ddl.Phrase
import SchemaLoom.Ddl.Word
import SchemaLoom.Schema.Basic

/-!
# Definitions in a table body

A table body is a list of definitions between commas. Each one is a foreign key, a
key or check of the whole table, or a column, decided in this order once a leading
constraint name has been taken off. What cannot be used is kept as the gap it
leaves.
-/

namespace SchemaLoom.Ddl

open SchemaLoom.Text

/-- A constraint on a whole table. Checks and indexes name no key. -/
inductive TableKey where
  | primary (columns : List String)
  | unique (columns : List String)
  | other
  deriving DecidableEq, Repr

/-- What one definition of a table body says. -/
inductive Definition where
  /-- A column, with the relationship that it declares itself. -/
  | column (declared : Attribute) (reference : Option Relationship)
  | foreignKey (relationship : Relationship)
  | key (clause : TableKey)
  | malformedForeignKey (text : String)
  | untypedColumn (text : String)
  /-- A definition without any word. -/
  | blank
  deriving DecidableEq, Repr

/-- The name that an identifier as written stands for, as a string. -/
def nameOf (written : List Char) : String :=
  String.ofList (identifierName written)

/-- An identifier in parentheses, which blanks may surround, and what follows. -/
def parenthesizedIdentifier? (text : List Char) : Option (List Char × List Char) :=
  match trimStart text with
  | '(' :: inner =>
      match identifier? (trimStart inner) with
      | none => none
      | some (written, rest) =>
          match trimStart rest with
          | ')' :: after => some (written, after)
          | _ => none
  | _ => none

/-- The table and column that a text refers to from its start on. -/
def reference? (text : List Char) : Option (List Char × List Char) :=
  match (dropKeyword? "REFERENCES".toList text).bind dropBlanks? with
  | none => none
  | some target =>
      match qualified? target with
      | none => none
      | some (table, rest) =>
          (parenthesizedIdentifier? rest).map fun parts => (table, parts.1)

/-- The first reference in a text. The flag says whether a word character stands
before the text. -/
def findReference? : Bool -> List Char -> Option (List Char × List Char)
  | _, [] => none
  | afterWord, c :: rest =>
      match if afterWord then none else reference? (c :: rest) with
      | some target => some target
      | none => findReference? (isWordChar c) rest

/-- The relationship from a column of a table to a target as written. -/
def relationshipTo (table column : String) (target : List Char × List Char) : Relationship :=
  { fromTable := table
    fromColumn := column
    toTable := nameOf target.1
    toColumn := nameOf target.2 }

/-- A definition without the constraint name in front of it. -/
def withoutConstraintName (definition : List Char) : List Char :=
  match (dropKeyword? "CONSTRAINT".toList definition).bind dropBlanks? with
  | none => definition
  | some named =>
      match dropBlanks? (named.dropWhile fun c => !isBlank c) with
      | none => definition
      | some rest => trim rest

/-- The phrase that opens a foreign key. -/
def foreignKeyPhrase : Phrase :=
  .ofWords ["FOREIGN", "KEY"]

/-- The relationship of a foreign key, given what follows its opening phrase. -/
def foreignKey? (table : String) (text : List Char) : Option Relationship :=
  match parenthesizedIdentifier? text with
  | none => none
  | some (column, rest) =>
      (reference? (trimStart rest)).map (relationshipTo table (nameOf column))

/-- The text before the last occurrence of a character. -/
def beforeLast? (last : Char) : List Char -> Option (List Char)
  | [] => none
  | c :: rest =>
      match beforeLast? last rest with
      | some before => some (c :: before)
      | none => if c == last then some [] else none

/-- The words of a text, which blanks separate. -/
def blankWords : List Char -> List (List Char)
  | [] => []
  | c :: rest =>
      if isBlank c then blankWords rest
      else
        match rest with
        | [] => [[c]]
        | next :: _ => if isBlank next then [c] :: blankWords rest else consFirst c (blankWords rest)

/-- What a clause about a whole table constrains. -/
inductive ClauseKind where
  | primaryKey
  | unique
  | check
  | index
  deriving DecidableEq, Repr

/-- The words that open a clause about a whole table. -/
def clauseForms : List (Phrase × ClauseKind) :=
  [(.ofWords ["PRIMARY", "KEY"], .primaryKey),
    (.ofWords ["UNIQUE", "KEY"], .unique), (.ofWords ["UNIQUE", "INDEX"], .unique),
    (.ofWords ["UNIQUE"], .unique),
    (.ofWords ["CHECK"], .check),
    (.ofWords ["FULLTEXT", "KEY"], .index), (.ofWords ["FULLTEXT", "INDEX"], .index),
    (.ofWords ["FULLTEXT"], .index), (.ofWords ["KEY"], .index), (.ofWords ["INDEX"], .index)]

/-- Whether words are those of a phrase and at most one name after them. -/
def opensClause : Phrase -> List (List Char) -> Bool
  | [], words => words.length ≤ 1
  | _ :: _, [] => false
  | keyword :: phrase, word :: words =>
      dropKeyword? keyword word == some [] && opensClause phrase words

/-- Whether a fragment is a number or a literal in single quotes. -/
def isLiteral (item : List Char) : Bool :=
  (2 ≤ item.length && item.head? == some '\x27' && item.getLast? == some '\x27') ||
    item.all fun c => c.isDigit || c == '.' || c == '-' || c == '+'

/-- Whether a text is a non-empty list of literals: the parameters of a type rather
than a list of columns. -/
def isLiteralList (inner : List Char) : Bool :=
  let items := fragments ',' inner
  !items.isEmpty && items.all isLiteral

/-- The columns that a clause lists. -/
def clauseColumns (inner : List Char) : List String :=
  (fragments ',' inner).filterMap fun item => (readWord? item).map fun parts => nameOf parts.1

/-- The constraint on a whole table that a definition states. A clause opens with
its words before a parenthesis and reaches to the last closing one. Apart from
checks, a list of literals in it makes the definition a column whose name merely
reads like the words. -/
def tableKey? (definition : List Char) : Option TableKey :=
  let words := blankWords (definition.takeWhile (· != '('))
  match clauseForms.find? fun form => opensClause form.1 words with
  | none => none
  | some (_, kind) =>
      match beforeLast? ')' ((definition.dropWhile (· != '(')).drop 1) with
      | none => none
      | some inner =>
          let isCheck := words.head?.any fun word => asciiUpper word == "CHECK".toList
          if !isCheck && isLiteralList inner then none
          else
            match kind with
            | .primaryKey => some (.primary (clauseColumns inner))
            | .unique => some (.unique (clauseColumns inner))
            | .check | .index => some .other

/-- Words that open a clause of a column and so are never its type. -/
def clauseKeywords : List String :=
  ["PRIMARY", "NOT", "NULL", "UNIQUE", "REFERENCES", "DEFAULT", "CHECK", "CONSTRAINT"]

/-- Whether a word opens a clause of a column, in any ASCII case. -/
def isClauseKeyword (word : List Char) : Bool :=
  clauseKeywords.any fun keyword => sameIgnoringCase word keyword.toList

/-- A column whose name, type and clauses have been told apart. -/
def columnDefinition (table name : String) (type clauses : List Char) : Definition :=
  let declared :=
    { Attribute.declared name (String.ofList type) with
      primaryKey := (Phrase.ofWords ["PRIMARY", "KEY"]).occursIn clauses
      unique := (Phrase.ofWords ["UNIQUE"]).occursIn clauses
      notNull := (Phrase.ofWords ["NOT", "NULL"]).occursIn clauses }
  .column declared ((findReference? false clauses).map (relationshipTo table name))

/-- A definition read as a column. -/
def readColumn (table : String) (definition : List Char) : Definition :=
  match readWord? definition with
  | none => .blank
  | some (name, afterName) =>
      match readType? afterName with
      | none => .untypedColumn (String.ofList definition)
      | some (type, rest) =>
          if isClauseKeyword type then .untypedColumn (String.ofList definition)
          else columnDefinition table (nameOf name) type (trim rest)

/-- Reads one definition of the body of a table. -/
def Definition.read (table : String) (written : List Char) : Definition :=
  let definition := withoutConstraintName written
  match foreignKeyPhrase.dropWhole? definition with
  | some rest =>
      match foreignKey? table rest with
      | some relationship => .foreignKey relationship
      | none => .malformedForeignKey (String.ofList definition)
  | none =>
      match tableKey? definition with
      | some clause => .key clause
      | none => readColumn table definition

end SchemaLoom.Ddl
