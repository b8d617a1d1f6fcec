import SchemaLoom.Proofs.RenderedStatements
import SchemaLoom.Proofs.TableLines

/-!
# Tokens of what was rendered

The statement of an entity falls into the lexemes of its definition if each of its names
is one token, be it a name to the database or not.
-/

namespace SchemaLoom

open Ddl Text

namespace Database

/-- The line of a column of an entity. -/
def columnLineOf (name : String) (primaryKey : Bool) : ColumnLine where
  written := lexemeOf name
  type := (Inference.ofName name).columnType.spelling
  constraints := (Inference.ofName name).constraints primaryKey
  inferred := by
    simp only [Inference.ofName]
    repeat' split
    all_goals decide

/-- The line of a relationship. -/
def keyLineOf (relationship : Relationship) : KeyLine :=
  { column := lexemeOf relationship.fromColumn
    table := lexemeOf (pluralize relationship.toTable)
    target := lexemeOf relationship.toColumn }

/-- An entity whose names are atoms, with relationships whose ends are. -/
structure NameAtoms (entity : Entity) (relationships : List Relationship) : Prop where
  table : IsAtom (pluralize entity.name)
  columns : ∀ column ∈ entity.attributes, IsAtom column.name
  endpoints : ∀ relationship ∈ relationships, IsAtom relationship.fromColumn ∧
    IsAtom (pluralize relationship.toTable) ∧ IsAtom relationship.toColumn

/-- An entity whose names are atoms, with relationships that leave its columns. -/
structure TableAtoms (entity : Entity) (relationships : List Relationship) : Prop where
  table : IsAtom (pluralize entity.name)
  columns : ∀ column ∈ entity.attributes, IsAtom column.name
  endpoints : ∀ relationship ∈ relationships, IsAtom (pluralize relationship.toTable) ∧
    IsAtom relationship.toColumn
  leaving : ∀ relationship ∈ relationships,
    ∃ column ∈ entity.attributes, column.name = relationship.fromColumn

/-- A relationship that leaves a column leaves one whose name is an atom. -/
theorem TableAtoms.fromColumn {entity : Entity} {relationships : List Relationship}
    (atoms : TableAtoms entity relationships) {relationship : Relationship}
    (member : relationship ∈ relationships) : IsAtom relationship.fromColumn := by
  obtain ⟨column, isColumn, same⟩ := atoms.leaving relationship member
  exact same ▸ atoms.columns column isColumn

/-- The names of a table and of the ends of its relationships are atoms. -/
theorem TableAtoms.names {entity : Entity} {relationships : List Relationship}
    (atoms : TableAtoms entity relationships) : NameAtoms entity relationships :=
  ⟨atoms.table, atoms.columns, fun relationship member =>
    ⟨atoms.fromColumn member, atoms.endpoints relationship member⟩⟩

section Lines

variable {entity : Entity} {relationships : List Relationship}

/-- The columns of an entity, each with a flag that says whether it holds the primary key. -/
def flaggedColumns (entity : Entity) : List (String × Bool) :=
  (entity.attributes.map Attribute.name).zip
    (Inference.primaryKeyFlags (entity.attributes.map Attribute.name))

/-- The flags belong to the columns in their order. -/
theorem map_fst_flaggedColumns (entity : Entity) :
    (flaggedColumns entity).map Prod.fst = entity.attributes.map Attribute.name :=
  List.map_fst_zip (Nat.le_of_eq (Inference.length_primaryKeyFlags _).symm)

/-- The lines of the columns of an entity. -/
def columnLines (entity : Entity) : List ColumnLine :=
  (flaggedColumns entity).map fun column => columnLineOf column.1 column.2

/-- Each column of an entity has a line. -/
theorem map_written_columnLines (entity : Entity) :
    (columnLines entity).map ColumnLine.written =
      entity.attributes.map fun column => lexemeOf column.name := by
  have written : ColumnLine.written ∘ (fun column : String × Bool => columnLineOf column.1 column.2) =
      lexemeOf ∘ Prod.fst := rfl
  rw [columnLines, List.map_map, written, ← List.map_map, map_fst_flaggedColumns, List.map_map]
  rfl

/-- The lexemes of the statement of an entity. -/
def statementLexemes (entity : Entity) (relationships : List Relationship) : List Lexeme :=
  (.word, "CREATE") :: (.word, "TABLE") :: (.word, "IF") :: (.word, "NOT") :: (.word, "EXISTS") ::
    lexemeOf (pluralize entity.name) :: (.symbol, "(") ::
      (commaSeparated ((columnLines entity).map ColumnLine.lexemes ++
        (relationships.map keyLineOf).map KeyLine.lexemes) ++ [(.symbol, ")")])

/-- The definition of the table of an entity. -/
def TableAtoms.lines (atoms : TableAtoms entity relationships) : TableLines where
  table := lexemeOf (pluralize entity.name)
  columns := columnLines entity
  keys := relationships.map keyLineOf
  leaving := by
    intro key isKey
    obtain ⟨relationship, isRelationship, rfl⟩ := List.mem_map.1 isKey
    obtain ⟨column, isColumn, same⟩ := atoms.leaving relationship isRelationship
    have isWritten : lexemeOf column.name ∈ (columnLines entity).map ColumnLine.written := by
      rw [map_written_columnLines]
      exact List.mem_map_of_mem isColumn
    rw [keyLineOf, ← same]
    exact List.mem_map.1 isWritten

/-- The lines of a table are those of the plural of its entity. -/
@[simp] theorem TableAtoms.lines_table (atoms : TableAtoms entity relationships) :
    atoms.lines.table = lexemeOf (pluralize entity.name) :=
  rfl

/-- Each column of the entity has its line. -/
@[simp] theorem TableAtoms.lines_columns (atoms : TableAtoms entity relationships) :
    atoms.lines.columns = columnLines entity :=
  rfl

/-- Each relationship has the line of a foreign key. -/
@[simp] theorem TableAtoms.lines_keys (atoms : TableAtoms entity relationships) :
    atoms.lines.keys = relationships.map keyLineOf :=
  rfl

end Lines

section Composition

/-- A word of capital letters is composed of itself. -/
theorem composed_word {word : String} (letters : word.toList.all Char.isUpper = true)
    (nonempty : word ≠ "") : Composed word.toList [(.word, word)] :=
  isToken_word letters nonempty

/-- An atom is composed of its one lexeme. -/
theorem IsAtom.composed {text : String} (atom : IsAtom text) :
    Composed text.toList [lexemeOf text] :=
  atom.token

/-- A constraint is composed of its keywords. -/
theorem composed_constraint (constraint : Constraint) :
    Composed constraint.keywords.toList constraint.lexemes := by
  have pair {first second : String} (firstLetters : first.toList.all Char.isUpper = true)
      (firstNonempty : first ≠ "") (secondLetters : second.toList.all Char.isUpper = true)
      (secondNonempty : second ≠ "") :
      Composed (first.toList ++ ' ' :: second.toList) [(.word, first), (.word, second)] :=
    (composed_word firstLetters firstNonempty).spaced (.inl rfl)
      (composed_word secondLetters secondNonempty)
  cases constraint with
  | primaryKey =>
      have text : "PRIMARY KEY".toList = "PRIMARY".toList ++ ' ' :: "KEY".toList := by decide
      exact (congrArg (Composed · _) text).mpr (pair (by decide) (by decide) (by decide) (by decide))
  | unique => exact composed_word (by decide) (by decide)
  | notNull =>
      have text : "NOT NULL".toList = "NOT".toList ++ ' ' :: "NULL".toList := by decide
      exact (congrArg (Composed · _) text).mpr (pair (by decide) (by decide) (by decide) (by decide))

/-- Constraints begin with a blank, unless there are none. -/
theorem delimited_constraints (constraints : List Constraint) :
    Delimited (constraintsText constraints) := by
  intro c member
  cases constraints with
  | nil => cases member
  | cons constraint constraints =>
      obtain rfl := Option.some.inj member
      decide

/-- The constraints of a column are composed of the keywords of each. -/
theorem composed_constraints (constraints : List Constraint) :
    Composed (constraintsText constraints) (constraints.flatMap Constraint.lexemes) := by
  induction constraints with
  | nil => exact .nil
  | cons constraint constraints inductionHypothesis =>
      exact ((composed_constraint constraint).append (delimited_constraints constraints)
        inductionHypothesis).gap (.inl rfl)

/-- The definition of a column is composed of the lexemes of its line. -/
theorem composed_columnText {name : String} (atom : IsAtom name) (primaryKey : Bool) :
    Composed (columnText name primaryKey) (columnLineOf name primaryKey).lexemes := by
  have typed : Composed (Inference.ofName name).columnType.spelling.toList
      [(.word, (Inference.ofName name).columnType.spelling)] := by
    have letters : ∀ type ∈ ["INTEGER", "DATE", "TEXT"],
        type.toList.all Char.isUpper = true ∧ type ≠ "" := by
      decide
    have word := letters _ (columnLineOf name primaryKey).inferred
    exact composed_word word.1 word.2
  exact atom.composed.spaced (.inl rfl) (typed.append (delimited_constraints _)
    (composed_constraints ((Inference.ofName name).constraints primaryKey)))

/-- The definition of a foreign key is composed of the lexemes of its line. -/
theorem composed_foreignKeyText {relationship : Relationship}
    (column : IsAtom relationship.fromColumn) (table : IsAtom (pluralize relationship.toTable))
    (target : IsAtom relationship.toColumn) :
    Composed (foreignKeyText relationship) (keyLineOf relationship).lexemes := by
  have foreign := composed_word (by decide) (by decide : "FOREIGN" ≠ "")
  have key := composed_word (by decide) (by decide : "KEY" ≠ "")
  have references := composed_word (by decide) (by decide : "REFERENCES" ≠ "")
  have parenthesis (text : List Char) : Delimited ('(' :: text) := by
    intro c member
    obtain rfl := Option.some.inj member
    decide
  have leads := table.composed.append (parenthesis _) target.composed.parentheses
  have whole := (foreign.spaced (.inl rfl) key).spaced (.inl rfl)
    (column.composed.parentheses.spaced (.inl rfl) (references.spaced (.inl rfl) leads))
  unfold keyLineOf KeyLine.lexemes foreignKeyText
  -- Names stand for themselves here, and would only be unfolded in the search for literals.
  generalize (pluralize relationship.toTable).toList = tableText at whole ⊢
  generalize relationship.fromColumn.toList = columnText at whole ⊢
  generalize relationship.toColumn.toList = targetText at whole ⊢
  generalize "FOREIGN".toList = foreignText at whole ⊢
  generalize "KEY".toList = keyText at whole ⊢
  generalize "REFERENCES".toList = referencesText at whole ⊢
  simpa only [enclosed, List.append_assoc, List.cons_append, List.nil_append, List.append_eq]
    using whole

/-- A body falls into the lexemes of its definitions, with commas between neighbours. -/
theorem composed_bodyText {texts : List (List Char)} {lexemes : List (List Lexeme)}
    (all : List.Forall₂ Composed texts lexemes) :
    Composed (bodyText texts ++ [')']) (commaSeparated lexemes ++ [(.symbol, ")")]) := by
  have closing : Composed [')'] [(.symbol, ")")] := .mark rfl (by decide) .nil
  have newline : Delimited ['\n', ')'] := by
    intro c member
    obtain rfl := Option.some.inj member
    decide
  have comma (text : List Char) : Delimited (',' :: text) := by
    intro c member
    obtain rfl := Option.some.inj member
    decide
  have indented {text : List Char} {lexemes : List Lexeme} (composed : Composed text lexemes) :
      Composed ('\n' :: ' ' :: ' ' :: text) lexemes :=
    ((composed.gap (.inl rfl)).gap (.inl rfl)).gap (.inr rfl)
  induction all with
  | nil => exact closing.gap (.inr rfl)
  | cons first others inductionHypothesis =>
      rename_i text lexemes texts later
      cases others with
      | nil =>
          have last := indented (first.append newline (closing.gap (.inr rfl)))
          simpa [bodyText, bodyPieces, Ddl.separated, commaSeparated] using last
      | cons second others =>
          rename_i next following texts later
          have separated : Composed (',' :: (bodyText (next :: texts) ++ [')']))
              ((.symbol, ",") :: (commaSeparated (following :: later) ++ [(.symbol, ")")])) :=
            .mark rfl (by decide) inductionHypothesis
          have joined := indented (first.append (comma _) separated)
          rw [bodyText_cons_cons]
          simpa [commaSeparated] using joined

/-- The head of a table has its own lexemes, in front of those of the body. -/
theorem composed_headText {name : String} (table : IsAtom (pluralize name)) {body : List Char}
    {lexemes : List Lexeme} (composed : Composed body lexemes) :
    Composed (headText name ++ body)
      ((.word, "CREATE") :: (.word, "TABLE") :: (.word, "IF") :: (.word, "NOT") ::
        (.word, "EXISTS") :: lexemeOf (pluralize name) :: (.symbol, "(") :: lexemes) := by
  have create := composed_word (by decide) (by decide : "CREATE" ≠ "")
  have tableWord := composed_word (by decide) (by decide : "TABLE" ≠ "")
  have ifWord := composed_word (by decide) (by decide : "IF" ≠ "")
  have notWord := composed_word (by decide) (by decide : "NOT" ≠ "")
  have exists' := composed_word (by decide) (by decide : "EXISTS" ≠ "")
  have opened : Composed ('(' :: body) ((.symbol, "(") :: lexemes) := .mark rfl (by decide) composed
  have whole := (create.spaced (.inl rfl) tableWord).spaced (.inl rfl) (ifWord.spaced (.inl rfl)
    ((notWord.spaced (.inl rfl) exists').spaced (.inl rfl) (table.composed.spaced (.inl rfl) opened)))
  unfold headText
  generalize (pluralize name).toList = nameText at whole ⊢
  generalize "CREATE".toList = createText at whole ⊢
  generalize "TABLE".toList = tableText at whole ⊢
  generalize "IF".toList = ifText at whole ⊢
  generalize "NOT".toList = notText at whole ⊢
  generalize "EXISTS".toList = existsText at whole ⊢
  simpa only [List.append_assoc, List.cons_append, List.nil_append] using whole

/-- The statement of an entity falls into its lexemes. -/
theorem NameAtoms.composed {entity : Entity} {relationships : List Relationship}
    (atoms : NameAtoms entity relationships) :
    Composed (statementText entity relationships).toList
      (statementLexemes entity relationships) := by
  rw [statementText, String.toList_ofList]
  refine composed_headText atoms.table (composed_bodyText (List.rel_append ?_ ?_))
  · rw [List.forall₂_map_right_iff, columnLines, flaggedColumns,
      ← List.map_uncurry_zip_eq_zipWith, List.forall₂_map_left_iff, List.forall₂_map_right_iff,
      List.forall₂_same]
    rintro ⟨name, primaryKey⟩ member
    obtain ⟨column, isColumn, rfl⟩ := List.mem_map.1 (List.of_mem_zip member).1
    exact composed_columnText (atoms.columns column isColumn) primaryKey
  · rw [List.forall₂_map_right_iff, List.forall₂_map_left_iff, List.forall₂_map_right_iff,
      List.forall₂_same]
    intro relationship member
    obtain ⟨column, table, target⟩ := atoms.endpoints relationship member
    exact composed_foreignKeyText column table target

end Composition

section Statements

variable {entity : Entity} {relationships : List Relationship}

/-- No quote, parenthesis or comment of a column goes beyond its definition. -/
theorem isWhole_columnText {name : String} (atom : IsAtom name) (primaryKey : Bool) :
    IsWhole (columnText name primaryKey) := by
  have letters : ∀ type ∈ ["INTEGER", "DATE", "TEXT"],
      ([' '] ++ type.toList).all fun c => isWordPart c || c == ' ' || c == '\n' := by
    decide
  have typed := IsWhole.of_words (letters _ (columnLineOf name primaryKey).inferred)
  have constraints := readsConstraints (Inference.ofName name) primaryKey
  have whole := atom.whole.append
    (typed.append ⟨constraints.undivided, .of_ordinary constraints.ordinary⟩)
  rwa [List.append_assoc] at whole

/-- No quote, parenthesis or comment of a foreign key goes beyond its definition. -/
theorem isWhole_foreignKeyText {relationship : Relationship}
    (column : IsAtom relationship.fromColumn) (table : IsAtom (pluralize relationship.toTable))
    (target : IsAtom relationship.toColumn) : IsWhole (foreignKeyText relationship) := by
  have foreignKey : IsWhole ("FOREIGN".toList ++ ([' '] ++ "KEY".toList)) := .of_words (by decide)
  have space : IsWhole [' '] := .of_words (by decide)
  have references : IsWhole "REFERENCES".toList := .of_words (by decide)
  exact foreignKey.append (space.append (column.whole.parentheses.append (space.append
    (references.append (space.append (table.whole.append target.whole.parentheses))))))

/-- The statement of an entity is one statement. -/
theorem NameAtoms.isStatement (atoms : NameAtoms entity relationships) :
    IsStatement (statementText entity relationships).toList := by
  have definitions : ∀ text ∈ definitionTexts entity relationships, IsWhole text := by
    intro text member
    rcases List.mem_append.1 member with isColumn | isKey
    · obtain ⟨name, isName, primaryKey, -, rfl⟩ := exists_of_mem_zipWith isColumn
      obtain ⟨column, isIn, rfl⟩ := List.mem_map.1 isName
      exact isWhole_columnText (atoms.columns column isIn) primaryKey
    · obtain ⟨relationship, isIn, rfl⟩ := List.mem_map.1 isKey
      obtain ⟨column, table, target⟩ := atoms.endpoints relationship isIn
      exact isWhole_foreignKeyText column table target
  exact isStatement_statementText atoms.table.whole definitions

/-- The tokens of the statement of an entity are its lexemes. -/
theorem NameAtoms.lexed_tokens (atoms : NameAtoms entity relationships) :
    (tokens (statementText entity relationships)).map Token.lexed =
      statementLexemes entity relationships :=
  atoms.composed.lexes.tokensFrom 0

end Statements

end Database

end SchemaLoom
