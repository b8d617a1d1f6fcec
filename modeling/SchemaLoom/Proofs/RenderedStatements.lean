import SchemaLoom.Proofs.Atoms
import SchemaLoom.Proofs.Rendering

/-!
# Statements of what was rendered

The script of a schema is cut into the statements of its entities again. The scan that
reads a body and the one that cuts it at commas see the same boundaries there: the body
closes where the statement ends, and falls into the columns of its entity and the foreign
keys of the relationships that leave it, however many there are of either.
-/

namespace SchemaLoom.Ddl

open SchemaLoom.Text
open SchemaLoom.Database (IsWhole)

/-- The statement of an entity without the semicolon. -/
def statementText (entity : Entity) (relationships : List Relationship) : String :=
  String.ofList
    (headText entity.name ++ (bodyText (definitionTexts entity relationships) ++ [')']))

/-- A statement is its head, its body and the closing parenthesis. -/
theorem toList_statementText (entity : Entity) (relationships : List Relationship) :
    (statementText entity relationships).toList =
      headText entity.name ++ (bodyText (definitionTexts entity relationships) ++ [')']) :=
  String.toList_ofList

/-- A rendered table is its statement with a semicolon. -/
theorem renderEntity_eq (entity : Entity) (relationships : List Relationship) :
    renderEntity entity relationships = statementText entity relationships ++ ";" := by
  have semicolon : ";".toList = [';'] := rfl
  rw [← String.toList_inj, toList_renderEntity, String.toList_append, toList_statementText,
    semicolon]
  simp only [List.append_assoc, List.cons_append, List.nil_append]

section Statements

variable {entity : Entity} {relationships : List Relationship}

/-- A table whose name and definitions are whole has one statement. -/
theorem isStatement_statementText (name : IsWhole (pluralize entity.name).toList)
    (definitions : ∀ text ∈ definitionTexts entity relationships, IsWhole text) :
    IsStatement (statementText entity relationships).toList := by
  have pieces := forall_mem_bodyPieces (fun _ _ => IsWhole.append)
    ⟨.of_words (by decide), .of_words (by decide), .of_words (by decide)⟩ definitions
  have body := IsWhole.separated_enclosed pieces
  have opening : IsWhole ("CREATE".toList ++ ([' '] ++ "TABLE".toList) ++ ([' '] ++ ("IF".toList ++
      ([' '] ++ (("NOT".toList ++ ([' '] ++ "EXISTS".toList)) ++ [' ']))))) :=
    .of_words (by decide)
  have starts : StartsSolid "CREATE".toList := by decide
  have started : "CREATE".toList ≠ [] := by decide
  have space : IsWhole [' '] := .of_words (by decide)
  have whole := opening.append (name.append (space.append body))
  rw [toList_statementText]
  unfold headText
  generalize (pluralize entity.name).toList = name at whole ⊢
  generalize "CREATE".toList = create at whole starts started ⊢
  refine IsWhole.isStatement ?_ ⟨?_, ?_, ?_⟩
  · simpa only [bodyText, List.append_assoc, List.cons_append, List.nil_append] using whole
  · simp [started]
  · simp only [List.append_assoc]
    exact (startsSolid_append started).2 starts
  · rw [← List.append_assoc]
    exact .append_right (List.cons_ne_nil _ _) (.singleton (by decide)) _

/-- A rendered schema is cut into the statements of its entities. -/
theorem statements_render_eq {schema : Schema}
    (all : ∀ entity ∈ schema.entities,
      IsStatement (statementText entity (schema.relationshipsFrom entity.name)).toList) :
    statements (render schema) = schema.entities.map fun entity =>
      statementText entity (schema.relationshipsFrom entity.name) := by
  have rendered : render schema = Text.join "\n\n" ((schema.entities.map fun entity =>
      statementText entity (schema.relationshipsFrom entity.name)).map fun text => text ++ ";") := by
    rw [render, List.map_map]
    exact congrArg (Text.join "\n\n") (List.map_congr_left fun entity _ => renderEntity_eq _ _)
  have each : ∀ text ∈ schema.entities.map fun entity =>
      statementText entity (schema.relationshipsFrom entity.name), IsStatement text.toList :=
    List.forall_mem_map.2 all
  rw [rendered]
  exact statements_join rfl (fun text member => (each text member).statements_eq)
    fun text member => (each text member).settled

end Statements

section Plain

variable {entity : Entity} {relationships : List Relationship}

/-- The plural of a plain name leaves nothing open. -/
theorem IsPlain.isWhole_pluralize {name : String} (plain : IsPlain name) :
    IsWhole (pluralize name).toList := by
  have letter : Strips ['s'] ['s'] := .of_ordinary (by decide)
  refine ⟨plain.plural.spells.undivided, ?_⟩
  -- A name may end in a dash. The letter keeps another dash from opening a comment with it.
  rw [IsPlain.toList_pluralize]
  exact plain.strips (by decide) letter

/-- The text of a plain table is one statement. -/
theorem TablePlain.isStatement (plain : TablePlain entity relationships) :
    IsStatement (statementText entity relationships).toList :=
  isStatement_statementText plain.name.isWhole_pluralize
    (forall_mem_definitionTexts plain
      (fun _ primaryKey name =>
        ⟨columnText_undivided name primaryKey, columnText_strips name primaryKey⟩)
      fun _ endpoints =>
        ⟨(foreignKeyText_shape endpoints).undivided, foreignKeyText_strips endpoints⟩)

/-- What follows the first opening parenthesis of a text. -/
def behindParenthesis (text : List Char) : List Char :=
  (text.dropWhile (· != '(')).drop 1

/-- The head of a table ends at its first parenthesis. -/
theorem exists_headText {name : String} (plain : IsPlain name) :
    ∃ words, headText name = words ++ ['('] ∧ ∀ c ∈ words, (c != '(') = true := by
  refine ⟨"CREATE".toList ++ ([' '] ++ "TABLE".toList) ++ ([' '] ++ ("IF".toList ++ ([' '] ++
    (("NOT".toList ++ ([' '] ++ "EXISTS".toList)) ++ [' '])))) ++
      ((pluralize name).toList ++ [' ']), ?_, ?_⟩
  · unfold headText
    generalize (pluralize name).toList = table
    generalize "CREATE".toList = createText
    generalize "TABLE".toList = tableText
    generalize "IF".toList = ifText
    generalize "NOT".toList = notText
    generalize "EXISTS".toList = existsText
    simp only [List.append_assoc]
  · refine List.forall_mem_append.2 ⟨List.all_eq_true.1 (by decide),
      List.forall_mem_append.2 ⟨?_, List.all_eq_true.1 (by decide)⟩⟩
    intro c member
    have other := (plain.plural.2.1 c member).2
    simp only [List.mem_cons, not_or] at other
    simpa using other.1

/-- The first parenthesis of a rendered table opens its body. -/
theorem behindParenthesis_headText {name : String} (plain : IsPlain name) (later : List Char) :
    behindParenthesis (headText name ++ later) = later := by
  obtain ⟨words, head, noParenthesis⟩ := exists_headText plain
  have ends : ∀ c ∈ (['('] ++ later).head?, (c != '(') = false := by simp
  rw [head, List.append_assoc, behindParenthesis, (takeWhile_append_of_ends noParenthesis ends).2]
  rfl

/-- The body of a table closes at the end of its statement. -/
theorem TablePlain.read_body (plain : TablePlain entity relationships) :
    Body.read none 0 (behindParenthesis (statementText entity relationships).toList) =
      .closed (bodyText (definitionTexts entity relationships)) [] := by
  rw [toList_statementText, behindParenthesis_headText plain.name]
  exact Body.read_closed (bodyText_crossed plain) []

end Plain

section Definitions

variable {entity : Entity} {relationships : List Relationship}

/-- The definition of the foreign key of a relationship. -/
def foreignKeyDefinition (relationship : Relationship) : String :=
  "FOREIGN KEY (" ++ relationship.fromColumn ++ ") REFERENCES " ++
    pluralize relationship.toTable ++ "(" ++ relationship.toColumn ++ ")"

/-- The text of a foreign key is its definition, which its line holds behind an indent. -/
theorem ofList_foreignKeyText (relationship : Relationship) :
    String.ofList (foreignKeyText relationship) = foreignKeyDefinition relationship := by
  have indented : foreignKeyLine relationship = "  " ++ foreignKeyDefinition relationship := by
    have opening : "  FOREIGN KEY (" = "  " ++ "FOREIGN KEY (" := rfl
    unfold foreignKeyLine foreignKeyDefinition
    generalize pluralize relationship.toTable = table
    simp only [opening, String.append_assoc]
  have indent : "  ".toList = [' ', ' '] := by decide
  have line := toList_foreignKeyLine relationship
  rw [indented, String.toList_append, indent] at line
  have text : (foreignKeyDefinition relationship).toList = foreignKeyText relationship :=
    (List.cons.inj (List.cons.inj line).2).2
  rw [← text, String.ofList_toList]

/-- A column begins its definition, whatever follows. -/
theorem forall₂_columnText (columns : List Attribute) {flags : List Bool}
    (enough : flags.length = columns.length) :
    List.Forall₂ (fun column text => column.name.toList ++ [' '] <+: text) columns
      (List.zipWith columnText (columns.map Attribute.name) flags) := by
  induction columns generalizing flags with
  | nil => exact .nil
  | cons column columns inductionHypothesis =>
      cases flags with
      | nil => cases enough
      | cons primaryKey flags =>
          refine .cons ?_ (inductionHypothesis (Nat.succ.inj enough))
          rw [columnText, ← List.append_assoc]
          exact List.prefix_append _ _

/-- Definitions of a table: one for each column, which begins with its name, then one for
each relationship that leaves it. -/
structure Defines (entity : Entity) (relationships : List Relationship)
    (texts : List (List Char)) : Prop where
  count : texts.length = entity.attributes.length + relationships.length
  columns : List.Forall₂ (fun column text => column.name.toList ++ [' '] <+: text)
    entity.attributes (texts.take entity.attributes.length)
  keys : (texts.drop entity.attributes.length).map String.ofList =
    relationships.map foreignKeyDefinition

/-- The definitions of a rendered table are what its entity and relationships define. -/
theorem defines_definitionTexts (entity : Entity) (relationships : List Relationship) :
    Defines entity relationships (definitionTexts entity relationships) := by
  let names := entity.attributes.map Attribute.name
  have flags : (Inference.primaryKeyFlags names).length = entity.attributes.length := by
    rw [Inference.length_primaryKeyFlags, List.length_map]
  have columns : (List.zipWith columnText names (Inference.primaryKeyFlags names)).length =
      entity.attributes.length := by
    rw [List.length_zipWith, flags, List.length_map, Nat.min_self]
  rw [definitionTexts]
  refine ⟨?_, ?_, ?_⟩
  · rw [List.length_append, columns, List.length_map]
  · rw [List.take_left' columns]
    exact forall₂_columnText entity.attributes flags
  · rw [List.drop_left' columns, List.map_map]
    exact List.map_congr_left fun relationship _ => ofList_foreignKeyText relationship

/-- The statement of a table as both scans see it: the parenthesis that opens first closes
at the end, and the commas of what it encloses divide the definitions. -/
structure IsStatementOf (entity : Entity) (relationships : List Relationship)
    (statement : String) : Prop where
  rendered : statement ++ ";" = renderEntity entity relationships
  body : ∃ body, Body.read none 0 (behindParenthesis statement.toList) = .closed body [] ∧
    Defines entity relationships (fragments ',' body)

/-- The text of a plain table is the statement of its entity. -/
theorem TablePlain.isStatementOf (plain : TablePlain entity relationships) :
    IsStatementOf entity relationships (statementText entity relationships) := by
  refine ⟨(renderEntity_eq entity relationships).symm, _, plain.read_body, ?_⟩
  rw [fragments_bodyText plain]
  exact defines_definitionTexts entity relationships

end Definitions

/-- Rendering writes one statement for each entity, in order, and neither scan divides it
anywhere but between its definitions, if names are plain. Entities may share a name, and
have no columns or relationships. -/
theorem statements_render_isStatementOf {schema : Schema} (plain : NamesPlain schema) :
    List.Forall₂
      (fun entity statement =>
        IsStatementOf entity (schema.relationshipsFrom entity.name) statement)
      schema.entities (statements (render schema)) := by
  have tables : ∀ entity ∈ schema.entities,
      TablePlain entity (schema.relationshipsFrom entity.name) :=
    fun entity member => tablePlain_of_mem plain member
  rw [statements_render_eq fun entity member => (tables entity member).isStatement,
    List.forall₂_map_right_iff, List.forall₂_same]
  intro entity member
  exact (tables entity member).isStatementOf

/-- Columns named like keywords, one of them beginning like a comment, and a table that has
nothing but a foreign key. -/
theorem statements_render_isStatementOf_keywords :
    NamesPlain keywordSchema ∧
      List.Forall₂
        (fun entity statement =>
          IsStatementOf entity (keywordSchema.relationshipsFrom entity.name) statement)
        keywordSchema.entities (statements (render keywordSchema)) := by
  have plain : NamesPlain keywordSchema := by decide
  exact ⟨plain, statements_render_isStatementOf plain⟩

end SchemaLoom.Ddl
