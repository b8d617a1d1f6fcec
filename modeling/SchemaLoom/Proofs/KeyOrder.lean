import SchemaLoom.Proofs.Acceptance
import SchemaLoom.Proofs.GrammarReading
import SchemaLoom.Proofs.Reapplying

/-!
# The order in which foreign keys are described

A database describes the foreign keys of a table that it has created from the last to the
first, whatever they are and however many. The reader of documents finds them from the first
to the last, so the two agree only about keys that read the same from either end.
-/

namespace SchemaLoom

namespace Database

open Reading

namespace Statement

variable {tokens : List Token} {definition : TableDefinition}

/-- A creation is read from the tokens behind its two keywords. -/
theorem ofTokens_create (read : ofTokens tokens = .ok (.create definition)) :
    ∃ token rest behind, tokens = token :: rest ∧ word "TABLE" rest = .ok behind ∧
      Statement.definition behind = .ok (.create definition) := by
  cases tokens with
  | nil => cases read
  | cons token rest =>
      rw [ofTokens] at read
      split at read
      · obtain ⟨behind, isTable, read⟩ := exists_of_bind_eq_ok read
        exact ⟨token, rest, behind, rfl, isTable, read⟩
      -- No other first word begins a creation.
      split at read
      · obtain ⟨named, -, read⟩ := exists_of_bind_eq_ok read
        dsimp only at read
        split at read
        all_goals
          obtain ⟨behind, -, read⟩ := exists_of_bind_eq_ok read
          obtain ⟨⟨table, ended⟩, -, read⟩ := exists_of_bind_eq_ok read
          obtain ⟨-, -, read⟩ := exists_of_bind_eq_ok read
          cases read
      split at read
      · obtain ⟨named, -, read⟩ := exists_of_bind_eq_ok read
        obtain ⟨⟨table, ended⟩, -, read⟩ := exists_of_bind_eq_ok read
        obtain ⟨-, -, read⟩ := exists_of_bind_eq_ok read
        cases read
      split at read
      · obtain ⟨_, _, _, isInsertion⟩ := insertion_ok read
        cases isInsertion
      split at read
      · obtain ⟨⟨items, behind⟩, -, read⟩ := exists_of_bind_eq_ok read
        dsimp only at read
        split at read
        · obtain ⟨-, -, read⟩ := exists_of_bind_eq_ok read
          cases read
        · obtain ⟨⟨table, ended⟩, -, read⟩ := exists_of_bind_eq_ok read
          obtain ⟨-, -, read⟩ := exists_of_bind_eq_ok read
          cases read
      split at read
      · obtain ⟨rows, -, read⟩ := exists_of_bind_eq_ok read
        cases read
      · cases read

/-- A definition without a fault is a name, perhaps behind a condition, and in parentheses
what can be read as columns and constraints. -/
theorem definition_ok (read : Statement.definition tokens = .ok (.create definition))
    (faultless : definition.fault = none) :
    ∃ named listing body,
      (if (skipWord "IF" tokens).1 then word "NOT" (skipWord "IF" tokens).2 >>= word "EXISTS"
        else .ok (skipWord "IF" tokens).2) = .ok named ∧
      mention named = .ok (definition.table, listing) ∧ symbol "(" listing = .ok body ∧
        Place.Reads .column body definition.clauses := by
  rw [Statement.definition] at read
  obtain ⟨named, condition, read⟩ := exists_of_conditional_bind read
  obtain ⟨⟨table, listing⟩, mentions, read⟩ := exists_of_bind_eq_ok read
  obtain ⟨body, opening, read⟩ := exists_of_bind_eq_ok read
  cases found : Place.clauses (body.length + 1) .column body with
  | mk clauses stop =>
      dsimp only at read
      rw [found] at read
      cases read
      refine ⟨named, listing, body, condition, mentions, opening, ?_⟩
      cases stop with
      | error stop => cases faultless
      | ok last => exact Place.reads_of_clauses found

section Grammar

variable {table : Ddl.Grammar.Table}

/-- The condition of a plain table statement stands in front of its name. -/
theorem conditional_lexed {named : List Token} {lexemes : List Lexeme}
    (spelled : tokens.map Token.lexed =
      table.condition.elim [] Ddl.Grammar.Condition.lexemes ++
        (table.name.identifier.lexeme :: lexemes))
    (read : (if (skipWord "IF" tokens).1 then word "NOT" (skipWord "IF" tokens).2 >>= word "EXISTS"
      else .ok (skipWord "IF" tokens).2) = .ok named) :
    named.map Token.lexed = table.name.identifier.lexeme :: lexemes := by
  cases shape : table.condition with
  | none =>
      rw [shape] at spelled
      cases tokens with
      | nil => cases spelled
      | cons token rest =>
          have other : token.isWord "IF" = false :=
            table.name.identifier.isWord_of_lexed (by decide) (List.cons.inj spelled).1
          simp [skipWord, word, other] at read
          exact read ▸ spelled
  | some condition =>
      rw [shape] at spelled
      obtain ⟨_, _, rest, rfl, isRest⟩ := Token.exists_of_lexed spelled
      simp +decide [skipWord, word, condition.word.cased] at read
      obtain ⟨negated, isNegated, isNamed⟩ := exists_of_bind_eq_ok read
      exact Place.one_lexed isNamed (Place.one_lexed isNegated isRest)

/-- In a plain body each definition refers to another table once at most. -/
theorem referOnce_of_plain {content : Ddl.Grammar.Content} (plain : content.IsPlain) :
    Place.ReferOnce content.definitions := by
  intro item member column isColumn
  cases content with
  | blank layout => cases member
  | items listed =>
      obtain ⟨part, isPart, rfl⟩ := List.mem_map.1 member
      have itemPlain := plain.2 part isPart
      cases shape : part.item with
      | column declared =>
          rw [shape] at itemPlain isColumn
          cases isColumn
          exact itemPlain.2.2.2
      | foreignKey foreign =>
          rw [shape] at isColumn
          cases isColumn
      | key key =>
          rw [shape] at isColumn
          cases isColumn

/-- What the database reads in a plain table statement has the name of the table, and states
its relationships. -/
theorem relationships_of_plain (plain : table.IsPlain)
    (read : ofText table.text = .ok (.create definition)) (faultless : definition.fault = none) :
    definition.table.name = table.name.string ∧
      definition.relationships table.name.string = table.relationships := by
  obtain ⟨token, rest, behind, whole, isTable, isDefinition⟩ :=
    ofTokens_create (ofTokens_of_ofText read)
  obtain ⟨named, listing, body, condition, mentions, opening, reads⟩ :=
    definition_ok isDefinition faultless
  have spelled := plain.lexed_tokens
  rw [whole] at spelled
  have isNamed := conditional_lexed (Place.one_lexed isTable (List.cons.inj spelled).2) condition
  obtain ⟨isName, isListing⟩ := Place.mention_identifier isNamed mentions
  have isBody := Place.one_lexed opening isListing
  exact ⟨isName, Place.reads_content (referOnce_of_plain plain.content) isBody reads _ _⟩

end Grammar

end Statement

end Database

namespace Ddl

/-- A text that is one table statement is read as what the table describes. -/
theorem schemaOf_table (table : Grammar.Table) :
    schemaOf table.text = { entities := [table.entity], relationships := table.relationships } := by
  let document : Grammar.Document := { tables := [([], table)], ending := [], remark := none }
  have whole : table.text = document.text :=
    congrArg String.ofList (by
      simp [document, Grammar.Document.piece, Grammar.separatorsPiece, Grammar.Piece.joined])
  rw [whole, schemaOf, Report.ofDocument, document.blocks_text,
    Report.ofBlocks_map fun part _ => part.2.gives_block]
  simp [document]

end Ddl

namespace Database

/-- A table that is added where none has its name is found under it. -/
theorem table?_addTable {database : Database} {table : Table} {asked : String}
    (missing : database.table? table.name = none) (named : sameName table.name asked = true) :
    (database.addTable table).table? asked = some table := by
  have absent : database.tables.find? (fun other => sameName other.name asked) = none := by
    refine List.find?_eq_none.2 fun other member => ?_
    rw [← sameName_congr_right named, table?_none.1 missing other member]
    exact Bool.false_ne_true
  rw [table?, addTable, List.find?_append, List.find?_append, absent, List.find?_singleton,
    if_pos named]
  rfl

/-- A table that a statement creates is described with the relationships that the statement
states, one for each of its foreign keys of one column, but in the reverse of their order.
Where the reader of documents reads the statement too, it finds them in their order. -/
theorem describe_created_reverse {text asked : String} {database after : Database}
    {definition : TableDefinition} {outcome : Script.Outcome}
    (read : Statement.ofText text = .ok (.create definition))
    (single : ∀ clause ∈ definition.clauses, clause.IsSingle)
    (missing : database.table? definition.table.name = none)
    (executed : execute text database = (.ok outcome, after))
    (named : sameName definition.table.name asked = true) :
    ∃ described, after.describe asked = .ok described ∧
      described.relationships.length = definition.clauses.countP Clause.isReference ∧
      List.Forall₂ Relationship.SameButCase described.relationships.reverse
        (definition.relationships asked) ∧
      ∀ table : Ddl.Grammar.Table, table.IsPlain -> table.text = text ->
        (Ddl.schemaOf text).relationships = definition.relationships definition.table.name := by
  obtain ⟨statement, isRead, effect⟩ := execute_ok executed
  obtain rfl : statement = .create definition := Except.ok.inj (isRead.symm.trans read)
  cases effect with
  | present free found =>
      rw [missing] at found
      cases found
  | created free absent built =>
      rename_i table
      have faultless : definition.fault = none := by
        by_contra fault
        obtain ⟨problem, refused⟩ := Table.ofDefinition_of_fault fault
        rw [built] at refused
        cases refused
      obtain ⟨_, _, _, -, -, isDefinition⟩ :=
        Statement.ofTokens_create (Statement.ofTokens_of_ofText read)
      obtain ⟨_, _, _, -, -, -, reads⟩ := Statement.definition_ok isDefinition faultless
      obtain ⟨_, _, _, _, _, -, -, begins, -⟩ := reads.column
      have name : table.name = definition.table.name :=
        congrArg Prod.fst (Table.heading_ofDefinition built)
      have isDescribed : (database.addTable table).describe asked = .ok (table.describe asked) := by
        rw [describe, table?_addTable (name ▸ missing) (name ▸ named)]
      have stated := Table.relationships_ofDefinition begins single built asked
      refine ⟨table.describe asked, isDescribed, ?_, stated, fun grammar plain same => ?_⟩
      · rw [← List.length_reverse, stated.length_eq, TableDefinition.relationships, length_statedBy]
      · subst same
        obtain ⟨isName, found⟩ := Statement.relationships_of_plain plain read faultless
        rw [Ddl.schemaOf_table, isName, found]

end Database

namespace Ddl.Grammar

/-- The table of the example is plain. -/
theorem lendingTable_isPlain : lendingTable.IsPlain := by
  have space : Spacing.single.IsPlain := by
    simp [Spacing.single, Spacing.IsPlain, Layout.IsPlain, Filler.IsPlain]
  have gap : Layout.IsPlain [Spacing.single.first] := by
    simp [Spacing.single, Layout.IsPlain, Filler.IsPlain]
  have nothing : Layout.IsPlain [] := List.forall_mem_nil _
  have bare {type : DeclaredType} (noParameters : type.parameters = none) : type.IsPlain := by
    simp [DeclaredType.IsPlain, noParameters]
  refine
    { words := space, space, condition := ?condition, name := trivial, gap
      content := ⟨?around, ?definitions⟩ }
  case condition =>
    intro condition member
    cases member
  case around =>
    refine List.forall_mem_cons.2 ⟨⟨nothing, nothing⟩, ?_⟩
    exact List.forall_mem_cons.2 ⟨⟨gap, nothing⟩, List.forall_mem_singleton.2 ⟨gap, nothing⟩⟩
  case definitions =>
    have reference : Layout.IsPlain [Spacing.single.first] ∧ Spacing.single.IsPlain ∧ True ∧
        Layout.IsPlain [] ∧ Layout.IsPlain [] ∧ Layout.IsPlain [] :=
      ⟨gap, space, trivial, nothing, nothing, nothing⟩
    refine List.forall_mem_cons.2 ⟨⟨space, bare rfl, ?_, Nat.le_refl 1⟩, ?_⟩
    · exact List.forall_mem_singleton.2 reference
    refine List.forall_mem_cons.2 ⟨⟨space, bare rfl, List.forall_mem_nil _, Nat.zero_le 1⟩, ?_⟩
    exact List.forall_mem_singleton.2 ⟨space, gap, ⟨nothing, nothing⟩, reference⟩

end Ddl.Grammar

namespace Database

open Ddl.Grammar (lendingTable lendingTable_isPlain)

/-- The definition of a statement that creates a table. -/
def Statement.definition? : Statement -> Option TableDefinition
  | create definition => some definition
  | _ => none

/-- Where the definition of a creation is found, the text is read as that creation. -/
theorem Statement.ofText_of_definition? {text : String} {definition : TableDefinition}
    (found : (ofText text).toOption.bind definition? = some definition) :
    ofText text = .ok (.create definition) := by
  obtain ⟨statement, isRead, isCreation⟩ := Option.bind_eq_some_iff.1 found
  obtain rfl : statement = .create definition := by
    cases statement <;> cases isCreation
    rfl
  exact eq_ok_of_toOption isRead

/-- The statement of that table creates it in an empty database. -/
theorem execute_lendingTable : ∃ definition outcome,
    Statement.ofText lendingTable.text = .ok (.create definition) ∧
    (∀ clause ∈ definition.clauses, clause.IsSingle) ∧
    ({} : Database).table? definition.table.name = none ∧
    execute lendingTable.text {} = (.ok outcome, (execute lendingTable.text {}).2) ∧
    sameName definition.table.name "T" = true := by
  have readable : ∃ definition ∈
      (Statement.ofText lendingTable.text).toOption.bind Statement.definition?,
        (∀ clause ∈ definition.clauses, clause.IsSingle) ∧
          sameName definition.table.name "T" = true := by
    decide +kernel
  have runs : (execute lendingTable.text {}).1.isOk = true := by decide +kernel
  obtain ⟨definition, isRead, single, named⟩ := readable
  have read := Statement.ofText_of_definition? isRead
  cases executed : execute lendingTable.text {} with
  | mk result after =>
      rw [executed] at runs
      cases result with
      | error error => cases runs
      | ok outcome => exact ⟨definition, outcome, read, single, rfl, rfl, named⟩

/-- Two keys are described with the later one first. -/
theorem describe_created_reverse_two : ∃ definition described,
    Statement.ofText lendingTable.text = .ok (.create definition) ∧
    (execute lendingTable.text {}).2.describe "T" = .ok described ∧
      described.relationships.length = definition.clauses.countP Clause.isReference ∧
      List.Forall₂ Relationship.SameButCase described.relationships.reverse
        (definition.relationships "T") ∧
      (Ddl.schemaOf lendingTable.text).relationships =
        definition.relationships definition.table.name := by
  obtain ⟨definition, outcome, read, single, missing, executed, named⟩ := execute_lendingTable
  obtain ⟨described, isDescribed, length, reversed, stated⟩ :=
    describe_created_reverse read single missing executed named
  exact ⟨definition, described, read, isDescribed, length, reversed,
    stated lendingTable lendingTable_isPlain rfl⟩

/-- What a database describes is not in the order in which the reader of documents finds it. -/
theorem not_forall_describe_in_order : ¬∀ (text asked : String) (database after : Database)
    (definition : TableDefinition) (outcome : Script.Outcome),
    Statement.ofText text = .ok (.create definition) ->
    (∀ clause ∈ definition.clauses, clause.IsSingle) ->
    database.table? definition.table.name = none ->
    execute text database = (.ok outcome, after) ->
    sameName definition.table.name asked = true ->
    ∃ described, after.describe asked = .ok described ∧
      List.Forall₂ Relationship.SameButCase described.relationships
        (Ddl.schemaOf text).relationships := by
  intro inOrder
  obtain ⟨definition, outcome, read, single, missing, executed, named⟩ := execute_lendingTable
  obtain ⟨described, isDescribed, ordered⟩ :=
    inOrder _ "T" _ _ definition outcome read single missing executed named
  have first : ((execute lendingTable.text {}).2.describe "T").toOption.map
      (fun described => described.relationships.map Relationship.toTable) = some ["v", "u"] := by
    decide +kernel
  have stated : (Ddl.schemaOf lendingTable.text).relationships.map Relationship.toTable =
      ["u", "v"] := by
    decide +kernel
  have targets : List.Forall₂ Eq (described.relationships.map Relationship.toTable)
      ((Ddl.schemaOf lendingTable.text).relationships.map Relationship.toTable) := by
    rw [List.forall₂_map_left_iff, List.forall₂_map_right_iff]
    exact ordered.imp fun first second same =>
      (congrArg Relationship.toTable same.2 : first.toTable = second.toTable)
  rw [List.forall₂_eq_eq_eq] at targets
  rw [isDescribed] at first
  exact absurd ((Option.some.inj first).symm.trans (targets.trans stated)) (by decide)

end Database

end SchemaLoom
