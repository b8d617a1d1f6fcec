import Mathlib.Data.List.Perm.Basic
import SchemaLoom.Proofs.Creation
import SchemaLoom.Proofs.Rereading

/-!
# What the database and the reader of documents say
-/

namespace SchemaLoom

open Ddl Text

namespace Database

section Runs

variable {name : String}

/-- A run that is a name is the name it spells. -/
theorem nameIn?_of_isRun (run : IsRun name) : nameIn? name = none ∨ nameIn? name = some name := by
  obtain ⟨kind, isToken, names⟩ := isToken_of_isRun run
  rwa [nameIn?_of_isToken isToken]

/-- Whatever name is found in a run is the run. -/
theorem eq_of_nameIn?_of_isRun {found : String} (run : IsRun name)
    (named : nameIn? name = some found) : found = name := by
  rcases nameIn?_of_isRun run with nothing | itself
  · rw [nothing] at named
    cases named
  · exact Option.some.inj (named.symm.trans itself)

/-- The plural of a run is a run. -/
theorem isRun_pluralize (run : IsRun name) : IsRun (pluralize name) := by
  have plural := IsPlain.toList_pluralize name
  refine ⟨fun empty => ?_, List.all_eq_true.2 fun c member => ?_⟩
  · rw [empty] at plural
    exact List.append_ne_nil_of_right_ne_nil _ (List.cons_ne_nil _ _) plural.symm
  · rw [plural] at member
    rcases List.mem_append.1 member with inside | last
    · exact run.letter inside
    · obtain rfl := List.mem_singleton.1 last
      decide

/-- A run may stand without quotes. -/
theorem isPlain_of_isRun (run : IsRun name) : IsPlain name := by
  have other (c : Char) (member : c ∈ name.toList) := other_of_isAsciiWord (run.letter member)
  refine ⟨run.1, fun c member => ⟨isBlank_of_isAsciiWord (run.letter member), fun special => ?_⟩, ?_, ?_⟩
  · have listed : ∀ d ∈ ['(', ')', ',', ';', '.', '\x22', '\x27', '\x60', '[', ']'],
        d ∈ ['(', ')', ',', ';', '.', '\x22', '\x60', '[', ']', '\x27', '-', '/'] :=
      List.forall_iff_forall_mem.1 (by decide)
    exact other c member (listed c special)
  · refine Bool.eq_false_iff.2 fun found => ?_
    exact other '-' ((contains_iff.1 found).subset (by decide)) (by decide)
  · refine Bool.eq_false_iff.2 fun found => ?_
    exact other '/' ((contains_iff.1 found).subset (by decide)) (by decide)

/-- Plurals are the same name exactly if their singulars are. -/
theorem sameName_pluralize (first second : String) :
    sameName (pluralize first) (pluralize second) = sameName first second := by
  rw [Bool.eq_iff_iff, sameName_iff, sameName_iff, IsPlain.toList_pluralize,
    IsPlain.toList_pluralize, asciiLower, asciiLower, List.map_append, List.map_append,
    List.append_left_inj, ← asciiLower, ← asciiLower]

/-- The plural of a name that does not begin like one of the database's own is not hidden. -/
theorem isHidden_pluralize (other : sameIgnoringCase (name.toList.take 6) "sqlite".toList = false) :
    isHidden (pluralize name) = false := by
  rw [isHidden, Bool.and_eq_false_iff]
  refine .inl (Bool.eq_false_iff.2 fun same => ?_)
  rw [IsPlain.toList_pluralize] at same
  rcases Nat.lt_or_ge name.toList.length 6 with short | long
  · -- A shorter name could only be completed by the last letter, which is another one.
    rw [List.take_of_length_le (by simpa using Nat.succ_le_of_lt short), sameIgnoringCase,
      beq_iff_eq, asciiLower, List.map_append] at same
    have last := congrArg List.getLast? same
    rw [List.map_singleton, List.getLast?_concat] at last
    exact absurd last (by decide)
  · rw [List.take_append_of_le_length long, other] at same
    cases same

end Runs

/-- A schema whose names, and those at the ends of its relationships, are runs of letters,
digits and underscores. -/
structure RunsOnly (schema : Schema) : Prop where
  entities : ∀ entity ∈ schema.entities,
    IsRun entity.name ∧ ∀ column ∈ entity.attributes, IsRun column.name
  endpoints : ∀ relationship ∈ schema.relationships, ∀ name ∈ relationship.endpoints, IsRun name

instance (schema : Schema) : Decidable (RunsOnly schema) :=
  decidable_of_iff (_ ∧ _) ⟨fun ⟨entities, endpoints⟩ => ⟨entities, endpoints⟩,
    fun run => ⟨run.entities, run.endpoints⟩⟩

namespace RunsOnly

variable {schema : Schema}

/-- Where there are only runs, all names are plain. -/
theorem namesPlain (run : RunsOnly schema) : NamesPlain schema :=
  ⟨fun entity member => ⟨isPlain_of_isRun (run.entities entity member).1, fun column isColumn =>
    isPlain_of_isRun ((run.entities entity member).2 column isColumn)⟩,
    fun relationship member name isEnd =>
      isPlain_of_isRun (run.endpoints relationship member name isEnd)⟩

/-- Runs are atoms, and so are their plurals. -/
theorem atoms (run : RunsOnly schema) {entity : Entity} (member : entity ∈ schema.entities) :
    NameAtoms entity (schema.relationshipsFrom entity.name) := by
  obtain ⟨name, columns⟩ := run.entities entity member
  refine ⟨.of_isRun (isRun_pluralize name), fun column isColumn => .of_isRun (columns column isColumn),
    fun relationship isLeaving => ?_⟩
  have ends := run.endpoints relationship (List.mem_filter.1 isLeaving).1
  exact ⟨.of_isRun (ends _ (by simp [Relationship.endpoints])),
    .of_isRun (isRun_pluralize (ends _ (by simp [Relationship.endpoints]))),
    .of_isRun (ends _ (by simp [Relationship.endpoints]))⟩

end RunsOnly

/-- A schema whose names are runs of letters, digits and underscores. The names of its
entities are apart, none begins like a name of the database's own, and relationships leave
columns of their entities. -/
structure NamesRun (schema : Schema) : Prop where
  entities : ∀ entity ∈ schema.entities,
    IsRun entity.name ∧ ∀ column ∈ entity.attributes, IsRun column.name
  endpoints : ∀ relationship ∈ schema.relationships, ∀ name ∈ relationship.endpoints, IsRun name
  apart : Apart (schema.entities.map Entity.name)
  foreign : ∀ entity ∈ schema.entities,
    sameIgnoringCase (entity.name.toList.take 6) "sqlite".toList = false
  leaving : ∀ entity ∈ schema.entities, ∀ relationship ∈ schema.relationshipsFrom entity.name,
    ∃ column ∈ entity.attributes, column.name = relationship.fromColumn

/-- Whether no column has the name of the word that introduces a constraint. -/
def Unintroduced (schema : Schema) : Prop :=
  ∀ entity ∈ schema.entities, ∀ column ∈ entity.attributes,
    sameName column.name "CONSTRAINT" = false

instance (schema : Schema) : Decidable (Unintroduced schema) :=
  inferInstanceAs (Decidable (∀ entity ∈ schema.entities, ∀ column ∈ entity.attributes, _))

namespace NamesRun

variable {schema : Schema}

/-- Names that run are runs. -/
theorem runsOnly (run : NamesRun schema) : RunsOnly schema :=
  ⟨run.entities, run.endpoints⟩

/-- Names that run are plain. -/
theorem namesPlain (run : NamesRun schema) : NamesPlain schema :=
  run.runsOnly.namesPlain

/-- The tables of a schema whose names run have names that are atoms. -/
theorem atoms (run : NamesRun schema) : ∀ entity ∈ schema.entities,
    TableAtoms entity (schema.relationshipsFrom entity.name) := by
  intro entity member
  obtain ⟨table, columns, endpoints⟩ := run.runsOnly.atoms member
  exact ⟨table, columns, fun relationship isLeaving => (endpoints relationship isLeaving).2,
    run.leaving entity member⟩

/-- The word that names constraints is told apart in capitals as in small letters. -/
theorem other (run : NamesRun schema) (columns : Unintroduced schema) : ∀ entity ∈ schema.entities,
    ∀ column ∈ entity.attributes, asciiUpper column.name.toList ≠ "CONSTRAINT".toList := by
  intro entity member column isColumn same
  have small : asciiLower (asciiUpper column.name.toList) = asciiLower column.name.toList := by
    rw [asciiLower, asciiUpper, List.map_map]
    refine List.map_congr_left fun c isLetter => ?_
    exact toLower_toUpper (ascii_of_isAsciiWord (((run.entities entity member).2 column isColumn).letter isLetter))
  have named : sameName column.name "CONSTRAINT" = true := by
    rw [sameName_iff, ← small, same]
  rw [columns entity member column isColumn] at named
  cases named

end NamesRun

section Tables

variable {entity : Entity} {entities : List Entity} {leaving : Entity -> List Relationship}
  {database after : Database} {outcomes : List Script.Outcome}

/-- A table that gives no numbers is added alone. -/
theorem tables_addTable {table : Table}
    (unnumbered : (table.rowKey.map RowKey.automatic).getD false = false) (database : Database) :
    (database.addTable table).tables = database.tables ++ [table] := by
  rw [addTable, unnumbered]
  exact List.append_nil _

/-- A statement that succeeds where no table has its name is accepted, and adds a table. -/
theorem TableAtoms.addTable_of_execute_ok {relationships : List Relationship}
    {outcome : Script.Outcome} (atoms : TableAtoms entity relationships) (run : IsRun entity.name)
    (other : ∀ column ∈ entity.attributes, asciiUpper column.name.toList ≠ "CONSTRAINT".toList)
    (missing : database.table? (pluralize entity.name) = none)
    (executed : execute (statementText entity relationships) database = (.ok outcome, after)) :
    ∃ table, table.name = pluralize entity.name ∧ Accepted entity relationships ∧
      Creates entity relationships table ∧ after.tables = database.tables ++ [table] := by
  have itself {name : String} (named : nameIn? (pluralize entity.name) = some name) :
      name = pluralize entity.name := eq_of_nameIn?_of_isRun (isRun_pluralize run) named
  by_cases accepted : Accepted entity relationships
  · obtain ⟨table, creates, -, created⟩ := atoms.execute_of_accepted accepted database
    have isName := itself creates.name
    rw [isName, missing, executed] at created
    refine ⟨table, isName, accepted, creates, ?_⟩
    rw [(Prod.mk.inj created).2, if_neg (by simp)]
    exact tables_addTable creates.holds.unnumbered database
  · obtain ⟨error, left, refused⟩ := atoms.execute_of_not_accepted other
      (fun name named => itself named ▸ missing) accepted
    rw [executed] at refused
    cases refused

/-- Statements that succeed where no table has their names have added one table each. -/
theorem tables_of_succeeds (atoms : ∀ entity ∈ entities, TableAtoms entity (leaving entity))
    (run : ∀ entity ∈ entities, IsRun entity.name)
    (other : ∀ entity ∈ entities, ∀ column ∈ entity.attributes,
      asciiUpper column.name.toList ≠ "CONSTRAINT".toList)
    (apart : Apart (entities.map Entity.name))
    (missing : ∀ entity ∈ entities, database.table? (pluralize entity.name) = none)
    (succeeds : Script.Succeeds execute database
      (entities.map fun entity => statementText entity (leaving entity)) outcomes after) :
    ∃ tables, after.tables = database.tables ++ tables ∧
      tables.map Table.name = entities.map (fun entity => pluralize entity.name) ∧
      ∀ entity ∈ entities, Accepted entity (leaving entity) ∧
        ∃ table ∈ tables, Creates entity (leaving entity) table := by
  induction entities generalizing database outcomes with
  | nil =>
      cases succeeds
      exact ⟨[], (List.append_nil _).symm, rfl, by simp⟩
  | cons entity entities inductionHypothesis =>
      obtain ⟨atomsHere, atomsLater⟩ := List.forall_mem_cons.1 atoms
      obtain ⟨runHere, runLater⟩ := List.forall_mem_cons.1 run
      obtain ⟨otherHere, otherLater⟩ := List.forall_mem_cons.1 other
      obtain ⟨missingHere, missingLater⟩ := List.forall_mem_cons.1 missing
      obtain ⟨apartHere, apartLater⟩ := List.pairwise_cons.1 apart
      cases succeeds with
      | cons first others =>
          rename_i middle outcome outcomes
          obtain ⟨table, isName, accepted, creates, added⟩ :=
            atomsHere.addTable_of_execute_ok runHere otherHere missingHere first
          have missingNext : ∀ later ∈ entities, middle.table? (pluralize later.name) = none := by
            intro later isLater
            rw [table?_none, added, List.forall_mem_append, List.forall_mem_singleton, isName,
              sameName_pluralize]
            exact ⟨table?_none.1 (missingLater later isLater),
              apartHere later.name (List.mem_map_of_mem isLater)⟩
          obtain ⟨tables, all, names, each⟩ := inductionHypothesis atomsLater runLater otherLater
            apartLater missingNext others
          refine ⟨table :: tables, ?_, ?_, List.forall_mem_cons.2 ⟨?_, fun later isLater => ?_⟩⟩
          · rw [all, added, List.append_assoc]
            rfl
          · rw [List.map_cons, List.map_cons, isName, names]
          · exact ⟨accepted, table, List.mem_cons_self, creates⟩
          · obtain ⟨acceptedLater, created, isCreated, createsLater⟩ := each later isLater
            exact ⟨acceptedLater, created, List.mem_cons_of_mem table isCreated, createsLater⟩

end Tables

section Descriptions

variable {entity : Entity} {relationships : List Relationship} {table : Table}

/-- A run that is a name has itself as its name. -/
theorem name?_lexemeOf_of_isRun {name : String} (run : IsRun name)
    (named : (nameIn? name).isSome = true) : (lexemeOf name).name?.getD "" = name := by
  obtain ⟨found, isName⟩ := Option.isSome_iff_exists.1 named
  rw [← (IsAtom.of_isRun run).nameIn?_eq, isName]
  exact eq_of_nameIn?_of_isRun run isName

/-- Columns that are named as they are written become what the reader of documents takes
them for. -/
theorem tableAttributes_eq (run : ∀ column ∈ entity.attributes, IsRun column.name)
    (named : ∀ column ∈ entity.attributes, (nameIn? column.name).isSome = true) :
    tableAttributes entity = (readBack entity).attributes := by
  rw [readBack, Entity.ofNames, ← List.map_uncurry_zip_eq_zipWith, tableAttributes]
  refine List.map_congr_left fun flagged member => ?_
  obtain ⟨name, primaryKey⟩ := flagged
  obtain ⟨column, isColumn, rfl⟩ := List.mem_map.1 (List.of_mem_zip member).1
  rw [columnAttribute, name?_lexemeOf_of_isRun (run column isColumn) (named column isColumn)]
  rfl

/-- A created table is described as what the entity and its relationships are read as. -/
theorem Creates.describe_eq (creates : Creates entity relationships table)
    (accepted : Accepted entity relationships)
    (run : ∀ column ∈ entity.attributes, IsRun column.name)
    (endpoints : ∀ relationship ∈ relationships, ∀ name ∈ relationship.endpoints, IsRun name)
    (leaving : ∀ relationship ∈ relationships, relationship.fromTable = entity.name ∧
      ∃ column ∈ entity.attributes, column.name = relationship.fromColumn) :
    table.describe (pluralize entity.name) =
      { entities := [readBack entity], relationships := (relationships.map pluralized).reverse } := by
  have keys : (relationships.map fun relationship =>
      (keyLineOf relationship).relationship (pluralize entity.name)) = relationships.map pluralized := by
    refine List.map_congr_left fun relationship member => ?_
    obtain ⟨fromTable, column, isColumn, fromColumn⟩ := leaving relationship member
    obtain ⟨toTable, toColumn⟩ := accepted.endpoints relationship member
    have ends := endpoints relationship member
    have source := name?_lexemeOf_of_isRun (run column isColumn) (accepted.columns column isColumn)
    have table := name?_lexemeOf_of_isRun
      (isRun_pluralize (ends _ (by simp [Relationship.endpoints]))) toTable
    have target := name?_lexemeOf_of_isRun (ends _ (by simp [Relationship.endpoints])) toColumn
    rw [fromColumn] at source
    rw [KeyLine.relationship, keyLineOf, source, table, target, pluralized, fromTable]
  have columns := creates.holds.described.trans (tableAttributes_eq run accepted.columns)
  rw [Table.describe, creates.refers, keys, ← Table.attributes, columns]
  rfl

end Descriptions

section Schemas

variable {schema : Schema} {database : Database} {tables : List Table}

/-- Schemas put behind one another have their entities and relationships in that order. -/
theorem foldl_append (described : List Schema) (start : Schema) :
    described.foldl Schema.append start =
      { entities := start.entities ++ described.flatMap Schema.entities
        relationships := start.relationships ++ described.flatMap Schema.relationships } := by
  induction described generalizing start with
  | nil => simp
  | cons schema described inductionHypothesis =>
      rw [List.foldl_cons, inductionHypothesis]
      simp [Schema.append]

/-- The order of entities by the names of their tables. -/
def inOrder (entities : List Entity) : List Entity :=
  entities.mergeSort fun first second => decide (pluralize first.name ≤ pluralize second.name)

/-- The tables are listed in the order in which the entities come by name. -/
theorem tableNames_eq_inOrder (run : NamesRun schema) (names : database.tables.map Table.name =
    schema.entities.map fun entity => pluralize entity.name) :
    database.tableNames = (inOrder schema.entities).map fun entity => pluralize entity.name := by
  have shown : ((schema.entities.map fun entity => pluralize entity.name).filter
      fun name => !isHidden name) = schema.entities.map fun entity => pluralize entity.name := by
    rw [List.filter_eq_self]
    intro name member
    obtain ⟨entity, isEntity, rfl⟩ := List.mem_map.1 member
    rw [isHidden_pluralize (run.foreign entity isEntity)]
    rfl
  rw [tableNames, names, shown, inOrder]
  rw [List.map_mergeSort]
  exact fun first _ second _ => rfl

/-- The tables that a run has left are described, in the order of their names, as what their
entities are read as. -/
theorem schema_eq (run : NamesRun schema)
    (names : database.tables.map Table.name =
      schema.entities.map fun entity => pluralize entity.name)
    (each : ∀ entity ∈ schema.entities, Accepted entity (schema.relationshipsFrom entity.name) ∧
      ∃ table ∈ database.tables, Creates entity (schema.relationshipsFrom entity.name) table) :
    database.schema = .ok
      { entities := (inOrder schema.entities).map readBack
        relationships := (inOrder schema.entities).flatMap fun entity =>
          ((schema.relationshipsFrom entity.name).map pluralized).reverse } := by
  have distinct : Distinct database.tables := by
    have apart := run.apart
    rw [Apart, List.pairwise_map] at apart
    have tables : (database.tables.map Table.name).Pairwise
        fun first second => sameName first second = false := by
      rw [names, List.pairwise_map]
      exact apart.imp fun different => (sameName_pluralize _ _).trans different
    exact List.pairwise_map.1 tables
  have described : ∀ entity ∈ inOrder schema.entities,
      database.describe (pluralize entity.name) = .ok
        { entities := [readBack entity]
          relationships :=
            ((schema.relationshipsFrom entity.name).map pluralized).reverse } := by
    intro entity member
    have isEntity := (List.mergeSort_perm _ _).mem_iff.1 member
    obtain ⟨accepted, table, isTable, creates⟩ := each entity isEntity
    obtain ⟨name, columns⟩ := run.entities entity isEntity
    have isName : table.name = pluralize entity.name :=
      eq_of_nameIn?_of_isRun (isRun_pluralize name) creates.name
    have found : database.table? (pluralize entity.name) = some table :=
      table?_of_mem distinct isTable (by rw [isName, sameName_self])
    rw [describe, found]
    refine congrArg Except.ok (creates.describe_eq accepted columns ?_ ?_)
    · exact fun relationship isLeaving =>
        run.endpoints relationship (List.mem_filter.1 isLeaving).1
    · exact fun relationship isLeaving => ⟨beq_iff_eq.1 (List.mem_filter.1 isLeaving).2,
        run.leaving entity isEntity relationship isLeaving⟩
  rw [Database.schema, tableNames_eq_inOrder run names, mapM_map_of_forall described]
  refine congrArg Except.ok ((foldl_append _ _).trans ?_)
  rw [List.flatMap_map, List.flatMap_map, ← List.map_eq_flatMap]
  rfl

/-- If a rendered schema runs on a new database, the database says of it what the reader of
documents does: the entities in the order of their names, and the same relationships. -/
theorem schema_render (run : NamesRun schema) (columns : Unintroduced schema)
    {reports : List (Script.StatementReport Script.Outcome)}
    (ran : Script.run execute (render schema) {} = (.ok reports, database)) :
    ∃ described, database.schema = .ok described ∧
      described.entities = (schemaOf (render schema)).entities.mergeSort
        (fun first second => decide (first.name ≤ second.name)) ∧
      described.relationships.Perm (schemaOf (render schema)).relationships := by
  rw [Script.run, statements_render run.atoms] at ran
  obtain ⟨outcomes, succeeds, -⟩ := Script.runFrom_eq_ok_iff.1 ran
  obtain ⟨tables, all, names, each⟩ := tables_of_succeeds run.atoms
    (fun entity member => (run.entities entity member).1) (run.other columns) run.apart
    (fun _ _ => rfl) succeeds
  have same : database.tables = tables := all
  rw [← same] at names each
  refine ⟨_, schema_eq run names each, ?_, ?_⟩
  · rw [schemaOf_render run.namesPlain, inOrder, List.map_mergeSort]
    exact fun first _ second _ => rfl
  · rw [schemaOf_render run.namesPlain]
    exact (List.mergeSort_perm _ _).flatMap fun entity _ => List.reverse_perm _

end Schemas

/-- Entities out of order, and two keys that leave one column, of which one leads to no table. -/
def loanSchema : Schema :=
  { entities := [.ofNames "Loan" ["id", "name"], .ofNames "Book" ["id"]]
    relationships :=
      [{ fromTable := "Loan", fromColumn := "name", toTable := "Book", toColumn := "id" },
        { fromTable := "Loan", fromColumn := "name", toTable := "X", toColumn := "y",
          label := some "of" }] }

/-- The schema of a library and its loans is built and described again. -/
theorem schema_render_loans :
    NamesRun loanSchema ∧ Unintroduced loanSchema ∧
      ∃ reports database, Script.run execute (render loanSchema) {} = (.ok reports, database) ∧
        ∃ described, database.schema = .ok described ∧
          described.entities = (schemaOf (render loanSchema)).entities.mergeSort
            (fun first second => decide (first.name ≤ second.name)) ∧
          described.relationships.Perm (schemaOf (render loanSchema)).relationships := by
  have run : NamesRun loanSchema :=
    ⟨by decide +kernel, by decide +kernel, by decide +kernel, by decide +kernel, by decide +kernel⟩
  have columns : Unintroduced loanSchema := by decide +kernel
  have accepted : ∀ entity ∈ loanSchema.entities,
      Accepted entity (loanSchema.relationshipsFrom entity.name) := by
    intro entity member
    rcases List.mem_cons.1 member with rfl | member
    · exact ⟨⟨"Loans", by decide +kernel⟩, by decide, by decide +kernel, by decide +kernel,
        by decide +kernel⟩
    · obtain rfl := List.mem_singleton.1 member
      exact ⟨⟨"Books", by decide +kernel⟩, by decide, by decide +kernel, by decide +kernel,
        by decide +kernel⟩
  obtain ⟨reports, database, ran, -⟩ := run_render_of_accepted run.atoms accepted {}
  exact ⟨run, columns, reports, database, ran, schema_render run columns ran⟩

/-- An entity with a column that is named like the word which introduces a constraint. -/
def ruleSchema : Schema :=
  { entities := [.ofNames "Rule" ["id", "Constraint"]], relationships := [] }

/-- A column that is named like the word which introduces a constraint is one to the reader
of documents alone. -/
theorem not_forall_schema_render :
    ¬∀ schema : Schema, NamesRun schema -> ∀ reports database,
      Script.run execute (render schema) {} = (.ok reports, database) ->
        ∃ described, database.schema = .ok described ∧
          described.entities = (schemaOf (render schema)).entities.mergeSort
            (fun first second => decide (first.name ≤ second.name)) ∧
          described.relationships.Perm (schemaOf (render schema)).relationships := by
  intro all
  have run : NamesRun ruleSchema :=
    ⟨by decide +kernel, by decide +kernel, by decide +kernel, by decide +kernel, by decide +kernel⟩
  have succeeds : (Script.run execute (render ruleSchema) {}).1.isOk = true := by decide +kernel
  have listed : (Script.run execute (render ruleSchema) {}).2.tableNames = ["Rules"] :=
    tableNames_of_perm (List.pairwise_singleton _ _) (by decide +kernel)
  have columns : ((Script.run execute (render ruleSchema) {}).2.describe "Rules").toOption.map
      (fun described => described.entities.map fun entity => entity.attributes.length) =
        some [1] := by
    decide +kernel
  have read : (schemaOf (render ruleSchema)).entities = [.ofNames "Rules" ["id", "Constraint"]] := by
    decide +kernel
  cases ran : Script.run execute (render ruleSchema) {} with
  | mk answer database =>
      rw [ran] at succeeds listed columns
      cases answer with
      | error failure => cases succeeds
      | ok reports =>
          obtain ⟨described, isDescribed, entities, -⟩ := all ruleSchema run reports database ran
          rw [read, List.mergeSort_singleton] at entities
          rw [Database.schema, listed, List.mapM_cons] at isDescribed
          cases described? : database.describe "Rules" with
          | error failure =>
              rw [described?] at isDescribed
              cases isDescribed
          | ok table =>
              rw [described?] at isDescribed columns
              obtain rfl := Except.ok.inj isDescribed
              have counted : table.entities.map (fun entity => entity.attributes.length) = [1] :=
                Option.some.inj columns
              have both : table.entities = [.ofNames "Rules" ["id", "Constraint"]] := entities
              rw [both] at counted
              exact absurd counted (by decide +kernel)

end Database

end SchemaLoom
