import SchemaLoom.Proofs.Building
import SchemaLoom.Proofs.Issues
import SchemaLoom.Proofs.Standing

/-!
# Running what was rendered

The statement of an entity creates its table if each of its names is a name to the
database, the table's is not reserved and those of the columns fit into one table: they are
apart, and not more than a table holds. Names that only validation looks at may be reserved
words, fall into several tokens or differ by case alone, and there may be any number of them,
so a schema without issues does not have to run.
-/

namespace SchemaLoom

open Ddl Text

namespace Database

section Execution

variable {database after : Database} {text : String} {definition : TableDefinition}

/-- A statement that is read and can create its table is executed. -/
theorem execute_of_create_ok (read : Statement.ofText text = .ok (.create definition))
    (created : database.create definition = .ok after) :
    execute text database = (.ok (.executed after.changes), after) := by
  simp only [execute, read, perform, created]
  rfl

/-- A statement whose table is refused is answered with an error. -/
theorem execute_of_create_error (read : Statement.ofText text = .ok (.create definition))
    {problem : Problem} (refused : database.create definition = .error problem) :
    ∃ error left, execute text database = (.error error, left) := by
  simp only [execute, read, perform, refused]
  exact ⟨_, _, rfl⟩

/-- A statement that cannot be read is answered with an error. -/
theorem execute_of_unread {problem : Problem} (read : Statement.ofText text = .error problem) :
    ∃ error left, execute text database = (.error error, left) := by
  simp only [execute, read]
  exact ⟨_, _, rfl⟩

/-- A definition whose reading has stopped is refused, whether its table is there or not. -/
theorem create_of_fault (database : Database) (fault : definition.fault ≠ none) :
    ∃ problem, database.create definition = .error problem := by
  obtain ⟨stopped, isFault⟩ := Option.ne_none_iff_exists'.1 fault
  obtain ⟨problem, refused⟩ := Table.ofDefinition_of_fault fault
  rw [create]
  split
  · exact ⟨_, rfl⟩
  · split
    · split
      · exact ⟨stopped, by rw [isFault]⟩
      · exact ⟨_, rfl⟩
    · exact ⟨problem, by rw [refused]; rfl⟩

end Execution

/-- The name that the database gives to a column, if it is one. -/
def columnName (column : Attribute) : String :=
  (nameIn? column.name).getD ""

/-- An entity, with the relationships that leave it, whose names the database takes. -/
structure Accepted (entity : Entity) (relationships : List Relationship) : Prop where
  table : ∃ name, nameIn? (pluralize entity.name) = some name ∧ isReserved name = false
  nonempty : entity.attributes ≠ []
  columns : ∀ column ∈ entity.attributes, (nameIn? column.name).isSome = true
  endpoints : ∀ relationship ∈ relationships,
    (nameIn? (pluralize relationship.toTable)).isSome = true ∧
      (nameIn? relationship.toColumn).isSome = true
  fit : Fit (entity.attributes.map columnName)

/-- Names that the database takes are atoms. -/
theorem Accepted.atoms {entity : Entity} {relationships : List Relationship}
    (accepted : Accepted entity relationships)
    (leaving : ∀ relationship ∈ relationships,
      ∃ column ∈ entity.attributes, column.name = relationship.fromColumn) :
    TableAtoms entity relationships := by
  have atom {text : String} (named : (nameIn? text).isSome = true) : IsAtom text := by
    obtain ⟨name, isName⟩ := Option.isSome_iff_exists.1 named
    exact .of_nameIn? isName
  obtain ⟨name, isName, -⟩ := accepted.table
  refine ⟨.of_nameIn? isName, fun column member => atom (accepted.columns column member),
    fun relationship member => ?_, leaving⟩
  obtain ⟨table, target⟩ := accepted.endpoints relationship member
  exact ⟨atom table, atom target⟩

namespace TableAtoms

variable {entity : Entity} {relationships : List Relationship}

/-- Every lexeme of a statement that must be a name is one exactly if the columns and the
ends of the relationships have names, and if there is a column. -/
theorem isNamed_iff (atoms : TableAtoms entity relationships) :
    atoms.lines.IsNamed ↔ entity.attributes ≠ [] ∧
      (∀ column ∈ entity.attributes, (nameIn? column.name).isSome = true) ∧
      ∀ relationship ∈ relationships, (nameIn? (pluralize relationship.toTable)).isSome = true ∧
        (nameIn? relationship.toColumn).isSome = true := by
  have keys : (∀ key ∈ atoms.lines.keys, key.IsNamed) ↔ ∀ relationship ∈ relationships,
      (nameIn? (pluralize relationship.toTable)).isSome = true ∧
        (nameIn? relationship.toColumn).isSome = true := by
    rw [lines_keys, List.forall_mem_map]
    refine forall₂_congr fun relationship member => ?_
    obtain ⟨table, target⟩ := atoms.endpoints relationship member
    rw [table.nameIn?_eq, target.nameIn?_eq]
    rfl
  have columns : (∀ line ∈ atoms.lines.columns, line.IsNamed) ↔
      ∀ column ∈ entity.attributes, (nameIn? column.name).isSome = true := by
    have written : (∀ line ∈ atoms.lines.columns, line.IsNamed) ↔
        ∀ lexeme ∈ (columnLines entity).map ColumnLine.written, lexeme.name?.isSome = true := by
      rw [List.forall_mem_map]
      rfl
    rw [written, map_written_columnLines, List.forall_mem_map]
    refine forall₂_congr fun column member => ?_
    rw [(atoms.columns column member).nameIn?_eq]
  have nonempty : atoms.lines.columns ≠ [] ↔ entity.attributes ≠ [] := by
    have same := congrArg List.length (map_written_columnLines entity)
    rw [List.length_map, List.length_map] at same
    rw [lines_columns, ← List.length_pos_iff, ← List.length_pos_iff, same]
  rw [← keys, ← columns, ← nonempty]
  exact ⟨fun named => ⟨named.nonempty, named.columns, named.keys⟩,
    fun ⟨nonempty, columns, keys⟩ => ⟨nonempty, columns, keys⟩⟩

/-- The columns of the statement have the names of the attributes as the database takes them. -/
theorem columnNames_eq (atoms : TableAtoms entity relationships) :
    columnNames entity = entity.attributes.map columnName := by
  refine List.map_congr_left fun column member => ?_
  rw [columnName, (atoms.columns column member).nameIn?_eq]

/-- A statement falls into the lexemes of its lines. -/
theorem lexed_tokens (atoms : TableAtoms entity relationships) :
    (tokens (statementText entity relationships)).map Token.lexed = atoms.lines.lexemes :=
  atoms.names.lexed_tokens

end TableAtoms

/-- The table that a statement creates: it has the attributes that the columns of the entity
become, and the relationships that leave the entity, the last one first. -/
structure Creates (entity : Entity) (relationships : List Relationship) (table : Table) :
    Prop where
  name : nameIn? (pluralize entity.name) = some table.name
  holds : table.Holds table.name (tableAttributes entity)
  refers : ∀ asked, table.foreignKeys.filterMap (table.relationship? asked) =
    (relationships.map fun relationship => (keyLineOf relationship).relationship asked).reverse

section Statements

variable {entity : Entity} {relationships : List Relationship} {database : Database}

/-- Each key of the statement leaves one of its columns. -/
theorem leaving_of_atoms (atoms : TableAtoms entity relationships) :
    ∀ key ∈ relationships.map keyLineOf, key.column.name?.getD "" ∈ columnNames entity := by
  intro key isKey
  obtain ⟨relationship, isRelationship, rfl⟩ := List.mem_map.1 isKey
  obtain ⟨column, isColumn, same⟩ := atoms.leaving relationship isRelationship
  rw [keyLineOf, ← same]
  exact List.mem_map_of_mem isColumn

/-- The statement of an entity whose names are such is read as a whole. -/
theorem TableAtoms.ofText_of_named (atoms : TableAtoms entity relationships) {name : String}
    (table : nameIn? (pluralize entity.name) = some name) (named : atoms.lines.IsNamed) :
    ∃ definition, Statement.ofText (statementText entity relationships) =
        .ok (.create definition) ∧
      definition.table.name = name ∧ definition.onlyIfMissing = true ∧ definition.fault = none ∧
      if Fit (entity.attributes.map columnName) then
        ∃ table, Table.ofDefinition definition = .ok table ∧
          Creates entity relationships table
      else ∃ problem, Table.ofDefinition definition = .error problem := by
  have tableNamed : atoms.lines.table.name? = some name := by
    rw [← table, atoms.table.nameIn?_eq]
    rfl
  obtain ⟨mention, clauses, isName, gives, read⟩ :=
    Statement.ofTokens_of_named tableNamed named atoms.lexed_tokens
  let definition : TableDefinition :=
    { table := mention
      onlyIfMissing := true
      clauses := (columnLines entity).flatMap ColumnLine.clauses ++ clauses
      fault := none }
  have whole : Statement.ofText (statementText entity relationships) = .ok (.create definition) :=
    congrArg (Except.mapError problemAt) read
  have clauses : definition.clauses = (columnLines entity).flatMap ColumnLine.clauses ++ clauses :=
    rfl
  have built := Table.ofDefinition_columns clauses rfl gives (leaving_of_atoms atoms)
  refine ⟨definition, whole, isName, rfl, rfl, ?_⟩
  rw [← atoms.columnNames_eq]
  split at built
  · rename_i fit
    obtain ⟨made, isTable, holds, refers⟩ := built
    have same : made.name = name := holds.name.trans isName
    rw [if_pos fit]
    refine ⟨made, isTable, same ▸ table, holds.name.symm ▸ holds, fun asked => ?_⟩
    rw [refers, atoms.lines_keys, List.map_map]
    rfl
  · rename_i notFit
    rwa [if_neg notFit]

/-- The statement of an entity whose names are accepted creates its table, unless there is
one of that name. -/
theorem TableAtoms.execute_of_accepted (atoms : TableAtoms entity relationships)
    (accepted : Accepted entity relationships) (database : Database) :
    ∃ table, Creates entity relationships table ∧ isReserved table.name = false ∧
      execute (statementText entity relationships) database =
        (.ok (.executed database.changes),
          if (database.table? table.name).isSome then database else database.addTable table) := by
  obtain ⟨name, isName, free⟩ := accepted.table
  have named := atoms.isNamed_iff.2 ⟨accepted.nonempty, accepted.columns, accepted.endpoints⟩
  obtain ⟨definition, read, sameName, whenMissing, faultless, built⟩ :=
    atoms.ofText_of_named isName named
  rw [if_pos accepted.fit] at built
  obtain ⟨table, isTable, creates⟩ := built
  have isDefined : definition.table.name = table.name :=
    sameName.trans (Option.some.inj (isName.symm.trans creates.name))
  rw [← sameName, isDefined] at free
  refine ⟨table, creates, free, ?_⟩
  have created : database.create definition =
      .ok (if (database.table? table.name).isSome then database else database.addTable table) := by
    rw [create, isDefined, free, whenMissing, faultless, isTable]
    split
    · contradiction
    · split <;> rfl
  rw [execute_of_create_ok read created]
  split <;> rfl

/-- The statement of an entity whose names are not accepted is refused where it would
create a table. -/
theorem TableAtoms.execute_of_not_accepted (atoms : TableAtoms entity relationships)
    (other : ∀ column ∈ entity.attributes,
      asciiUpper column.name.toList ≠ "CONSTRAINT".toList)
    (missing : ∀ name, nameIn? (pluralize entity.name) = some name -> database.table? name = none)
    (refused : ¬Accepted entity relationships) :
    ∃ error left, execute (statementText entity relationships) database = (.error error, left) := by
  cases isName : nameIn? (pluralize entity.name) with
  | none =>
      have unnamed : atoms.lines.table.name? = none := by
        rw [← isName, atoms.table.nameIn?_eq]
        rfl
      obtain ⟨stop, unread⟩ := Statement.ofTokens_of_unnamed_table unnamed atoms.lexed_tokens
      exact execute_of_unread (congrArg (Except.mapError problemAt) unread)
  | some name =>
      by_cases named : atoms.lines.IsNamed
      · obtain ⟨definition, read, sameName, whenMissing, faultless, built⟩ :=
          atoms.ofText_of_named isName named
        have isRefused : ∃ problem, database.create definition = .error problem := by
          rw [create, sameName, missing name isName]
          cases free : isReserved name with
          | true => exact ⟨_, rfl⟩
          | false =>
              obtain ⟨nonempty, columns, endpoints⟩ := atoms.isNamed_iff.1 named
              have notFit : ¬Fit (entity.attributes.map columnName) := fun fit =>
                refused ⟨⟨name, isName, free⟩, nonempty, columns, endpoints, fit⟩
              rw [if_neg notFit] at built
              obtain ⟨problem, unbuilt⟩ := built
              exact ⟨problem, by rw [unbuilt]; rfl⟩
        obtain ⟨problem, stopped⟩ := isRefused
        exact execute_of_create_error read stopped
      · have tableNamed : atoms.lines.table.name? = some name := by
          rw [← isName, atoms.table.nameIn?_eq]
          rfl
        have otherLines : ∀ line ∈ atoms.lines.columns,
            asciiUpper line.written.2.toList ≠ "CONSTRAINT".toList := by
          intro line isLine
          have isWritten : line.written ∈ (columnLines entity).map ColumnLine.written :=
            List.mem_map_of_mem isLine
          rw [map_written_columnLines] at isWritten
          obtain ⟨column, isColumn, same⟩ := List.mem_map.1 isWritten
          rw [← same]
          exact other column isColumn
        obtain ⟨definition, isDefinition, fault⟩ :=
          Statement.ofTokens_of_unnamed tableNamed named otherLines atoms.lexed_tokens
        obtain ⟨problem, stopped⟩ := create_of_fault database fault
        have read := congrArg (Except.mapError problemAt) isDefinition
        exact execute_of_create_error read stopped

end Statements

section Runs

variable {schema : Schema}

/-- The statement of an entity of a schema. -/
def statementIn (schema : Schema) (entity : Entity) : String :=
  statementText entity (schema.relationshipsFrom entity.name)

/-- A rendered schema is cut into the statements of its entities. -/
theorem statements_render (atoms : ∀ entity ∈ schema.entities,
    TableAtoms entity (schema.relationshipsFrom entity.name)) :
    statements (render schema) = schema.entities.map (statementIn schema) :=
  statements_render_eq fun entity member => (atoms entity member).names.isStatement

/-- Accepted entities have statements that succeed one after the other, on any database. -/
theorem succeeds_of_accepted {entities : List Entity} {leaving : Entity -> List Relationship}
    (atoms : ∀ entity ∈ entities, TableAtoms entity (leaving entity))
    (accepted : ∀ entity ∈ entities, Accepted entity (leaving entity)) (database : Database) :
    ∃ outcomes after, Script.Succeeds execute database
      (entities.map fun entity => statementText entity (leaving entity)) outcomes after := by
  induction entities generalizing database with
  | nil => exact ⟨[], database, .nil database⟩
  | cons entity entities inductionHypothesis =>
      obtain ⟨atomsHere, atomsLater⟩ := List.forall_mem_cons.1 atoms
      obtain ⟨acceptedHere, acceptedLater⟩ := List.forall_mem_cons.1 accepted
      obtain ⟨table, -, -, executed⟩ := atomsHere.execute_of_accepted acceptedHere database
      obtain ⟨outcomes, after, others⟩ := inductionHypothesis atomsLater acceptedLater
        (if (database.table? table.name).isSome then database else database.addTable table)
      exact ⟨_, after, .cons executed others⟩

/-- A rendered schema of accepted entities runs, with one report for the statement of each. -/
theorem run_render_of_accepted
    (atoms : ∀ entity ∈ schema.entities, TableAtoms entity (schema.relationshipsFrom entity.name))
    (accepted : ∀ entity ∈ schema.entities, Accepted entity (schema.relationshipsFrom entity.name))
    (database : Database) :
    ∃ reports final, Script.run execute (render schema) database = (.ok reports, final) ∧
      reports.map Script.StatementReport.statement = schema.entities.map (statementIn schema) := by
  obtain ⟨outcomes, after, succeeds⟩ := succeeds_of_accepted atoms accepted database
  refine ⟨Script.reportsFrom 0 (schema.entities.map (statementIn schema)) outcomes, after, ?_,
    succeeds.map_statement_reportsFrom 0⟩
  rw [Script.run, statements_render atoms]
  exact Script.runFrom_of_succeeds succeeds 0

/-- A schema without issues runs on a new database, with one report for the statement of each
entity, if its names suit the database: each table and each column is given a name, no table
a reserved one, and the names that columns of one table are given are apart and not more than
a table holds. -/
theorem run_render_of_issues_eq_nil (clean : schema.issues = [])
    (tables : ∀ entity ∈ schema.entities,
      ∃ name, nameIn? (pluralize entity.name) = some name ∧ isReserved name = false)
    (columns : ∀ entity ∈ schema.entities,
      (∀ column ∈ entity.attributes, (nameIn? column.name).isSome = true) ∧
        Apart (entity.attributes.map columnName) ∧
        entity.attributes.length ≤ Table.columnLimit) :
    ∃ reports final, Script.run execute (render schema) {} = (.ok reports, final) ∧
      reports.map Script.StatementReport.statement = schema.entities.map (statementIn schema) := by
  have endpoints : ∀ relationship ∈ schema.relationships,
      (nameIn? (pluralize relationship.toTable)).isSome = true ∧
        (nameIn? relationship.toColumn).isSome = true := by
    intro relationship member
    obtain ⟨-, entity, isEntity, isTable, column, isColumn, isName⟩ :=
      Schema.ends_of_issues clean member
    obtain ⟨name, named, -⟩ := tables entity isEntity
    rw [← isTable, ← isName, named]
    exact ⟨rfl, (columns entity isEntity).1 column isColumn⟩
  have accepted : ∀ entity ∈ schema.entities,
      Accepted entity (schema.relationshipsFrom entity.name) := by
    intro entity member
    have clean := (List.append_eq_nil_iff.1 clean).1
    exact ⟨tables entity member, ((Schema.entities_of_issues clean).1 entity member).2,
      (columns entity member).1,
      fun relationship isLeaving => endpoints relationship (List.mem_filter.1 isLeaving).1,
      (columns entity member).2.1, by
        rw [List.length_map]
        exact (columns entity member).2.2⟩
  have atoms : ∀ entity ∈ schema.entities,
      TableAtoms entity (schema.relationshipsFrom entity.name) := fun entity member =>
    (accepted entity member).atoms (Schema.leaving_of_issues clean member)
  exact run_render_of_accepted atoms accepted {}

end Runs

/-- Two entities and a relationship, with a column whose name stands in quotes. -/
def saleSchema : Schema :=
  { entities :=
      [.ofNames "Customer" ["id", "\x22e-mail\x22", "Name"],
        .ofNames "Sale" ["Sale_ID", "customer_id", "ORDERED"]]
    relationships :=
      [{ fromTable := "Sale", fromColumn := "customer_id", toTable := "Customer",
          toColumn := "id" }] }

/-- A quoted name and one that only begins like a reserved word are taken. -/
theorem run_render_of_issues_eq_nil_quoted :
    saleSchema.issues = [] ∧
      ∃ reports final, Script.run execute (render saleSchema) {} = (.ok reports, final) ∧
        reports.map Script.StatementReport.statement =
          saleSchema.entities.map (statementIn saleSchema) := by
  have clean : saleSchema.issues = [] := by decide +kernel
  refine ⟨clean, run_render_of_issues_eq_nil clean ?_ (by decide +kernel)⟩
  intro entity member
  rcases List.mem_cons.1 member with rfl | member
  · exact ⟨"Customers", by decide +kernel, by decide⟩
  · obtain rfl := List.mem_singleton.1 member
    exact ⟨"Sales", by decide +kernel, by decide⟩

/-- Columns whose names differ by case alone have no issues, and do not run. -/
theorem not_forall_run_render :
    ¬∀ schema : Schema, schema.issues = [] ->
      ∃ reports final, Script.run execute (render schema) {} = (.ok reports, final) ∧
        reports.length = schema.entities.length := by
  intro all
  obtain ⟨reports, final, ran, -⟩ := all
    { entities := [.ofNames "Person" ["id", "Name", "name"]], relationships := [] }
    (by decide +kernel)
  have failed : (Script.run execute (render
      { entities := [.ofNames "Person" ["id", "Name", "name"]], relationships := [] }) {}).1.isOk =
        false := by
    decide +kernel
  rw [ran] at failed
  cases failed

end Database

end SchemaLoom
