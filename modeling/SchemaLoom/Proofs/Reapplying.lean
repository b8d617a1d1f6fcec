import SchemaLoom.Proofs.Describing

/-!
# Running a rendered schema again

A rendered schema creates tables where they are missing, and does nothing else. Every
statement but a drop keeps the tables that are there. So where the script has come through
once it finds all its tables again, whatever has become of their rows, comes through once
more and changes nothing.
-/

namespace SchemaLoom

open Ddl Text

namespace Database

/-- Whether a table is found under every name under which there was one before. -/
def Keeps (before after : Database) : Prop :=
  ∀ name, (before.table? name).isSome = true -> (after.table? name).isSome = true

namespace Keeps

variable {before middle after database : Database}

theorem refl (database : Database) : database.Keeps database :=
  fun _ found => found

/-- Two changes that each keep the tables keep them together. -/
theorem trans (first : before.Keeps middle) (second : middle.Keeps after) : before.Keeps after :=
  fun name found => second name (first name found)

/-- The tables alone decide what is kept. -/
theorem of_tables (same : after.tables = before.tables) : before.Keeps after := by
  intro name found
  rwa [table?, same]

/-- Losing rows loses no table. -/
theorem of_thins (thins : before.Thins after) : before.Keeps after := by
  intro name found
  obtain ⟨table, isTable⟩ := Option.isSome_iff_exists.1 found
  obtain ⟨thinner, isThinner, -⟩ := thins.table? isTable
  exact Option.isSome_of_mem isThinner

/-- A table that takes the place of another one of its name loses none. -/
theorem replace (database : Database) (filled : Table) :
    database.Keeps (database.replace filled) := by
  intro name found
  rwa [table?_replace, Option.isSome_map]

/-- Keeping a number loses no table. -/
theorem keepNumber (database : Database) (name : String) (number : Int) :
    database.Keeps (database.keepNumber name number) := by
  rw [Database.keepNumber]
  split
  · exact .refl database
  · exact .replace database _

/-- Deleting rows loses no table. -/
theorem deleteRows (name : String) (bound : Nat) (database : Database) :
    database.Keeps (Database.deleteRows name bound database).2 := by
  induction bound generalizing database with
  | zero => exact .refl database
  | succ bound inductionHypothesis =>
      rw [Database.deleteRows]
      split
      · exact .refl database
      · split
        · exact .refl database
        · exact ((Keeps.replace database _).trans (.of_thins (thins_cascade _ _))).trans
            (inductionHypothesis _)

/-- A new table loses none of the others. -/
theorem addTable (database : Database) (table : Table) :
    database.Keeps (database.addTable table) := by
  intro name found
  rw [table?, Database.addTable, List.append_assoc, List.find?_append, Option.isSome_or]
  exact Bool.or_eq_true_iff.2 (.inl found)

/-- Creating a table loses none. -/
theorem create {definition : TableDefinition} (created : database.create definition = .ok after) :
    database.Keeps after := by
  cases create_ok created with
  | present => exact .refl _
  | created => exact .addTable _ _

/-- Clearing a table loses none. -/
theorem clear {mention : Mention} (cleared : database.clear mention = .ok after) :
    database.Keeps after := by
  cases clear_ok cleared with
  | cleared found emptied =>
      exact (Keeps.deleteRows _ _ database).trans (.of_tables (emptied_ok emptied).1)

/-- Rows that are inserted lose no table, whether or not they all go in. -/
theorem insert (mention : Mention) (columns : Option (List String)) (rows : List (List Term))
    (database : Database) : database.Keeps (database.insert mention columns rows).2 := by
  rw [Database.insert]
  split
  · exact .refl database
  · dsimp only
    split
    · exact .of_tables rfl
    · rename_i filled placed
      split
      · exact .of_tables rfl
      · rename_i final complete
        obtain ⟨rfl, -⟩ := complete_ok complete
        have replaced (changes : Nat) :
            database.Keeps { database.replace filled with changes } :=
          (Keeps.replace database filled).trans (.of_tables rfl)
        split
        · exact (replaced _).trans (.keepNumber _ _ _)
        · exact replaced _

/-- Every statement but a drop keeps the tables, whether it succeeds or fails. -/
theorem perform {statement : Statement}
    (other : ∀ mention onlyIfPresent, statement ≠ .drop mention onlyIfPresent)
    (database : Database) : database.Keeps (database.perform statement).2 := by
  cases statement with
  | create definition =>
      rw [Database.perform]
      cases created : database.create definition with
      | ok changed => exact create created
      | error problem => exact .of_tables (tables_afterRefusal database problem.cause)
  | drop mention onlyIfPresent => exact absurd rfl (other mention onlyIfPresent)
  | delete mention =>
      rw [Database.perform]
      cases cleared : database.clear mention with
      | ok changed => exact clear cleared
      | error problem => exact .of_tables (tables_afterRefusal database problem.cause)
  | insert mention columns rows => exact insert mention columns rows database
  | select items mention => exact .refl database
  | values rows =>
      rw [Database.perform]
      split <;> exact .refl database

/-- Only a text that drops a table makes the database lose one. -/
theorem execute {text : String}
    (other : ∀ mention onlyIfPresent, Statement.ofText text ≠ .ok (.drop mention onlyIfPresent))
    (database : Database) : database.Keeps (execute text database).2 := by
  rw [Database.execute]
  split
  · exact .refl database
  · rename_i statement read
    have noDrop : ∀ mention onlyIfPresent, statement ≠ .drop mention onlyIfPresent :=
      fun mention onlyIfPresent same => other mention onlyIfPresent (same ▸ read)
    have performed := Keeps.perform noDrop database
    split
    · rename_i answered
      rwa [answered] at performed
    · rename_i answered
      rwa [answered] at performed

end Keeps

section Changes

variable {text : String} {statement : Statement}

/-- What is read from a text is read from its tokens. -/
theorem Statement.ofTokens_of_ofText (read : ofText text = .ok statement) :
    ofTokens (tokens text) = .ok statement := by
  rw [ofText] at read
  cases found : ofTokens (tokens text) with
  | error stop =>
      rw [found] at read
      cases read
  | ok other =>
      rw [found] at read
      exact congrArg Except.ok (Except.ok.inj read)

/-- What reads as an insertion is one. -/
theorem Statement.insertion_ok {tokens : List Token} (read : insertion tokens = .ok statement) :
    ∃ mention columns rows, statement = .insert mention columns rows := by
  obtain ⟨named, -, read⟩ := exists_of_bind_eq_ok read
  obtain ⟨⟨mention, listed⟩, -, read⟩ := exists_of_bind_eq_ok read
  obtain ⟨⟨columns, valued⟩, -, read⟩ := exists_of_bind_eq_ok read
  obtain ⟨written, -, read⟩ := exists_of_bind_eq_ok read
  obtain ⟨rows, -, read⟩ := exists_of_bind_eq_ok read
  cases read
  exact ⟨_, _, _, rfl⟩

/-- Whether a text begins with one of the words that insert and delete rows. -/
def ChangesRows (text : String) : Prop :=
  (tokens text).head?.any (Token.isOneOf · ["INSERT", "DELETE"]) = true

instance (text : String) : Decidable (ChangesRows text) :=
  inferInstanceAs (Decidable (_ = true))

/-- What begins with a word that inserts or deletes rows is read as nothing else. -/
theorem ChangesRows.reads (changes : ChangesRows text)
    (read : Statement.ofText text = .ok statement) :
    (∃ mention columns rows, statement = .insert mention columns rows) ∨
      ∃ mention, statement = .delete mention := by
  have found := Statement.ofTokens_of_ofText read
  rw [ChangesRows] at changes
  cases written : tokens text with
  | nil =>
      rw [written] at changes
      cases changes
  | cons token rest =>
      rw [written] at changes found
      have words : token.isWord "INSERT" = true ∨ token.isWord "DELETE" = true := by
        simpa [Token.isOneOf] using changes
      simp only [Token.isWord, Bool.and_eq_true, beq_iff_eq] at words
      rcases words with ⟨isWord, letters⟩ | ⟨isWord, letters⟩
      · simp +decide only [Statement.ofTokens, Token.isWord, isWord, letters] at found
        exact .inl (Statement.insertion_ok found)
      · simp +decide only [Statement.ofTokens, Token.isWord, isWord, letters] at found
        obtain ⟨named, -, found⟩ := exists_of_bind_eq_ok found
        obtain ⟨⟨mention, ended⟩, -, found⟩ := exists_of_bind_eq_ok found
        obtain ⟨-, -, found⟩ := exists_of_bind_eq_ok found
        cases found
        exact .inr ⟨_, rfl⟩

/-- The database after texts that are executed one after the other, whether they succeed or
fail. -/
def executeAll (texts : List String) (database : Database) : Database :=
  texts.foldl (fun database text => (execute text database).2) database

/-- Rows come and go, and tables stay. -/
theorem Keeps.executeAll {texts : List String} (changes : ∀ text ∈ texts, ChangesRows text)
    (database : Database) : database.Keeps (executeAll texts database) := by
  induction texts generalizing database with
  | nil => exact .refl database
  | cons text texts inductionHypothesis =>
      obtain ⟨here, later⟩ := List.forall_mem_cons.1 changes
      have step : database.Keeps (Database.execute text database).2 := by
        refine .execute (fun mention onlyIfPresent read => ?_) database
        obtain ⟨_, _, _, isInsert⟩ | ⟨_, isDelete⟩ := here.reads read
        · cases isInsert
        · cases isDelete
      exact step.trans (inductionHypothesis later _)

end Changes

section Creations

variable {database after : Database} {text : String} {statements : List String}
  {outcomes : List Script.Outcome}

/-- Whether a text, if it can be read, creates a table only where there is none. -/
def IsConditional (text : String) : Prop :=
  ∀ statement, Statement.ofText text = .ok statement ->
    ∃ definition, statement = .create definition ∧ definition.onlyIfMissing = true

/-- Whether a text creates a table only where there is none, and there is one. It can be read
to its end, since a fault would be reported in either case. -/
def Settled (database : Database) (text : String) : Prop :=
  ∃ definition, Statement.ofText text = .ok (.create definition) ∧
    definition.onlyIfMissing = true ∧ definition.fault = none ∧
    isReserved definition.table.name = false ∧
    (database.table? definition.table.name).isSome = true

/-- A settled text stays so as long as no table is lost. -/
theorem Settled.of_keeps (settled : database.Settled text) (keeps : database.Keeps after) :
    after.Settled text := by
  obtain ⟨definition, read, whenMissing, faultless, free, found⟩ := settled
  exact ⟨definition, read, whenMissing, faultless, free, keeps _ found⟩

/-- Where nothing is missing, nothing happens. -/
theorem Settled.execute (settled : database.Settled text) :
    execute text database = (.ok (.executed database.changes), database) := by
  obtain ⟨definition, read, whenMissing, faultless, free, found⟩ := settled
  refine execute_of_create_ok read ?_
  simp [create, free, found, whenMissing, faultless]

/-- A conditional text loses no table. -/
theorem IsConditional.keeps_execute (conditional : IsConditional text) (database : Database) :
    database.Keeps (execute text database).2 := by
  refine .execute (fun mention onlyIfPresent read => ?_) database
  obtain ⟨definition, isCreation, -⟩ := conditional _ read
  cases isCreation

/-- What has succeeded once has nothing left to do. -/
theorem IsConditional.settled (conditional : IsConditional text) {outcome : Script.Outcome}
    (executed : execute text database = (.ok outcome, after)) : after.Settled text := by
  obtain ⟨statement, read, effect⟩ := execute_ok executed
  obtain ⟨definition, rfl, whenMissing⟩ := conditional statement read
  -- A definition that stops with a fault is refused, be its table there or not.
  have faultless : definition.fault = none := by
    by_contra fault
    obtain ⟨problem, refused⟩ := create_of_fault database fault
    obtain ⟨error, left, failed⟩ := execute_of_create_error read refused
    rw [executed] at failed
    cases failed
  cases effect with
  | present free found => exact ⟨definition, read, whenMissing, faultless, free, found⟩
  | created free missing built =>
      rename_i table
      have name : table.name = definition.table.name :=
        congrArg Prod.fst (Table.heading_ofDefinition built)
      refine ⟨definition, read, whenMissing, faultless, free, ?_⟩
      rw [← name, table?, List.find?_isSome]
      exact ⟨table, by simp [addTable], sameName_self table.name⟩

/-- After conditional creations that have all succeeded, none of them has anything left to do. -/
theorem settled_of_succeeds (conditional : ∀ text ∈ statements, IsConditional text)
    (succeeds : Script.Succeeds execute database statements outcomes after) :
    database.Keeps after ∧ ∀ text ∈ statements, after.Settled text := by
  induction succeeds with
  | nil state => exact ⟨.refl state, fun _ member => by cases member⟩
  | cons first others inductionHypothesis =>
      obtain ⟨here, later⟩ := List.forall_mem_cons.1 conditional
      obtain ⟨keepsLater, settledLater⟩ := inductionHypothesis later
      have keepsHere := here.keeps_execute
      -- What is settled here stays so, since the others only add tables.
      exact ⟨(first ▸ keepsHere _).trans keepsLater,
        List.forall_mem_cons.2 ⟨(here.settled first).of_keeps keepsLater, settledLater⟩⟩

/-- Texts that are all settled run without a failure and change nothing. -/
theorem exists_succeeds_of_settled (settled : ∀ text ∈ statements, database.Settled text) :
    ∃ outcomes, Script.Succeeds execute database statements outcomes database := by
  induction statements with
  | nil => exact ⟨[], .nil database⟩
  | cons text statements inductionHypothesis =>
      obtain ⟨here, later⟩ := List.forall_mem_cons.1 settled
      obtain ⟨outcomes, succeeds⟩ := inductionHypothesis later
      exact ⟨_, .cons here.execute succeeds⟩

end Creations

section Rendered

variable {entity : Entity} {relationships : List Relationship}

/-- The statement of an entity creates its table only where there is none. -/
theorem NameAtoms.isConditional (atoms : NameAtoms entity relationships) :
    IsConditional (statementText entity relationships) := by
  intro statement read
  obtain ⟨rest, -, isConditional⟩ := Statement.ofTokens_conditional atoms.lexed_tokens
  have found := isConditional.symm.trans (Statement.ofTokens_of_ofText read)
  obtain ⟨⟨table, opening⟩, -, found⟩ := exists_of_bind_eq_ok found
  obtain ⟨inner, -, found⟩ := exists_of_bind_eq_ok found
  cases found
  exact ⟨_, rfl, rfl⟩

/-- Where a rendered schema has run, on any database, it runs again after any insertions and
deletions of rows: every statement succeeds, and the database is left as it is. Entities may
share a name or have names that differ in case alone. -/
theorem run_render_again {schema : Schema} (run : RunsOnly schema) {database after : Database}
    {reports : List (Script.StatementReport Script.Outcome)}
    (ran : Script.run execute (render schema) database = (.ok reports, after))
    {changes : List String} (changesRows : ∀ text ∈ changes, ChangesRows text) :
    ∃ again, Script.run execute (render schema) (executeAll changes after) =
        (.ok again, executeAll changes after) ∧
      again.map Script.StatementReport.statement = statements (render schema) := by
  have conditional : ∀ text ∈ statements (render schema), IsConditional text := by
    rw [statements_render_eq fun entity member => (run.atoms member).isStatement]
    exact List.forall_mem_map.2 fun entity member => (run.atoms member).isConditional
  obtain ⟨outcomes, succeeds, -⟩ := Script.runFrom_eq_ok_iff.1 ran
  obtain ⟨-, settled⟩ := settled_of_succeeds conditional succeeds
  obtain ⟨outcomesAgain, succeedsAgain⟩ := exists_succeeds_of_settled fun text member =>
    (settled text member).of_keeps (.executeAll changesRows after)
  exact ⟨_, Script.runFrom_of_succeeds succeedsAgain 0, succeedsAgain.map_statement_reportsFrom 0⟩

/-- Three entities for two tables, since the names of two differ in case alone. -/
def repeatedSchema : Schema :=
  { entities := [.ofNames "Item" ["id", "name"], .ofNames "Order" ["id", "item_id"],
      .ofNames "ITEM" ["label"]]
    relationships :=
      [{ fromTable := "Order", fromColumn := "item_id", toTable := "Item", toColumn := "id" }] }

/-- Changes of rows, in any letters, of which the last one finds no table. -/
def rowChanges : List String :=
  ["INSERT INTO items (id, name) VALUES (1, 'a'), (2, 'b')", "insert into Orders values (1, 2)",
    "DELETE FROM ORDERS", "DELETE FROM missing"]

/-- A schema whose two entities give one table runs, and runs again after changes of rows. -/
theorem run_render_again_repeated :
    RunsOnly repeatedSchema ∧ (∀ text ∈ rowChanges, ChangesRows text) ∧
      ∃ reports after, Script.run execute (render repeatedSchema) {} = (.ok reports, after) ∧
        ∃ again, Script.run execute (render repeatedSchema) (executeAll rowChanges after) =
            (.ok again, executeAll rowChanges after) ∧
          again.map Script.StatementReport.statement = statements (render repeatedSchema) := by
  have run : RunsOnly repeatedSchema := by decide +kernel
  have changes : ∀ text ∈ rowChanges, ChangesRows text := by decide +kernel
  have leaving : ∀ entity ∈ repeatedSchema.entities,
      ∀ relationship ∈ repeatedSchema.relationshipsFrom entity.name,
        ∃ column ∈ entity.attributes, column.name = relationship.fromColumn := by
    decide +kernel
  have tables : ∀ entity ∈ repeatedSchema.entities,
      nameIn? (pluralize entity.name) = some (pluralize entity.name) ∧
        isReserved (pluralize entity.name) = false := by
    decide +kernel
  have columns : ∀ entity ∈ repeatedSchema.entities, entity.attributes ≠ [] ∧
      (∀ column ∈ entity.attributes, (nameIn? column.name).isSome = true) ∧
        Fit (entity.attributes.map columnName) := by
    decide +kernel
  have endpoints : ∀ relationship ∈ repeatedSchema.relationships,
      (nameIn? (pluralize relationship.toTable)).isSome = true ∧
        (nameIn? relationship.toColumn).isSome = true := by
    decide +kernel
  have accepted : ∀ entity ∈ repeatedSchema.entities,
      Accepted entity (repeatedSchema.relationshipsFrom entity.name) := by
    intro entity member
    obtain ⟨nonempty, named, fit⟩ := columns entity member
    exact ⟨⟨_, tables entity member⟩, nonempty, named, fun relationship isLeaving =>
      endpoints relationship (List.mem_filter.1 isLeaving).1, fit⟩
  obtain ⟨reports, after, ran, -⟩ := run_render_of_accepted
    (fun entity member => (accepted entity member).atoms (leaving entity member)) accepted {}
  exact ⟨run, changes, reports, after, ran, run_render_again run ran changes⟩

end Rendered

end Database

end SchemaLoom
