import SchemaLoom.Proofs.Shapes
import SchemaLoom.Proofs.Successes

/-!
# What statements do

A statement that is refused leaves the tables as they are. One that succeeds creates a
table, drops one, or changes rows and numbers only, after which no row lacks the one it
refers to; a creation or a drop may also find that there is nothing to do.
-/

namespace SchemaLoom

namespace Database

namespace Table

variable {table : Table}

section Clauses

variable {extended : Table}

/-- A column that is added stands behind the others. -/
theorem addClause_column_ok {name type : String}
    (added : table.addClause (.column name type) = .ok extended) :
    extended = { table with columns := table.columns ++ [{ name, type := typeReadBack type }] } := by
  rw [addClause] at added
  split at added
  · cases added
  · split at added
    · cases added
    · exact (Except.ok.inj added).symm

/-- An index changes nothing but the indexes. -/
theorem exists_addIndex (table : Table) (columns : List Nat) (primary : Bool) :
    ∃ indexes, table.addIndex columns primary = { table with indexes } := by
  rw [addIndex]
  split <;> exact ⟨_, rfl⟩

/-- A primary key changes nothing but the keys that rows are found by. -/
theorem addPrimaryKey_ok {listed : Option (List Mention)} {descending automatic : Bool}
    (added : table.addPrimaryKey listed descending automatic = .ok extended) :
    ∃ primaryKey rowKey indexes, extended = { table with primaryKey, rowKey, indexes } := by
  rw [addPrimaryKey] at added
  split at added
  · cases added
  · split at added
    · cases added
      exact ⟨_, _, _, rfl⟩
    · split at added
      · cases added
      · obtain ⟨columns, -, rfl⟩ := exists_of_map_eq_ok added
        obtain ⟨indexes, same⟩ := exists_addIndex { table with primaryKey := some columns } columns true
        exact ⟨_, _, indexes, same⟩

/-- A unique constraint changes nothing but the indexes. -/
theorem addClause_unique_ok {columns : Option (List Mention)}
    (added : table.addClause (.unique columns) = .ok extended) :
    ∃ indexes, extended = { table with indexes } := by
  obtain ⟨positions, -, rfl⟩ := exists_of_map_eq_ok added
  exact exists_addIndex table positions false

/-- A reference puts one foreign key in front of the others. -/
theorem addReference_ok {columns : Option (List String)} {target : Mention} {targets : List String}
    {onDelete : Action} (added : table.addReference columns target targets onDelete = .ok extended) :
    ∃ key, extended = { table with foreignKeys := key :: table.foreignKeys } := by
  unfold addReference at added
  split at added
  · split at added
    · cases added
    · exact ⟨_, (Except.ok.inj added).symm⟩
  · split at added
    · cases added
    · obtain ⟨positions, -, rfl⟩ := exists_of_map_eq_ok added
      exact ⟨_, rfl⟩

/-- What a clause leaves as it is while it adds to the columns and keys of a table. -/
def heading (table : Table) : String × List (List Value) :=
  (table.name, table.rows)

/-- The step: a clause leaves the name of a table and its rows. -/
theorem heading_addClause {clause : Clause} (added : table.addClause clause = .ok extended) :
    extended.heading = table.heading := by
  cases clause with
  | column name type => rw [addClause_column_ok added, heading, heading]
  | notNull =>
      cases added
      rfl
  | default value =>
      cases added
      rfl
  | primaryKey columns descending automatic =>
      obtain ⟨primaryKey, rowKey, indexes, rfl⟩ := addPrimaryKey_ok added
      rfl
  | unique columns =>
      obtain ⟨indexes, rfl⟩ := addClause_unique_ok added
      rfl
  | reference columns target targets onDelete =>
      obtain ⟨key, rfl⟩ := addReference_ok added
      rfl

end Clauses

/-- A table is built under the name that its definition gives, without rows. -/
theorem heading_ofDefinition {definition : TableDefinition}
    (built : ofDefinition definition = .ok table) : table.heading = (definition.table.name, []) := by
  obtain ⟨extended, added, final⟩ := exists_of_bind_eq_ok built
  have same : extended = table := by
    split at final
    · cases final
    · exact Except.ok.inj final
  subst same
  clear built final
  have start : (definition.table.name, []) =
      ({ name := definition.table.name, columns := [] } : Table).heading := rfl
  rw [start]
  generalize ({ name := definition.table.name, columns := [] } : Table) = first at added ⊢
  generalize definition.clauses = clauses at added
  induction clauses generalizing first with
  | nil =>
      cases added
      rfl
  | cons clause clauses inductionHypothesis =>
      rw [List.foldlM_cons] at added
      obtain ⟨next, here, others⟩ := exists_of_bind_eq_ok added
      rw [inductionHypothesis next others, heading_addClause here]

/-- Putting a row into its place changes the rows only. -/
theorem unfilled_place (row : List Value) : (table.place row).unfilled = table.unfilled := by
  rw [place]
  split <;> rfl

/-- A row that is inserted changes the rows only. -/
theorem unfilled_insertRow {filled : Table} {used : Option Int} {row : List Value}
    (inserted : table.insertRow used row = .ok filled) : filled.unfilled = table.unfilled := by
  obtain ⟨keyed, -, checked⟩ := exists_of_bind_eq_ok inserted
  dsimp only at checked
  split at checked
  · cases checked
  · split at checked
    · split at checked
      · cases checked
      · split at checked
        · cases checked
        · cases checked
          exact unfilled_place _
    · split at checked
      · cases checked
      · cases checked
        exact unfilled_place _

/-- Rows are all that an insertion adds to a table. -/
theorem unfilled_insertRows {filled : Table} {used : Option Int} {rows : List (List Value)}
    (inserted : table.insertRows used rows = .ok filled) : filled.unfilled = table.unfilled := by
  induction rows generalizing table used with
  | nil =>
      cases inserted
      rfl
  | cons row rows inductionHypothesis =>
      obtain ⟨next, here, others⟩ := exists_of_bind_eq_ok inserted
      rw [inductionHypothesis others, unfilled_insertRow here]

end Table

variable {database after : Database}

/-- What a statement that succeeds does to the tables. -/
inductive Effect (database : Database) : Statement -> Database -> Prop where
  | present {definition : TableDefinition} (free : isReserved definition.table.name = false)
      (found : (database.table? definition.table.name).isSome = true) :
      Effect database (.create definition) database
  | created {definition : TableDefinition} {table : Table}
      (free : isReserved definition.table.name = false)
      (missing : database.table? definition.table.name = none)
      (built : Table.ofDefinition definition = .ok table) :
      Effect database (.create definition) (database.addTable table)
  | absent {mention : Mention} {onlyIfPresent : Bool}
      (missing : database.table? mention.name = none) :
      Effect database (.drop mention onlyIfPresent) database
  | dropped {mention : Mention} {onlyIfPresent : Bool} {table : Table} {left : Database}
      (found : database.table? mention.name = some table) (own : isReserved table.name = false)
      (released : database.released table = .ok left) :
      Effect database (.drop mention onlyIfPresent)
        ((left.without table.name).forgetNumber table.name)
  | cleared {mention : Mention} {table : Table} {after : Database}
      (found : database.table? mention.name = some table)
      (emptied : database.emptied table = .ok after) :
      Effect database (.delete mention) after
  | inserted {mention : Mention} {columns : Option (List String)} {rows : List (List Term)}
      {after : Database} (sameShape : Distinct database.tables -> after.shape = database.shape)
      (complete : after.hasOrphan = false) :
      Effect database (.insert mention columns rows) after
  | selected {items : List Selected} {table : Option Mention} :
      Effect database (.select items table) database
  | listed {rows : List (List Term)} : Effect database (.values rows) database

/-- What a statement answers: that it changed the database, rows of an unchanged one, or
a problem that leaves the tables as they are. -/
inductive Answers (database : Database) (statement : Statement) :
    Except Problem Answer -> Database -> Prop where
  | changed {after : Database} (effect : Effect database statement after) :
      Answers database statement (.ok .changed) after
  | given {columns : List String} {rows : List (List Value)}
      (effect : Effect database statement database) :
      Answers database statement (.ok (.rows columns rows)) database
  | refused {problem : Problem} {after : Database} (same : after.tables = database.tables) :
      Answers database statement (.error problem) after

/-- A database that passes as complete is left as it is and has no orphan. -/
theorem complete_ok (complete : database.complete = .ok after) :
    after = database ∧ database.hasOrphan = false := by
  rw [Database.complete] at complete
  split at complete
  · cases complete
  · rename_i noOrphan
    exact ⟨(Except.ok.inj complete).symm, by simpa using noOrphan⟩

/-- Where the rows of a table are deleted, others may be deleted with them, and no row is
left that lacks the one it refers to. -/
theorem emptied_ok {table : Table} (emptied : database.emptied table = .ok after) :
    after.tables = (database.deleteRows table.name table.rows.length).2.tables ∧
      after.hasOrphan = false := by
  obtain ⟨rfl, noOrphan⟩ := complete_ok emptied
  exact ⟨rfl, noOrphan⟩

/-- Emptying a table only takes rows away. -/
theorem thins_emptied (distinct : Distinct database.tables) {table : Table}
    (emptied : database.emptied table = .ok after) : database.Thins after := by
  have deleted := thins_deleteRows distinct table.name table.rows.length
  rw [Thins] at deleted ⊢
  rwa [(emptied_ok emptied).1]

/-- Releasing a table only takes rows away. -/
theorem thins_released (distinct : Distinct database.tables) {table : Table}
    (released : database.released table = .ok after) : database.Thins after := by
  rw [Database.released] at released
  split at released
  · cases released
    exact .refl database
  · split at released
    · cases released
    · exact thins_emptied distinct released

/-- A creation that succeeds found the table or built it. -/
theorem create_ok {definition : TableDefinition}
    (created : database.create definition = .ok after) :
    Effect database (.create definition) after := by
  rw [create] at created
  split at created
  · cases created
  · rename_i free
    split at created
    · rename_i found
      split at created
      · split at created
        · cases created
        · cases created
          exact .present (by simpa using free) found
      · cases created
    · rename_i missing
      obtain ⟨table, built, rfl⟩ := exists_of_map_eq_ok created
      exact .created (by simpa using free) (by simpa using missing) built

/-- A drop that succeeds found no table, or one of the user's which was released first. -/
theorem drop_ok {mention : Mention} {onlyIfPresent : Bool}
    (dropped : database.drop mention onlyIfPresent = .ok after) :
    Effect database (.drop mention onlyIfPresent) after := by
  rw [drop] at dropped
  split at dropped
  · rename_i missing
    split at dropped
    · cases dropped
      exact .absent missing
    · cases dropped
  · rename_i table found
    split at dropped
    · cases dropped
    · rename_i own
      obtain ⟨left, released, rfl⟩ := exists_of_map_eq_ok dropped
      exact .dropped found (by simpa using own) released

/-- A table that is required is there. -/
theorem required_ok {mention : Mention} {table : Table}
    (found : database.required mention = .ok table) :
    database.table? mention.name = some table := by
  rw [required] at found
  split at found
  · rename_i isTable
    rw [isTable, Except.ok.inj found]
  · cases found

/-- Clearing succeeds by emptying the table. -/
theorem clear_ok {mention : Mention} (cleared : database.clear mention = .ok after) :
    Effect database (.delete mention) after := by
  obtain ⟨table, found, emptied⟩ := exists_of_bind_eq_ok cleared
  split at emptied
  · cases emptied
  · exact .cleared (required_ok found) emptied

/-- Rows that can be inserted go into a table that is there. -/
theorem insertion_ok {mention : Mention} {columns : Option (List String)}
    {rows : List (List Term)} {table : Table} {added : List (List Value)}
    (found : database.insertion mention columns rows = .ok (table, added)) :
    database.table? mention.name = some table := by
  unfold insertion at found
  cases uneven : unevenAtOnce rows with
  | true =>
      rw [uneven] at found
      cases found
  | false =>
      rw [uneven] at found
      obtain ⟨looked, isTable, later⟩ := exists_of_bind_eq_ok found
      obtain ⟨positions, -, later⟩ := exists_of_bind_eq_ok later
      obtain ⟨values, -, later⟩ := exists_of_bind_eq_ok later
      cases miscounted : ((values.head?.map List.length).getD 0 != positions.length) with
      | true =>
          simp only [miscounted] at later
          cases later
      | false =>
          simp only [miscounted] at later
          cases problem : database.insertionProblem? looked values.length with
          | some problem =>
              simp only [problem] at later
              cases later
          | none =>
              simp only [problem] at later
              cases later
              exact required_ok isTable

/-- A refusal leaves the tables as they are. -/
theorem tables_afterRefusal (database : Database) (cause : Cause) :
    (database.afterRefusal cause).tables = database.tables := by
  rw [afterRefusal.eq_def]
  split <;> rfl

/-- What a change of the database that may fail answers, given the effect of a success. -/
theorem change_answers {statement : Statement} {result : Except Problem Database}
    {answer : Except Problem Answer}
    (answers : (match result with
      | .ok changed => (.ok .changed, changed)
      | .error problem => (.error problem, database.afterRefusal problem.cause)) = (answer, after))
    (effect : result = .ok after -> Effect database statement after) :
    Answers database statement answer after := by
  cases result with
  | ok changed =>
      cases answers
      exact .changed (effect rfl)
  | error problem =>
      cases answers
      exact .refused (tables_afterRefusal database problem.cause)

/-- An insertion changes the rows of a table and leaves no orphan, or it is refused. -/
theorem insert_answers {mention : Mention} {columns : Option (List String)}
    {rows : List (List Term)} {answer : Except Problem Answer}
    (inserted : database.insert mention columns rows = (answer, after)) :
    Answers database (.insert mention columns rows) answer after := by
  unfold insert at inserted
  split at inserted
  · cases inserted
    exact .refused rfl
  · rename_i table added found
    dsimp only at inserted
    split at inserted
    · cases inserted
      exact .refused rfl
    · rename_i filled placed
      split at inserted
      · cases inserted
        exact .refused rfl
      · rename_i final complete
        cases inserted
        obtain ⟨rfl, noOrphan⟩ := complete_ok complete
        refine .changed (.inserted (fun distinct => ?_) noOrphan)
        have replaced := shape_replace distinct (table?_some (insertion_ok found)).1
          (Table.unfilled_insertRows placed)
        split
        · refine (shape_keepNumber ?_ _ _).trans replaced
          exact distinct_shape.1 (replaced ▸ distinct_shape.2 distinct)
        · exact replaced

/-- A statement answers with what it says, and with nothing else. -/
theorem perform_answers {statement : Statement} {answer : Except Problem Answer}
    (performed : database.perform statement = (answer, after)) :
    Answers database statement answer after := by
  have gives {result : Except Problem Answer} {asking : Statement}
      (effect : Effect database asking database)
      (noChange : ∀ given, result = .ok given -> given ≠ .changed) :
      Answers database asking result database := by
    cases result with
    | error problem => exact .refused rfl
    | ok given =>
        cases given with
        | changed => exact absurd rfl (noChange _ rfl)
        | rows columns rows => exact .given effect
  cases statement with
  | create definition => exact change_answers performed create_ok
  | drop mention onlyIfPresent => exact change_answers performed drop_ok
  | delete mention => exact change_answers performed clear_ok
  | insert mention columns rows => exact insert_answers performed
  | select items mention =>
      cases performed
      refine gives .selected fun given found => ?_
      obtain ⟨table, -, later⟩ := exists_of_bind_eq_ok found
      cases unnamed : table.isNone && items.any Selected.isEverything with
      | true =>
          simp only [unnamed] at later
          cases later
      | false =>
          simp only [unnamed] at later
          obtain ⟨columns, -, rows⟩ := exists_of_bind_eq_ok later
          cases rows
          exact Answer.noConfusion
  | values rows =>
      rw [perform] at performed
      split at performed
      · cases performed
        exact .refused rfl
      · cases performed
        refine gives .listed fun given found => ?_
        obtain ⟨values, -, rfl⟩ := exists_of_map_eq_ok found
        exact Answer.noConfusion

/-- A statement that succeeds can be read, and does what it says. -/
theorem execute_ok {text : String} {outcome : Script.Outcome}
    (executed : execute text database = (.ok outcome, after)) :
    ∃ statement, Statement.ofText text = .ok statement ∧ Effect database statement after := by
  rw [execute] at executed
  split at executed
  · cases executed
  · rename_i statement read
    split at executed
    · cases executed
    · rename_i answer left performed
      obtain rfl := (Prod.mk.inj executed).2
      refine ⟨statement, read, ?_⟩
      cases perform_answers performed with
      | changed effect => exact effect
      | given effect => exact effect

/-- A statement that fails leaves the tables as they are. -/
theorem execute_error {text : String} {error : Script.SinkError Failure}
    (executed : execute text database = (.error error, after)) :
    after.tables = database.tables := by
  rw [execute] at executed
  split at executed
  · cases executed
    rfl
  · rename_i statement read
    split at executed
    · rename_i problem left performed
      obtain rfl := (Prod.mk.inj executed).2
      cases perform_answers performed with
      | refused same => exact same
    · rename_i answer left performed
      obtain ⟨failed, rfl⟩ := Prod.mk.inj executed
      cases perform_answers performed with
      | changed effect => cases failed
      | given effect => rfl

end Database

end SchemaLoom
