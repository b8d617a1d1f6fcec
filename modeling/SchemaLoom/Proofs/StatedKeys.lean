import SchemaLoom.Database.Description
import SchemaLoom.Proofs.Effects

/-!
# The foreign keys that a definition states

The clauses of a table definition state relationships one after the other: a reference of
the whole table from the column that it lists, any other from the column declared last. Each
becomes a foreign key in front of those before it, so the created table is described with
the relationship first that its definition states last.
-/

namespace SchemaLoom

open Database in
/-- Relationships that differ at most in the case of the column that they leave. -/
def Relationship.SameButCase (first second : Relationship) : Prop :=
  sameName first.fromColumn second.fromColumn = true ∧
    first = { second with fromColumn := first.fromColumn }

namespace Database

namespace Clause

/-- Whether a clause refers to another table. -/
def isReference : Clause -> Bool
  | reference _ _ _ _ => true
  | _ => false

/-- Whether a clause that refers to another table does so from one column to one column that
it names. -/
def IsSingle : Clause -> Prop
  | reference columns _ targets _ => (∀ names ∈ columns, names.length = 1) ∧ targets.length = 1
  | _ => True

instance : DecidablePred IsSingle
  | reference _ _ _ _ => inferInstanceAs (Decidable (_ ∧ _))
  | column _ _ | notNull | default _ | primaryKey _ _ _ | unique _ => .isTrue trivial

/-- The relationship that a clause states about a table, if it is a reference. Without a
column of its own it leaves the column declared last. -/
def relationship? (table last : String) : Clause -> Option Relationship
  | reference columns target targets _ =>
      some
        { fromTable := table
          fromColumn := (columns.bind List.head?).getD last
          toTable := target.name
          toColumn := targets.headD "" }
  | _ => none

/-- The column declared last after a clause. -/
def lastAfter (last : String) : Clause -> String
  | column name _ => name
  | _ => last

end Clause

/-- The relationships that clauses state about a table, in order. -/
def statedBy (table : String) : String -> List Clause -> List Relationship
  | _, [] => []
  | last, clause :: clauses =>
      (clause.relationship? table last).toList ++ statedBy table (clause.lastAfter last) clauses

/-- The relationships that a definition states about a table, in order. -/
def TableDefinition.relationships (definition : TableDefinition) (table : String) :
    List Relationship :=
  statedBy table "" definition.clauses

/-- Each reference states one relationship. -/
theorem length_statedBy (table last : String) (clauses : List Clause) :
    (statedBy table last clauses).length = clauses.countP Clause.isReference := by
  induction clauses generalizing last with
  | nil => rfl
  | cons clause clauses inductionHypothesis =>
      rw [statedBy, List.length_append, inductionHypothesis, List.countP_cons]
      cases clause <;> simp [Clause.relationship?, Clause.isReference, Nat.add_comm]

namespace Table

variable {table next : Table} {asked last : String} {stated : List Relationship}

/-- The names of the columns of a table. -/
def names (table : Table) : List String :=
  table.columns.map Column.name

/-- The name of a column is the one at its position, or empty where there is none. -/
theorem columnName_eq (table : Table) (position : Nat) :
    table.columnName position = table.names[position]?.getD "" := by
  rw [columnName, names, List.getElem?_map]

/-- Whether a foreign key is one of columns of a table and is described as a relationship. -/
def Describes (table : Table) (asked : String) (key : ForeignKey) (stated : Relationship) : Prop :=
  (∀ position ∈ key.columns, position < table.names.length) ∧
    ∃ described, table.relationship? asked key = some described ∧ described.SameButCase stated

/-- More columns behind those that a key concerns do not change how it is described. -/
theorem Describes.extend {key : ForeignKey} {relationship : Relationship} {added : List String}
    (describes : table.Describes asked key relationship)
    (names : next.names = table.names ++ added) : next.Describes asked key relationship := by
  obtain ⟨within, described, isDescribed, same⟩ := describes
  refine ⟨fun position member => ?_, described, ?_, same⟩
  · rw [names, List.length_append]
    exact Nat.lt_add_right _ (within position member)
  · rw [← isDescribed, Table.relationship?, Table.relationship?]
    split
    · rename_i column target columns targets
      have inside : column < table.names.length := within column (by simp [columns])
      rw [columnName_eq, columnName_eq, names, List.getElem?_append_left inside]
    · rfl

/-- A table whose column declared last has a name, and whose foreign keys are described, from
the last one to the first, as given relationships. -/
structure Follows (table : Table) (asked last : String) (stated : List Relationship) : Prop where
  last : table.names.getLast? = some last
  keys : List.Forall₂ (table.Describes asked) table.foreignKeys.reverse stated

section Clauses

/-- What the clauses that are neither columns nor references leave as it is. -/
def outline (table : Table) : List String × List ForeignKey :=
  (table.names, table.foreignKeys)

/-- A change of the last column that keeps its name keeps the outline. -/
theorem outline_changeLast {change : Column -> Column}
    (same : ∀ column, (change column).name = column.name) :
    (table.changeLast change).outline = table.outline := by
  refine Prod.ext (List.ext_getElem? fun position => ?_) rfl
  rw [outline, outline, names, names, changeLast, List.getElem?_map, List.getElem?_map,
    List.getElem?_modify]
  cases table.columns[position]? with
  | none => rfl
  | some column =>
      rw [Option.map_some]
      split
      · exact congrArg some (same column)
      · rfl

/-- A key leads from the column that it lists, in the case in which the table has it, to the
column that it names. -/
theorem describes_of_sameName {position : Nat} {name target targetColumn : String}
    {onDelete : Action} (inside : position < table.names.length)
    (same : sameName (table.columnName position) name = true) :
    table.Describes asked
      { columns := [position], target, targets := [targetColumn], onDelete }
      { fromTable := asked, fromColumn := name, toTable := target, toColumn := targetColumn } :=
  ⟨List.forall_mem_singleton.2 inside, _, rfl, same, rfl⟩

/-- A key of one column refers to a position at which that name stands. -/
theorem referring_single {columns : List Nat} {name : String}
    (found : table.referring [name] = .ok columns) :
    ∃ position, columns = [position] ∧ position < table.names.length ∧
      sameName (table.columnName position) name = true := by
  obtain ⟨position, isPosition, found⟩ := exists_of_bind_eq_ok found
  cases found
  dsimp only at isPosition
  cases isFound : table.position? name with
  | none =>
      rw [isFound] at isPosition
      cases isPosition
  | some index =>
      rw [isFound] at isPosition
      cases isPosition
      obtain ⟨inside, isNamed, -⟩ := List.findIdx?_eq_some_iff_getElem.1 isFound
      refine ⟨position, rfl, by simpa [names] using inside, ?_⟩
      rwa [columnName, List.getElem?_eq_getElem inside]

namespace Follows

variable {clause : Clause} {clauses : List Clause}

/-- Only the names of the columns and the foreign keys of a table count. -/
theorem of_outline (follows : table.Follows asked last stated)
    (same : next.outline = table.outline) : next.Follows asked last stated := by
  obtain ⟨names, keys⟩ := Prod.mk.inj same
  refine ⟨names ▸ follows.last, ?_⟩
  rw [keys]
  exact follows.keys.imp fun _ _ describes =>
    describes.extend (names.trans (List.append_nil _).symm)

/-- One more key stands in front of the others, and its relationship behind the others. -/
theorem addKey {key : ForeignKey} {relationship : Relationship}
    (follows : table.Follows asked last stated)
    (describes : table.Describes asked key relationship) :
    ({ table with foreignKeys := key :: table.foreignKeys } : Table).Follows asked last
      (stated ++ [relationship]) where
  last := follows.last
  keys := by
    rw [List.reverse_cons]
    exact List.rel_append follows.keys (.cons describes .nil)

/-- A new column states no relationship. -/
theorem addColumn {name type : String} (follows : table.Follows asked last stated) :
    ({ table with columns := table.columns ++ [{ name, type }] } : Table).Follows asked name
      stated := by
  have names : ({ table with columns := table.columns ++ [{ name, type }] } : Table).names =
      table.names ++ [name] := List.map_append
  exact ⟨by rw [names, List.getLast?_concat],
    follows.keys.imp fun _ _ describes => describes.extend names⟩

/-- A reference states the relationship that its clause writes. -/
theorem addReference {columns : Option (List String)} {target : Mention} {targets : List String}
    {onDelete : Action} (follows : table.Follows asked last stated)
    (single : (Clause.reference columns target targets onDelete).IsSingle)
    (added : table.addReference columns target targets onDelete = .ok next) :
    next.Follows asked last (stated ++
      ((Clause.reference columns target targets onDelete).relationship? asked last).toList) := by
  obtain ⟨ownColumn, ownTarget⟩ := single
  obtain ⟨targetColumn, rfl⟩ := List.length_eq_one_iff.1 ownTarget
  cases columns with
  | none =>
      obtain rfl := Except.ok.inj added
      have nonempty : table.names ≠ [] := by
        intro empty
        have ending := follows.last
        rw [empty] at ending
        cases ending
      have isLast : table.columnName table.last = last := by
        have ending := follows.last
        rw [List.getLast?_eq_getElem?] at ending
        rw [columnName_eq, Table.last, ← List.length_map Column.name, ← names, ending]
        rfl
      refine follows.addKey (describes_of_sameName ?_ (isLast ▸ sameName_self _))
      rw [Table.last, ← List.length_map Column.name, ← names]
      exact Nat.sub_one_lt (mt List.length_eq_zero_iff.1 nonempty)
  | some names =>
      obtain ⟨name, rfl⟩ := List.length_eq_one_iff.1 (ownColumn names rfl)
      obtain ⟨positions, found, rfl⟩ := exists_of_map_eq_ok added
      obtain ⟨position, rfl, inside, same⟩ := referring_single found
      exact follows.addKey (describes_of_sameName inside same)

/-- The step: a clause adds the relationship that it states. -/
theorem addClause (follows : table.Follows asked last stated) (single : clause.IsSingle)
    (added : table.addClause clause = .ok next) :
    next.Follows asked (clause.lastAfter last)
      (stated ++ (clause.relationship? asked last).toList) := by
  have unchanged (other : clause.relationship? asked last = none)
      (same : clause.lastAfter last = last) (outline : next.outline = table.outline) :
      next.Follows asked (clause.lastAfter last)
        (stated ++ (clause.relationship? asked last).toList) := by
    rw [other, same, Option.toList_none, List.append_nil]
    exact follows.of_outline outline
  cases clause with
  | column name type =>
      rw [addClause_column_ok added]
      exact (List.append_nil stated).symm ▸ follows.addColumn
  | reference columns target targets onDelete => exact follows.addReference single added
  | notNull =>
      cases added
      exact unchanged rfl rfl (outline_changeLast fun _ => rfl)
  | default value =>
      cases added
      exact unchanged rfl rfl (outline_changeLast fun _ => rfl)
  | primaryKey columns descending automatic =>
      obtain ⟨primaryKey, rowKey, indexes, rfl⟩ := addPrimaryKey_ok added
      exact unchanged rfl rfl rfl
  | unique columns =>
      obtain ⟨indexes, rfl⟩ := addClause_unique_ok added
      exact unchanged rfl rfl rfl

/-- The run: clauses add the relationships that they state, in order. -/
theorem foldlM_addClause (follows : table.Follows asked last stated)
    (single : ∀ clause ∈ clauses, clause.IsSingle)
    (added : clauses.foldlM Table.addClause table = .ok next) :
    ∃ final, next.Follows asked final (stated ++ statedBy asked last clauses) := by
  induction clauses generalizing table last stated with
  | nil =>
      cases added
      exact ⟨last, by rwa [statedBy, List.append_nil]⟩
  | cons clause clauses inductionHypothesis =>
      obtain ⟨singleHere, singleLater⟩ := List.forall_mem_cons.1 single
      rw [List.foldlM_cons] at added
      obtain ⟨middle, here, later⟩ := exists_of_bind_eq_ok added
      rw [statedBy, ← List.append_assoc]
      exact inductionHypothesis (follows.addClause singleHere here) singleLater later

end Follows

end Clauses

/-- Foreign keys that are described as given relationships leave out none of them. -/
theorem filterMap_relationship? {keys : List ForeignKey}
    (describe : List.Forall₂ (table.Describes asked) keys stated) :
    List.Forall₂ Relationship.SameButCase (keys.filterMap (table.relationship? asked)) stated := by
  induction describe with
  | nil => exact .nil
  | cons here others inductionHypothesis =>
      obtain ⟨-, described, isDescribed, same⟩ := here
      rw [List.filterMap_cons_some isDescribed]
      exact .cons same inductionHypothesis

/-- A table that is built from a definition that begins with a column is described with the
relationships that the definition states, the last one first. -/
theorem relationships_ofDefinition {definition : TableDefinition} {name type : String}
    {clauses : List Clause} (begins : definition.clauses = .column name type :: clauses)
    (single : ∀ clause ∈ definition.clauses, clause.IsSingle)
    (built : ofDefinition definition = .ok table) (asked : String) :
    List.Forall₂ Relationship.SameButCase (table.describe asked).relationships.reverse
      (definition.relationships asked) := by
  obtain ⟨extended, added, final⟩ := exists_of_bind_eq_ok built
  obtain rfl : extended = table := by
    split at final
    · cases final
    · exact Except.ok.inj final
  rw [begins] at single added
  obtain ⟨first, here, others⟩ := exists_of_bind_eq_ok ((List.foldlM_cons ..).symm.trans added)
  obtain rfl := addClause_column_ok here
  have start : ({ name := definition.table.name
                  columns := [{ name, type := typeReadBack type }] } : Table).Follows asked name [] :=
    ⟨rfl, .nil⟩
  obtain ⟨last, follows⟩ := start.foldlM_addClause (List.forall_mem_cons.1 single).2 others
  rw [describe, ← List.filterMap_reverse, TableDefinition.relationships, begins]
  exact filterMap_relationship? follows.keys

end Table

end Database

end SchemaLoom
