import Mathlib.Data.List.Pairwise
import SchemaLoom.Database.Description
import SchemaLoom.Proofs.RenderedTokens
import SchemaLoom.Proofs.Shapes

/-!
# Tables built from columns with inferred types

The clauses of a column add one attribute to a table, unless the table has a column of
that name already. Since its columns come one after the other, an index or a key that is
there before does not concern the column that is added. Foreign keys then change nothing
about the attributes.
-/

namespace SchemaLoom

/-- The attribute of a name that is constrained as another name suggests. -/
def Inference.attribute (inference : Inference) (name : String) (primaryKey : Bool) : Attribute :=
  { name
    columnType := inference.columnType
    primaryKey
    unique := inference.unique
    notNull := inference.notNull }

namespace Database

namespace Table

/-- The columns of a table as attributes. -/
def attributes (table : Table) : List Attribute :=
  table.columns.zipIdx.map fun (column, position) => table.attributeOf column position

/-- A table with one more column, which is constrained like an attribute. -/
def grow (table : Table) (added : Attribute) : Table :=
  { table with
    columns := table.columns ++
      [{ name := added.name, type := added.columnType.spelling, notNull := added.notNull }]
    primaryKey := if added.primaryKey then some [table.columns.length] else table.primaryKey
    rowKey :=
      if added.primaryKey then some { column := table.columns.length, automatic := false }
      else table.rowKey
    indexes := (if added.unique then [{ columns := [table.columns.length], primary := false }]
      else []) ++ table.indexes }

/-- An empty table of certain attributes. No index or key exceeds its columns, there is a
primary key if an attribute holds it, and it gives no numbers by itself. -/
structure Holds (table : Table) (name : String) (attributes : List Attribute) : Prop where
  name : table.name = name
  described : table.attributes = attributes
  indexes : ∀ index ∈ table.indexes, ∀ position ∈ index.columns, position < table.columns.length
  primaryKey : ∀ position ∈ table.primaryKey.getD [], position < table.columns.length
  keyed : table.primaryKey.isSome = attributes.any Attribute.primaryKey
  unnumbered : (table.rowKey.map RowKey.automatic).getD false = false
  unfilled : table.rows = []

section Clauses

variable {table : Table}

/-- Clauses that are joined are added one list after the other. -/
theorem foldlM_append {clauses later : List Clause} {middle : Table}
    (first : clauses.foldlM addClause table = .ok middle) :
    (clauses ++ later).foldlM addClause table = later.foldlM addClause middle := by
  rw [List.foldlM_append, first]
  rfl

/-- A clause that fails lets the whole definition fail. -/
theorem foldlM_append_error {clauses : List Clause} {problem : Problem}
    (first : clauses.foldlM addClause table = .error problem) (later : List Clause) :
    (clauses ++ later).foldlM addClause table = .error problem := by
  rw [List.foldlM_append, first]
  rfl

/-- The types that are written are read back as they are. -/
theorem typeReadBack_inferred {type : String} (inferred : type ∈ ["INTEGER", "DATE", "TEXT"]) :
    typeReadBack type = type := by
  revert type
  decide

/-- A column is added where there is room for it and its name is new. -/
theorem addClause_column {name type : String} (room : table.columns.length < columnLimit)
    (missing : table.position? name = none) (inferred : type ∈ ["INTEGER", "DATE", "TEXT"]) :
    table.addClause (.column name type) =
      .ok { table with columns := table.columns ++ [{ name, type }] } := by
  rw [addClause, if_neg (Nat.not_le_of_lt room), missing, typeReadBack_inferred inferred]
  rfl

/-- A column is refused where there is no room for it, or its name is not new. -/
theorem addClause_column_error {name : String}
    (refused : columnLimit ≤ table.columns.length ∨ (table.position? name).isSome)
    (type : String) : ∃ problem, table.addClause (.column name type) = .error problem := by
  rw [addClause]
  split
  · exact ⟨_, rfl⟩
  · rename_i room
    rw [if_pos (refused.resolve_left room)]
    exact ⟨_, rfl⟩

/-- The clause of a constraint, if there is one. -/
def clauseIf (present : Bool) (constraint : Constraint) : List Clause :=
  (if present then [constraint] else []).map Constraint.clause

section Constraints

variable {columns : List Column} {column : Column} {present : Bool}

/-- A primary key of an inferred type orders the rows. -/
theorem foldlM_primaryKey (ending : table.columns = columns ++ [column])
    (keyable : present = true -> column.type = "INTEGER" ∧ table.primaryKey = none) :
    (clauseIf present .primaryKey).foldlM addClause table =
      .ok { table with
        primaryKey := if present then some [columns.length] else table.primaryKey
        rowKey :=
          if present then some { column := columns.length, automatic := false }
          else table.rowKey } := by
  cases present with
  | false => rfl
  | true =>
      obtain ⟨whole, unkeyed⟩ := keyable rfl
      have last : table.last = columns.length := by simp [Table.last, ending]
      have ordered : table.rowKeyColumn? none = some columns.length := by
        simp [rowKeyColumn?, last, ending, whole]
      simp [clauseIf, Constraint.clause, addClause, addPrimaryKey, unkeyed, ordered, Option.filter]

/-- A unique column that stands behind the columns of all indexes has one of its own. -/
theorem foldlM_unique (ending : table.columns = columns ++ [column])
    (below : ∀ index ∈ table.indexes, ∀ position ∈ index.columns, position < columns.length) :
    (clauseIf present .unique).foldlM addClause table =
      .ok { table with
        indexes := (if present then [{ columns := [columns.length], primary := false }] else []) ++
          table.indexes } := by
  cases present with
  | false => rfl
  | true =>
      have last : table.last = columns.length := by simp [Table.last, ending]
      have alone : (table.indexes.any fun index => index.columns == [columns.length]) = false := by
        refine List.any_eq_false.2 fun index isIndex same => ?_
        have member : columns.length ∈ index.columns := by simp [beq_iff_eq.1 same]
        exact Nat.lt_irrefl _ (below index isIndex _ member)
      simp [clauseIf, Constraint.clause, addClause, positions, Except.map, addIndex, last, alone]

/-- A column that needs a value is marked so, wherever the clause is present. -/
theorem foldlM_notNull (ending : table.columns = columns ++ [column])
    (fresh : column.notNull = false) :
    (clauseIf present .notNull).foldlM addClause table =
      .ok { table with columns := columns ++ [{ column with notNull := present }] } := by
  cases present with
  | false =>
      have same : ({ column with notNull := false } : Column) = column := by rw [← fresh]
      rw [same, ← ending]
      rfl
  | true =>
      simp [clauseIf, Constraint.clause, addClause, changeLast, Table.last, ending,
        List.modify_eq_take_drop]

end Constraints

/-- The clauses of a column whose name is new add one attribute. -/
theorem foldlM_column {inference : Inference} {name : String} {primaryKey : Bool}
    (room : table.columns.length < columnLimit) (missing : table.position? name = none)
    (inferred : inference.columnType.spelling ∈ ["INTEGER", "DATE", "TEXT"])
    (below : ∀ index ∈ table.indexes, ∀ position ∈ index.columns, position < table.columns.length)
    (keyable : primaryKey = true ->
      inference.columnType = .integer ∧ table.primaryKey = none) :
    (.column name inference.columnType.spelling ::
        (inference.constraints primaryKey).map Constraint.clause).foldlM addClause table =
      .ok (table.grow (inference.attribute name primaryKey)) := by
  have clauses : (inference.constraints primaryKey).map Constraint.clause =
      clauseIf primaryKey .primaryKey ++ clauseIf inference.unique .unique ++
        clauseIf inference.notNull .notNull := by
    rw [Inference.constraints, List.map_append, List.map_append]
    rfl
  have type : primaryKey = true ->
      inference.columnType.spelling = "INTEGER" ∧ table.primaryKey = none := fun isKey => by
    obtain ⟨integer, unkeyed⟩ := keyable isKey
    exact ⟨congrArg ColumnType.spelling integer, unkeyed⟩
  rw [List.foldlM_cons, addClause_column room missing inferred, clauses, List.append_assoc]
  refine (foldlM_append (foldlM_primaryKey rfl type)).trans ?_
  refine (foldlM_append (foldlM_unique rfl ?_)).trans ?_
  · exact below
  · exact (foldlM_notNull rfl rfl).trans rfl

end Clauses

namespace Holds

variable {table : Table} {name : String} {attributes : List Attribute} {added : Attribute}

/-- The columns of a table have the names of the attributes that it holds. -/
theorem map_name (holds : table.Holds name attributes) :
    table.columns.map Column.name = attributes.map Attribute.name := by
  rw [← holds.described, Table.attributes, List.map_map]
  have names : Attribute.name ∘ (fun (column, position) => table.attributeOf column position) =
      Column.name ∘ Prod.fst := rfl
  rw [names, ← List.map_map, List.zipIdx_map_fst]

/-- A table has one column for each attribute. -/
theorem length_columns (holds : table.Holds name attributes) :
    table.columns.length = attributes.length := by
  rw [← holds.described, Table.attributes, List.length_map, List.length_zipIdx]

/-- A column is found if an attribute has its name. -/
theorem position?_isSome (holds : table.Holds name attributes) (sought : String) :
    (table.position? sought).isSome =
      (attributes.map Attribute.name).any (sameName · sought) := by
  rw [← holds.map_name, List.any_map, position?, List.findIdx?_isSome]
  rfl

/-- A column that stands before the one that is added stays the attribute that it is. -/
theorem attributeOf_grow_before {column : Column} {position : Nat}
    (keyable : added.primaryKey = true -> table.primaryKey = none)
    (before : position < table.columns.length) :
    (table.grow added).attributeOf column position = table.attributeOf column position := by
  have apart : table.columns.length ≠ position := (Nat.ne_of_lt before).symm
  have key : ((table.grow added).primaryKey.getD []).contains position =
      (table.primaryKey.getD []).contains position := by
    rw [Table.grow]
    cases isKey : added.primaryKey with
    | false => rfl
    | true => simp [keyable isKey, apart.symm]
  have unique : ((table.grow added).indexes.any fun index =>
      !index.primary && index.columns == [position]) =
        table.indexes.any fun index => !index.primary && index.columns == [position] := by
    rw [Table.grow]
    cases added.unique <;> simp [apart]
  rw [attributeOf, attributeOf, key, unique]

/-- The column that is added is the attribute that was to be added. -/
theorem attributeOf_grow_last (holds : table.Holds name attributes)
    (normal : added.columnType.IsNormal) :
    (table.grow added).attributeOf
      { name := added.name, type := added.columnType.spelling, notNull := added.notNull }
      table.columns.length = added := by
  have key : ((table.grow added).primaryKey.getD []).contains table.columns.length =
      added.primaryKey := by
    rw [Table.grow]
    cases isKey : added.primaryKey with
    | true => simp
    | false =>
        rw [if_neg Bool.false_ne_true, ← Bool.not_eq_true, List.contains_iff_mem]
        exact fun member => Nat.lt_irrefl _ (holds.primaryKey _ member)
  have unique : ((table.grow added).indexes.any fun index =>
      !index.primary && index.columns == [table.columns.length]) = added.unique := by
    have others : (table.indexes.any fun index =>
        !index.primary && index.columns == [table.columns.length]) = false := by
      refine List.any_eq_false.2 fun index isIndex same => ?_
      rw [Bool.and_eq_true, beq_iff_eq] at same
      have member : table.columns.length ∈ index.columns := by simp [same.2]
      exact Nat.lt_irrefl _ (holds.indexes index isIndex _ member)
    rw [Table.grow]
    cases isUnique : added.unique <;> simp [others]
  have type : ColumnType.ofSpelling added.columnType.spelling = added.columnType := normal
  rw [attributeOf, key, unique, type]

/-- The step of building: one more column whose name is new. -/
theorem grow (holds : table.Holds name attributes)
    (normal : added.columnType.IsNormal)
    (keyable : added.primaryKey = true -> table.primaryKey = none) :
    (table.grow added).Holds name (attributes ++ [added]) where
  name := holds.name
  described := by
    have before : ((table.columns.zipIdx).map fun (column, position) =>
        (table.grow added).attributeOf column position) = attributes := by
      rw [← holds.described, Table.attributes]
      refine List.map_congr_left fun (column, position) member => ?_
      exact attributeOf_grow_before keyable (List.snd_lt_of_mem_zipIdx member)
    have last := attributeOf_grow_last holds normal
    rw [Table.attributes]
    unfold Table.grow at before last ⊢
    dsimp only at before last ⊢
    rw [List.zipIdx_append, List.map_append, before]
    simpa using last
  indexes := by
    intro index member position isPosition
    have longer : (table.grow added).columns.length = table.columns.length + 1 := by simp [Table.grow]
    rw [longer]
    rcases List.mem_append.1 member with isNew | isOld
    · split at isNew
      · obtain rfl := List.mem_singleton.1 isNew
        obtain rfl := List.mem_singleton.1 isPosition
        exact Nat.lt_succ_self _
      · cases isNew
    · exact Nat.lt_succ_of_lt (holds.indexes index isOld position isPosition)
  primaryKey := by
    intro position member
    have longer : (table.grow added).columns.length = table.columns.length + 1 := by simp [Table.grow]
    rw [longer]
    rw [Table.grow] at member
    split at member
    · obtain rfl := List.mem_singleton.1 member
      exact Nat.lt_succ_self _
    · exact Nat.lt_succ_of_lt (holds.primaryKey position member)
  keyed := by
    rw [Table.grow, List.any_append, ← holds.keyed]
    cases isKey : added.primaryKey with
    | false => simp [isKey]
    | true => simp [isKey]
  unnumbered := by
    rw [Table.grow]
    cases added.primaryKey with
    | true => rfl
    | false => exact holds.unnumbered
  unfilled := holds.unfilled

end Holds

end Table

section Columns

variable {table : Table} {name : String} {attributes : List Attribute}

/-- The attribute that a column of an entity becomes, under the name that it is given. -/
def columnAttribute (column : String × Bool) : Attribute :=
  (Inference.ofName column.1).attribute ((lexemeOf column.1).name?.getD "") column.2

/-- Names of which no two are one. -/
def Apart (names : List String) : Prop :=
  names.Pairwise fun first second => sameName first second = false

instance (names : List String) : Decidable (Apart names) :=
  inferInstanceAs (Decidable (List.Pairwise _ _))

/-- Names that the columns of one table can have: no two of them are one, and they are not
more than a table holds. -/
structure Fit (names : List String) : Prop where
  apart : Apart names
  few : names.length ≤ Table.columnLimit

instance (names : List String) : Decidable (Fit names) :=
  decidable_of_iff (Apart names ∧ names.length ≤ Table.columnLimit)
    ⟨fun ⟨apart, few⟩ => ⟨apart, few⟩, fun fit => ⟨fit.apart, fit.few⟩⟩

/-- Names that have room together have room without the later ones. -/
theorem Fit.of_append {names later : List String} (fit : Fit (names ++ later)) : Fit names where
  apart := (List.pairwise_append.1 fit.apart).1
  few := (List.length_append ▸ Nat.le_add_right ..).trans fit.few

/-- One more name fits if there is room for it and it is none of the others. -/
theorem fit_concat_iff {names : List String} (fit : Fit names) (added : String) :
    Fit (names ++ [added]) ↔
      ¬(Table.columnLimit ≤ names.length ∨ names.any (sameName · added)) := by
  have length : (names ++ [added]).length = names.length + 1 := List.length_append
  have apart : Apart (names ++ [added]) ↔ ¬names.any (sameName · added) := by
    have earlier : names.Pairwise fun first second => sameName first second = false := fit.apart
    rw [Apart, List.pairwise_append, and_iff_right earlier]
    simp
  rw [not_or, ← apart, Nat.not_le, ← Nat.succ_le_iff, Nat.succ_eq_add_one, ← length]
  exact ⟨fun both => ⟨both.few, both.apart⟩, fun ⟨few, apart⟩ => ⟨apart, few⟩⟩

instance : Std.Symm fun first second => sameName first second = false :=
  ⟨fun first second different => (sameName_comm second first).trans different⟩

/-- Attributes of which one at most holds the primary key. -/
def SingleKey (attributes : List Attribute) : Prop :=
  attributes.Pairwise fun first second => first.primaryKey = true -> second.primaryKey = false

/-- A column is written as its name and its type, with its constraints as clauses behind. -/
theorem clauses_columnLineOf (column : String × Bool) :
    (columnLineOf column.1 column.2).clauses =
      .column (columnAttribute column).name (Inference.ofName column.1).columnType.spelling ::
        ((Inference.ofName column.1).constraints column.2).map Constraint.clause :=
  rfl

/-- The type of a column that may hold the primary key is the one that orders rows. -/
theorem columnType_ofName_of_isIdLike {written : String}
    (idLike : Inference.isIdLike written = true) :
    (Inference.ofName written).columnType = .integer := by
  rw [Inference.isIdLike] at idLike
  simp [Inference.ofName, idLike]

/-- A flag for the primary key stands at the name of an identifier. -/
theorem isIdLike_of_mem_zip {names : List String} {column : String × Bool}
    (member : column ∈ names.zip (Inference.primaryKeyFlags names)) (isKey : column.2 = true) :
    Inference.isIdLike column.1 = true := by
  induction names with
  | nil => cases member
  | cons name names inductionHypothesis =>
      rw [Inference.primaryKeyFlags] at member
      split at member
      · rename_i idLike
        rw [List.zip_cons_cons] at member
        rcases List.mem_cons.1 member with rfl | later
        · exact idLike
        · obtain ⟨-, unflagged⟩ := List.of_mem_zip later
          obtain ⟨-, -, same⟩ := List.mem_map.1 unflagged
          rw [← same] at isKey
          cases isKey
      · rw [List.zip_cons_cons] at member
        rcases List.mem_cons.1 member with rfl | later
        · cases isKey
        · exact inductionHypothesis later

/-- Of the columns of an entity one at most holds the primary key. -/
theorem singleKey_zip (names : List String) :
    SingleKey ((names.zip (Inference.primaryKeyFlags names)).map columnAttribute) := by
  rw [SingleKey, List.pairwise_map]
  induction names with
  | nil => exact .nil
  | cons name names inductionHypothesis =>
      rw [Inference.primaryKeyFlags]
      split
      · have unflagged : ∀ column ∈ names.zip (names.map fun _ => false), column.2 = false := by
          intro column member
          obtain ⟨-, -, same⟩ := List.mem_map.1 (List.of_mem_zip member).2
          exact same.symm
        rw [List.zip_cons_cons]
        refine List.pairwise_cons.2 ⟨fun later member _ => unflagged later member, ?_⟩
        exact List.pairwise_of_forall_mem_list fun _ _ later member _ => unflagged later member
      · have unflagged : (columnAttribute (name, false)).primaryKey ≠ true := Bool.false_ne_true
        rw [List.zip_cons_cons]
        exact List.pairwise_cons.2 ⟨fun _ _ isKey => absurd isKey unflagged, inductionHypothesis⟩

section Lines

variable {columns : List (String × Bool)} {column : String × Bool}

/-- Columns that can follow attributes if only their names allow it: a flag that one holds
the primary key stands at the name of an identifier, and there is one at most. -/
structure Follow (attributes : List Attribute) (columns : List (String × Bool)) : Prop where
  idLike : ∀ column ∈ columns, column.2 = true -> Inference.isIdLike column.1 = true
  single : SingleKey (attributes ++ columns.map columnAttribute)

/-- The names of attributes and of the columns that follow them. -/
def namesWith (attributes : List Attribute) (columns : List (String × Bool)) : List String :=
  (attributes ++ columns.map columnAttribute).map Attribute.name

/-- Columns that may follow some attributes may follow them with the first one among them. -/
theorem follow_cons (follow : Follow attributes (column :: columns)) :
    Follow (attributes ++ [columnAttribute column]) columns := by
  obtain ⟨idLike, single⟩ := follow
  exact ⟨fun later member => idLike later (List.mem_cons_of_mem _ member), by
    simpa using single⟩

/-- Whether a column is among the attributes or follows them, the names are the same. -/
theorem namesWith_cons : namesWith attributes (column :: columns) =
    namesWith (attributes ++ [columnAttribute column]) columns := by
  simp [namesWith]

/-- The step of building from a line whose column may follow: if there is room for it and its
name is that of no attribute it becomes one, and otherwise it is refused. -/
theorem Table.Holds.addColumn (holds : table.Holds name attributes)
    (follow : Follow attributes (column :: columns)) :
    if columnLimit ≤ attributes.length ∨ (attributes.map Attribute.name).any
        (sameName · (columnAttribute column).name) then
      ∃ problem,
        (columnLineOf column.1 column.2).clauses.foldlM Table.addClause table = .error problem
    else
      ∃ grown, (columnLineOf column.1 column.2).clauses.foldlM Table.addClause table = .ok grown ∧
        grown.Holds name (attributes ++ [columnAttribute column]) ∧
        grown.foreignKeys = table.foreignKeys := by
  rw [← holds.position?_isSome, ← holds.length_columns, clauses_columnLineOf]
  split
  · rename_i refused
    obtain ⟨problem, isRefused⟩ := Table.addClause_column_error refused
      (Inference.ofName column.1).columnType.spelling
    exact ⟨problem, by
      rw [List.foldlM_cons, isRefused]
      rfl⟩
  · rename_i taken
    obtain ⟨room, missing⟩ := not_or.1 taken
    rw [Option.not_isSome_iff_eq_none] at missing
    have unkeyed : column.2 = true -> table.primaryKey = none := by
      intro isKey
      rw [← Option.not_isSome_iff_eq_none, holds.keyed, Bool.not_eq_true, List.any_eq_false]
      intro earlier member earlierKey
      have single := (List.pairwise_append.1 follow.single).2.2 earlier member
        (columnAttribute column) (List.mem_cons_self ..) earlierKey
      exact Bool.false_ne_true (single.symm.trans isKey)
    refine ⟨_, ?_, holds.grow (Inference.ofName_isNormal column.1) unkeyed, rfl⟩
    exact Table.foldlM_column (Nat.lt_of_not_le room) missing
      (columnLineOf column.1 column.2).inferred holds.indexes fun isKey => ⟨columnType_ofName_of_isIdLike
        (follow.idLike column (List.mem_cons_self ..) isKey), unkeyed isKey⟩

/-- Columns whose names fit into one table become attributes, in order; others are refused. -/
theorem Table.Holds.addColumns (holds : table.Holds name attributes)
    (follow : Follow attributes columns) (fit : Fit (attributes.map Attribute.name)) :
    if Fit (namesWith attributes columns) then
      ∃ grown, (columns.flatMap fun column => (columnLineOf column.1 column.2).clauses).foldlM
          Table.addClause table = .ok grown ∧
        grown.Holds name (attributes ++ columns.map columnAttribute) ∧
        grown.foreignKeys = table.foreignKeys
    else
      ∃ problem, (columns.flatMap fun column => (columnLineOf column.1 column.2).clauses).foldlM
        Table.addClause table = .error problem := by
  induction columns generalizing table attributes with
  | nil =>
      rw [namesWith, List.map_nil, List.append_nil, if_pos fit]
      exact ⟨table, rfl, holds, rfl⟩
  | cons column columns inductionHypothesis =>
      have here := holds.addColumn follow
      have oneMore := fit_concat_iff fit (columnAttribute column).name
      rw [List.length_map, ← List.map_singleton, ← List.map_append] at oneMore
      rw [List.flatMap_cons, namesWith_cons]
      split at here
      · rename_i full
        obtain ⟨problem, refused⟩ := here
        have notFit : ¬Fit (namesWith (attributes ++ [columnAttribute column]) columns) := by
          rw [namesWith, List.map_append]
          exact fun all => oneMore.1 all.of_append full
        rw [if_neg notFit]
        exact ⟨problem, Table.foldlM_append_error refused _⟩
      · rename_i taken
        obtain ⟨middle, first, grown, sameKeys⟩ := here
        have later := inductionHypothesis grown (follow_cons follow) (oneMore.2 taken)
        rw [Table.foldlM_append first]
        rwa [List.append_assoc, sameKeys] at later

end Lines

section Keys

variable {key : KeyLine} {keys : List KeyLine} {clauses : List Clause}

/-- The relationship that a foreign key of a table is. -/
def KeyLine.relationship (key : KeyLine) (asked : String) : Relationship :=
  { fromTable := asked
    fromColumn := key.column.name?.getD ""
    toTable := key.table.name?.getD ""
    toColumn := key.target.name?.getD "" }

/-- A column is found under its own name if names are apart. -/
theorem Table.Holds.position?_of_mem (holds : table.Holds name attributes)
    (apart : Apart (attributes.map Attribute.name)) {sought : String}
    (member : sought ∈ attributes.map Attribute.name) :
    ∃ position, table.position? sought = some position ∧ table.columnName position = sought := by
  have present : (table.position? sought).isSome = true := by
    rw [holds.position?_isSome]
    exact List.any_eq_true.2 ⟨sought, member, sameName_self sought⟩
  obtain ⟨position, isPosition⟩ := Option.isSome_iff_exists.1 present
  refine ⟨position, isPosition, ?_⟩
  obtain ⟨inside, same, -⟩ := List.findIdx?_eq_some_iff_getElem.1 isPosition
  have found : table.columns[position].name ∈ attributes.map Attribute.name := by
    rw [← holds.map_name]
    exact List.mem_map_of_mem (List.getElem_mem inside)
  rw [columnName, List.getElem?_eq_getElem inside]
  by_contra other
  have different := List.Pairwise.forall apart found member other
  rw [different] at same
  cases same

/-- The step of building from a foreign key: the table refers where its line leads. -/
theorem Table.Holds.addKey (holds : table.Holds name attributes)
    (apart : Apart (attributes.map Attribute.name))
    (leaves : key.column.name?.getD "" ∈ attributes.map Attribute.name) {clause : Clause}
    (gives : key.Gives clause) :
    ∃ grown, table.addClause clause = .ok grown ∧ grown.Holds name attributes ∧
      ∀ asked, grown.foreignKeys.filterMap (grown.relationship? asked) =
        key.relationship asked :: table.foreignKeys.filterMap (table.relationship? asked) := by
  obtain ⟨mention, isTable, rfl⟩ := gives
  obtain ⟨position, isPosition, isName⟩ := holds.position?_of_mem apart leaves
  refine ⟨{ table with
    foreignKeys :=
      { columns := [position], target := mention.name, targets := [key.target.name?.getD ""],
        onDelete := .noAction } :: table.foreignKeys }, ?_, ⟨holds.name, holds.described,
          holds.indexes, holds.primaryKey, holds.keyed, holds.unnumbered, holds.unfilled⟩, ?_⟩
  · have positions : table.referring [key.column.name?.getD ""] = .ok [position] := by
      rw [referring, List.mapM_cons, isPosition]
      rfl
    rw [addClause, addReference, positions]
    rfl
  · intro asked
    rw [KeyLine.relationship, ← isName, ← isTable]
    rfl

/-- Foreign keys that leave the columns of a table are all added, the last one first. -/
theorem Table.Holds.addKeys (holds : table.Holds name attributes)
    (apart : Apart (attributes.map Attribute.name))
    (leaving : ∀ key ∈ keys, key.column.name?.getD "" ∈ attributes.map Attribute.name)
    (gives : List.Forall₂ KeyLine.Gives keys clauses) :
    ∃ grown, clauses.foldlM addClause table = .ok grown ∧ grown.Holds name attributes ∧
      ∀ asked, grown.foreignKeys.filterMap (grown.relationship? asked) =
        (keys.map fun key => key.relationship asked).reverse ++
          table.foreignKeys.filterMap (table.relationship? asked) := by
  induction gives generalizing table with
  | nil => exact ⟨table, rfl, holds, fun asked => rfl⟩
  | cons first others inductionHypothesis =>
      obtain ⟨here, later⟩ := List.forall_mem_cons.1 leaving
      obtain ⟨middle, added, isMiddle, refers⟩ := holds.addKey apart here first
      obtain ⟨final, isFinal, finalHolds, allRefer⟩ := inductionHypothesis isMiddle later
      refine ⟨final, ?_, finalHolds, fun asked => ?_⟩
      · rw [List.foldlM_cons, added]
        exact isFinal
      · rw [allRefer, refers]
        simp

end Keys

section Definitions

variable {entity : Entity} {definition : TableDefinition} {keys : List KeyLine}
  {clauses : List Clause}

/-- The names that the database gives to the columns of an entity. -/
def columnNames (entity : Entity) : List String :=
  entity.attributes.map fun column => (lexemeOf column.name).name?.getD ""

/-- The attributes that the columns of an entity become. -/
def tableAttributes (entity : Entity) : List Attribute :=
  (flaggedColumns entity).map columnAttribute

/-- The attributes of a table have the names of the columns. -/
theorem map_name_tableAttributes (entity : Entity) :
    (tableAttributes entity).map Attribute.name = columnNames entity := by
  have names : Attribute.name ∘ columnAttribute =
      (fun written => (lexemeOf written).name?.getD "") ∘ Prod.fst := rfl
  rw [tableAttributes, List.map_map, names, ← List.map_map, map_fst_flaggedColumns, List.map_map]
  rfl

/-- A table that was just begun holds no attributes. -/
theorem Table.Holds.empty (name : String) : ({ name, columns := [] } : Table).Holds name [] :=
  ⟨rfl, rfl, by simp, by simp, rfl, rfl, rfl⟩

/-- A definition that is read as a whole builds a table of the attributes that its columns
become, if their names fit into one table, and is refused otherwise. -/
theorem Table.ofDefinition_columns
    (written : definition.clauses = (columnLines entity).flatMap ColumnLine.clauses ++ clauses)
    (faultless : definition.fault = none) (gives : List.Forall₂ KeyLine.Gives keys clauses)
    (leaving : ∀ key ∈ keys, key.column.name?.getD "" ∈ columnNames entity) :
    if Fit (columnNames entity) then
      ∃ table, ofDefinition definition = .ok table ∧
        table.Holds definition.table.name (tableAttributes entity) ∧
        ∀ asked, table.foreignKeys.filterMap (table.relationship? asked) =
          (keys.map fun key => key.relationship asked).reverse
    else ∃ problem, ofDefinition definition = .error problem := by
  have follow : Follow [] (flaggedColumns entity) :=
    ⟨fun column member isKey => isIdLike_of_mem_zip member isKey, singleKey_zip _⟩
  have columns := (Holds.empty definition.table.name).addColumns follow ⟨.nil, Nat.zero_le _⟩
  have names : namesWith [] (flaggedColumns entity) = columnNames entity :=
    map_name_tableAttributes entity
  rw [names, ← List.flatMap_map, ← columnLines] at columns
  rw [ofDefinition, written, faultless]
  by_cases fit : Fit (columnNames entity)
  · rw [if_pos fit] at columns ⊢
    obtain ⟨middle, added, holds, noKeys⟩ := columns
    have apart := fit.apart
    rw [← map_name_tableAttributes] at apart leaving
    obtain ⟨table, isTable, tableHolds, refers⟩ := holds.addKeys apart leaving gives
    refine ⟨table, ?_, tableHolds, fun asked => ?_⟩
    · rw [foldlM_append added, isTable]
      rfl
    · rw [refers, noKeys]
      exact List.append_nil _
  · rw [if_neg fit] at columns ⊢
    obtain ⟨problem, refused⟩ := columns
    exact ⟨problem, by rw [foldlM_append_error refused]; rfl⟩

/-- A definition whose reading has stopped builds no table. -/
theorem Table.ofDefinition_of_fault (fault : definition.fault ≠ none) :
    ∃ problem, ofDefinition definition = .error problem := by
  obtain ⟨stopped, isFault⟩ := Option.ne_none_iff_exists'.1 fault
  rw [ofDefinition, isFault]
  cases definition.clauses.foldlM addClause { name := definition.table.name, columns := [] } with
  | ok table => exact ⟨stopped, rfl⟩
  | error problem => exact ⟨problem, rfl⟩

end Definitions

end Columns

end Database

end SchemaLoom
