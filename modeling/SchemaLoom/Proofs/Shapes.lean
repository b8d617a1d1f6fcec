import Mathlib.Data.List.Forall2
import SchemaLoom.Database.Basic

/-!
# The shape of a database

The shape of a database is its tables without their rows. Only the creation and the
drop of a table change it; every other statement, and everything that happens to rows
on the way, leaves each table in its place with some rows fewer or more. Names that
are equal up to the case of ASCII letters are one name, and no two tables have one.
-/

namespace SchemaLoom.Database

section Names

variable {first second third : String}

/-- Names are the same if they differ in case only. -/
theorem sameName_iff : sameName first second = true ↔
    Text.asciiLower first.toList = Text.asciiLower second.toList := by
  rw [sameName, Text.sameIgnoringCase, beq_iff_eq]

@[simp] theorem sameName_self (name : String) : sameName name name = true :=
  sameName_iff.2 rfl

/-- Which of two names comes first does not matter. -/
theorem sameName_comm (first second : String) : sameName first second = sameName second first := by
  rw [Bool.eq_iff_iff, sameName_iff, sameName_iff, eq_comm]

/-- A name stands for another one of the same letters in every comparison. -/
theorem sameName_congr (same : sameName first second = true) :
    sameName first third = sameName second third := by
  rw [Bool.eq_iff_iff, sameName_iff, sameName_iff, sameName_iff.1 same]

/-- A name is told from each of two names that are the same in one way. -/
theorem sameName_congr_right (same : sameName first second = true) :
    sameName third first = sameName third second := by
  rw [sameName_comm third, sameName_comm third, sameName_congr same]

/-- Names are reserved in any case of their letters. -/
theorem isReserved_congr (same : sameName first second = true) :
    isReserved first = isReserved second := by
  have start : Text.asciiLower (first.toList.take 7) = Text.asciiLower (second.toList.take 7) := by
    rw [Text.asciiLower, List.map_take, ← Text.asciiLower, sameName_iff.1 same, Text.asciiLower,
      ← List.map_take, ← Text.asciiLower]
  rw [isReserved, isReserved, Text.sameIgnoringCase, Text.sameIgnoringCase, start]

end Names

/-- A table without its rows. -/
def Table.unfilled (table : Table) : Table :=
  { table with rows := [] }

/-- The tables of a database without their rows. -/
def shape (database : Database) : List Table :=
  database.tables.map Table.unfilled

/-- Tables of which no two have one name. -/
def Distinct (tables : List Table) : Prop :=
  tables.Pairwise fun first second => sameName first.name second.name = false

/-- Whether names are distinct does not depend on the rows. -/
theorem distinct_shape {database : Database} :
    Distinct database.shape ↔ Distinct database.tables := by
  rw [Distinct, shape, List.pairwise_map]
  rfl

section Lookup

variable {database : Database} {table other : Table} {name : String}

/-- A table that is found is one of the database and has the name. -/
theorem table?_some (found : database.table? name = some table) :
    table ∈ database.tables ∧ sameName table.name name = true :=
  ⟨List.mem_of_find?_eq_some found, by simpa using List.find?_some found⟩

/-- No table is found exactly if none has the name. -/
theorem table?_none : database.table? name = none ↔
    ∀ table ∈ database.tables, sameName table.name name = false := by
  simp [table?]

/-- Names stay distinct when a table goes. -/
theorem distinct_without (distinct : Distinct database.tables) (name : String) :
    Distinct (database.without name).tables :=
  distinct.filter _

/-- Two tables of one name are one table. -/
theorem Distinct.eq {tables : List Table} (distinct : Distinct tables) (isFirst : table ∈ tables)
    (isSecond : other ∈ tables) (same : sameName table.name other.name = true) : table = other := by
  induction distinct with
  | nil => cases isFirst
  | cons apart others inductionHypothesis =>
      rcases List.mem_cons.1 isFirst with rfl | firstLater
      · rcases List.mem_cons.1 isSecond with rfl | secondLater
        · rfl
        · exact absurd same (by simp [apart other secondLater])
      · rcases List.mem_cons.1 isSecond with rfl | secondLater
        · exact absurd same (by simp [sameName_comm table.name, apart table firstLater])
        · exact inductionHypothesis firstLater secondLater

/-- Where names are distinct, a table is found by its name. -/
theorem table?_of_mem (distinct : Distinct database.tables) (member : table ∈ database.tables)
    (same : sameName table.name name = true) : database.table? name = some table := by
  cases found : database.table? name with
  | none =>
      rw [table?_none.1 found table member] at same
      cases same
  | some other =>
      obtain ⟨isOther, otherSame⟩ := table?_some found
      rw [distinct.eq isOther member (by rwa [sameName_congr_right same])]

end Lookup

section Replacement

variable {database : Database} {table filled : Table}

/-- A table is looked up where its replacement stands. -/
theorem table?_replace (database : Database) (filled : Table) (name : String) :
    (database.replace filled).table? name = (database.table? name).map fun other =>
      if sameName other.name filled.name then filled else other := by
  rw [table?, replace, List.find?_map]
  congr 1
  refine congrArg (List.find? · database.tables) (funext fun other => ?_)
  rw [Function.comp_apply]
  split
  · rename_i same
    exact (sameName_congr same).symm
  · rfl

/-- A table that was put in place of another of its name is found. -/
theorem table?_replace_of_same {name : String} (found : database.table? name = some table)
    (same : filled.name = table.name) : (database.replace filled).table? name = some filled := by
  rw [table?_replace, found, Option.map_some, same, sameName_self, if_pos rfl]

/-- Putting a table in its place does not change what is found by another name. -/
theorem table?_replace_of_other {name : String} (other : sameName filled.name name = false) :
    (database.replace filled).table? name = database.table? name := by
  rw [table?_replace]
  cases found : database.table? name with
  | none => rfl
  | some table =>
      have named := (table?_some found).2
      rw [Option.map_some, if_neg]
      rw [sameName_congr named, sameName_comm, other]
      exact Bool.false_ne_true

/-- A table with other rows in its place. -/
theorem shape_replace (distinct : Distinct database.tables) (member : table ∈ database.tables)
    (same : filled.unfilled = table.unfilled) : (database.replace filled).shape = database.shape := by
  have name : filled.name = table.name :=
    show filled.unfilled.name = table.unfilled.name from congrArg Table.name same
  rw [shape, shape, replace, List.map_map]
  refine List.map_congr_left fun other isOther => ?_
  rw [Function.comp_apply]
  split
  · rename_i named
    rw [name] at named
    rw [same, distinct.eq isOther member named]
  · rfl

/-- The number that a table keeps for new rows is not part of the shape. -/
theorem shape_keepNumber (distinct : Distinct database.tables) (name : String) (number : Int) :
    (database.keepNumber name number).shape = database.shape := by
  rw [keepNumber]
  split
  · rfl
  · rename_i sequence found
    exact shape_replace distinct (table?_some found).1 rfl

end Replacement

/-- A table with some of the rows of another one. -/
structure Table.Thins (table thinner : Table) : Prop where
  shape : thinner.unfilled = table.unfilled
  rows : thinner.rows.Sublist table.rows

/-- A database whose tables have lost some of their rows. -/
def Thins (before after : Database) : Prop :=
  List.Forall₂ Table.Thins before.tables after.tables

namespace Table.Thins

variable {table middle thinner : Table}

theorem refl (table : Table) : table.Thins table :=
  ⟨rfl, List.Sublist.refl table.rows⟩

/-- What thins twice thins. -/
theorem trans (first : table.Thins middle) (second : middle.Thins thinner) : table.Thins thinner :=
  ⟨second.shape.trans first.shape, second.rows.trans first.rows⟩

/-- A table that loses rows keeps its name. -/
theorem name (thins : table.Thins thinner) : thinner.name = table.name :=
  show thinner.unfilled.name = table.unfilled.name from congrArg Table.name thins.shape

/-- A table that loses rows keeps its foreign keys. -/
theorem foreignKeys (thins : table.Thins thinner) : thinner.foreignKeys = table.foreignKeys :=
  show thinner.unfilled.foreignKeys = table.unfilled.foreignKeys from
    congrArg Table.foreignKeys thins.shape

end Table.Thins

namespace Thins

variable {before middle after : Database} {table : Table} {name : String}

theorem refl (database : Database) : database.Thins database :=
  List.forall₂_same.2 fun table _ => .refl table

/-- A database that thins twice thins. -/
theorem trans (first : before.Thins middle) (second : middle.Thins after) : before.Thins after := by
  unfold Thins at *
  generalize before.tables = tables at first
  generalize middle.tables = fewer at first second
  generalize after.tables = evenFewer at second
  induction first generalizing evenFewer with
  | nil => exact second
  | cons here others inductionHypothesis =>
      cases second with
      | cons next later => exact .cons (here.trans next) (inductionHypothesis _ later)

/-- A database that only loses rows keeps its shape. -/
theorem shape_eq (thins : before.Thins after) : after.shape = before.shape := by
  unfold Thins at thins
  rw [shape, shape]
  generalize before.tables = tables at thins
  generalize after.tables = fewer at thins
  induction thins with
  | nil => rfl
  | cons here others inductionHypothesis =>
      rw [List.map_cons, List.map_cons, here.shape, inductionHypothesis]

/-- A table is still found under its name. -/
theorem table? (thins : before.Thins after) (found : before.table? name = some table) :
    ∃ thinner, after.table? name = some thinner ∧ table.Thins thinner := by
  unfold Thins at thins
  rw [Database.table?] at found ⊢
  generalize before.tables = tables at thins found
  generalize after.tables = fewer at thins
  induction thins with
  | nil => cases found
  | cons here others inductionHypothesis =>
      rw [List.find?_cons] at found ⊢
      rw [here.name]
      split at found
      · rename_i named
        obtain rfl := Option.some.inj found
        exact ⟨_, rfl, here⟩
      · exact inductionHypothesis found

end Thins

section Deletion

variable {database : Database} {table thinner : Table}

/-- A database thins when one of its tables does. -/
theorem thins_replace (distinct : Distinct database.tables) (member : table ∈ database.tables)
    (thins : table.Thins thinner) : database.Thins (database.replace thinner) := by
  rw [Thins, replace, List.forall₂_map_right_iff, List.forall₂_same]
  intro other isOther
  split
  · rename_i named
    rw [thins.name] at named
    rwa [distinct.eq isOther member named]
  · exact .refl other

/-- Forgetting a number takes rows away from the table of numbers only. -/
theorem thins_forgetNumber (distinct : Distinct database.tables) (name : String) :
    database.Thins (database.forgetNumber name) := by
  rw [forgetNumber]
  split
  · exact .refl database
  · rename_i sequence found
    exact thins_replace distinct (table?_some found).1 ⟨rfl, List.filter_sublist⟩

/-- Taking dependent rows away is a thinning. -/
theorem thins_withoutDependents (database : Database) :
    database.Thins database.withoutDependents := by
  rw [Thins, withoutDependents, List.forall₂_map_right_iff, List.forall₂_same]
  exact fun table _ => ⟨rfl, List.filter_sublist⟩

/-- Taking dependent rows away until none is left is a thinning. -/
theorem thins_cascade (bound : Nat) (database : Database) :
    database.Thins (cascade bound database) := by
  fun_induction cascade bound database with
  | case1 => exact .refl _
  | case2 => exact .refl _
  | case3 bound database fewer unsettled inductionHypothesis =>
      exact database.thins_withoutDependents.trans inductionHypothesis

/-- Names stay distinct when rows go. -/
theorem Thins.distinct {before after : Database} (thins : before.Thins after)
    (distinct : Distinct before.tables) : Distinct after.tables :=
  distinct_shape.1 (thins.shape_eq ▸ distinct_shape.2 distinct)

/-- The first row of a table is deleted, together with those that depend on it. -/
theorem thins_deleteFirst (distinct : Distinct database.tables) {name : String}
    (found : database.table? name = some table) {first : List Value} {rows : List (List Value)}
    (filled : table.rows = first :: rows) (bound : Nat) :
    database.Thins (cascade bound (database.replace { table with rows })) := by
  have fewer : table.Thins { table with rows } :=
    ⟨rfl, filled ▸ List.sublist_cons_self first rows⟩
  exact (thins_replace distinct (table?_some found).1 fewer).trans (thins_cascade bound _)

/-- Deleting the rows of a table, with all that depends on them, only takes rows away. -/
theorem thins_deleteRows (distinct : Distinct database.tables) (name : String) (bound : Nat) :
    database.Thins (deleteRows name bound database).2 := by
  induction bound generalizing database with
  | zero => exact .refl database
  | succ bound inductionHypothesis =>
      rw [deleteRows]
      split
      · exact .refl database
      · rename_i table found
        split
        · exact .refl database
        · rename_i first rows filled
          have step := thins_deleteFirst distinct found filled database.rowCount
          exact step.trans (inductionHypothesis (step.distinct distinct))

/-- A table has no rows left when as many as it has are deleted. -/
theorem rows_deleteRows (distinct : Distinct database.tables) {name : String} {bound : Nat}
    (found : database.table? name = some table) (enough : table.rows.length ≤ bound)
    (foundAfter : (deleteRows name bound database).2.table? name = some thinner) :
    thinner.rows = [] := by
  induction bound generalizing database table with
  | zero =>
      rw [deleteRows, found] at foundAfter
      obtain rfl := Option.some.inj foundAfter
      exact List.length_eq_zero_iff.1 (Nat.le_zero.1 enough)
  | succ bound inductionHypothesis =>
      simp only [deleteRows, found] at foundAfter
      cases filled : table.rows with
      | nil =>
          simp only [filled, found] at foundAfter
          obtain rfl := Option.some.inj foundAfter
          exact filled
      | cons first rows =>
          simp only [filled] at foundAfter
          have fewer : table.Thins { table with rows } :=
            ⟨rfl, filled ▸ List.sublist_cons_self first rows⟩
          have replaced := thins_replace distinct (table?_some found).1 fewer
          have foundReplaced : (database.replace { table with rows }).table? name =
              some { table with rows } := table?_replace_of_same found rfl
          obtain ⟨left, foundLeft, thins⟩ :=
            (thins_cascade database.rowCount _).table? foundReplaced
          refine inductionHypothesis ((thins_cascade database.rowCount _).distinct
            (replaced.distinct distinct)) foundLeft ?_ foundAfter
          have count := thins.rows.length_le
          rw [filled, List.length_cons] at enough
          exact Nat.le_trans count (Nat.le_of_succ_le_succ enough)

end Deletion

end SchemaLoom.Database
