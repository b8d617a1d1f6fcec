import SchemaLoom.Ddl.Document

/-!
# Keys of a table

Keys of a table set flags of its columns and change nothing else. A column ends up with a
flag if its own clauses state it or some key of the table sets it, so that neither the order
of the keys nor their number matters, only which ones there are.
-/

namespace SchemaLoom.Ddl

open SchemaLoom.Text

namespace TableKey

/-- Whether a key takes columns of a name into the primary key. -/
def makesPrimary (name : String) : TableKey -> Bool
  | primary columns => columns.any fun column => sameIgnoringCase column.toList name.toList
  | unique _ | other => false

/-- Whether a key makes columns of a name unique. -/
def makesUnique (name : String) : TableKey -> Bool
  | unique columns =>
      (columns.any fun column => sameIgnoringCase column.toList name.toList) && columns.length == 1
  | primary _ | other => false

/-- A key that is applied sets the flags of the columns that it names, and clears none. -/
theorem applyTo_eq (key : TableKey) (declared : Attribute) :
    key.applyTo declared =
      { declared with
        primaryKey := declared.primaryKey || key.makesPrimary declared.name
        unique := declared.unique || key.makesUnique declared.name } := by
  cases key with
  | primary columns =>
      simp only [applyTo, makesPrimary, makesUnique, Bool.or_false]
      split
      · rename_i named
        rw [named, Bool.or_true]
      · rename_i absent
        rw [Bool.eq_false_iff.2 absent, Bool.or_false]
  | unique columns =>
      simp only [applyTo, makesPrimary, makesUnique, Bool.or_false]
      split
      · rename_i named
        rw [named, Bool.or_true]
      · rename_i absent
        rw [Bool.eq_false_iff.2 absent, Bool.or_false]
  | other => simp [applyTo, makesPrimary, makesUnique]

end TableKey

/-- A declared column under the keys of its table. -/
def flagged (keys : List TableKey) (declared : Attribute) : Attribute :=
  { declared with
    primaryKey := declared.primaryKey || keys.any (TableKey.makesPrimary declared.name)
    unique := declared.unique || keys.any (TableKey.makesUnique declared.name) }

/-- Applying keys one after the other sets the flags that any of them sets. -/
theorem foldl_applyTo_eq (keys : List TableKey) (declared : Attribute) :
    keys.foldl (fun column key => key.applyTo column) declared = flagged keys declared := by
  induction keys generalizing declared with
  | nil => simp [flagged]
  | cons key keys inductionHypothesis =>
      rw [List.foldl_cons, inductionHypothesis, key.applyTo_eq]
      simp [flagged, Bool.or_assoc]

/-- The columns of a table have their own flags and those that any key sets. -/
theorem entityOf_eq (table : String) (items : List Definition) :
    entityOf table items =
      { name := table
        attributes := (items.filterMap Definition.attribute?).map
          (flagged (items.filterMap Definition.key?)) } := by
  rw [entityOf]
  refine congrArg (Entity.mk table) (List.map_congr_left fun declared _ => ?_)
  exact foldl_applyTo_eq _ declared

/-- Which keys there are decides what they set. -/
theorem flagged_congr {keys others : List TableKey} (same : ∀ key, key ∈ keys ↔ key ∈ others)
    (declared : Attribute) : flagged keys declared = flagged others declared := by
  have any (sets : TableKey -> Bool) : keys.any sets = others.any sets := by
    rw [Bool.eq_iff_iff, List.any_eq_true, List.any_eq_true]
    simp only [same]
  rw [flagged, flagged, any, any]

end SchemaLoom.Ddl
