import SchemaLoom.Proofs.Effects

/-!
# Rows that find what they refer to

In a database that scripts have led to, every row whose foreign key is set finds the row
that it refers to. Insertions and deletions check this at their end. A new table has no
rows and takes nothing away; a table that is dropped was emptied before, unless no foreign
key leads to it. A table that nothing holds, because no set key of another table leads to
it and no key that does passes deletions on, can always be dropped.
-/

namespace SchemaLoom.Database

variable {database after : Database} {table : Table} {key : ForeignKey} {row : List Value}
  {name : String}

/-- Every row finds the rows that its foreign keys refer to. -/
def Complete (database : Database) : Prop :=
  ∀ table ∈ database.tables, ∀ row ∈ table.rows, ∀ key ∈ table.foreignKeys,
    database.isOrphan key row = false

/-- A search for orphans finds none exactly if the database is complete. -/
theorem hasOrphan_eq_false : database.hasOrphan = false ↔ Complete database := by
  simp [hasOrphan, Complete]

/-- A row that finds what it refers to finds it in every database where the tables that
have keys and rows are found as before. -/
theorem isOrphan_of_lookup (found : database.isOrphan key row = false)
    (kept : ∀ table, database.table? key.target = some table -> isReserved table.name = false ->
      table.rows ≠ [] -> after.table? key.target = some table) :
    after.isOrphan key row = false := by
  rw [isOrphan, Bool.and_eq_false_iff, Bool.not_eq_false', Bool.not_eq_false',
    Option.any_eq_true] at found ⊢
  rcases found with unset | ⟨table, isTable, refers⟩
  · exact .inl unset
  · refine .inr ⟨table, kept table isTable ?_ ?_, refers⟩
    · refine Bool.eq_false_iff.2 fun reserved => ?_
      simp [Table.referred?, reserved] at refers
    · intro empty
      simp [empty] at refers

/-- Whether a row is an orphan depends on the table that its key leads to, and on no other. -/
theorem isOrphan_congr (same : after.table? key.target = database.table? key.target) :
    after.isOrphan key row = database.isOrphan key row := by
  rw [isOrphan, isOrphan, same]

section Lookup

/-- Taking a table away leaves those of other names. -/
theorem table?_without_of_other (other : sameName name table.name = false) :
    (database.without table.name).table? name = database.table? name := by
  rw [table?, table?, without, List.find?_filter]
  refine congrArg (List.find? · database.tables) (funext fun found => ?_)
  cases named : sameName found.name name with
  | false => simp
  | true => simp [sameName_congr named, other]

/-- Forgetting a number leaves the tables of the user. -/
theorem table?_forgetNumber_of_other (own : isReserved table.name = false)
    (found : database.table? name = some table) (forgotten : String) :
    (database.forgetNumber forgotten).table? name = some table := by
  rw [forgetNumber]
  split
  · exact found
  · rename_i sequence isSequence
    rw [table?_replace_of_other, found]
    refine Bool.eq_false_iff.2 fun same => ?_
    have named : sameName table.name sequenceName = true := by
      rw [sameName_congr (table?_some found).2, sameName_congr (sameName_comm _ _ ▸ same)]
      exact (table?_some isSequence).2
    rw [isReserved_congr named] at own
    exact absurd own (by decide)

/-- After a replacement a table is the one put in place, or an old one of another name. -/
theorem mem_replace {filled : Table} (member : table ∈ (database.replace filled).tables) :
    table = filled ∨ table ∈ database.tables ∧ sameName table.name filled.name = false := by
  obtain ⟨other, isOther, equal⟩ := List.mem_map.1 member
  split at equal
  · exact .inl equal.symm
  · rename_i differs
    subst equal
    exact .inr ⟨isOther, by simpa using differs⟩

/-- Where numbers are forgotten, a table has its keys still and no new rows. -/
theorem mem_forgetNumber {forgotten : String}
    (member : table ∈ (database.forgetNumber forgotten).tables) :
    ∃ before ∈ database.tables, before.Thins table := by
  rw [forgetNumber] at member
  split at member
  · exact ⟨table, member, .refl table⟩
  · rename_i sequence found
    rcases mem_replace member with rfl | ⟨isTable, -⟩
    · exact ⟨sequence, (table?_some found).1, rfl, List.filter_sublist⟩
    · exact ⟨table, isTable, .refl table⟩

end Lookup

namespace Complete

/-- The tables alone decide whether a database is complete. -/
theorem of_tables (complete : Complete database) (same : after.tables = database.tables) :
    Complete after := by
  intro table isTable row isRow key isKey
  rw [isOrphan_congr (congrArg (List.find? _) same)]
  exact complete table (same ▸ isTable) row isRow key isKey

/-- A table without rows makes no orphan. -/
theorem addTable (complete : Complete database) (empty : table.rows = []) :
    Complete (database.addTable table) := by
  have kept {target : String} (found : Table) (isFound : database.table? target = some found) :
      (database.addTable table).table? target = some found := by
    rw [table?] at isFound ⊢
    rw [Database.addTable, List.find?_append, List.find?_append, isFound]
    rfl
  intro child isChild row isRow key isKey
  rw [Database.addTable] at isChild
  rcases List.mem_append.1 isChild with isOld | isSequence
  · rcases List.mem_append.1 isOld with isOlder | isNew
    · exact isOrphan_of_lookup (complete child isOlder row isRow key isKey)
        fun found isFound _ _ => kept found isFound
    · obtain rfl := List.mem_singleton.1 isNew
      rw [empty] at isRow
      cases isRow
  · split at isSequence
    · obtain rfl := List.mem_singleton.1 isSequence
      cases isRow
    · cases isSequence

/-- A table goes without leaving an orphan if it is empty or no key leads to it. -/
theorem drop (complete : Complete database)
    (unused : ∀ child ∈ database.tables, ∀ key ∈ child.foreignKeys,
      sameName key.target table.name = true -> ∀ found, database.table? key.target = some found ->
        found.rows = []) :
    Complete ((database.without table.name).forgetNumber table.name) := by
  intro thinner isThinner row isRow key isKey
  obtain ⟨child, isLeft, thins⟩ := mem_forgetNumber isThinner
  rw [thins.foreignKeys] at isKey
  have isChild : child ∈ database.tables := (List.mem_filter.1 isLeft).1
  refine isOrphan_of_lookup (complete child isChild row (thins.rows.subset isRow) key isKey)
    fun found isFound own filled => ?_
  refine table?_forgetNumber_of_other own ?_ table.name
  rw [table?_without_of_other, isFound]
  refine Bool.eq_false_iff.2 fun leads => ?_
  exact filled (unused child isChild key isKey leads found isFound)

/-- A table that is released has no rows, or no key leads to it. -/
theorem released {left : Database} (complete : Complete database)
    (distinct : Distinct database.tables) (found : database.table? name = some table)
    (released : database.released table = .ok left) :
    Complete ((left.without table.name).forgetNumber table.name) := by
  have self : database.table? table.name = some table :=
    table?_of_mem distinct (table?_some found).1 (sameName_self table.name)
  rw [Database.released] at released
  split at released
  · rename_i unused
    cases released
    refine complete.drop fun child isChild key isKey leads => ?_
    have member : (child, key) ∈ database.keysTo table.name :=
      List.mem_flatMap.2 ⟨child, List.mem_reverse.2 isChild,
        List.mem_map.2 ⟨key, List.mem_filter.2 ⟨isKey, leads⟩, rfl⟩⟩
    rw [List.isEmpty_iff.1 unused] at member
    cases member
  · split at released
    · cases released
    · obtain ⟨tables, noOrphan⟩ := emptied_ok released
      refine (hasOrphan_eq_false.1 noOrphan).drop fun child isChild key isKey leads target isTarget => ?_
      refine rows_deleteRows distinct self (Nat.le_refl _) (?_ : _ = some target)
      rw [table?, tables] at isTarget
      rw [table?, ← isTarget]
      refine congrArg (List.find? · _) (funext fun other => ?_)
      rw [sameName_congr_right leads]

/-- What one statement that succeeds preserves. -/
theorem effect {statement : Statement} (complete : Complete database)
    (distinct : Distinct database.tables) (effect : Effect database statement after) :
    Complete after := by
  cases effect with
  | present free found => exact complete
  | created free missing built =>
      exact complete.addTable (congrArg Prod.snd (Table.heading_ofDefinition built))
  | absent missing => exact complete
  | dropped found own released => exact complete.released distinct found released
  | cleared found emptied => exact hasOrphan_eq_false.1 (emptied_ok emptied).2
  | inserted same noOrphan => exact hasOrphan_eq_false.1 noOrphan
  | selected => exact complete
  | listed => exact complete

end Complete

section Release

variable {rows : List (List Value)}

end Release

end SchemaLoom.Database
