import Mathlib.Data.List.Infix
import Mathlib.Data.List.Sort
import Mathlib.Data.String.Basic
import SchemaLoom.Database.Description
import SchemaLoom.Proofs.Effects
import SchemaLoom.Proofs.Scripts

/-!
# Tables that stand

A database that scripts have led to has the tables that their statements created and
have not dropped again. The statements are those that the library reads, so that a table is
never renamed and never belongs to a session only. Which of the tables the list of tables
leaves out is decided by a pattern whose underscore stands for any character.
-/

namespace SchemaLoom

namespace Script

/-- The statements of a run that have succeeded. -/
def completed {Error Result : Type} (statements : List String) :
    Except (ScriptError Error) (List (StatementReport Result)) -> List String
  | .ok _ => statements
  | .error failure => statements.take failure.index

end Script

namespace Database

/-- A database that scripts have led to, starting from nothing, with the statements that
have succeeded on the way. -/
inductive Reached : List String -> Database -> Prop where
  | empty : Reached [] {}
  | run {history : List String} {database after : Database}
      {answer : Except (Script.ScriptError (Script.SinkError Failure))
        (List (Script.StatementReport Script.Outcome))}
      (reached : Reached history database) (script : String)
      (ran : Script.run execute script database = (answer, after)) :
      Reached (history ++ Script.completed (Ddl.statements script) answer) after

/-- The database that one more script leads to. -/
theorem Reached.next {history : List String} {database : Database}
    (reached : Reached history database) (script : String) :
    Reached
      (history ++
        Script.completed (Ddl.statements script) (Script.run execute script database).1)
      (Script.run execute script database).2 :=
  reached.run script rfl

section Invariants

variable {holds : List String -> Database -> Prop}

/-- What every statement that succeeds preserves is preserved by several. -/
theorem holds_of_succeeds {history statements : List String} {database after : Database}
    {outcomes : List Script.Outcome}
    (preserved : ∀ {history database statement outcome after}, holds history database ->
      execute statement database = (.ok outcome, after) -> holds (history ++ [statement]) after)
    (initially : holds history database)
    (succeeds : Script.Succeeds execute database statements outcomes after) :
    holds (history ++ statements) after := by
  induction succeeds generalizing history with
  | nil state => rwa [List.append_nil]
  | cons first others inductionHypothesis =>
      rename_i statement statements outcome outcomes
      rw [List.append_cons]
      exact inductionHypothesis (preserved initially first)

/-- What holds of the empty database and is preserved by every statement, whether it
succeeds or fails, holds of every database that scripts have led to. -/
theorem Reached.invariant {history : List String} {database : Database}
    (initially : holds [] {})
    (preserved : ∀ {history database statement outcome after}, holds history database ->
      execute statement database = (.ok outcome, after) -> holds (history ++ [statement]) after)
    (refused : ∀ {history database statement error after}, holds history database ->
      execute statement database = (.error error, after) -> holds history after)
    (reached : Reached history database) : holds history database := by
  induction reached with
  | empty => exact initially
  | run reached script ran inductionHypothesis =>
      rename_i history database after answer
      rw [Script.run] at ran
      cases answer with
      | ok reports =>
          obtain ⟨outcomes, succeeds, -⟩ := Script.runFrom_eq_ok_iff.1 ran
          exact holds_of_succeeds preserved inductionHypothesis succeeds
      | error failure =>
          obtain ⟨before, later, outcomes, middle, statements, position, succeeded, failed⟩ :=
            Script.runFrom_eq_error_iff.1 ran
          have completed : (Ddl.statements script).take failure.index = before := by
            rw [statements, position, Nat.zero_add, List.take_left]
          rw [Script.completed, completed]
          exact refused (holds_of_succeeds preserved inductionHypothesis succeeded) failed

end Invariants

/-- The names that stand after one more statement that has succeeded. A table that is
there already is not created again. -/
def standingAfter (names : List String) (statement : String) : List String :=
  match Statement.ofText statement with
  | .ok (.create definition) =>
      if names.any (sameName definition.table.name) then names
      else names ++ [definition.table.name]
  | .ok (.drop mention _) => names.filter fun name => !sameName name mention.name
  | _ => names

/-- The names of the tables that statements have created and not dropped again. -/
def standing (history : List String) : List String :=
  history.foldl standingAfter []

/-- Whether a text matches a pattern, in which an underscore stands for any character, a
percent sign for any text and every other character for itself in either case. -/
def like : List Char -> List Char -> Bool
  | [], text => text.isEmpty
  | mark :: pattern, text =>
      if mark == '%' then text.tails.any (like pattern)
      else
        match text with
        | [] => false
        | c :: rest => (mark == '_' || c.toLower == mark.toLower) && like pattern rest

/-- The names of the tables that do not belong to the database itself. -/
def userNames (database : Database) : List String :=
  (database.tables.map Table.name).filter fun name => !isReserved name

/-- A database whose tables are those that stand and its own. -/
structure Stands (history : List String) (database : Database) : Prop where
  distinct : Distinct database.tables
  names : database.userNames = standing history

section Names

variable {database after : Database}

/-- The shape of a database has the names of its tables. -/
theorem map_name_shape (database : Database) :
    database.shape.map Table.name = database.tables.map Table.name := by
  rw [shape, List.map_map]
  rfl

/-- Which names users have given depends on the shape alone. -/
theorem userNames_of_shape (same : after.shape = database.shape) :
    after.userNames = database.userNames := by
  rw [userNames, userNames, ← map_name_shape, same, map_name_shape]

/-- A table that no reserved name hides is found under its name. -/
theorem any_userNames {name : String} (free : isReserved name = false) :
    database.userNames.any (sameName name) = (database.table? name).isSome := by
  rw [Bool.eq_iff_iff, List.any_eq_true, userNames, table?, List.find?_isSome]
  constructor
  · rintro ⟨other, isOther, same⟩
    obtain ⟨table, isTable, rfl⟩ := List.mem_map.1 (List.mem_filter.1 isOther).1
    exact ⟨table, isTable, sameName_comm name table.name ▸ same⟩
  · rintro ⟨table, isTable, same⟩
    refine ⟨table.name, List.mem_filter.2 ⟨List.mem_map_of_mem isTable, ?_⟩, ?_⟩
    · rw [isReserved_congr same, free]
      rfl
    · rwa [sameName_comm]

/-- A table that is added has its name behind the others, and a table of numbers that
comes with it is not the user's. -/
theorem userNames_addTable {table : Table} (free : isReserved table.name = false) :
    (database.addTable table).userNames = database.userNames ++ [table.name] := by
  have own : isReserved sequenceTable.name = true := by decide
  rw [userNames, userNames, addTable]
  split <;> simp [free, own]

/-- Names stay distinct when a table is added under a new one. -/
theorem distinct_addTable {table : Table} (free : isReserved table.name = false)
    (distinct : Distinct database.tables) (missing : database.table? table.name = none) :
    Distinct (database.addTable table).tables := by
  have own : isReserved sequenceTable.name = true := by decide
  have apart : ∀ other : Table, isReserved other.name = true ->
      sameName table.name other.name = false := by
    intro other reserved
    refine Bool.eq_false_iff.2 fun same => ?_
    rw [isReserved_congr same, reserved] at free
    cases free
  have added : Distinct (database.tables ++ [table]) := by
    refine List.pairwise_append.2 ⟨distinct, List.pairwise_singleton _ _, fun other isOther last isLast => ?_⟩
    obtain rfl := List.mem_singleton.1 isLast
    exact table?_none.1 missing other isOther
  rw [addTable]
  split
  · rename_i first
    rw [Bool.and_eq_true] at first
    have noSequence := table?_none.1 (Option.isNone_iff_eq_none.1 first.2)
    refine List.pairwise_append.2 ⟨added, List.pairwise_singleton _ _, fun other isOther last isLast => ?_⟩
    obtain rfl := List.mem_singleton.1 isLast
    rcases List.mem_append.1 isOther with isOld | isNew
    · exact noSequence other isOld
    · obtain rfl := List.mem_singleton.1 isNew
      exact apart _ own
  · simpa using added

/-- A table that goes takes its name away. -/
theorem userNames_without (database : Database) (name : String) :
    (database.without name).userNames =
      database.userNames.filter fun other => !sameName other name := by
  simp only [userNames, without, List.filter_map, List.filter_filter, Function.comp_def,
    Bool.and_comm]

/-- A table that is dropped takes its name with it and nothing else. -/
theorem names_dropped {table : Table} {left : Database} (distinct : Distinct database.tables)
    (released : database.released table = .ok left) :
    Distinct ((left.without table.name).forgetNumber table.name).tables ∧
      ((left.without table.name).forgetNumber table.name).userNames =
        database.userNames.filter fun other => !sameName other table.name := by
  have thins := thins_released distinct released
  have leftDistinct := distinct_without (thins.distinct distinct) table.name
  have forgets := thins_forgetNumber leftDistinct table.name
  refine ⟨forgets.distinct leftDistinct, ?_⟩
  rw [userNames_of_shape forgets.shape_eq, userNames_without, userNames_of_shape thins.shape_eq]

end Names

namespace Stands

variable {history : List String} {database after : Database}

/-- What stands behind one more statement is what that statement makes of what stood. -/
theorem standing_append (history : List String) (statement : String) :
    standing (history ++ [statement]) = standingAfter (standing history) statement := by
  rw [standing, List.foldl_append]
  rfl

/-- The step of the history: one more statement that has succeeded. -/
theorem step {statement : String} {outcome : Script.Outcome} (stands : Stands history database)
    (executed : execute statement database = (.ok outcome, after)) :
    Stands (history ++ [statement]) after := by
  obtain ⟨read, isRead, effect⟩ := execute_ok executed
  obtain ⟨distinct, names⟩ := stands
  have sameShape (same : after.shape = database.shape)
      (unchanged : standingAfter (standing history) statement = standing history) :
      Stands (history ++ [statement]) after := by
    refine ⟨distinct_shape.1 (same ▸ distinct_shape.2 distinct), ?_⟩
    rw [standing_append, unchanged, ← names, userNames_of_shape same]
  cases effect with
  | present free found =>
      refine sameShape rfl ?_
      rw [standingAfter, isRead]
      dsimp only
      rw [← names, any_userNames free, if_pos found]
  | created free missing built =>
      rename_i definition table
      have name : table.name = definition.table.name :=
        congrArg Prod.fst (Table.heading_ofDefinition built)
      rw [← name] at free missing
      refine ⟨distinct_addTable free distinct missing, ?_⟩
      rw [userNames_addTable free, standing_append, standingAfter, isRead]
      dsimp only
      rw [← names, ← name, any_userNames free, missing, if_neg (by simp)]
  | absent missing =>
      rename_i mention onlyIfPresent
      refine sameShape rfl ?_
      rw [standingAfter, isRead]
      dsimp only
      rw [← names, List.filter_eq_self]
      intro name isName
      obtain ⟨table, isTable, rfl⟩ := List.mem_map.1 (List.mem_filter.1 isName).1
      rw [table?_none.1 missing table isTable]
      rfl
  | dropped found own released =>
      rename_i mention onlyIfPresent table left
      obtain ⟨leftDistinct, left⟩ := names_dropped distinct released
      refine ⟨leftDistinct, ?_⟩
      rw [left, names, standing_append, standingAfter, isRead]
      refine List.filter_congr fun name _ => ?_
      rw [sameName_congr_right (table?_some found).2]
  | cleared found emptied =>
      exact sameShape (thins_emptied distinct emptied).shape_eq (by rw [standingAfter, isRead])
  | inserted same complete => exact sameShape (same distinct) (by rw [standingAfter, isRead])
  | selected => exact sameShape rfl (by rw [standingAfter, isRead])
  | listed => exact sameShape rfl (by rw [standingAfter, isRead])

/-- The tables alone decide what stands. -/
theorem of_tables (stands : Stands history database) (same : after.tables = database.tables) :
    Stands history after :=
  ⟨same ▸ stands.distinct,
    (userNames_of_shape (congrArg (List.map Table.unfilled) same)).trans stands.names⟩

end Stands

/-- In a database that a history has reached, the tables that stand are those of the history. -/
theorem Reached.stands {history : List String} {database : Database}
    (reached : Reached history database) : Stands history database :=
  reached.invariant ⟨.nil, rfl⟩ Stands.step fun stands refused =>
    stands.of_tables (execute_error refused)

/-- Every text has an empty end. -/
@[simp] theorem any_isEmpty_tails (text : List Char) : (text.tails.any fun tail => tail.isEmpty) = true :=
  List.any_eq_true.2 ⟨[], (List.mem_tails _ _).2 List.nil_suffix, rfl⟩

/-- The pattern leaves out what begins with `sqlite` and has at least one more
character. -/
theorem isHidden_eq_like (name : String) :
    isHidden name = like "sqlite_%".toList name.toList := by
  have letters : "sqlite_%".toList = ['s', 'q', 'l', 'i', 't', 'e', '_', '%'] := by decide
  have word : "sqlite".toList = ['s', 'q', 'l', 'i', 't', 'e'] := by decide
  rw [isHidden, ← String.length_toList, letters, word]
  -- Only a text of at least seven characters reaches the percent sign.
  rcases name.toList with _ | ⟨a, _ | ⟨b, _ | ⟨c, _ | ⟨d, _ | ⟨e, _ | ⟨f, _ | ⟨g, text⟩⟩⟩⟩⟩⟩⟩ <;>
    simp [like, Text.sameIgnoringCase, Text.asciiLower]

/-- The names that belong to the database are among those that are hidden. -/
theorem isHidden_of_isReserved {name : String} (reserved : isReserved name = true) :
    isHidden name = true := by
  have letters : "sqlite_".toList = ['s', 'q', 'l', 'i', 't', 'e', '_'] := by decide
  have word : "sqlite".toList = ['s', 'q', 'l', 'i', 't', 'e'] := by decide
  rw [isReserved, letters] at reserved
  rw [isHidden, ← String.length_toList, word]
  generalize name.toList = text at reserved
  rcases text with _ | ⟨a, _ | ⟨b, _ | ⟨c, _ | ⟨d, _ | ⟨e, _ | ⟨f, _ | ⟨g, text⟩⟩⟩⟩⟩⟩⟩ <;>
    simp_all [Text.sameIgnoringCase, Text.asciiLower]

section Listing

variable {database : Database}

/-- The tables that are listed are those of the user that are not hidden. -/
theorem mem_tableNames {name : String} :
    name ∈ database.tableNames ↔ name ∈ database.userNames ∧ isHidden name = false := by
  rw [tableNames, List.mem_mergeSort, List.mem_filter, userNames, List.mem_filter]
  constructor
  · rintro ⟨isName, shown⟩
    rw [Bool.not_eq_true'] at shown
    refine ⟨⟨isName, ?_⟩, shown⟩
    rw [Bool.not_eq_true', ← Bool.not_eq_true]
    intro reserved
    rw [isHidden_of_isReserved reserved] at shown
    cases shown
  · rintro ⟨⟨isName, -⟩, shown⟩
    exact ⟨isName, by rw [shown]; rfl⟩

/-- Tables are listed in the order of their names. -/
theorem sorted_tableNames (database : Database) : database.tableNames.Pairwise (· ≤ ·) := by
  have sorted : database.tableNames.Pairwise fun first second =>
      decide (first ≤ second) = true :=
    List.pairwise_mergeSort (fun a b c first second => by
      simp only [decide_eq_true_eq] at first second ⊢
      exact le_trans first second)
      (fun a b => by simpa using le_total a b) _
  exact sorted.imp of_decide_eq_true

/-- No name is listed twice. -/
theorem tableNames_pairwise (distinct : Distinct database.tables) :
    database.tableNames.Pairwise (· < ·) := by
  have apart : database.tableNames.Pairwise (· ≠ ·) := by
    refine List.Perm.nodup (List.mergeSort_perm _ _).symm (List.Nodup.filter _ ?_)
    refine List.pairwise_map.2 (distinct.imp fun differ same => ?_)
    rw [same, sameName_self] at differ
    cases differ
  exact ((sorted_tableNames database).and apart).imp fun both => lt_of_le_of_ne both.1 both.2

/-- The list of tables is the one in order that has the names which are not left out. -/
theorem tableNames_of_perm {names : List String} (sorted : names.Pairwise (· ≤ ·))
    (same : names.Perm (database.userNames.filter fun name => !isHidden name)) :
    database.tableNames = names := by
  rw [userNames, List.filter_filter] at same
  have hides : ∀ name, (!isHidden name && !isReserved name) = !isHidden name := by
    intro name
    cases reserved : isReserved name with
    | false => simp
    | true => rw [isHidden_of_isReserved reserved]; rfl
  simp only [hides] at same
  exact ((List.mergeSort_perm _ _).trans same.symm).eq_of_pairwise' (sorted_tableNames database) sorted

end Listing

/-- The list of tables is, in the order of their characters and without repetition, that
of the tables which the statements of scripts have created and not dropped again, except
for those whose names match the pattern. -/
theorem Reached.tableNames_eq {history : List String} {database : Database}
    (reached : Reached history database) :
    database.tableNames.Pairwise (· < ·) ∧
      ∀ name, name ∈ database.tableNames ↔
        name ∈ standing history ∧ like "sqlite_%".toList name.toList = false := by
  obtain ⟨distinct, names⟩ := reached.stands
  refine ⟨tableNames_pairwise distinct, fun name => ?_⟩
  rw [mem_tableNames, names, isHidden_eq_like]

/-- Of three tables, one is dropped under a name in other letters and one is left out. -/
theorem Reached.tableNames_eq_dropped :
    ∃ history database, Reached history database ∧
      standing history = ["sqlite data", "a"] ∧
        ("a" ∈ database.tableNames ↔
          "a" ∈ standing history ∧ like "sqlite_%".toList "a".toList = false) ∧
        database.tableNames = ["a"] := by
  have reached := Reached.empty.next
    "CREATE TABLE b (c); CREATE TABLE 'sqlite data' (c); CREATE TABLE a (c); DROP TABLE B"
  exact ⟨_, _, reached, by decide +kernel, reached.tableNames_eq.2 "a", by decide +kernel⟩

/-- A name that only begins like a reserved one is left out as well. -/
theorem not_forall_mem_tableNames_iff :
    ¬∀ history database, Reached history database -> ∀ name,
      name ∈ database.tableNames ↔ name ∈ standing history ∧ isReserved name = false := by
  intro all
  have listed := all _ _ (Reached.empty.next "CREATE TABLE sqliteX (id INTEGER)") "sqliteX"
  revert listed
  decide +kernel

end Database

end SchemaLoom
