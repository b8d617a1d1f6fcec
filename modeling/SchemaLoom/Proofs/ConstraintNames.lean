import SchemaLoom.Proofs.Surroundings

/-!
# Names of constraints

A name in front of a constraint is taken off before the constraint is read, so a document
means the same with it and without it. The name is taken to end at the first blank, even
at one that stands between quotes, which is why only names without blanks are meant here.
-/

namespace SchemaLoom.Ddl

open SchemaLoom.Text

/-- What names a constraint: the keyword and a name without blanks. -/
structure ConstraintName where
  letters : List Char
  cased : asciiUpper letters = "CONSTRAINT".toList
  space : List Char
  blankSpace : isBlankText space
  apart : space ≠ []
  written : List Char
  nonempty : written ≠ []
  undivided : Undivided written
  oneWord : ∀ c ∈ written, isBlank c = false
  gap : List Char
  blankGap : isBlankText gap
  parted : gap ≠ []

/-- The quotes of an identifier are not blank, so it has the blanks of its name. -/
theorem Spells.oneWord {written name : List Char} (spells : Spells written name)
    (unbroken : ∀ c ∈ name, isBlank c = false) : ∀ c ∈ written, isBlank c = false := by
  cases spells with
  | bare _ _ _ => exact unbroken
  | @quoted opening close _ quotes _ =>
      have solid : isBlank opening = false ∧ isBlank close = false := by
        rcases eq_of_identifierClose? quotes with ⟨rfl, rfl⟩ | ⟨rfl, rfl⟩ | ⟨rfl, rfl⟩ <;> decide
      intro c member
      simp only [List.cons_append, List.mem_cons, List.mem_append, List.not_mem_nil,
        or_false] at member
      rcases member with rfl | inside | rfl
      · exact solid.1
      · exact unbroken c inside
      · exact solid.2

namespace ConstraintName

/-- An identifier in any of its spellings names a constraint if it has no blank. -/
def ofSpells {written name : List Char} (spells : Spells written name)
    (unbroken : ∀ c ∈ name, isBlank c = false) : ConstraintName where
  letters := "CONSTRAINT".toList
  cased := rfl
  space := [' ']
  blankSpace := isBlankText_space
  apart := space_ne_nil
  written := written
  nonempty := spells.solid.nonempty
  undivided := spells.undivided
  oneWord := spells.oneWord unbroken
  gap := [' ']
  blankGap := isBlankText_space
  parted := space_ne_nil

variable (named : ConstraintName)

/-- A definition behind the name of a constraint. -/
def text (definition : List Char) : List Char :=
  named.letters ++ (named.space ++ (named.written ++ (named.gap ++ definition)))

variable {named} {definition : List Char}

/-- A named definition neither begins nor ends with a blank. -/
theorem solid_text (solid : Solid definition) : Solid (named.text definition) := by
  have keyword := Spells.of_cased (by decide) named.cased
  refine keyword.solid.append ?_
  rw [← List.append_assoc, ← List.append_assoc]
  exact solid.last.append_right solid.nonempty _

/-- The name of a constraint does not divide its definition. -/
theorem undivided_text (undivided : Undivided definition) : Undivided (named.text definition) :=
  (Spells.of_cased (by decide) named.cased).undivided.append
    ((Undivided.of_blanks named.blankSpace).append (named.undivided.append
      ((Undivided.of_blanks named.blankGap).append undivided)))

/-- The name is taken off up to the blanks behind it. -/
theorem withoutConstraintName_text (solid : Solid definition) :
    withoutConstraintName (named.text definition) = definition := by
  have start : StartsSolid (named.written ++ (named.gap ++ definition)) :=
    (startsSolid_append named.nonempty).2 (.of_forall named.oneWord)
  have opened := keywordAndBlanks_append named.cased named.blankSpace named.apart start
  have ends : EndsWord (named.gap ++ definition) := .of_blanks named.blankGap named.parted _
  have dropped : (named.written ++ (named.gap ++ definition)).dropWhile (fun c => !isBlank c) =
      named.gap ++ definition :=
    (takeWhile_append_of_ends (fun c member => by simp [named.oneWord c member])
      fun c member => by simp [ends c member]).2
  rw [text, withoutConstraintName, opened]
  simp only [dropped, dropBlanks?_blanks named.blankGap named.parted solid.first,
    trim_of_solid solid]

/-- A definition that has no name of its own is read the same behind one. -/
theorem read_text (solid : Solid definition)
    (unnamed : dropWord? "CONSTRAINT".toList definition = none) (table : String) :
    Definition.read table (named.text definition) = Definition.read table definition := by
  simp only [Definition.read, withoutConstraintName_text solid, withoutConstraintName_eq unnamed]

end ConstraintName

/-- Naming a constraint changes nothing in what a document is read as. -/
theorem Report.ofDocument_named {around : Surroundings} {name : ConstraintName}
    {definition : List Char} {named unnamed : String} (solid : Solid definition)
    (undivided : Undivided definition)
    (nameless : dropWord? "CONSTRAINT".toList definition = none)
    (strippedNamed : stripComments named.toList = around.text (name.text definition))
    (strippedUnnamed : stripComments unnamed.toList = around.text definition) :
    ofDocument named = ofDocument unnamed := by
  rw [ofDocument_surrounded (name.solid_text solid) (name.undivided_text undivided) strippedNamed,
    ofDocument_surrounded solid undivided strippedUnnamed, name.read_text solid nameless]

/-- The name `p.k,(` in double quotes. -/
def ConstraintName.marked : ConstraintName :=
  have spells : Spells ('\x22' :: "p.k,(".toList ++ ['\x22']) "p.k,(".toList :=
    .quoted '\x22' rfl (by decide)
  have unbroken : "p.k,(".toList.all fun c => !isBlank c := by decide
  .ofSpells spells fun c member => by simpa using List.all_eq_true.1 unbroken c member

/-- Points, commas and parentheses between quotes belong to the name. -/
theorem Report.ofDocument_named_quoted :
    ofDocument "CREATE TABLE t (a INTEGER, CONSTRAINT \x22p.k,(\x22 PRIMARY KEY (a))" =
      ofDocument "CREATE TABLE t (a INTEGER, PRIMARY KEY (a))" :=
  @ofDocument_named .behindColumn .marked "PRIMARY KEY (a)".toList _ _
    ⟨by decide, by decide, by decide⟩ (by decide) (by decide) (by decide) (by decide)

/-- A name that has a blank between its quotes is cut at the blank, and the constraint
behind it is lost. -/
theorem Report.not_forall_named :
    ¬∀ (around : Surroundings) (written name definition : List Char) (named unnamed : String),
      Spells written name → Solid definition → Undivided definition →
      dropWord? "CONSTRAINT".toList definition = none →
      stripComments named.toList =
        around.text ("CONSTRAINT ".toList ++ (written ++ ' ' :: definition)) →
      stripComments unnamed.toList = around.text definition →
      ofDocument named = ofDocument unnamed := by
  intro all
  have spells : Spells ('\x22' :: "p k".toList ++ ['\x22']) "p k".toList :=
    .quoted '\x22' rfl (by decide)
  have solid : Solid "PRIMARY KEY (a)".toList := ⟨by decide, by decide, by decide⟩
  have undivided : Undivided "PRIMARY KEY (a)".toList := by decide
  have stripped : stripComments "CREATE TABLE t (a INTEGER, PRIMARY KEY (a))".toList =
      Surroundings.behindColumn.text "PRIMARY KEY (a)".toList := by decide
  have strippedNamed :
      stripComments "CREATE TABLE t (a INTEGER, CONSTRAINT \x22p k\x22 PRIMARY KEY (a))".toList =
        Surroundings.behindColumn.text ("CONSTRAINT ".toList ++
          (('\x22' :: "p k".toList ++ ['\x22']) ++ ' ' :: "PRIMARY KEY (a)".toList)) := by
    decide
  have same := all .behindColumn _ _ _ _ _ spells solid undivided (by decide) strippedNamed stripped
  -- Both documents have the table up to the key, and differ in what the key is read as.
  rw [ofDocument_surrounded ⟨by decide, by decide, by decide⟩ (by decide) strippedNamed,
    ofDocument_surrounded solid undivided stripped] at same
  revert same
  decide +kernel

end SchemaLoom.Ddl
