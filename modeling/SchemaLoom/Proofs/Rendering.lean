import SchemaLoom.Ddl.Render
import SchemaLoom.Proofs.ColumnTypes
import SchemaLoom.Proofs.Statements
import SchemaLoom.Proofs.Unmarked

/-!
# Reading what was rendered

A rendered schema is read back without gaps. Tables and columns come back in order,
with everything that their names suggest; relationships come back under the table
that they leave. Names must be fit to stand without quotes, and nothing else is asked
of them: they may repeat, name no table, or spell keywords.
-/

namespace SchemaLoom.Ddl

open SchemaLoom.Text

/-- A name that can stand in a statement without quotes. -/
def IsPlain (name : String) : Prop :=
  name ≠ "" ∧
    (∀ c ∈ name.toList, isBlank c = false ∧
      c ∉ ['(', ')', ',', ';', '.', '\x22', '\x27', '\x60', '[', ']']) ∧
    contains ['-', '-'] name.toList = false ∧ contains ['/', '*'] name.toList = false

instance (name : String) : Decidable (IsPlain name) :=
  have := List.decidableBAll (fun c => isBlank c = false ∧
    c ∉ ['(', ')', ',', ';', '.', '\x22', '\x27', '\x60', '[', ']']) name.toList
  inferInstanceAs (Decidable (_ ∧ _))

/-- A schema whose tables, columns and ends of relationships have plain names. -/
def NamesPlain (schema : Schema) : Prop :=
  (∀ entity ∈ schema.entities,
    IsPlain entity.name ∧ ∀ column ∈ entity.attributes, IsPlain column.name) ∧
  ∀ relationship ∈ schema.relationships, ∀ name ∈ relationship.endpoints, IsPlain name

instance (schema : Schema) : Decidable (NamesPlain schema) :=
  inferInstanceAs (Decidable (_ ∧ _))

/-- A relationship between the tables of its entities, without its label. -/
def pluralized (relationship : Relationship) : Relationship :=
  { fromTable := pluralize relationship.fromTable
    fromColumn := relationship.fromColumn
    toTable := pluralize relationship.toTable
    toColumn := relationship.toColumn }

/-- The entity that the table of an entity reads as. -/
def readBack (entity : Entity) : Entity :=
  .ofNames (pluralize entity.name) (entity.attributes.map Attribute.name)

namespace IsPlain

variable {name : String}

/-- A plain name is not empty. -/
theorem nonempty (plain : IsPlain name) : name.toList ≠ [] :=
  fun empty => plain.1 (String.toList_eq_nil_iff.1 empty)

/-- A plain name has no quotes. -/
theorem quoteFree (plain : IsPlain name) : QuoteFree name.toList := by
  intro c member
  have other := (plain.2.1 c member).2
  simp only [List.mem_cons, List.not_mem_nil, or_false, not_or] at other
  exact quoteClose?_eq_none (by simp [other])

/-- Every character of a plain name may stand in a bare name. -/
theorem nameChars (plain : IsPlain name) : ∀ c ∈ name.toList, isNameChar c := by
  intro c member
  obtain ⟨solid, other⟩ := plain.2.1 c member
  simp only [List.mem_cons, List.not_mem_nil, or_false, not_or] at other
  simp [isNameChar, solid, other]

/-- A plain name is written bare. -/
theorem spells (plain : IsPlain name) : Spells name.toList name.toList :=
  .bare plain.nonempty plain.nameChars plain.quoteFree

/-- The plural is the name with the letter behind it. -/
theorem toList_pluralize (name : String) : (pluralize name).toList = name.toList ++ ['s'] := by
  rw [pluralize, String.toList_append]
  rfl

/-- The plural of a plain name is plain. -/
theorem plural (plain : IsPlain name) : IsPlain (pluralize name) := by
  obtain ⟨-, others, noLine, noBlock⟩ := plain
  have nonempty : pluralize name ≠ "" := by
    intro empty
    have letters := congrArg String.toList empty
    rw [toList_pluralize] at letters
    cases List.append_eq_nil_iff.1 letters with
    | intro _ last => cases last
  rw [IsPlain, toList_pluralize]
  refine ⟨nonempty, ?_, not_contains_concat (by decide) noLine,
    not_contains_concat (by decide) noBlock⟩
  intro c member
  rcases List.mem_append.1 member with inName | last
  · exact others c inName
  · obtain rfl := List.mem_singleton.1 last
    decide

/-- Neither quotes nor comments begin in a plain name. -/
theorem unmarked (plain : IsPlain name) : Unmarked name.toList :=
  ⟨plain.quoteFree, plain.2.2.1, plain.2.2.2⟩

/-- No comment begins in a plain name or between it and what follows. -/
theorem strips (plain : IsPlain name) {c : Char} {later : List Char}
    (ordinary : c ≠ '-' ∧ c ≠ '*') (others : Strips (c :: later) (c :: later)) :
    Strips (name.toList ++ c :: later) (name.toList ++ c :: later) := by
  have unmarked := plain.unmarked
  intro rest
  generalize name.toList = text at unmarked
  induction text with
  | nil => exact others rest
  | cons d text inductionHypothesis =>
      obtain ⟨unquoted, noComment, inside⟩ := Unmarked.cons_iff.1 unmarked
      have noComment : opensComment d (text ++ c :: later ++ rest) = false := by
        cases text with
        | nil => simp [opensComment, ordinary]
        | cons next text => exact noComment
      rw [List.cons_append, List.cons_append, replaceComments_plain_cons noComment,
        Mode.afterPlain, unquoted, inductionHypothesis inside]
      rfl

end IsPlain

/-- The constraints of a column as they are written behind its type. -/
def constraintsText (constraints : List Constraint) : List Char :=
  constraints.flatMap fun constraint => ' ' :: constraint.keywords.toList

/-- The definition of a column. -/
def columnText (name : String) (primaryKey : Bool) : List Char :=
  let inference := Inference.ofName name
  name.toList ++ ([' '] ++ (inference.columnType.spelling.toList ++
    constraintsText (inference.constraints primaryKey)))

/-- The line of a column is its definition, indented by two blanks. -/
theorem toList_columnLine (name : String) (primaryKey : Bool) :
    (columnLine name primaryKey).toList = ' ' :: ' ' :: columnText name primaryKey := by
  have constraints : ∀ list : List Constraint,
      (String.join (list.map fun constraint => " " ++ constraint.keywords)).toList =
        constraintsText list := by
    intro list
    simp [String.toList_join, constraintsText, List.flatMap_map]
  simp [columnLine, columnText, constraints]

/-- What reading needs to know about the constraints of a column. -/
structure ReadsConstraints (text : List Char) (primaryKey unique notNull : Bool) : Prop where
  endsWord : EndsWord text
  noParenthesis : '(' ∉ text
  undivided : Undivided text
  ordinary : Ordinary text
  occurs : (Phrase.ofWords ["PRIMARY", "KEY"]).occursIn (trim text) = primaryKey ∧
    (Phrase.ofWords ["UNIQUE"]).occursIn (trim text) = unique ∧
    (Phrase.ofWords ["NOT", "NULL"]).occursIn (trim text) = notNull
  noReference : findReference? false (trim text) = none
  endsSolid : EndsSolid text

/-- Whatever a name suggests, the constraints that are written are found again and nothing
besides them. -/
theorem readsConstraints (inference : Inference) (primaryKey : Bool) :
    ReadsConstraints (constraintsText (inference.constraints primaryKey)) primaryKey
      inference.unique inference.notNull := by
  unfold Inference.constraints
  generalize inference.unique = unique
  generalize inference.notNull = notNull
  cases primaryKey <;> cases unique <;> cases notNull <;>
    exact ⟨by decide, by decide, by decide, by decide, by decide, by decide, by decide⟩

/-- Case may be changed twice where letters have one of each case. -/
theorem toLower_toUpper {c : Char} (ascii : c.toNat < 0x80) : c.toUpper.toLower = c.toLower := by
  have all : ∀ code < 0x80, (Char.ofNat code).toUpper.toLower = (Char.ofNat code).toLower := by
    decide +kernel
  have here := all c.toNat ascii
  rwa [Char.ofNat_toNat] at here

/-- The small form of a character that stands for a capital letter. -/
theorem smallForm_of_foldsTo {capital c : Char} (upper : capital.isUpper = true)
    (folds : foldsTo capital c) : smallForm c = ['\u017F'] ∨ smallForm c = [capital.toLower] := by
  simp only [foldsTo, Bool.or_eq_true, Bool.and_eq_true, beq_iff_eq] at folds
  rcases folds with (same | ⟨rfl, rfl⟩) | ⟨-, rfl⟩
  · have word := isAsciiWord_of_toUpper (same ▸ upper)
    have noSign : c ≠ '\u212A' ∧ c ≠ '\u0130' := by
      constructor <;> rintro rfl <;> exact absurd word (by decide)
    refine .inr ?_
    rw [← same, toLower_toUpper (ascii_of_isAsciiWord word)]
    simp [smallForm, noSign]
  · exact .inr (by decide)
  · exact .inl (by decide)

/-- The small letters of a text that reads as a keyword are those of the keyword, or
the long s. -/
theorem mem_lowercase_of_dropKeyword? {keyword text : List Char}
    (letters : Capitals keyword)
    (found : dropKeyword? keyword text = some []) :
    ∀ c ∈ lowercase text, c = '\u017F' ∨ ∃ capital ∈ keyword, c = capital.toLower := by
  induction keyword generalizing text with
  | nil =>
      obtain rfl : text = [] := by simpa [dropKeyword?] using found
      simp [lowercase]
  | cons capital keyword inductionHypothesis =>
      obtain ⟨upper, others⟩ := List.forall_mem_cons.1 letters
      cases text with
      | nil => cases found
      | cons d text =>
          rw [dropKeyword?] at found
          split at found
          · rename_i folds
            intro c member
            rw [lowercase, List.flatMap_cons, List.mem_append] at member
            rcases member with here | later
            · rcases smallForm_of_foldsTo upper folds with same | same
              · exact .inl (by simpa [same] using here)
              · exact .inr ⟨capital, List.mem_cons_self, by simpa [same] using here⟩
            · rcases inductionHypothesis others found c later with longS | ⟨other, member, same⟩
              · exact .inl longS
              · exact .inr ⟨other, List.mem_cons_of_mem _ member, same⟩
          · cases found

/-- A column that is named like the keyword of a constraint name has no constraints:
its letters suggest none. -/
theorem constraints_of_constraintKeyword {name : String} {primaryKey : Bool}
    (found : dropKeyword? "CONSTRAINT".toList name.toList = some [])
    (flag : primaryKey = true -> Inference.isIdLike name = true) :
    (Inference.ofName name).constraints primaryKey = [] := by
  have letters := mem_lowercase_of_dropKeyword? (by decide) found
  have others : "CONSTRAINT".toList.all (fun capital =>
      capital.toLower != 'e' && capital.toLower != 'd') = true := by
    decide
  have absent : 'e' ∉ lowercase name.toList ∧ 'd' ∉ lowercase name.toList := by
    constructor <;> intro member <;> rcases letters _ member with longS | ⟨capital, isIn, same⟩
    · exact absurd longS (by decide)
    · simpa [← same] using List.all_eq_true.1 others capital isIn
    · exact absurd longS (by decide)
    · simpa [← same] using List.all_eq_true.1 others capital isIn
  have notIdLike : Inference.endsLikeId (lowercase name.toList) = false := by
    refine Bool.eq_false_iff.2 fun idLike => absent.2 ?_
    have ends := (Bool.and_eq_true_iff.1 idLike).1
    exact List.mem_reverse.1 ((startsWith_iff.1 ends).subset (by decide))
  have notUnique : (Inference.ofName name).unique = false :=
    Bool.eq_false_iff.2 fun unique => absent.1 ((contains_iff.1 unique).subset (by decide))
  have notNamed : (Inference.ofName name).notNull = false :=
    Bool.eq_false_iff.2 fun notNull =>
      absent.1 ((contains_iff.1 (Bool.and_eq_true_iff.1 notNull).1).subset (by decide))
  have notPrimary : primaryKey = false :=
    Bool.eq_false_iff.2 fun primary => by simpa [Inference.isIdLike, notIdLike] using flag primary
  simp [Inference.constraints, notPrimary, notUnique, notNamed]

/-- Only three types are ever written. -/
theorem mem_spelling_ofName (name : String) :
    (Inference.ofName name).columnType.spelling ∈ ["INTEGER", "DATE", "TEXT"] := by
  simp only [Inference.ofName]
  repeat' split
  all_goals decide

/-- An inferred type is spelled by a word that opens no clause and neither a key. -/
theorem spelling_ofName (name : String) :
    ∃ first rest, (Inference.ofName name).columnType.spelling.toList = first :: rest ∧
      (∀ c ∈ first :: rest, isAsciiWord c = true) ∧ foldsTo 'K' first = false ∧
      isClauseKeyword (first :: rest) = false := by
  have spelled := mem_spelling_ofName name
  generalize (Inference.ofName name).columnType.spelling = spelling at spelled
  simp only [List.mem_cons, List.not_mem_nil, or_false] at spelled
  have word {letters : List Char} (capitals : Capitals letters) :
      ∀ c ∈ letters, isAsciiWord c = true :=
    fun c member => isAsciiWord_of_isUpper (capitals c member)
  rcases spelled with rfl | rfl | rfl <;>
    exact ⟨_, _, rfl, word (by decide), by decide, by decide⟩

/-- A leading constraint name is not found in the definition of a column. -/
theorem withoutConstraintName_columnText {name : String} (plain : IsPlain name) {primaryKey : Bool}
    (flag : primaryKey = true -> Inference.isIdLike name = true) :
    withoutConstraintName (columnText name primaryKey) = columnText name primaryKey := by
  obtain ⟨first, rest, spelling, word, -, -⟩ := spelling_ofName name
  have solid : ∀ c ∈ first :: rest, isBlank c = false :=
    fun c member => isBlank_of_isAsciiWord (word c member)
  let constraints := constraintsText ((Inference.ofName name).constraints primaryKey)
  have whole : (dropKeyword? "CONSTRAINT".toList
      (name.toList ++ ([' '] ++ ((first :: rest) ++ constraints)))).bind dropBlanks? =
        if dropKeyword? "CONSTRAINT".toList name.toList = some []
        then dropBlanks? ([' '] ++ ((first :: rest) ++ constraints)) else none :=
    keywordAndBlanks_whole (by decide) (fun c member => (plain.2.1 c member).1)
      (by rintro c ⟨rfl⟩; decide)
  rw [withoutConstraintName]
  simp only [columnText, spelling]
  rw [whole]
  by_cases named : dropKeyword? "CONSTRAINT".toList name.toList = some []
  · -- The type stands where the name would, and nothing is left behind it.
    have none : constraints = [] := by
      simp only [constraints, constraints_of_constraintKeyword named flag]
      rfl
    have start : StartsSolid ((first :: rest) ++ []) := .cons (solid first List.mem_cons_self) _
    have nothing : (first :: rest).dropWhile (fun c => !isBlank c) = [] := by
      have accepted : ∀ c ∈ first :: rest, (!isBlank c) = true := by simpa using solid
      have split : ((first :: rest) ++ []).dropWhile (fun c => !isBlank c) = [] :=
        (takeWhile_append_of_ends accepted (by simp)).2
      rwa [List.append_nil] at split
    rw [if_pos named, none, dropBlanks?_blanks (by decide) (by decide) start]
    simp [nothing, dropBlanks?]
  · rw [if_neg named]

/-- No column is taken for a foreign key, whose second word no type begins like. -/
theorem dropWhole?_columnText {name : String} (plain : IsPlain name) (primaryKey : Bool) :
    foreignKeyPhrase.dropWhole? (columnText name primaryKey) = none := by
  obtain ⟨first, rest, spelling, word, noKey, -⟩ := spelling_ofName name
  let constraints := constraintsText ((Inference.ofName name).constraints primaryKey)
  have whole : (dropKeyword? "FOREIGN".toList
      (name.toList ++ ([' '] ++ ((first :: rest) ++ constraints)))).bind dropBlanks? =
        if dropKeyword? "FOREIGN".toList name.toList = some []
        then dropBlanks? ([' '] ++ ((first :: rest) ++ constraints)) else none :=
    keywordAndBlanks_whole (by decide) (fun c member => (plain.2.1 c member).1)
      (by rintro c ⟨rfl⟩; decide)
  have start : StartsSolid ((first :: rest) ++ constraints) :=
    .cons (isBlank_of_isAsciiWord (word first List.mem_cons_self)) _
  have absent : foreignKeyPhrase.drop? (columnText name primaryKey) = none := by
    rw [foreignKeyPhrase, Phrase.ofWords, List.map_cons, List.map_cons, Phrase.drop?_cons_cons]
    simp only [columnText, spelling]
    rw [whole]
    split
    · rw [dropBlanks?_blanks (by decide) (by decide) start]
      simp [Phrase.drop?, dropKeyword?, noKey]
    · rfl
  rw [Phrase.dropWhole?, absent]
  rfl

/-- The definition of a column is read with everything that its name suggests. -/
theorem read_columnText {name : String} (plain : IsPlain name) {primaryKey : Bool}
    (flag : primaryKey = true -> Inference.isIdLike name = true) (table : String) :
    Definition.read table (columnText name primaryKey) =
      .column { Attribute.inferred name with primaryKey } none := by
  obtain ⟨first, rest, spelling, word, -, ordinary⟩ := spelling_ofName name
  obtain ⟨endsWord, noParenthesis, -, -, ⟨primary, unique, notNull⟩, noReference, -⟩ :=
    readsConstraints (Inference.ofName name) primaryKey
  have typed : TypeText (first :: rest) (first :: rest) := .word (List.cons_ne_nil first rest) word
  have noTypeParenthesis : '(' ∉ first :: rest := fun member => absurd (word _ member) (by decide)
  have noKey : tableKey? (columnText name primaryKey) = none := by
    refine tableKey?_of_not_mem ?_
    simp only [columnText, spelling, List.mem_append, not_or]
    refine ⟨fun member => ?_, by decide, noTypeParenthesis, noParenthesis⟩
    exact absurd (plain.2.1 _ member).2 (by decide)
  have noParameters : (trimStart (constraintsText
      ((Inference.ofName name).constraints primaryKey))).head? ≠ some '(' := by
    intro parenthesis
    exact noParenthesis ((trimStart_suffix _).subset (List.mem_of_mem_head? parenthesis))
  have column := readColumn_eq table plain.spells isBlankText_space space_ne_nil typed.spells
    ordinary endsWord noParameters
  rw [Definition.read, withoutConstraintName_columnText plain flag, dropWhole?_columnText plain]
  simp only [noKey]
  simp only [columnText, spelling]
  rw [column]
  have normal : ColumnType.ofSpelling (String.ofList (first :: rest)) =
      (Inference.ofName name).columnType := by
    rw [← spelling, String.ofList_toList]
    exact Inference.ofName_isNormal name
  simp only [columnDefinition, primary, unique, notNull, noReference, Option.map_none,
    Attribute.declared, Attribute.inferred, normal, String.ofList_toList]

/-- The definition of a column stays one fragment and holds no comment. -/
theorem columnText_undivided {name : String} (plain : IsPlain name) (primaryKey : Bool) :
    Undivided (columnText name primaryKey) := by
  obtain ⟨first, rest, spelling, word, -, -⟩ := spelling_ofName name
  obtain ⟨-, -, undivided, -, -, -, -⟩ := readsConstraints (Inference.ofName name) primaryKey
  have space : Undivided [' '] := by decide
  simp only [columnText, spelling]
  exact plain.spells.undivided.append (space.append
    ((Spells.of_word (List.cons_ne_nil first rest) word).undivided.append undivided))

/-- No comment begins in the definition of a column. -/
theorem columnText_strips {name : String} (plain : IsPlain name) (primaryKey : Bool) :
    Strips (columnText name primaryKey) (columnText name primaryKey) := by
  obtain ⟨first, rest, spelling, word, -, -⟩ := spelling_ofName name
  obtain ⟨-, -, -, ordinary, -, -, -⟩ := readsConstraints (Inference.ofName name) primaryKey
  simp only [columnText, spelling, List.singleton_append]
  have space : Strips [' '] [' '] := .of_ordinary (by decide)
  have type : Strips (first :: rest) (first :: rest) := .of_ordinary (ordinary_of_isAsciiWord word)
  exact plain.strips (by decide) (space.append (type.append (.of_ordinary ordinary)))

/-- The definition of a column neither begins nor ends with a blank. -/
theorem columnText_solid {name : String} (plain : IsPlain name) (primaryKey : Bool) :
    Solid (columnText name primaryKey) := by
  obtain ⟨first, rest, spelling, word, -, -⟩ := spelling_ofName name
  obtain ⟨-, -, -, -, -, -, endsSolid⟩ := readsConstraints (Inference.ofName name) primaryKey
  have type := (Spells.of_word (List.cons_ne_nil first rest) word).solid.last
  have space : EndsSolid ([' '] ++ (first :: rest)) :=
    type.append_right (List.cons_ne_nil first rest) _
  simp only [columnText, spelling]
  rw [← List.append_assoc [' ']]
  exact plain.spells.solid.append (space.append endsSolid)

/-- The definition of a foreign key. -/
def foreignKeyText (relationship : Relationship) : List Char :=
  ("FOREIGN".toList ++ ([' '] ++ "KEY".toList)) ++ ([' '] ++
    (enclosed [] relationship.fromColumn.toList [] ++ ([' '] ++
      ("REFERENCES".toList ++ ([' '] ++ ((pluralize relationship.toTable).toList ++ ([] ++
        enclosed [] relationship.toColumn.toList [])))))))

/-- The line of a foreign key is its definition, indented by two blanks. -/
theorem toList_foreignKeyLine (relationship : Relationship) :
    (foreignKeyLine relationship).toList = ' ' :: ' ' :: foreignKeyText relationship := by
  have opening : "  FOREIGN KEY (".toList =
      ' ' :: ' ' :: ("FOREIGN".toList ++ (' ' :: ("KEY".toList ++ [' ', '(']))) := by
    decide
  have middle : ") REFERENCES ".toList = ')' :: ' ' :: ("REFERENCES".toList ++ [' ']) := by decide
  unfold foreignKeyLine foreignKeyText
  -- Names stand for themselves here, and would only be unfolded in the search for literals.
  generalize pluralize relationship.toTable = table
  generalize relationship.fromColumn = fromColumn
  generalize relationship.toColumn = toColumn
  rw [String.toList_append, String.toList_append, String.toList_append, String.toList_append,
    String.toList_append, String.toList_append, opening, middle]
  simp only [enclosed, List.append_assoc, List.cons_append, List.nil_append]
  rfl

/-- A relationship whose ends have plain names. -/
def EndpointsPlain (relationship : Relationship) : Prop :=
  ∀ name ∈ relationship.endpoints, IsPlain name

section ForeignKeys

variable {relationship : Relationship}

/-- A foreign key is written in the form that is read, with the names of its ends. -/
theorem foreignKeyText_shape (plain : EndpointsPlain relationship) :
    ForeignKeyText (foreignKeyText relationship) relationship.fromColumn.toList
      ((pluralize relationship.toTable).toList, relationship.toColumn.toList) := by
  have column := plain relationship.fromColumn (by simp [Relationship.endpoints])
  have table := plain relationship.toTable (by simp [Relationship.endpoints])
  have target := plain relationship.toColumn (by simp [Relationship.endpoints])
  have words : PairText "FOREIGN" "KEY" ("FOREIGN".toList ++ ([' '] ++ "KEY".toList)) :=
    .spaced (by decide) (by decide)
  exact .intro words rfl rfl column.spells rfl rfl
    (.intro (by decide) rfl (by simp) (.last table.plural.spells) rfl rfl target.spells rfl)

/-- No comment begins in the definition of a foreign key. -/
theorem foreignKeyText_strips (plain : EndpointsPlain relationship) :
    Strips (foreignKeyText relationship) (foreignKeyText relationship) := by
  have column := plain relationship.fromColumn (by simp [Relationship.endpoints])
  have table := plain relationship.toTable (by simp [Relationship.endpoints])
  have target := plain relationship.toColumn (by simp [Relationship.endpoints])
  have closing : Strips [')'] [')'] := .of_ordinary (by decide)
  have parentheses : Strips ['s', '('] ['s', '('] := .of_ordinary (by decide)
  have keyword : Strips (')' :: ' ' :: ("REFERENCES".toList ++ [' ']))
      (')' :: ' ' :: ("REFERENCES".toList ++ [' '])) :=
    .of_ordinary (by decide)
  have opening : Strips ("FOREIGN".toList ++ ([' '] ++ "KEY".toList) ++ [' ', '('])
      ("FOREIGN".toList ++ ([' '] ++ "KEY".toList) ++ [' ', '(']) :=
    .of_ordinary (by decide)
  have last := target.strips (by decide) closing
  have middle := table.strips (by decide) (parentheses.append last)
  have first := column.strips (by decide) (keyword.append middle)
  have same : foreignKeyText relationship =
      "FOREIGN".toList ++ ([' '] ++ "KEY".toList) ++ [' ', '('] ++
        (relationship.fromColumn.toList ++ (')' :: ' ' :: ("REFERENCES".toList ++ [' ']) ++
          (relationship.toTable.toList ++ (['s', '('] ++
            (relationship.toColumn.toList ++ [')']))))) := by
    have plural := IsPlain.toList_pluralize relationship.toTable
    unfold foreignKeyText
    generalize pluralize relationship.toTable = table at plural
    generalize relationship.toTable = name at plural
    generalize relationship.fromColumn = fromColumn
    generalize relationship.toColumn = toColumn
    simp only [enclosed, plural, List.append_assoc, List.cons_append, List.nil_append]
  rw [same]
  exact opening.append first

/-- The relationship that a foreign key reads as. -/
theorem read_foreignKeyText (plain : EndpointsPlain relationship) (table : String)
    (leaves : table = pluralize relationship.fromTable) :
    Definition.read table (foreignKeyText relationship) =
      .foreignKey (pluralized relationship) := by
  rw [(foreignKeyText_shape plain).read_eq, leaves]
  simp only [String.ofList_toList, pluralized]

end ForeignKeys

/-- The definitions of a table body. -/
def definitionTexts (entity : Entity) (relationships : List Relationship) : List (List Char) :=
  let names := entity.attributes.map Attribute.name
  List.zipWith columnText names (Inference.primaryKeyFlags names) ++
    relationships.map foreignKeyText

/-- The lines of a body are its definitions, each indented by two blanks. -/
theorem map_toList_bodyLines (entity : Entity) (relationships : List Relationship) :
    (bodyLines entity relationships).map String.toList =
      (definitionTexts entity relationships).map fun text => ' ' :: ' ' :: text := by
  simp only [bodyLines, definitionTexts, List.map_append, List.map_map, List.map_zipWith]
  congr 1
  · simp only [toList_columnLine]
  · exact List.map_congr_left fun relationship _ => toList_foreignKeyLine relationship

/-- The pieces of a body between its commas: each definition on a line of its own. -/
def bodyPieces : List (List Char) -> List (List Char)
  | [] => [['\n']]
  | [text] => [['\n', ' ', ' '] ++ (text ++ ['\n'])]
  | text :: texts => (['\n', ' ', ' '] ++ (text ++ [])) :: bodyPieces texts

/-- The blanks around a definition are trimmed away. -/
theorem trim_bodyPiece {text after : List Char} (solid : Solid text) (blank : isBlankText after) :
    trim (['\n', ' ', ' '] ++ (text ++ after)) = text :=
  trim_around (by decide) solid blank

/-- Trimmed, the pieces of a body are its definitions. -/
theorem trim_bodyPieces {texts : List (List Char)} (solid : ∀ text ∈ texts, Solid text) :
    ((bodyPieces texts).map trim).filter (fun piece => !piece.isEmpty) = texts := by
  fun_induction bodyPieces texts with
  | case1 => decide
  | case2 text =>
      have first := solid text List.mem_cons_self
      rw [List.map_singleton, trim_bodyPiece first (by decide)]
      simp [first.nonempty]
  | case3 text texts _ inductionHypothesis =>
      obtain ⟨first, others⟩ := List.forall_mem_cons.1 solid
      rw [List.map_cons, trim_bodyPiece first rfl,
        List.filter_cons_of_pos (by simp [first.nonempty]), inductionHypothesis others]

/-- What holds of blanks and of the definitions and goes over to joined texts holds of
the pieces of a body. -/
theorem forall_mem_bodyPieces {holds : List Char -> Prop} {texts : List (List Char)}
    (append : ∀ first second, holds first -> holds second -> holds (first ++ second))
    (blanks : holds [] ∧ holds ['\n'] ∧ holds ['\n', ' ', ' ']) (all : ∀ text ∈ texts, holds text) :
    ∀ piece ∈ bodyPieces texts, holds piece := by
  obtain ⟨nothing, newline, indent⟩ := blanks
  fun_induction bodyPieces texts with
  | case1 => simpa using newline
  | case2 text =>
      have first := all text List.mem_cons_self
      simpa using append _ _ indent (append _ _ first newline)
  | case3 text texts _ inductionHypothesis =>
      obtain ⟨first, others⟩ := List.forall_mem_cons.1 all
      exact List.forall_mem_cons.2 ⟨append _ _ indent (append _ _ first nothing),
        inductionHypothesis others⟩

/-- A body between its parentheses. -/
def bodyText (texts : List (List Char)) : List Char :=
  separated ',' (bodyPieces texts)

/-- A body goes on behind its first definition with a comma. -/
theorem bodyText_cons_cons (text next : List Char) (texts : List (List Char)) :
    bodyText (text :: next :: texts) =
      '\n' :: ' ' :: ' ' :: (text ++ ',' :: bodyText (next :: texts)) := by
  cases texts <;> simp [bodyText, bodyPieces, separated]

/-- Indented lines that are joined by commas and line breaks are a body. -/
theorem toList_join {line : String} {text : List Char} {lines : List String}
    {texts : List (List Char)} (first : line.toList = ' ' :: ' ' :: text)
    (others : lines.map String.toList = texts.map fun text => ' ' :: ' ' :: text) :
    '\n' :: ((Text.join ",\n" (line :: lines)).toList ++ ['\n']) = bodyText (text :: texts) := by
  induction lines generalizing line text texts with
  | nil =>
      obtain rfl : texts = [] := by simpa using others.symm
      simp [Text.join, first, bodyText, bodyPieces, separated]
  | cons next lines inductionHypothesis =>
      cases texts with
      | nil => simp at others
      | cons following texts =>
          obtain ⟨second, rest⟩ := List.cons.inj others
          have inner := inductionHypothesis second rest
          have newline : ",\n".toList = [',', '\n'] := by decide
          have pieces : bodyText (text :: following :: texts) =
              ['\n', ' ', ' '] ++ (text ++ []) ++ ',' :: bodyText (following :: texts) := by
            cases texts <;> rfl
          rw [Text.join, String.toList_append, String.toList_append, first, newline, pieces,
            ← inner]
          · simp
          · simp

/-- The lines of a body are its definitions again. -/
theorem toList_bodyLines {lines : List String} {texts : List (List Char)}
    (same : lines.map String.toList = texts.map fun text => ' ' :: ' ' :: text) :
    '\n' :: (if lines.isEmpty then "" else Text.join ",\n" lines ++ "\n").toList =
      bodyText texts := by
  cases lines with
  | nil =>
      obtain rfl : texts = [] := by simpa using same.symm
      rfl
  | cons line lines =>
      cases texts with
      | nil => simp at same
      | cons text texts =>
          obtain ⟨first, others⟩ := List.cons.inj same
          rw [← toList_join first others]
          simp

/-- The head of the statement of an entity. -/
def headText (name : String) : List Char :=
  ("CREATE".toList ++ ([' '] ++ "TABLE".toList)) ++ ([' '] ++ ("IF".toList ++ ([' '] ++
    (("NOT".toList ++ ([' '] ++ "EXISTS".toList)) ++ ([' '] ++
      ((pluralize name).toList ++ ([' '] ++ ['('])))))))

/-- The head of a rendered table is read as a head, with the plural of the name. -/
theorem headText_shape {name : String} (plain : IsPlain name) :
    HeadText (headText name) (pluralize name).toList :=
  .conditional (.spaced (by decide) (by decide)) rfl (by simp) (by decide) rfl (by simp)
    (.spaced (by decide) (by decide)) rfl (by simp) (.last plain.plural.spells) rfl

/-- A rendered table is its head, its body, the closing parenthesis and the semicolon. -/
theorem toList_renderEntity (entity : Entity) (relationships : List Relationship) :
    (renderEntity entity relationships).toList = headText entity.name ++
      (bodyText (definitionTexts entity relationships) ++ [')', ';']) := by
  have body := toList_bodyLines (map_toList_bodyLines entity relationships)
  have opening : "CREATE TABLE IF NOT EXISTS ".toList =
      ("CREATE".toList ++ ([' '] ++ "TABLE".toList)) ++ ([' '] ++ ("IF".toList ++ ([' '] ++
        (("NOT".toList ++ ([' '] ++ "EXISTS".toList)) ++ [' '])))) := by
    decide
  have middle : " (\n".toList = [' ', '(', '\n'] := by decide
  have closing : ");".toList = [')', ';'] := by decide
  unfold renderEntity headText
  generalize bodyLines entity relationships = lines at body
  generalize pluralize entity.name = name
  rw [← body]
  dsimp only
  rw [String.toList_append, String.toList_append, String.toList_append, String.toList_append,
    opening, middle, closing]
  simp only [List.append_assoc, List.cons_append, List.nil_append]

/-- No comment begins in the head of a rendered table. -/
theorem headText_strips {name : String} (plain : IsPlain name) :
    Strips (headText name) (headText name) := by
  have opening : Strips ("CREATE".toList ++ ([' '] ++ "TABLE".toList) ++ ([' '] ++ ("IF".toList ++
      ([' '] ++ (("NOT".toList ++ ([' '] ++ "EXISTS".toList)) ++ [' '])))))
      ("CREATE".toList ++ ([' '] ++ "TABLE".toList) ++ ([' '] ++ ("IF".toList ++
      ([' '] ++ (("NOT".toList ++ ([' '] ++ "EXISTS".toList)) ++ [' '])))))  :=
    .of_ordinary (by decide)
  have ending : Strips ['s', ' ', '('] ['s', ' ', '('] := .of_ordinary (by decide)
  have whole := opening.append (plain.strips (by decide) ending)
  have plural := IsPlain.toList_pluralize name
  unfold headText
  generalize pluralize name = table at plural
  rw [plural]
  simpa only [List.append_assoc, List.cons_append, List.nil_append] using whole

section Entities

variable {entity : Entity} {relationships : List Relationship}

/-- An entity and relationships that leave it, all with plain names. -/
structure TablePlain (entity : Entity) (relationships : List Relationship) : Prop where
  name : IsPlain entity.name
  columns : ∀ column ∈ entity.attributes, IsPlain column.name
  endpoints : ∀ relationship ∈ relationships, EndpointsPlain relationship
  leaving : ∀ relationship ∈ relationships, relationship.fromTable = entity.name

/-- What holds of every column and of every foreign key holds of every definition. -/
theorem forall_mem_definitionTexts {holds : List Char -> Prop}
    (plain : TablePlain entity relationships)
    (column : ∀ name primaryKey, IsPlain name -> holds (columnText name primaryKey))
    (foreignKey : ∀ relationship, EndpointsPlain relationship ->
      holds (foreignKeyText relationship)) :
    ∀ text ∈ definitionTexts entity relationships, holds text := by
  intro text member
  rcases List.mem_append.1 member with inColumns | inKeys
  · obtain ⟨name, isName, primaryKey, -, rfl⟩ := exists_of_mem_zipWith inColumns
    obtain ⟨declared, isAttribute, rfl⟩ := List.mem_map.1 isName
    exact column _ primaryKey (plain.columns declared isAttribute)
  · obtain ⟨relationship, isIn, rfl⟩ := List.mem_map.1 inKeys
    exact foreignKey relationship (plain.endpoints relationship isIn)

/-- No definition falls apart at a comma of its own. -/
theorem bodyPieces_undivided (plain : TablePlain entity relationships) :
    ∀ piece ∈ bodyPieces (definitionTexts entity relationships), Undivided piece :=
  forall_mem_bodyPieces (fun _ _ => Undivided.append) (by decide)
    (forall_mem_definitionTexts plain
      (fun _ primaryKey name => columnText_undivided name primaryKey)
      fun _ endpoints => (foreignKeyText_shape endpoints).undivided)

/-- The parentheses of a body are closed within it. -/
theorem bodyText_crossed (plain : TablePlain entity relationships) :
    depthAcross? stopsBody none 0 (bodyText (definitionTexts entity relationships)) = some 0 :=
  Undivided.separated_body (bodyPieces_undivided plain)

/-- No comment begins in a body. -/
theorem bodyText_strips (plain : TablePlain entity relationships) :
    Strips (bodyText (definitionTexts entity relationships))
      (bodyText (definitionTexts entity relationships)) := by
  refine Strips.separated (by decide) (forall_mem_bodyPieces (fun _ _ => Strips.append)
    ⟨.nil, .of_ordinary (by decide), .of_ordinary (by decide)⟩ ?_)
  exact forall_mem_definitionTexts plain (fun _ primaryKey name => columnText_strips name primaryKey)
    fun _ endpoints => foreignKeyText_strips endpoints

/-- A body is cut into its definitions again. -/
theorem fragments_bodyText (plain : TablePlain entity relationships) :
    fragments ',' (bodyText (definitionTexts entity relationships)) =
      definitionTexts entity relationships := by
  have undivided := bodyPieces_undivided plain
  have solid := forall_mem_definitionTexts plain
    (fun _ primaryKey name => columnText_solid name primaryKey)
    fun _ endpoints => (foreignKeyText_shape endpoints).solid
  rw [bodyText, fragments_separated rfl (fun piece member => (undivided piece member).fragment)
    (bodyText_strips plain).uncommented, trim_bodyPieces solid]

/-- Where the flags say that a name holds the primary key, it is that of an identifier. -/
theorem zipWith_primaryKeyFlags {α : Type} {first second : String -> Bool -> α}
    {names : List String}
    (same : ∀ name ∈ names, ∀ primaryKey,
      (primaryKey = true -> Inference.isIdLike name = true) ->
        first name primaryKey = second name primaryKey) :
    List.zipWith first names (Inference.primaryKeyFlags names) =
      List.zipWith second names (Inference.primaryKeyFlags names) := by
  induction names with
  | nil => rfl
  | cons name names inductionHypothesis =>
      obtain ⟨here, others⟩ := List.forall_mem_cons.1 same
      rw [Inference.primaryKeyFlags]
      split
      · rename_i idLike
        rw [List.zipWith_cons_cons, List.zipWith_cons_cons, here true fun _ => idLike,
          List.zipWith_map_right, List.zipWith_map_right, List.zipWith_self, List.zipWith_self]
        exact congrArg _ (List.map_congr_left fun other member =>
          others other member false (by simp))
      · rw [List.zipWith_cons_cons, List.zipWith_cons_cons, here false (by simp),
          inductionHypothesis others]

/-- The definitions of a rendered table say what its names suggest. -/
theorem definitions_bodyText (plain : TablePlain entity relationships) :
    definitions (pluralize entity.name) (bodyText (definitionTexts entity relationships)) =
      (readBack entity).attributes.map (Definition.column · none) ++
        relationships.map fun relationship => .foreignKey (pluralized relationship) := by
  rw [definitions, fragments_bodyText plain, definitionTexts, List.map_append]
  congr 1
  · rw [List.map_zipWith, readBack, Entity.ofNames, List.map_zipWith]
    refine zipWith_primaryKeyFlags fun name isName primaryKey flag => ?_
    obtain ⟨declared, isDeclared, rfl⟩ := List.mem_map.1 isName
    exact read_columnText (plain.columns declared isDeclared) flag _
  · rw [List.map_map]
    refine List.map_congr_left fun relationship isIn => ?_
    exact read_foreignKeyText (plain.endpoints relationship isIn) _
      (by rw [plain.leaving relationship isIn])

/-- The block of a rendered table. -/
def renderedBlock (entity : Entity) (relationships : List Relationship) : Block :=
  .table (pluralize entity.name) (bodyText (definitionTexts entity relationships))

/-- A rendered table is read without a gap, with what its names suggest and with the
relationships that leave it. -/
theorem renderedBlock_gives (plain : TablePlain entity relationships) :
    (renderedBlock entity relationships).Gives (readBack entity)
      (relationships.map pluralized) := by
  have noGap : ∀ item ∈ (readBack entity).attributes.map (Definition.column · none) ++
      relationships.map fun relationship => Definition.foreignKey (pluralized relationship),
        item.gap? (pluralize entity.name) = none := by
    intro item member
    rcases List.mem_append.1 member with isColumn | isKey
    · obtain ⟨declared, -, rfl⟩ := List.mem_map.1 isColumn
      rfl
    · obtain ⟨relationship, -, rfl⟩ := List.mem_map.1 isKey
      rfl
  have gives := Block.gives_of_definitions (definitions_bodyText plain) noGap
  have columns : entityOf (pluralize entity.name)
      ((readBack entity).attributes.map (Definition.column · none) ++
        relationships.map fun relationship => .foreignKey (pluralized relationship)) =
          readBack entity := by
    have name : pluralize entity.name = (readBack entity).name := rfl
    rw [name]
    generalize readBack entity = table
    simp [Function.comp_def, entityOf, List.filterMap_append, List.filterMap_map,
      Definition.attribute?, Definition.key?]
  have references : ((readBack entity).attributes.map (Definition.column · none) ++
      relationships.map fun relationship =>
        Definition.foreignKey (pluralized relationship)).filterMap
        Definition.relationship? = relationships.map pluralized := by
    simp [Function.comp_def, Definition.relationship?, List.filterMap_map]
  rwa [columns, references] at gives

end Entities

/-- Where the names of a schema are plain, so are those of each table with what leaves it. -/
theorem tablePlain_of_mem {schema : Schema} (plain : NamesPlain schema) {entity : Entity}
    (member : entity ∈ schema.entities) :
    TablePlain entity (schema.relationshipsFrom entity.name) := by
  obtain ⟨name, columns⟩ := plain.1 entity member
  refine ⟨name, columns, fun relationship isIn => ?_, fun relationship isIn => ?_⟩
  · exact plain.2 relationship (List.mem_filter.1 isIn).1
  · simpa using (List.mem_filter.1 isIn).2

section Documents

variable {leaving : Entity -> List Relationship} {entities : List Entity}

/-- The text of several rendered tables. -/
def tablesText (leaving : Entity -> List Relationship) (entities : List Entity) : List Char :=
  (Text.join "\n\n" (entities.map fun entity => renderEntity entity (leaving entity))).toList

/-- A single table has no separator. -/
theorem tablesText_singleton (entity : Entity) :
    tablesText leaving [entity] = headText entity.name ++
      (bodyText (definitionTexts entity (leaving entity)) ++ [')', ';']) :=
  toList_renderEntity entity (leaving entity)

/-- An empty line separates a table from the next one. -/
theorem tablesText_cons_cons (entity next : Entity) (entities : List Entity) :
    tablesText leaving (entity :: next :: entities) = headText entity.name ++
      (bodyText (definitionTexts entity (leaving entity)) ++
        ')' :: ([';', '\n', '\n'] ++ tablesText leaving (next :: entities))) := by
  have newlines : "\n\n".toList = ['\n', '\n'] := by decide
  have whole := toList_renderEntity entity (leaving entity)
  have shape : tablesText leaving (entity :: next :: entities) =
      (renderEntity entity (leaving entity)).toList ++ ("\n\n".toList ++
        tablesText leaving (next :: entities)) := by
    unfold tablesText
    simp only [List.map_cons]
    rw [Text.join, String.toList_append, String.toList_append, List.append_assoc]
    simp
  rw [shape, whole, newlines]
  simp only [List.append_assoc, List.cons_append, List.nil_append]

/-- Rendered tables are read one after the other. -/
theorem blocks_tablesText {separator : List Char} (separates : Separates separator)
    (plain : ∀ entity ∈ entities, TablePlain entity (leaving entity)) :
    blocks (separator ++ tablesText leaving entities) =
      entities.map fun entity => renderedBlock entity (leaving entity) := by
  induction entities generalizing separator with
  | nil =>
      rw [tablesText, List.map_nil, Text.join, String.toList_empty, List.append_nil]
      exact blocks_of_separates separates
  | cons entity entities inductionHypothesis =>
      obtain ⟨first, others⟩ := List.forall_mem_cons.1 plain
      have table := blocks_of_table separates (headText_shape first.name) (bodyText_crossed first)
      rw [String.ofList_toList] at table
      cases entities with
      | nil =>
          rw [tablesText_singleton]
          exact (table [';']).trans (congrArg _ (blocks_of_separates (by decide)))
      | cons next entities =>
          rw [tablesText_cons_cons]
          exact (table _).trans (congrArg _ (inductionHypothesis (by decide) others))

/-- No comment begins in the text of several tables. -/
theorem tablesText_strips (plain : ∀ entity ∈ entities, TablePlain entity (leaving entity)) :
    Strips (tablesText leaving entities) (tablesText leaving entities) := by
  induction entities with
  | nil => exact .nil
  | cons entity entities inductionHypothesis =>
      obtain ⟨first, others⟩ := List.forall_mem_cons.1 plain
      have start := (headText_strips first.name).append (bodyText_strips first)
      cases entities with
      | nil =>
          have ending : Strips [')', ';'] [')', ';'] := .of_ordinary (by decide)
          rw [tablesText_singleton, ← List.append_assoc]
          exact start.append ending
      | cons next entities =>
          have between : Strips [')', ';', '\n', '\n'] [')', ';', '\n', '\n'] :=
            .of_ordinary (by decide)
          rw [tablesText_cons_cons, ← List.append_assoc]
          exact start.append (between.append (inductionHypothesis others))

end Documents

/-- Reading a rendered schema gives, without gaps, its entities with what their names
suggest, and entity by entity the relationships that leave it. -/
theorem Report.ofDocument_render {schema : Schema} (plain : NamesPlain schema) :
    ofDocument (render schema) =
      { schema :=
          { entities := schema.entities.map readBack
            relationships := schema.entities.flatMap fun entity =>
              (schema.relationshipsFrom entity.name).map pluralized }
        gaps := [] } := by
  have tables : ∀ entity ∈ schema.entities,
      TablePlain entity (schema.relationshipsFrom entity.name) :=
    fun entity member => tablePlain_of_mem plain member
  let leaving (entity : Entity) := schema.relationshipsFrom entity.name
  have found : blocks (stripComments (render schema).toList) =
      schema.entities.map fun entity => renderedBlock entity (leaving entity) := by
    have strips : stripComments (render schema).toList = tablesText leaving schema.entities :=
      (tablesText_strips tables).stripComments_eq
    have nothing : Separates [] := by decide
    rw [strips]
    exact blocks_tablesText nothing tables
  rw [ofDocument, found]
  exact ofBlocks_map fun entity member => renderedBlock_gives (tables entity member)

/-- Two tables, one of them without columns, whose columns spell keywords. One of the
relationships leads to a table that is not there. -/
def keywordSchema : Schema :=
  { entities := [.ofNames "Key" ["Constraint", "id", "-email/"], .ofNames "Check" []]
    relationships :=
      [{ fromTable := "Check", fromColumn := "Foreign", toTable := "Key", toColumn := "id" },
        { fromTable := "Key", fromColumn := "id", toTable := "Absent", toColumn := "*",
          label := some "refers to" }] }

/-- Names that spell keywords, an empty table and a missing one are read back. -/
theorem Report.ofDocument_render_keywords :
    NamesPlain keywordSchema ∧
      (ofDocument (render keywordSchema)).gaps = [] ∧
      (ofDocument (render keywordSchema)).schema.relationships =
        [{ fromTable := "Keys", fromColumn := "id", toTable := "Absents", toColumn := "*" },
          { fromTable := "Checks", fromColumn := "Foreign", toTable := "Keys",
            toColumn := "id" }] := by
  have plain : NamesPlain keywordSchema := by decide
  rw [ofDocument_render plain]
  exact ⟨plain, rfl, by decide⟩

end SchemaLoom.Ddl
