import SchemaLoom.Proofs.Columns
import SchemaLoom.Proofs.Marks

/-!
# Texts that clauses hold

The literal of a default and the expression of a check are data of a clause, but the
clauses of a column are searched as one text, quotes and parentheses included. So what a
clause holds says nothing about the column as long as none of the phrases that are searched
for stands in it, and none but those that stand in the clauses behind it anyway.
-/

namespace SchemaLoom.Ddl

open SchemaLoom.Text

/-- The phrases that say something about a column. -/
def columnPhrases : List Phrase :=
  [.ofWords ["PRIMARY", "KEY"], .ofWords ["UNIQUE"], .ofWords ["NOT", "NULL"]]

/-- A clause that holds a text: the default with its literal, or the check with its
expression. -/
inductive Holder where
  | default
  | check
  deriving DecidableEq, Repr

namespace Holder

/-- The word that opens the clause. -/
def keyword : Holder -> String
  | default => "DEFAULT"
  | check => "CHECK"

/-- The mark in front of the text. -/
def opening : Holder -> Char
  | default => '\x27'
  | check => '('

/-- The mark behind the text. -/
def closing : Holder -> Char
  | default => '\x27'
  | check => ')'

/-- The texts that the clause can hold. -/
def Holds : Holder -> List Char -> Prop
  | default, inner => '\x27' ∉ inner
  | check, inner => depthAcross? stopsBody none 0 inner = some 0

instance : (holder : Holder) -> (inner : List Char) -> Decidable (holder.Holds inner)
  | default, inner => inferInstanceAs (Decidable ('\x27' ∉ inner))
  | check, inner => inferInstanceAs (Decidable (depthAcross? stopsBody none 0 inner = some 0))

variable (holder : Holder)

/-- Both clauses can hold a digit. -/
theorem holds_digit : holder.Holds ['0'] := by
  cases holder with
  | default => exact (by decide : '\x27' ∉ ['0'])
  | check => rfl

/-- A held text between its marks is not divided by a comma. -/
theorem undivided {inner : List Char} (holds : holder.Holds inner) :
    Undivided (holder.opening :: inner ++ [holder.closing]) := by
  cases holder with
  | default => exact depthAcross?_quoted rfl holds rfl (by decide) (by decide)
  | check =>
      have inside : depthAcross? stopsDefinition none 1 inner = some 1 :=
        depthAcross?_deeper 1 (fun depth c stop => by simpa [stopsDefinition, stopsBody] using stop)
          holds
      exact depthAcross?_parentheses inside rfl rfl

/-- The mark in front is neither a blank nor part of a word. -/
theorem opening_mark : isBlank holder.opening = false ∧ isWordChar holder.opening = false := by
  cases holder <;> decide

/-- The mark behind is neither a blank nor part of a word. -/
theorem closing_mark : isBlank holder.closing = false ∧ isWordChar holder.closing = false := by
  cases holder <;> decide

/-- The word that opens the clause is a keyword. -/
theorem isWordKeyword : IsWordKeyword holder.keyword.toList := by
  cases holder <;> decide

/-- No phrase that says something about a column opens with the word of the clause. -/
theorem other : ∀ keyword ∈ ["PRIMARY", "UNIQUE", "NOT", "REFERENCES"],
    holder.keyword.toList ≠ keyword.toList := by
  cases holder <;> decide

end Holder

/-- A column behind whose type a clause holds a text that is left open here. -/
structure HoldingColumn where
  column : ColumnName
  space : List Char
  blankSpace : isBlankText space
  apart : space ≠ []
  type : List Char
  spelling : List Char
  typed : TypeSpelling type spelling
  ordinary : isClauseKeyword spelling = false
  gap : List Char
  blankGap : isBlankText gap
  parted : gap ≠ []
  holder : Holder
  letters : List Char
  cased : asciiUpper letters = holder.keyword.toList
  blanks : List Char
  blank : isBlankText blanks
  rest : List Char
  ending : EndsSolid rest
  undivided : Undivided rest

namespace HoldingColumn

variable (holding : HoldingColumn) {inner : List Char}

/-- The clauses of the column with the given text. -/
def clauses (inner : List Char) : List Char :=
  holding.letters ++ (holding.blanks ++
    holding.holder.opening :: (inner ++ holding.holder.closing :: holding.rest))

/-- The text of the definition with the given text in its clause. -/
def text (inner : List Char) : List Char :=
  holding.column.written ++ (holding.space ++ (holding.type ++
    (holding.gap ++ holding.clauses inner)))

/-- The clauses neither begin nor end with a blank. -/
theorem solid_clauses : Solid (holding.clauses inner) := by
  have closing : EndsSolid (holding.holder.closing :: holding.rest) :=
    (EndsSolid.singleton holding.holder.closing_mark.1).append holding.ending
  refine (Spells.of_cased holding.holder.isWordKeyword holding.cased).solid.append ?_
  rw [← List.cons_append, ← List.append_assoc]
  exact closing.append_right (by simp) _

/-- The definition neither begins nor ends with a blank. -/
theorem solid_text : Solid (holding.text inner) := by
  refine holding.column.spells.solid.append ?_
  rw [← List.append_assoc, ← List.append_assoc]
  exact holding.solid_clauses.last.append_right holding.solid_clauses.nonempty _

/-- The definition is not divided by a comma, one in the held text included. -/
theorem undivided_text (holds : holding.holder.Holds inner) : Undivided (holding.text inner) := by
  have held := (holding.holder.undivided holds).append holding.undivided
  rw [List.append_assoc, List.cons_append, List.cons_append, List.nil_append] at held
  exact holding.column.spells.undivided.append ((Undivided.of_blanks holding.blankSpace).append
    (holding.typed.undivided.append ((Undivided.of_blanks holding.blankGap).append
      ((Spells.of_cased holding.holder.isWordKeyword holding.cased).undivided.append
        ((Undivided.of_blanks holding.blank).append held)))))

/-- The column is read with its clauses, whatever text is in them. -/
theorem read_text (table : String) (inner : List Char) :
    Definition.read table (holding.text inner) =
      columnDefinition table (String.ofList holding.column.name) holding.spelling
        (holding.clauses inner) := by
  have endsName : EndsWord (holding.space ++ (holding.type ++ (holding.gap ++
      holding.clauses inner))) := .of_blanks holding.blankSpace holding.apart _
  have endsType : EndsWord (holding.gap ++ holding.clauses inner) :=
    .of_blanks holding.blankGap holding.parted _
  have start : trimStart (holding.gap ++ holding.clauses inner) = holding.clauses inner :=
    trimStart_blanks holding.blankGap holding.solid_clauses.first
  have noParameters : (holding.clauses inner).head? ≠ some '(' := by
    obtain ⟨nonempty, ascii⟩ := isAsciiWord_of_cased holding.holder.isWordKeyword holding.cased
    rw [clauses, List.head?_append_of_ne_nil _ nonempty]
    intro opening
    exact absurd (ascii '(' (List.mem_of_mem_head? opening)) (by decide)
  have trimmed : trim (holding.gap ++ holding.clauses inner) = holding.clauses inner := by
    rw [trim_blanks_append holding.blankGap, trim_of_solid holding.solid_clauses]
  rw [text, holding.column.read_eq endsName,
    readColumn_eq table holding.column.spells holding.blankSpace holding.apart holding.typed
      holding.ordinary endsType (by rwa [start]), trimmed]

/-- In front of the text stands none of the words that are searched for. -/
theorem lacks {keyword : String} (word : IsWordKeyword keyword.toList)
    (searched : keyword ∈ ["PRIMARY", "UNIQUE", "NOT", "REFERENCES"]) :
    Lacks keyword.toList (holding.letters ++ holding.blanks) := by
  obtain ⟨-, ascii⟩ := isAsciiWord_of_cased holding.holder.isWordKeyword holding.cased
  have blanks : Lacks keyword.toList (holding.blanks ++ []) := .blanks word holding.blank rfl
  rw [List.append_nil] at blanks
  have boundary : startsInWord holding.blanks = false := by
    cases shape : holding.blanks with
    | nil => rfl
    | cons c _ =>
        have blank := List.all_eq_true.1 holding.blank c (by rw [shape]; exact List.mem_cons_self)
        exact isWordChar_of_isBlank blank
  refine Lacks.append word (Phrase.stands_of_other ascii ?_) blanks (.of_startsInWord boundary)
  rw [holding.cased]
  exact holding.holder.other keyword searched

/-- A phrase occurs in the clauses if it occurs in the text or behind it. -/
theorem occursIn_clauses {phrase : Phrase} (searched : phrase ∈ columnPhrases)
    (inner : List Char) :
    phrase.occursIn (holding.clauses inner) =
      (phrase.occursIn inner || phrase.occursIn holding.rest) := by
  have shapes : ∀ phrase ∈ columnPhrases, (∀ keyword ∈ phrase, IsWordKeyword keyword) ∧
      ∃ keyword ∈ ["PRIMARY", "UNIQUE", "NOT", "REFERENCES"],
        phrase.head? = some keyword.toList := by
    decide
  obtain ⟨words, keyword, isFirst, first⟩ := shapes phrase searched
  obtain ⟨others, rfl⟩ := List.head?_eq_some_iff.1 first
  have notBefore : Phrase.occursIn (keyword.toList :: others)
      (holding.letters ++ holding.blanks) = false := by
    rw [Phrase.occursIn, Phrase.occurrences_of_not_stands
      (holding.lacks (words _ List.mem_cons_self) isFirst)]
    rfl
  obtain ⟨solidOpening, opening⟩ := holding.holder.opening_mark
  obtain ⟨solidClosing, closing⟩ := holding.holder.closing_mark
  rw [clauses, ← List.append_assoc,
    Phrase.occursIn_append_mark words (List.cons_ne_nil _ _) solidOpening opening, notBefore,
    Phrase.occursIn_append_mark words (List.cons_ne_nil _ _) solidClosing closing, Bool.false_or]

/-- A reference that does not begin in the text is found behind it. -/
theorem findReference?_clauses
    (absent : beginsReference (holding.holder.closing :: holding.rest) false inner = false) :
    findReference? false (holding.clauses inner) = findReference? false holding.rest := by
  have opening := holding.holder.opening_mark.2
  have closing := holding.holder.closing_mark.2
  have boundary (later : List Char) : startsInWord (holding.holder.opening :: later) = false :=
    opening
  rw [clauses, ← List.append_assoc,
    findReference?_append (holding.lacks (by decide) (by decide)) (.of_startsInWord (boundary _)),
    findReference?_mark opening, findReference?_of_not_begins absent, findReference?_mark closing]

end HoldingColumn

/-- A text says as little about a column as a digit if it says nothing new. -/
theorem HoldingColumn.read_held {holding : HoldingColumn} {inner : List Char}
    (phrases : ∀ phrase ∈ columnPhrases, phrase.occursIn inner = true →
      phrase.occursIn holding.rest = true)
    (references : beginsReference (holding.holder.closing :: holding.rest) false inner = false)
    (table : String) :
    Definition.read table (holding.text inner) = Definition.read table (holding.text ['0']) := by
  have flag {phrase : Phrase} (searched : phrase ∈ columnPhrases) :
      phrase.occursIn (holding.clauses inner) = phrase.occursIn (holding.clauses ['0']) := by
    have digit : ∀ phrase ∈ columnPhrases, phrase.occursIn ['0'] = false := by decide
    rw [holding.occursIn_clauses searched, holding.occursIn_clauses searched,
      digit phrase searched, Bool.false_or]
    cases found : phrase.occursIn inner with
    | false => rfl
    | true => rw [phrases phrase searched found, Bool.true_or]
  have digitReference :
      beginsReference (holding.holder.closing :: holding.rest) false ['0'] = false := rfl
  rw [holding.read_text, holding.read_text, columnDefinition, columnDefinition,
    flag (by decide), flag (by decide), flag (by decide), holding.findReference?_clauses references,
    holding.findReference?_clauses digitReference]

/-- The text that a clause holds changes nothing in what a document is read as, if no
phrase is found only in it and no reference begins in it. -/
theorem Report.ofDocument_held {around : Surroundings} {holding : HoldingColumn}
    {inner : List Char} {document plain : String} (holds : holding.holder.Holds inner)
    (phrases : ∀ phrase ∈ columnPhrases, phrase.occursIn inner = true →
      phrase.occursIn holding.rest = true)
    (references : beginsReference (holding.holder.closing :: holding.rest) false inner = false)
    (stripped : stripComments document.toList = around.text (holding.text inner))
    (strippedPlain : stripComments plain.toList = around.text (holding.text ['0'])) :
    ofDocument document = ofDocument plain := by
  rw [ofDocument_surrounded holding.solid_text (holding.undivided_text holds) stripped,
    ofDocument_surrounded holding.solid_text
      (holding.undivided_text holding.holder.holds_digit) strippedPlain,
    HoldingColumn.read_held phrases references]

/-- A column `b` with a default and more clauses behind it. -/
def HoldingColumn.preset (rest : List Char) (ending : EndsSolid rest)
    (undivided : Undivided rest) : HoldingColumn where
  column := .single
  space := [' ']
  blankSpace := isBlankText_space
  apart := space_ne_nil
  type := "TEXT".toList
  spelling := "TEXT".toList
  typed := TypeText.spells (.word (by simp) (List.all_eq_true.1 rfl))
  ordinary := by decide
  gap := [' ']
  blankGap := isBlankText_space
  parted := space_ne_nil
  holder := .default
  letters := "DEFAULT".toList
  cased := rfl
  blanks := [' ']
  blank := isBlankText_space
  rest := rest
  ending := ending
  undivided := undivided

/-- A default may hold a phrase that stands behind it, and words that resemble phrases. -/
theorem Report.ofDocument_held_phrase :
    ofDocument "CREATE TABLE t (a INTEGER, b TEXT DEFAULT 'a, UNIQUELY (NOT NULL' NOT NULL)" =
      ofDocument "CREATE TABLE t (a INTEGER, b TEXT DEFAULT '0' NOT NULL)" := by
  exact @ofDocument_held .behindColumn (.preset " NOT NULL".toList (by decide) (by decide))
    "a, UNIQUELY (NOT NULL".toList _ _ (by decide) (by decide) (by decide) (by decide) (by decide)

/-- A default of the text `UNIQUE` makes a column unique. -/
theorem Report.not_forall_held :
    ¬∀ (around : Surroundings) (holding : HoldingColumn) (inner : List Char)
      (document plain : String), holding.holder.Holds inner →
      stripComments document.toList = around.text (holding.text inner) →
      stripComments plain.toList = around.text (holding.text ['0']) →
      ofDocument document = ofDocument plain := by
  intro all
  let holding := HoldingColumn.preset [] (by decide) (by decide)
  have holds : holding.holder.Holds "UNIQUE".toList := by decide
  have stripped : stripComments "CREATE TABLE t (a INTEGER, b TEXT DEFAULT 'UNIQUE')".toList =
      Surroundings.behindColumn.text (holding.text "UNIQUE".toList) := by
    decide
  have strippedPlain : stripComments "CREATE TABLE t (a INTEGER, b TEXT DEFAULT '0')".toList =
      Surroundings.behindColumn.text (holding.text ['0']) := by
    decide
  have same := all _ _ _ _ _ holds stripped strippedPlain
  rw [ofDocument_surrounded holding.solid_text (holding.undivided_text holds) stripped,
    ofDocument_surrounded holding.solid_text
      (holding.undivided_text holding.holder.holds_digit) strippedPlain] at same
  revert same
  decide +kernel

end SchemaLoom.Ddl
