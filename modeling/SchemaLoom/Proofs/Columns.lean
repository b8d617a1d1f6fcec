import SchemaLoom.Proofs.Surroundings

/-!
# Columns and the words behind their names

A definition whose name opens no clause about the table is read as a column. Where a word
that opens a clause of a column stands alone behind the name, the column has no type: it is
left out and leaves a gap. Such a word is taken for a type all the same where more follows
that belongs to a type, such as a parenthesis.
-/

namespace SchemaLoom.Text

/-- A character whose small form is a small letter is a letter. -/
theorem isAlpha_of_toLower {c : Char} (lower : c.toLower.isLower = true) : c.isAlpha = true := by
  by_cases upper : 'A'.val ≤ c.val ∧ c.val ≤ 'Z'.val
  · exact Bool.or_eq_true_iff.2 (.inl (decide_eq_true upper))
  · have same : c.toLower = c := dif_neg upper
    exact Bool.or_eq_true_iff.2 (.inr (same ▸ lower))

/-- Only blanks in front of a text that does not end with one are trimmed. -/
theorem trim_of_endsSolid {text : List Char} (solid : EndsSolid text) :
    trim text = trimStart text := by
  have kept : (trimStart text).reverse.dropWhile isBlank = (trimStart text).reverse :=
    trimStart_of_startsSolid (solid.of_suffix (trimStart_suffix text))
  rw [trim, trimEnd, kept, List.reverse_reverse]

/-- A text that begins with a mark is no keyword. -/
theorem dropKeyword?_of_other {keyword rest : List Char} {c : Char} (word : IsWordKeyword keyword)
    (other : isWordChar c = false) : dropKeyword? keyword (c :: rest) ≠ some [] := by
  intro found
  have absent : dropWord? keyword (c :: rest) = none := dropWord?_of_other word other
  rw [dropWord?, found] at absent
  cases absent

end SchemaLoom.Text

namespace SchemaLoom.Ddl

open SchemaLoom.Text

namespace Spells

variable {written name rest : List Char}

/-- Quotes of identifiers are no word characters. -/
theorem isWordChar_of_identifierClose? {opening close : Char}
    (quotes : identifierClose? opening = some close) : isWordChar opening = false := by
  rcases eq_of_identifierClose? quotes with ⟨rfl, -⟩ | ⟨rfl, -⟩ | ⟨rfl, -⟩ <;> decide

/-- An identifier other than a keyword is not read as this keyword. -/
theorem keywordAndBlanks_eq_none (spells : Spells written name) {keyword : List Char}
    (word : IsWordKeyword keyword) (other : dropKeyword? keyword written ≠ some [])
    (ends : EndsWord rest) : (dropKeyword? keyword (written ++ rest)).bind dropBlanks? = none := by
  cases spells with
  | bare _ nameChars _ =>
      have solid : ∀ c ∈ written, isBlank c = false :=
        fun c member => isBlank_of_isNameChar (nameChars c member)
      rw [keywordAndBlanks_whole word.2 solid ends, if_neg other]
  | quoted opening quotes _ =>
      exact keywordAndBlanks_of_dropWord?
        (dropWord?_of_other word (isWordChar_of_identifierClose? quotes))

/-- The first word of a definition is the identifier in front, or begins with its quote. -/
theorem blankWords_eq (spells : Spells written name) (ends : EndsWord rest) :
    ∃ first others, blankWords ((written ++ rest).takeWhile (· != '(')) = first :: others ∧
      (first = written ∨ ∃ c tail, first = c :: tail ∧ isWordChar c = false) := by
  cases spells with
  | bare nonempty nameChars _ =>
      have solid : ∀ c ∈ written, isBlank c = false :=
        fun c member => isBlank_of_isNameChar (nameChars c member)
      have bare : '(' ∉ written := fun member => absurd (nameChars '(' member) (by decide)
      have endsTaken : EndsWord (rest.takeWhile (· != '(')) := by
        intro c member
        cases rest with
        | nil => cases member
        | cons d rest =>
            rw [List.takeWhile_cons] at member
            split at member
            · exact ends c member
            · cases member
      rw [List.takeWhile_append_of_pos (bne_of_not_mem bare),
        blankWords_word nonempty solid endsTaken]
      exact ⟨written, _, rfl, .inl rfl⟩
  | @quoted opening close name quotes inside =>
      have other := isWordChar_of_identifierClose? quotes
      have solid : isBlank opening = false ∧ (opening != '(') = true := by
        rcases eq_of_identifierClose? quotes with ⟨rfl, -⟩ | ⟨rfl, -⟩ | ⟨rfl, -⟩ <;> decide
      rw [List.cons_append, List.cons_append, List.takeWhile_cons, if_pos solid.2]
      obtain ⟨tail, words, split⟩ :=
        blankWords_head solid.1 ((name ++ [close] ++ rest).takeWhile (· != '('))
      exact ⟨opening :: tail, words, split, .inr ⟨opening, tail, rfl, other⟩⟩

end Spells

/-- The words that open clauses about a whole table. -/
def openingWords : List String :=
  ["CONSTRAINT", "FOREIGN", "PRIMARY", "UNIQUE", "CHECK", "FULLTEXT", "KEY", "INDEX"]

/-- The name of a column as it is written, none of the words that open clauses. -/
structure ColumnName where
  written : List Char
  name : List Char
  spells : Spells written name
  ordinary : ∀ word ∈ openingWords, dropKeyword? word.toList written ≠ some []

namespace ColumnName

variable (column : ColumnName) {rest : List Char}

/-- The words that open clauses about the table are keywords. -/
theorem isWordKeyword_of_mem {word : String} (opens : word ∈ openingWords) :
    IsWordKeyword word.toList := by
  have all : ∀ word ∈ openingWords, IsWordKeyword word.toList := by decide
  exact all word opens

/-- A definition that begins with the name of a column is no clause about the table. -/
theorem tableKey?_eq_none (ends : EndsWord rest) : tableKey? (column.written ++ rest) = none := by
  obtain ⟨first, others, words, shape⟩ := column.spells.blankWords_eq ends
  refine Ddl.tableKey?_eq_none words fun form member keyword opens => ?_
  have listed : ∀ form ∈ clauseForms, ∀ keyword ∈ form.1.head?,
      ∃ word ∈ openingWords, word.toList = keyword := by
    decide
  obtain ⟨word, isOpening, rfl⟩ := listed form member keyword opens
  rcases shape with rfl | ⟨c, tail, rfl, other⟩
  · exact column.ordinary word isOpening
  · exact dropKeyword?_of_other (isWordKeyword_of_mem isOpening) other

/-- A definition that begins with the name of a column is read as one. -/
theorem read_eq (ends : EndsWord rest) (table : String) :
    Definition.read table (column.written ++ rest) =
      readColumn table (column.written ++ rest) := by
  have absent {word : String} (opens : word ∈ openingWords) :
      (dropKeyword? word.toList (column.written ++ rest)).bind dropBlanks? = none :=
    column.spells.keywordAndBlanks_eq_none (isWordKeyword_of_mem opens) (column.ordinary word opens)
      ends
  have unnamed : withoutConstraintName (column.written ++ rest) = column.written ++ rest := by
    rw [withoutConstraintName, absent (by decide)]
  have notForeign : foreignKeyPhrase.dropWhole? (column.written ++ rest) = none := by
    rw [Phrase.dropWhole?, foreignKeyPhrase, Phrase.ofWords, List.map_cons, List.map_cons,
      Phrase.drop?_cons_cons, absent (by decide)]
    rfl
  simp only [Definition.read, unnamed, notForeign, column.tableKey?_eq_none ends]

end ColumnName

/-- A keyword of a clause consists of letters. -/
theorem isAlpha_of_isClauseKeyword {word : List Char} (clause : isClauseKeyword word = true) :
    ∀ c ∈ word, c.isAlpha = true := by
  obtain ⟨keyword, isKeyword, same⟩ := List.any_eq_true.1 clause
  have letters : ∀ keyword ∈ clauseKeywords, (asciiLower keyword.toList).all Char.isLower := by
    decide
  intro c member
  have lower : c.toLower ∈ asciiLower keyword.toList :=
    (beq_iff_eq.1 same) ▸ List.mem_map_of_mem member
  exact isAlpha_of_toLower (List.all_eq_true.1 (letters keyword isKeyword) _ lower)

/-- A text in front of which a type ends: it goes on behind a blank, and not with the
parameters of a type. -/
def EndsType (rest : List Char) : Prop :=
  EndsWord rest ∧ (trimStart rest).head? ≠ some '('

instance (rest : List Char) : Decidable (EndsType rest) :=
  inferInstanceAs (Decidable (_ ∧ _))

/-- A type begins with the word that was read for it. -/
theorem readType?_of_readWord? {text word rest : List Char}
    (read : readWord? text = some (word, rest)) :
    ∃ type after, readType? text = some (type, after) ∧ word <+: type := by
  rw [readType?, read]
  dsimp only
  split
  · exact ⟨word, rest, rfl, List.prefix_refl word⟩
  · split
    · exact ⟨_, _, rfl, List.prefix_append word _⟩
    · exact ⟨word, rest, rfl, List.prefix_refl word⟩

/-- A word that does not end at the start of a text goes on with its first character. -/
theorem exists_of_not_endsWord {rest : List Char} (runsOn : ¬EndsWord rest) :
    ∃ c tail, rest = c :: tail ∧ isBlank c = false := by
  cases rest with
  | nil => exact absurd (fun _ member => by cases member) runsOn
  | cons c tail =>
      refine ⟨c, tail, rfl, Bool.eq_false_iff.2 fun blank => runsOn ?_⟩
      rintro d ⟨rfl⟩
      exact blank

/-- A word has the character that it begins with. -/
theorem splitWord_cons {c : Char} (solid : isBlank c = false) (tail : List Char) :
    ∃ word after, splitWord none 0 (c :: tail) = (c :: word, after) := by
  rw [splitWord, solid]
  exact ⟨_, _, rfl⟩

/-- A definition in which the name of a column is followed by a word that opens a clause. -/
structure TypelessColumn where
  column : ColumnName
  space : List Char
  blankSpace : isBlankText space
  apart : space ≠ []
  keyword : List Char
  clause : isClauseKeyword keyword = true
  rest : List Char
  whole : startsInWord rest = false
  ending : EndsSolid rest
  undivided : Undivided (column.written ++ (space ++ (keyword ++ rest)))

namespace TypelessColumn

variable (typeless : TypelessColumn)

/-- The text of the definition. -/
def text : List Char :=
  typeless.column.written ++ (typeless.space ++ (typeless.keyword ++ typeless.rest))

/-- A keyword in the place of the type is written bare. -/
theorem spells_keyword : Spells typeless.keyword typeless.keyword := by
  refine .of_word ?_ fun c member =>
    isAsciiWord_of_isAlpha (isAlpha_of_isClauseKeyword typeless.clause c member)
  intro empty
  have clause := typeless.clause
  rw [empty] at clause
  exact absurd clause (by decide)

/-- The definition neither begins nor ends with a blank. -/
theorem solid_text : Solid typeless.text := by
  have keyword := typeless.spells_keyword.solid
  refine typeless.column.spells.solid.append ?_
  exact (keyword.append typeless.ending).last.append_right (keyword.append typeless.ending).nonempty _

/-- Behind the name, the definition is read up to the end of its word. -/
theorem read_eq (table : String) :
    Definition.read table typeless.text =
      match readType? (typeless.space ++ (typeless.keyword ++ typeless.rest)) with
      | none => .untypedColumn (String.ofList typeless.text)
      | some (type, rest) =>
          if isClauseKeyword type then .untypedColumn (String.ofList typeless.text)
          else columnDefinition table (String.ofList typeless.column.name) type (trim rest) := by
  have ends : EndsWord (typeless.space ++ (typeless.keyword ++ typeless.rest)) :=
    .of_blanks typeless.blankSpace typeless.apart _
  have named : readWord? ([] ++ (typeless.column.written ++ (typeless.space ++
      (typeless.keyword ++ typeless.rest)))) = some (typeless.column.written, _) :=
    typeless.column.spells.readWord?_eq rfl ends
  rw [List.nil_append] at named
  rw [text, typeless.column.read_eq ends, readColumn, named]
  cases typed : readType? (typeless.space ++ (typeless.keyword ++ typeless.rest)) with
  | none => simp only [typed]
  | some _ => simp only [typed, typeless.column.spells.nameOf_eq]

/-- A word that stands alone is the whole of what would be the type. -/
theorem read_of_endsType (alone : EndsType typeless.rest) (table : String) :
    Definition.read table typeless.text = .untypedColumn (String.ofList typeless.text) := by
  have spells := typeless.spells_keyword
  have read : readType? (typeless.space ++ (typeless.keyword ++ typeless.rest)) =
      some (typeless.keyword, typeless.rest) :=
    readType?_word typeless.blankSpace spells.solid.nonempty spells.solid.first
      (spells.crossed stopsAny_of_stopsWord 0) alone.1 (.inr alone.2)
  rw [read_eq, read]
  simp only [typeless.clause, if_true]

/-- Parameters are read together with the word in front of them. -/
theorem readType?_of_parenthesis (ends : EndsWord typeless.rest) {tail : List Char}
    (opening : trimStart typeless.rest = '(' :: tail) :
    ∃ type after, readType? (typeless.space ++ (typeless.keyword ++ typeless.rest)) =
      some (type, after) ∧ '(' ∈ type := by
  obtain ⟨parameters, after, split⟩ := splitWord_cons (by decide : isBlank '(' = false) tail
  have letters : '(' ∉ typeless.keyword := fun member =>
    absurd (isAlpha_of_isClauseKeyword typeless.clause _ member) (by decide)
  refine ⟨typeless.keyword ++ '(' :: parameters, after, ?_, by simp⟩
  rw [readType?, typeless.spells_keyword.readWord?_eq typeless.blankSpace ends]
  simp [letters, opening, readType?.startsWith, split]

/-- A mark is read together with the word in front of it. -/
theorem readType?_of_mark {c : Char} {tail : List Char} (behind : typeless.rest = c :: tail)
    (solid : isBlank c = false) :
    ∃ type after, readType? (typeless.space ++ (typeless.keyword ++ typeless.rest)) =
      some (type, after) ∧ c ∈ type := by
  have spells := typeless.spells_keyword
  obtain ⟨more, after, split⟩ := splitWord_cons solid tail
  have start : StartsSolid (typeless.keyword ++ typeless.rest) :=
    (startsSolid_append spells.solid.nonempty).2 spells.solid.first
  have read : readWord? (typeless.space ++ (typeless.keyword ++ typeless.rest)) =
      some (typeless.keyword ++ c :: more, after) := by
    rw [readWord?, trimStart_blanks typeless.blankSpace start, behind,
      splitWord_append (spells.crossed stopsAny_of_stopsWord 0), split]
    cases letters : typeless.keyword <;> rfl
  obtain ⟨type, rest, typed, begins⟩ := readType?_of_readWord? read
  exact ⟨type, rest, typed, begins.subset (by simp)⟩

/-- Where no type ends behind it, the word is read together with what is no letter. -/
theorem readType?_of_not_endsType (runsOn : ¬EndsType typeless.rest) :
    ∃ type after, readType? (typeless.space ++ (typeless.keyword ++ typeless.rest)) =
      some (type, after) ∧ ∃ c ∈ type, c.isAlpha = false := by
  by_cases ends : EndsWord typeless.rest
  · have opening : (trimStart typeless.rest).head? = some '(' :=
      Classical.not_not.1 fun other => runsOn ⟨ends, other⟩
    obtain ⟨tail, trimmed⟩ := List.head?_eq_some_iff.1 opening
    obtain ⟨type, after, read, member⟩ := typeless.readType?_of_parenthesis ends trimmed
    exact ⟨type, after, read, '(', member, by decide⟩
  · obtain ⟨c, tail, behind, solid⟩ := exists_of_not_endsWord ends
    obtain ⟨type, after, read, member⟩ := typeless.readType?_of_mark behind solid
    have mark : isWordChar c = false := by simpa [behind, startsInWord] using typeless.whole
    refine ⟨type, after, read, c, member, Bool.eq_false_iff.2 fun letter => ?_⟩
    rw [isWordChar_of_isAsciiWord (isAsciiWord_of_isAlpha letter)] at mark
    cases mark

/-- Where no type ends behind it, the word is taken for the type of the column. -/
theorem read_of_not_endsType (runsOn : ¬EndsType typeless.rest) (table : String) :
    ∃ declared reference, Definition.read table typeless.text = .column declared reference ∧
      declared.name = String.ofList typeless.column.name := by
  obtain ⟨type, after, typed, c, member, noLetter⟩ := typeless.readType?_of_not_endsType runsOn
  have ordinary : isClauseKeyword type = false := Bool.eq_false_iff.2 fun clause => by
    rw [isAlpha_of_isClauseKeyword clause c member] at noLetter
    cases noLetter
  rw [read_eq, typed]
  simp only [ordinary]
  exact ⟨_, _, rfl, rfl⟩

end TypelessColumn

/-- A column without a type is left out and leaves a gap, if a word that opens a clause
stands alone behind its name; otherwise the column is kept and leaves none. -/
theorem Report.ofDocument_typeless {around : Surroundings} {typeless : TypelessColumn}
    {document : String} (stripped : stripComments document.toList = around.text typeless.text) :
    (EndsType typeless.rest →
      (ofDocument document).schema = (around.report []).schema ∧
      (ofDocument document).gaps = around.gapsBefore ++
        .missingColumnType around.table (String.ofList typeless.text) :: around.gapsAfter) ∧
    (¬EndsType typeless.rest →
      ∃ declared reference, ofDocument document = around.report [.column declared reference] ∧
        declared.name = String.ofList typeless.column.name ∧
        (ofDocument document).gaps = around.gapsBefore ++ around.gapsAfter) := by
  rw [ofDocument_surrounded typeless.solid_text typeless.undivided stripped]
  constructor
  · intro alone
    rw [typeless.read_of_endsType alone]
    exact ⟨around.report_schema_of_silent rfl rfl rfl, around.report_gaps _⟩
  · intro runsOn
    obtain ⟨declared, reference, read, named⟩ := typeless.read_of_not_endsType runsOn around.table
    rw [read]
    exact ⟨declared, reference, rfl, named, around.report_gaps _⟩

/-- The column `b`. -/
def ColumnName.single : ColumnName where
  written := ['b']
  name := ['b']
  spells := .of_word (by simp) (List.all_eq_true.1 rfl)
  ordinary := by decide

/-- A column `b` of which nothing is known but a word and what follows it. -/
def TypelessColumn.behindName (keyword rest : List Char) (clause : isClauseKeyword keyword = true)
    (whole : startsInWord rest = false) (ending : EndsSolid rest)
    (undivided : Undivided (['b'] ++ ([' '] ++ (keyword ++ rest)))) : TypelessColumn where
  column := .single
  space := [' ']
  blankSpace := isBlankText_space
  apart := space_ne_nil
  keyword := keyword
  clause := clause
  rest := rest
  whole := whole
  ending := ending
  undivided := undivided

/-- A gap keeps all of the clauses, whatever stands in their quotes and parentheses. -/
theorem Report.ofDocument_typeless_checked :
    (ofDocument "CREATE TABLE t (a INTEGER, b Unique CHECK (b > ',)'))").schema =
        (Surroundings.behindColumn.report []).schema ∧
      (ofDocument "CREATE TABLE t (a INTEGER, b Unique CHECK (b > ',)'))").gaps =
        [.missingColumnType "t" "b Unique CHECK (b > ',)')"] := by
  let typeless := TypelessColumn.behindName "Unique".toList " CHECK (b > ',)')".toList
    (by decide) (by decide) (by decide) (by decide)
  obtain ⟨schema, gaps⟩ := (@ofDocument_typeless .behindColumn typeless
    "CREATE TABLE t (a INTEGER, b Unique CHECK (b > ',)'))" (by decide)).1 (by decide)
  refine ⟨schema, gaps.trans ?_⟩
  decide +kernel

/-- A word in front of a parenthesis is taken for a type with parameters, and no gap is
left. -/
theorem Report.not_forall_typeless :
    ¬∀ (around : Surroundings) (typeless : TypelessColumn) (document : String),
      stripComments document.toList = around.text typeless.text →
      (ofDocument document).schema = (around.report []).schema ∧
      (ofDocument document).gaps = around.gapsBefore ++
        .missingColumnType around.table (String.ofList typeless.text) :: around.gapsAfter := by
  intro all
  let typeless := TypelessColumn.behindName "CHECK".toList " (b > 0)".toList
    (by decide) (by decide) (by decide) (by decide)
  have stripped : stripComments "CREATE TABLE t (a INTEGER, b CHECK (b > 0))".toList =
      Surroundings.behindColumn.text typeless.text := by decide
  have missing := (all _ typeless _ stripped).2
  rw [ofDocument_surrounded typeless.solid_text typeless.undivided stripped] at missing
  revert missing
  decide +kernel

end SchemaLoom.Ddl
