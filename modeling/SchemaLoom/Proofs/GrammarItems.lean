import SchemaLoom.Proofs.GrammarClauses

/-!
# Reading the definitions of the grammar

Each definition of a table is read as what it says: a column with its flags and its
reference, a foreign key, or a key with its columns. None of them can be taken for
another, because the first word of a definition tells them apart and no identifier is
one of these words.
-/

namespace SchemaLoom.Ddl.Grammar

open SchemaLoom.Text

namespace Identifier

variable (identifier : Identifier)

/-- An identifier before a blank does not open a definition with a reserved word. -/
theorem dropWord?_eq_none {reserved : String} (isReserved : reserved ∈ reservedWords)
    {rest : List Char} (boundary : startsInWord rest = false) :
    dropWord? reserved.toList (identifier.piece.plain ++ rest) = none :=
  dropWord?_of_not_stands (isWordKeyword_of_mem isReserved) identifier.spells.solid.nonempty
    (identifier.lacks isReserved) (.of_startsInWord boundary)

/-- The first word of a definition that begins with an identifier is not reserved. -/
theorem firstWord {rest : List Char} (ends : EndsWord rest) :
    ∃ first others,
      blankWords ((identifier.piece.plain ++ rest).takeWhile (· != '(')) = first :: others ∧
        ∀ reserved ∈ reservedWords, dropWord? reserved.toList first = none := by
  cases style : identifier.style with
  | bare nonempty word noDigit =>
      have wordChars := List.all_eq_true.1 word
      have text : identifier.piece.plain = identifier.name := by simp [piece, style]
      have endsHere : EndsWord (rest.takeWhile (· != '(')) := by
        intro c member
        rw [List.head?_takeWhile] at member
        exact ends c (Option.mem_filter_iff.1 member).1
      refine ⟨identifier.name, blankWords (rest.takeWhile (· != '(')), ?_, ?_⟩
      · have absent : '(' ∉ identifier.name :=
          fun member => absurd (wordChars '(' member) (by decide)
        rw [text, List.takeWhile_append_of_pos (bne_of_not_mem absent)]
        exact blankWords_word nonempty
          (fun c member => isBlank_of_isAsciiWord (wordChars c member)) endsHere
      · intro reserved isReserved
        have absent : dropWord? reserved.toList (identifier.piece.plain ++ []) = none :=
          identifier.dropWord?_eq_none isReserved rfl
        rwa [List.append_nil, text] at absent
  | quoted quotes inside =>
      have text : identifier.piece.plain =
          quotes.opening :: (identifier.name ++ [quotes.closing]) := by
        simp [piece, style, Piece.kept]
      have stays : (quotes.opening != '(') = true ∧ isBlank quotes.opening = false := by
        cases quotes <;> decide
      obtain ⟨tail, others, words⟩ := blankWords_head stays.2
        ((identifier.name ++ [quotes.closing] ++ rest).takeWhile (· != '('))
      refine ⟨quotes.opening :: tail, others, ?_, ?_⟩
      · rw [text, List.cons_append]
        simp only [List.takeWhile_cons, stays.1, if_true]
        exact words
      · intro reserved isReserved
        exact dropWord?_of_other (isWordKeyword_of_mem isReserved) (isWordChar_quotes quotes).1

/-- A definition that begins with an identifier is no clause about the whole table. -/
theorem tableKey?_eq_none {rest : List Char} (ends : EndsWord rest) :
    tableKey? (identifier.piece.plain ++ rest) = none := by
  obtain ⟨first, others, words, absent⟩ := identifier.firstWord ends
  refine Ddl.tableKey?_eq_none words fun form isForm keyword opens found => ?_
  have reserved : ∀ form ∈ clauseForms, ∀ keyword ∈ form.1.head?.toList,
      keyword ∈ reservedWords.map String.toList := by
    decide
  obtain ⟨word, isReserved, rfl⟩ :=
    List.mem_map.1 (reserved form isForm keyword (Option.mem_toList.2 opens))
  have noWord := absent word isReserved
  rw [dropWord?, found] at noWord
  cases noWord

/-- An identifier is neither a number nor a literal in single quotes. -/
theorem isLiteral_plain : isLiteral identifier.piece.plain = false := by
  cases style : identifier.style with
  | bare nonempty word noDigit =>
      have wordChars := List.all_eq_true.1 word
      cases shape : identifier.name with
      | nil => exact absurd shape nonempty
      | cons c rest =>
          have text : identifier.piece.plain = c :: rest := by simp [piece, style, shape]
          have other := other_of_isAsciiWord (wordChars c (by simp [shape]))
          have letter : c.isDigit = false := by simpa [shape] using noDigit
          have noPlus : c ≠ '+' := by
            rintro rfl
            exact absurd (wordChars '+' (by simp [shape])) (by decide)
          simp only [List.mem_cons, List.not_mem_nil, or_false, not_or] at other
          simp [text, isLiteral, letter, noPlus, other]
  | quoted quotes inside =>
      have text : identifier.piece.plain =
          quotes.opening :: (identifier.name ++ [quotes.closing]) := by
        simp [piece, style, Piece.kept]
      cases quotes <;> simp [text, isLiteral, Quotes.opening]

end Identifier

/-- Trimmed, a padded item is the item. -/
theorem Padded.trim_plain {α : Type} {itemPiece : α -> Piece} (padded : Padded α)
    (solid : Solid (itemPiece padded.item).plain) :
    trim (padded.piece itemPiece).plain = (itemPiece padded.item).plain :=
  trim_around padded.before.plain_blank solid padded.after.plain_blank

/-- A padded item is not divided if the item is not. -/
theorem Padded.undivided {α : Type} {itemPiece : α -> Piece} (padded : Padded α)
    (undivided : Undivided (itemPiece padded.item).plain) :
    Undivided (padded.piece itemPiece).plain :=
  (Undivided.of_blanks padded.before.plain_blank).append
    (undivided.append (.of_blanks padded.after.plain_blank))

/-- What a list holds has no comment left. -/
theorem Listed.uncommented {α : Type} (itemPiece : α -> Piece) (listed : Listed α) :
    Uncommented none (listed.inner itemPiece) := by
  have settled := (Piece.listed (listed.parts.map (Padded.piece itemPiece))).settled.uncommented
  rwa [Piece.plain_listed, List.map_map] at settled

/-- The fragments of a list are its items. -/
theorem Listed.fragments_inner {α : Type} {itemPiece : α -> Piece} (listed : Listed α)
    (solid : ∀ item, Solid (itemPiece item).plain)
    (undivided : ∀ item, Undivided (itemPiece item).plain) :
    fragments ',' (listed.inner itemPiece) =
      listed.items.map fun item => (itemPiece item).plain := by
  have found : fragments ',' (listed.inner itemPiece) =
      listed.parts.map fun part => (itemPiece part.item).plain :=
    fragments_separated_solid rfl (fun part _ => (part.undivided (undivided part.item)).fragment)
      (listed.uncommented itemPiece) (fun part _ => (solid part.item).nonempty)
      fun part _ => part.trim_plain (solid part.item)
  rw [found, items, List.map_map]
  rfl

namespace Column

variable (column : Column)

/-- The attribute that a column states by itself. -/
def declared : Attribute :=
  { name := column.name.string
    columnType := .ofSpelling (String.ofList column.type.spelling)
    primaryKey := column.clauses.has .primaryKey
    unique := column.clauses.has .unique
    notNull := column.clauses.has .notNull }

/-- A column reads as its name, its type and its clauses. -/
theorem plain_eq : column.piece.plain = column.name.piece.plain ++
    (column.space.piece.plain ++ (column.type.piece.plain ++ column.clauses.piece.plain)) :=
  rfl

/-- A column neither begins nor ends with a blank. -/
theorem solid : Solid column.piece.plain := by
  have ending : EndsSolid (column.type.piece.plain ++ column.clauses.piece.plain) :=
    column.type.text.solid.last.append column.clauses.endsSolid_plain
  have nonempty : column.type.piece.plain ++ column.clauses.piece.plain ≠ [] := by
    simp [column.type.text.solid.nonempty]
  rw [plain_eq]
  exact column.name.spells.solid.append (ending.append_right nonempty _)

/-- A column is not divided by a comma. -/
theorem undivided : Undivided column.piece.plain :=
  column.name.spells.undivided.append ((Undivided.of_blanks column.space.plain_blank).append
    (column.type.text.undivided.append column.clauses.undivided))

/-- A column is read with everything that it states. -/
theorem read_eq (table : String) : Definition.read table column.piece.plain =
    .column column.declared
      (column.clauses.reference?.map (Reference.relationship table column.name.string)) := by
  have opens {reserved : String} (isReserved : reserved ∈ reservedWords) :
      dropWord? reserved.toList column.piece.plain = none :=
    column.name.dropWord?_eq_none isReserved
      (startsInWord_space column.space.plain_blank column.space.plain_ne_nil _)
  have noKey : tableKey? column.piece.plain = none :=
    column.name.tableKey?_eq_none
      (.of_blanks column.space.plain_blank column.space.plain_ne_nil _)
  have read : readColumn table column.piece.plain =
      columnDefinition table column.name.string column.type.spelling
        (trim column.clauses.piece.plain) :=
    readColumn_eq table column.name.spells column.space.plain_blank column.space.plain_ne_nil
      column.type.text.spells column.type.isClauseKeyword_spelling
      (Clauses.endsWord_plain column.apart) column.clauses.head?_trimStart_plain
  rw [Definition.read_eq (opens (by decide)) (opens (by decide)), noKey]
  exact read.trans (columnDefinition_eq table _ _ column.apart)

end Column

namespace KeyOpening

/-- What the words of a key constrain. -/
def kind : KeyOpening -> ClauseKind
  | primary _ => .primaryKey
  | unique _ => .unique

/-- The words that open a key are read as its kind. -/
theorem words (opening : KeyOpening) : KeyWords opening.piece.plain opening.kind := by
  cases opening with
  | primary words => exact .primaryKey words.text
  | unique word => exact .unique word.cased

/-- The words that open a key neither begin nor end with a blank. -/
theorem solid (opening : KeyOpening) : Solid opening.piece.plain := by
  cases opening with
  | primary words => exact words.text.solid
  | unique word => exact (Spells.of_cased (by decide) word.cased).solid

/-- The words that open a key are not divided by a comma. -/
theorem undivided (opening : KeyOpening) : Undivided opening.piece.plain := by
  cases opening with
  | primary words => exact words.text.undivided
  | unique word => exact (Spells.of_cased (by decide) word.cased).undivided

end KeyOpening

namespace Key

variable (key : Key)

/-- The constraint that a key states. -/
def tableKey : TableKey :=
  KeyWords.key key.opening.kind (key.columns.items.map Identifier.string)

/-- A key reads as its words and the list of its columns. -/
theorem plain_eq : key.piece.plain = key.opening.piece.plain ++
    (key.gap.piece.plain ++ ('(' :: key.columns.inner Identifier.piece ++ [')'])) := by
  simp only [piece, Piece.plain_append, Listed.plain_eq]

/-- A key neither begins nor ends with a blank. -/
theorem solid : Solid key.piece.plain := by
  have closing : EndsSolid [')'] := .singleton (by decide)
  rw [plain_eq]
  refine key.opening.solid.append ?_
  rw [← List.append_assoc]
  exact closing.append_right (by simp) _

/-- A key is not divided by the commas between its columns. -/
theorem undivided : Undivided key.piece.plain := by
  have columns : Undivided ('(' :: key.columns.inner Identifier.piece ++ [')']) := by
    refine Undivided.separated_enclosed fun text isText => ?_
    obtain ⟨part, -, rfl⟩ := List.mem_map.1 isText
    exact part.undivided part.item.spells.undivided
  rw [plain_eq]
  exact key.opening.undivided.append ((Undivided.of_blanks key.gap.plain_blank).append columns)

/-- A key is read with all its columns. -/
theorem read_eq (table : String) :
    Definition.read table key.piece.plain = .key key.tableKey := by
  have opens {reserved : String} (isReserved : reserved ∈ reservedWords)
      (other : reserved.toList ∉ ["PRIMARY".toList, "UNIQUE".toList]) :
      dropWord? reserved.toList key.piece.plain = none := by
    rw [plain_eq]
    exact key.opening.words.dropWord?_eq_none (isWordKeyword_of_mem isReserved) other
      (startsInWord_mark key.gap.plain_blank (by decide) _)
  have found : tableKey? key.piece.plain = some key.tableKey := by
    have read : tableKey? (key.opening.piece.plain ++
        (key.gap.piece.plain ++ ('(' :: key.columns.inner Identifier.piece ++ [')']))) =
          some (KeyWords.key key.opening.kind
            (key.columns.parts.map fun part => String.ofList part.item.name)) :=
      tableKey?_eq key.opening.words key.gap.plain_blank (fun part _ => part.item.spells)
        (fun part _ => part.trim_plain part.item.spells.solid)
        (fun part _ => (part.undivided part.item.spells.undivided).fragment)
        key.columns.first.item.isLiteral_plain (key.columns.uncommented Identifier.piece)
    rw [plain_eq, read, tableKey, Listed.items, List.map_map]
    rfl
  rw [Definition.read_eq (opens (by decide) (by decide)) (opens (by decide) (by decide)), found]

end Key

namespace Item

/-- What a definition of a table says. -/
def definition (table : String) : Item -> Definition
  | column declared =>
      .column declared.declared
        (declared.clauses.reference?.map (Reference.relationship table declared.name.string))
  | foreignKey foreign =>
      .foreignKey (foreign.reference.relationship table foreign.column.item.string)
  | key stated => .key stated.tableKey

variable (item : Item)

/-- No item begins or ends with a blank. -/
theorem solid : Solid item.piece.plain := by
  cases item with
  | column declared => exact declared.solid
  | foreignKey foreign => exact foreign.text.solid
  | key stated => exact stated.solid

/-- No item is divided by a comma. -/
theorem undivided : Undivided item.piece.plain := by
  cases item with
  | column declared => exact declared.undivided
  | foreignKey foreign => exact foreign.text.undivided
  | key stated => exact stated.undivided

/-- A definition is read as what it says. -/
theorem read_eq (table : String) :
    Definition.read table item.piece.plain = item.definition table := by
  cases item with
  | column declared => exact declared.read_eq table
  | foreignKey foreign => exact foreign.text.read_eq table
  | key stated => exact stated.read_eq table

end Item

end SchemaLoom.Ddl.Grammar
