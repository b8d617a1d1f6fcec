import SchemaLoom.Proofs.Fragments
import SchemaLoom.Proofs.Identifiers
import SchemaLoom.Proofs.WholeWords

/-!
# Reading definitions

What a definition says can be read off the parts it is written from: foreign keys,
keys of the whole table, and columns with their name, type and clauses. Each part
needs to know little of its neighbours: that a word ends before a blank, and that no
keyword stands where the definition begins.
-/

namespace SchemaLoom.Ddl

open SchemaLoom.Text

/-- A text in front of which a word ends. -/
def EndsWord (rest : List Char) : Prop :=
  ∀ c ∈ rest.head?, isBlank c = true

instance (rest : List Char) : Decidable (EndsWord rest) :=
  decidable_of_iff (rest.head?.all isBlank) (by cases rest <;> simp [EndsWord])

/-- A word ends where blanks follow. -/
theorem EndsWord.of_blanks {blanks : List Char} (blank : isBlankText blanks)
    (nonempty : blanks ≠ []) (rest : List Char) : EndsWord (blanks ++ rest) := by
  cases blanks with
  | nil => exact absurd rfl nonempty
  | cons c blanks =>
      intro d member
      obtain rfl : c = d := by simpa using member
      exact List.all_eq_true.1 blank c List.mem_cons_self

/-- A word ends at the end of its text, and where nothing but blanks follow. -/
theorem EndsWord.of_isBlankText {blanks : List Char} (blank : isBlankText blanks) :
    EndsWord blanks :=
  fun c member => List.all_eq_true.1 blank c (List.mem_of_mem_head? member)

/-- Where a word has ended, nothing more is split off. -/
theorem splitWord_of_endsWord {rest : List Char} (ends : EndsWord rest) :
    splitWord none 0 rest = ([], rest) := by
  cases rest with
  | nil => rfl
  | cons c rest => simp [splitWord, ends c rfl]

/-- A word is read up to the blank after it. -/
theorem splitWord_eq {word rest : List Char}
    (crossed : depthAcross? stopsWord none 0 word = some 0) (ends : EndsWord rest) :
    splitWord none 0 (word ++ rest) = (word, rest) := by
  rw [splitWord_append crossed, splitWord_of_endsWord ends, List.append_nil]

/-- A word is read up to where it ends, and the blanks in front of it are skipped. -/
theorem readWord?_eq {blanks word rest : List Char} (blank : isBlankText blanks)
    (nonempty : word ≠ []) (solid : StartsSolid word)
    (crossed : depthAcross? stopsWord none 0 word = some 0) (ends : EndsWord rest) :
    readWord? (blanks ++ (word ++ rest)) = some (word, rest) := by
  have start : StartsSolid (word ++ rest) := (startsSolid_append nonempty).2 solid
  rw [readWord?, trimStart_blanks blank start, splitWord_eq crossed ends]
  cases word with
  | nil => exact absurd rfl nonempty
  | cons c word => rfl

section Types

variable {blanks word rest : List Char}

/-- A word with parameters in it is a type by itself, and so is one in front of which no
parameters stand. -/
theorem readType?_word (blank : isBlankText blanks) (nonempty : word ≠ [])
    (solid : StartsSolid word) (crossed : depthAcross? stopsWord none 0 word = some 0)
    (ends : EndsWord rest) (whole : '(' ∈ word ∨ (trimStart rest).head? ≠ some '(') :
    readType? (blanks ++ (word ++ rest)) = some (word, rest) := by
  rw [readType?, readWord?_eq blank nonempty solid crossed ends]
  rcases whole with inside | noParameters
  · simp [inside]
  · simp [readType?.startsWith, noParameters]

/-- Parameters behind blanks belong to the word in front of them, without the blanks. -/
theorem readType?_parameters {space parameters : List Char} (blank : isBlankText blanks)
    (nonempty : word ≠ []) (solid : StartsSolid word)
    (crossed : depthAcross? stopsWord none 0 word = some 0) (bare : '(' ∉ word)
    (blankSpace : isBlankText space) (apart : space ≠ [])
    (opening : parameters.head? = some '(')
    (parametersCrossed : depthAcross? stopsWord none 0 parameters = some 0)
    (ends : EndsWord rest) :
    readType? (blanks ++ (word ++ (space ++ (parameters ++ rest)))) =
      some (word ++ parameters, rest) := by
  obtain ⟨inner, rfl⟩ := List.head?_eq_some_iff.1 opening
  have read := readWord?_eq blank nonempty solid crossed
    (.of_blanks blankSpace apart ('(' :: inner ++ rest))
  have noOpening : word.contains '(' = false := by simpa using bare
  have start : StartsSolid ('(' :: inner ++ rest) := .cons (by decide) _
  rw [readType?, read]
  simp only [noOpening, trimStart_blanks blankSpace start, splitWord_eq parametersCrossed ends]
  rfl

end Types

/-- Where a word ends, one of the three scans stops. -/
theorem stopsAny_of_stopsWord (depth : Nat) (c : Char) (stop : stopsWord depth c) :
    stopsAny depth c := by
  simp [stopsAny, stop]

/-- A spelled name is read as one word. -/
theorem Spells.readWord?_eq {written name blanks rest : List Char} (spells : Spells written name)
    (blank : isBlankText blanks) (ends : EndsWord rest) :
    readWord? (blanks ++ (written ++ rest)) = some (written, rest) :=
  Ddl.readWord?_eq blank spells.solid.nonempty spells.solid.first
    (spells.crossed stopsAny_of_stopsWord 0) ends

/-- Letters, digits and underscores have no meaning of their own in a statement. -/
theorem other_of_isAsciiWord {c : Char} (word : isAsciiWord c) :
    c ∉ ['(', ')', ',', ';', '.', '\x22', '\x60', '[', ']', '\x27', '-', '/'] := by
  have never : ['(', ')', ',', ';', '.', '\x22', '\x60', '[', ']', '\x27', '-', '/'].all
      (fun d => !isAsciiWord d) = true := by
    decide
  intro special
  simpa [word] using List.all_eq_true.1 never c special

/-- The characters of a word have no meaning of their own. -/
theorem ordinary_of_isAsciiWord {word : List Char} (wordChars : ∀ c ∈ word, isAsciiWord c) :
    Ordinary word := by
  intro c member
  have other := other_of_isAsciiWord (wordChars c member)
  simp only [List.mem_cons, List.not_mem_nil, or_false, not_or] at other
  exact ⟨quoteClose?_eq_none (by simp [other]), by simp [other], by simp [other]⟩

/-- A word may stand in a bare name. -/
theorem isNameChar_of_isAsciiWord {c : Char} (word : isAsciiWord c) : isNameChar c = true := by
  have other := other_of_isAsciiWord word
  simp only [List.mem_cons, List.not_mem_nil, or_false, not_or] at other
  simp [isNameChar, isBlank_of_isAsciiWord word, other]

/-- A run of letters, digits and underscores is an identifier without quotes. -/
theorem Spells.of_word {word : List Char} (nonempty : word ≠ [])
    (wordChars : ∀ c ∈ word, isAsciiWord c) : Spells word word :=
  .bare nonempty (fun c member => isNameChar_of_isAsciiWord (wordChars c member))
    fun c member => (ordinary_of_isAsciiWord wordChars c member).1

/-- The ways to write a type, and the spelling that is kept of it: a word, perhaps with
parameters in it, or a word and parameters behind blanks, which the spelling leaves out. -/
inductive TypeSpelling : List Char -> List Char -> Prop where
  | word {word : List Char} (nonempty : word ≠ []) (solid : StartsSolid word)
      (crossed : depthAcross? stopsWord none 0 word = some 0) (undivided : Undivided word) :
      TypeSpelling word word
  | parameters {word blanks inner : List Char} (nonempty : word ≠ []) (solid : StartsSolid word)
      (crossed : depthAcross? stopsWord none 0 word = some 0) (undivided : Undivided word)
      (bare : '(' ∉ word) (blank : isBlankText blanks) (apart : blanks ≠ [])
      (inside : depthAcross? stopsWord none 1 inner = some 1)
      (enclosed : Undivided ('(' :: inner ++ [')'])) :
      TypeSpelling (word ++ (blanks ++ ('(' :: inner ++ [')'])))
        (word ++ ('(' :: inner ++ [')']))

namespace TypeSpelling

variable {text spelling blanks rest : List Char}

/-- What is balanced between parentheses is balanced with them. -/
theorem parameters_crossed {inner : List Char}
    (crossed : depthAcross? stopsWord none 1 inner = some 1) :
    depthAcross? stopsWord none 0 ('(' :: inner ++ [')']) = some 0 :=
  depthAcross?_parentheses crossed (by decide) (by decide)

/-- Parameters may stand right behind an identifier or apart from it. -/
theorem of_spells {word name inner : List Char} (spells : Spells word name) (bare : '(' ∉ word)
    (blank : isBlankText blanks) (inside : depthAcross? stopsWord none 1 inner = some 1)
    (enclosed : Undivided ('(' :: inner ++ [')'])) :
    TypeSpelling (word ++ (blanks ++ ('(' :: inner ++ [')'])))
      (word ++ ('(' :: inner ++ [')'])) := by
  have crossed := spells.crossed stopsAny_of_stopsWord 0
  by_cases adjacent : blanks = []
  · subst adjacent
    have wholeCrossed : depthAcross? stopsWord none 0 (word ++ ('(' :: inner ++ [')'])) = some 0 := by
      rw [depthAcross?_append crossed]
      exact parameters_crossed inside
    exact .word (by simp) ((startsSolid_append spells.solid.nonempty).2 spells.solid.first)
      wholeCrossed (spells.undivided.append enclosed)
  · exact .parameters spells.solid.nonempty spells.solid.first crossed spells.undivided bare blank
      adjacent inside enclosed

/-- No type falls apart at a comma. -/
theorem undivided (typed : TypeSpelling text spelling) : Undivided text := by
  cases typed with
  | word _ _ _ undivided => exact undivided
  | parameters _ _ _ undivided _ blank _ _ enclosed =>
      exact undivided.append ((Undivided.of_blanks blank).append enclosed)

/-- A type is read with its parameters up to the blank after it. -/
theorem readType?_eq (typed : TypeSpelling text spelling) (blank : isBlankText blanks)
    (ends : EndsWord rest) (noParameters : (trimStart rest).head? ≠ some '(') :
    readType? (blanks ++ (text ++ rest)) = some (spelling, rest) := by
  cases typed with
  | word nonempty solid crossed _ =>
      exact readType?_word blank nonempty solid crossed ends (.inr noParameters)
  | parameters nonempty solid crossed _ bare blankSpace apart inside _ =>
      rw [List.append_assoc, List.append_assoc]
      exact readType?_parameters blank nonempty solid crossed bare blankSpace apart rfl
        (parameters_crossed inside) ends

end TypeSpelling

/-- The ways to write a type, and the spelling they leave: parameters stand right
after the word or behind blanks, which the spelling leaves out. -/
inductive TypeText : List Char -> List Char -> Prop where
  | word {word : List Char} (nonempty : word ≠ []) (wordChars : ∀ c ∈ word, isAsciiWord c) :
      TypeText word word
  | parameters {word blanks inner : List Char} (nonempty : word ≠ [])
      (wordChars : ∀ c ∈ word, isAsciiWord c) (blank : isBlankText blanks)
      (crossed : depthAcross? stopsWord none 1 inner = some 1)
      (undivided : Undivided ('(' :: inner ++ [')'])) :
      TypeText (word ++ (blanks ++ ('(' :: inner ++ [')']))) (word ++ ('(' :: inner ++ [')']))

namespace TypeText

variable {text spelling : List Char}

/-- A type that is a word, with or without parameters, is read as its spelling. -/
theorem spells (typed : TypeText text spelling) : TypeSpelling text spelling := by
  cases typed with
  | word nonempty wordChars =>
      have spells := Spells.of_word nonempty wordChars
      exact .word nonempty spells.solid.first (spells.crossed stopsAny_of_stopsWord 0)
        spells.undivided
  | parameters nonempty wordChars blank crossed undivided =>
      have bare : '(' ∉ _ := fun member => absurd (wordChars '(' member) (by decide)
      exact .of_spells (.of_word nonempty wordChars) bare blank crossed undivided

/-- A type neither begins nor ends with a blank. -/
theorem solid (typed : TypeText text spelling) : Solid text := by
  cases typed with
  | word nonempty wordChars => exact (Spells.of_word nonempty wordChars).solid
  | @parameters word space inner nonempty wordChars _ _ _ =>
      have closing : EndsSolid [')'] := .singleton (by decide)
      refine (Spells.of_word nonempty wordChars).solid.append ?_
      rw [← List.append_assoc]
      exact closing.append_right (by simp) _

/-- No type falls apart at a comma, whatever its parameters are. -/
theorem undivided (typed : TypeText text spelling) : Undivided text :=
  typed.spells.undivided

end TypeText

/-- A column is read into its name, its type and its clauses. -/
theorem readColumn_eq {written name space text spelling rest : List Char} (table : String)
    (spells : Spells written name) (blank : isBlankText space) (nonempty : space ≠ [])
    (typed : TypeSpelling text spelling) (ordinary : isClauseKeyword spelling = false)
    (ends : EndsWord rest) (noParameters : (trimStart rest).head? ≠ some '(') :
    readColumn table (written ++ (space ++ (text ++ rest))) =
      columnDefinition table (String.ofList name) spelling (trim rest) := by
  have named : readWord? ([] ++ (written ++ (space ++ (text ++ rest)))) =
      some (written, space ++ (text ++ rest)) :=
    spells.readWord?_eq rfl (.of_blanks blank nonempty (text ++ rest))
  rw [List.nil_append] at named
  rw [readColumn, named]
  simp only [typed.readType?_eq blank ends noParameters, ordinary, spells.nameOf_eq]
  rfl

/-- No keyword opens a text whose first part it does not stand in. -/
theorem dropWord?_of_not_stands {keyword first rest : List Char} (word : IsWordKeyword keyword)
    (nonempty : first ≠ []) (absent : Phrase.stands keyword false first = false)
    (bounded : Bounded false first rest) : dropWord? keyword (first ++ rest) = none := by
  rw [dropWord?_append word.2 (.inl nonempty) bounded]
  cases first with
  | nil => exact absurd rfl nonempty
  | cons c first =>
      simp only [Phrase.stands, Bool.or_eq_false_iff] at absent
      have notHere : dropWord? keyword (c :: first) = none := by simpa using absent.1
      rw [notHere]
      rfl

/-- Without the keyword there is no name of a constraint to take away. -/
theorem withoutConstraintName_eq {definition : List Char}
    (absent : dropWord? "CONSTRAINT".toList definition = none) :
    withoutConstraintName definition = definition := by
  rw [withoutConstraintName, keywordAndBlanks_of_dropWord? absent]

/-- One keyword does not stand where another is written. -/
theorem Phrase.stands_of_other {keyword letters : List Char} (ascii : ∀ c ∈ letters, isAsciiWord c)
    (other : asciiUpper letters ≠ keyword) : stands keyword false letters = false := by
  refine Bool.eq_false_iff.2 fun found => other ?_
  exact asciiUpper_of_dropKeyword? ascii
    (dropKeyword?_of_stands (fun c member => isWordChar_of_isAsciiWord (ascii c member)) found)

/-- No word runs on behind at least one blank. -/
theorem startsInWord_space {blanks : List Char} (blank : isBlankText blanks)
    (nonempty : blanks ≠ []) (rest : List Char) : startsInWord (blanks ++ rest) = false := by
  cases blanks with
  | nil => exact absurd rfl nonempty
  | cons c blanks => exact isWordChar_of_isBlank (List.all_eq_true.1 blank c List.mem_cons_self)

/-- No word runs on where blanks or nothing stand before a mark. -/
theorem startsInWord_mark {blanks : List Char} (blank : isBlankText blanks) {mark : Char}
    (other : isWordChar mark = false) (rest : List Char) :
    startsInWord (blanks ++ mark :: rest) = false := by
  by_cases empty : blanks = []
  · rw [empty]
    exact other
  · exact startsInWord_space blank empty _

/-- The ways to write a phrase of two keywords. -/
inductive PairText (first second : String) : List Char -> Prop where
  | intro {letters space others : List Char} (firstWord : IsWordKeyword first.toList)
      (secondWord : IsWordKeyword second.toList) (cased : asciiUpper letters = first.toList)
      (blank : isBlankText space) (nonempty : space ≠ [])
      (casedOthers : asciiUpper others = second.toList) :
      PairText first second (letters ++ (space ++ others))

/-- Two keywords with one blank between them are a pair. -/
theorem PairText.spaced {first second : String} (firstWord : IsWordKeyword first.toList)
    (secondWord : IsWordKeyword second.toList) :
    PairText first second (first.toList ++ ([' '] ++ second.toList)) :=
  .intro firstWord secondWord (asciiUpper_of_capitals firstWord.2) rfl (by simp)
    (asciiUpper_of_capitals secondWord.2)

/-- A keyword in whatever case is a word. -/
theorem Spells.of_cased {keyword letters : List Char} (word : IsWordKeyword keyword)
    (cased : asciiUpper letters = keyword) : Spells letters letters :=
  .of_word (isAsciiWord_of_cased word cased).1 (isAsciiWord_of_cased word cased).2

/-- Two keywords are not divided by a comma. -/
theorem PairText.undivided {first second : String} {text : List Char}
    (paired : PairText first second text) : Undivided text := by
  obtain ⟨firstWord, secondWord, cased, blank, -, casedOthers⟩ := paired
  exact (Spells.of_cased firstWord cased).undivided.append
    ((Undivided.of_blanks blank).append (Spells.of_cased secondWord casedOthers).undivided)

/-- Two keywords neither begin nor end with a blank. -/
theorem PairText.solid {first second : String} {text : List Char}
    (paired : PairText first second text) : Solid text := by
  obtain ⟨firstWord, secondWord, cased, -, -, casedOthers⟩ := paired
  have ending := (Spells.of_cased secondWord casedOthers).solid
  exact (Spells.of_cased firstWord cased).solid.append (ending.last.append_right ending.nonempty _)

/-- Two keywords are read in any case of their letters, with any blanks between them. -/
theorem PairText.drop?_eq {first second : String} {text : List Char}
    (paired : PairText first second text) (rest : List Char) :
    (Phrase.ofWords [first, second]).drop? (text ++ rest) = some rest := by
  obtain ⟨-, word, cased, blank, nonempty, casedOthers⟩ := paired
  rename_i letters space others
  obtain ⟨otherNonempty, ascii⟩ := isAsciiWord_of_cased word casedOthers
  have start : StartsSolid (others ++ rest) :=
    (startsSolid_append otherNonempty).2 (Spells.of_word otherNonempty ascii).solid.first
  have head := keywordAndBlanks_append cased blank nonempty start
  simp only [Phrase.ofWords, List.map_cons, List.map_nil, Phrase.drop?, List.append_assoc, head,
    dropKeyword?_append casedOthers]

/-- Two keywords are read as whole words where no word character follows. -/
theorem PairText.dropWhole?_eq {first second : String} {text : List Char}
    (paired : PairText first second text) {rest : List Char}
    (other : startsInWord rest = false) :
    (Phrase.ofWords [first, second]).dropWhole? (text ++ rest) = some rest := by
  rw [Phrase.dropWhole?, paired.drop?_eq]
  simp [Option.filter, other]

/-- A phrase does not open with another keyword than its first. -/
theorem PairText.dropWord?_eq_none {first second : String} {text keyword : List Char}
    (paired : PairText first second text) (word : IsWordKeyword keyword)
    (other : first.toList ≠ keyword) (rest : List Char) :
    dropWord? keyword (text ++ rest) = none := by
  obtain ⟨firstWord, -, cased, blank, nonempty, -⟩ := paired
  obtain ⟨letterNonempty, ascii⟩ := isAsciiWord_of_cased firstWord cased
  rw [List.append_assoc, List.append_assoc]
  exact dropWord?_of_not_stands word letterNonempty
    (Phrase.stands_of_other ascii (by rwa [cased]))
    (.of_startsInWord (startsInWord_space blank nonempty _))

/-- The ways to write a foreign key: its column, and what it refers to. -/
inductive ForeignKeyText : List Char -> List Char -> List Char × List Char -> Prop where
  | intro {words outside before written column after space reference : List Char}
      {target : List Char × List Char} (paired : PairText "FOREIGN" "KEY" words)
      (blankOutside : isBlankText outside) (blankBefore : isBlankText before)
      (spells : Spells written column) (blankAfter : isBlankText after)
      (blankSpace : isBlankText space) (refers : Refers reference target) :
      ForeignKeyText (words ++ (outside ++ (enclosed before written after ++ (space ++ reference))))
        column target

/-- What a clause refers to neither begins nor ends with a blank. -/
theorem Refers.solid {text : List Char} {names : List Char × List Char}
    (refers : Refers text names) : Solid text := by
  obtain ⟨cased, -, -, -, -, -, -, -⟩ := refers
  rename_i letters space target last table middle before written column after
  have closing := enclosed_solid before written after
  refine (Spells.of_cased (by decide) cased).solid.append ?_
  rw [← List.append_assoc, ← List.append_assoc]
  exact closing.last.append_right closing.nonempty _

/-- What a clause refers to is not divided by a comma. -/
theorem Refers.undivided {text : List Char} {names : List Char × List Char}
    (refers : Refers text names) : Undivided text := by
  obtain ⟨cased, blankSpace, -, qualifies, blankMiddle, blankBefore, spells, blankAfter⟩ := refers
  exact (Spells.of_cased (by decide) cased).undivided.append
    ((Undivided.of_blanks blankSpace).append (qualifies.undivided.append
      ((Undivided.of_blanks blankMiddle).append
        (enclosed_undivided blankBefore spells blankAfter))))

/-- A foreign key is not divided by a comma. -/
theorem ForeignKeyText.undivided {text column : List Char} {target : List Char × List Char}
    (foreign : ForeignKeyText text column target) : Undivided text := by
  obtain ⟨paired, blankOutside, blankBefore, spells, blankAfter, blankSpace, refers⟩ := foreign
  exact paired.undivided.append ((Undivided.of_blanks blankOutside).append
    ((enclosed_undivided blankBefore spells blankAfter).append
      ((Undivided.of_blanks blankSpace).append refers.undivided)))

/-- A foreign key neither begins nor ends with a blank. -/
theorem ForeignKeyText.solid {text column : List Char} {target : List Char × List Char}
    (foreign : ForeignKeyText text column target) : Solid text := by
  obtain ⟨paired, -, -, -, -, -, refers⟩ := foreign
  rename_i words outside before written after space reference
  refine paired.solid.append ?_
  rw [← List.append_assoc, ← List.append_assoc]
  exact refers.solid.last.append_right refers.solid.nonempty _

/-- What stands behind the opening phrase of a foreign key is well-formed if it is a column in
parentheses and a reference, whatever follows the reference. -/
theorem foreignKey?_written {outside before written column after space reference : List Char}
    {target : List Char × List Char} (blankOutside : isBlankText outside)
    (blankBefore : isBlankText before) (spells : Spells written column)
    (blankAfter : isBlankText after) (blankSpace : isBlankText space)
    (refers : Refers reference target) (table : String) (later : List Char) :
    foreignKey? table
        (outside ++ (enclosed before written after ++ (space ++ (reference ++ later)))) =
      some
        { fromTable := table
          fromColumn := String.ofList column
          toTable := String.ofList target.1
          toColumn := String.ofList target.2 } := by
  have starts : StartsSolid (reference ++ later) :=
    (startsSolid_append refers.solid.nonempty).2 refers.solid.first
  obtain ⟨found, read, named⟩ := refers.reference?_eq later
  simp only [foreignKey?, parenthesizedIdentifier?_enclosed blankOutside blankBefore spells
    blankAfter, trimStart_blanks blankSpace starts, read, Option.map_some, named, spells.nameOf_eq]

/-- A foreign key is read as the relationship that it states. -/
theorem ForeignKeyText.read_eq {text column : List Char} {target : List Char × List Char}
    (foreign : ForeignKeyText text column target) (table : String) :
    Definition.read table text = .foreignKey
      { fromTable := table
        fromColumn := String.ofList column
        toTable := String.ofList target.1
        toColumn := String.ofList target.2 } := by
  obtain ⟨paired, blankOutside, blankBefore, spells, blankAfter, blankSpace, refers⟩ := foreign
  rename_i words outside before written after space reference
  have unnamed : dropWord? "CONSTRAINT".toList
      (words ++ (outside ++ (enclosed before written after ++ (space ++ reference)))) = none :=
    paired.dropWord?_eq_none (by decide) (by decide) _
  have boundary : startsInWord
      (outside ++ (enclosed before written after ++ (space ++ reference))) = false :=
    startsInWord_mark blankOutside (by decide) _
  have opened := paired.dropWhole?_eq boundary
  have wellFormed := foreignKey?_written blankOutside blankBefore spells blankAfter blankSpace
    refers table []
  rw [List.append_nil] at wellFormed
  rw [Definition.read, withoutConstraintName_eq unnamed, foreignKeyPhrase, opened]
  simp only [wellFormed]

section Words

variable {blanks word rest : List Char}

/-- Blanks in front of a text add no word. -/
theorem blankWords_blanks (blank : isBlankText blanks) (rest : List Char) :
    blankWords (blanks ++ rest) = blankWords rest := by
  induction blanks with
  | nil => rfl
  | cons c blanks inductionHypothesis =>
      obtain ⟨first, others⟩ := isBlankText_cons.1 blank
      rw [List.cons_append, blankWords.eq_def]
      simp only [first, if_true, inductionHypothesis others]

/-- A word between blanks is one of the words. -/
theorem blankWords_word (nonempty : word ≠ []) (solid : ∀ c ∈ word, isBlank c = false)
    (ends : EndsWord rest) : blankWords (word ++ rest) = word :: blankWords rest := by
  induction word with
  | nil => exact absurd rfl nonempty
  | cons c word inductionHypothesis =>
      obtain ⟨first, others⟩ := List.forall_mem_cons.1 solid
      cases word with
      | nil =>
          cases rest with
          | nil => simp [blankWords, first]
          | cons d rest => simp [blankWords, first, ends d rfl]
      | cons d word =>
          have second := others d List.mem_cons_self
          have inner := inductionHypothesis (List.cons_ne_nil d word) others
          simp only [List.cons_append] at inner ⊢
          rw [blankWords.eq_def]
          simp [first, second, inner, consFirst]

/-- The first word of a text begins where the text does. -/
theorem blankWords_head {c : Char} (solid : isBlank c = false) (rest : List Char) :
    ∃ tail words, blankWords (c :: rest) = (c :: tail) :: words := by
  rw [blankWords.eq_def]
  simp only [solid]
  cases rest with
  | nil => exact ⟨[], [], rfl⟩
  | cons d rest =>
      cases blank : isBlank d with
      | true => exact ⟨[], blankWords (d :: rest), by simp [blank]⟩
      | false =>
          cases blankWords (d :: rest) with
          | nil => exact ⟨[], [], by simp [blank, consFirst]⟩
          | cons word words => exact ⟨word, words, by simp [blank, consFirst]⟩

end Words

/-- A definition whose first word opens no clause about the table. -/
theorem tableKey?_eq_none {definition first : List Char} {others : List (List Char)}
    (words : blankWords (definition.takeWhile (· != '(')) = first :: others)
    (absent : ∀ form ∈ clauseForms, ∀ keyword ∈ form.1.head?,
      dropKeyword? keyword first ≠ some []) :
    tableKey? definition = none := by
  have noForm : clauseForms.find? (fun form => opensClause form.1 (first :: others)) = none := by
    refine List.find?_eq_none.2 fun form member => ?_
    have nonempty : ∀ form ∈ clauseForms, form.1 ≠ [] := by decide
    cases phrase : form.1 with
    | nil => exact absurd phrase (nonempty form member)
    | cons keyword phrase' =>
        have noKeyword := absent form member keyword (by simp [phrase])
        simp [opensClause, noKeyword]
  rw [tableKey?]
  simp only [words, noForm]

/-- A character that does not occur differs from all that do. -/
theorem bne_of_not_mem {c : Char} {text : List Char} (absent : c ∉ text) :
    ∀ d ∈ text, (d != c) = true :=
  fun d member => bne_iff_ne.2 (by rintro rfl; exact absent member)

/-- A definition without parentheses is no clause about the table. -/
theorem tableKey?_of_not_mem {definition : List Char} (absent : '(' ∉ definition) :
    tableKey? definition = none := by
  have noParenthesis : definition.dropWhile (· != '(') = [] := by
    have parts : (definition ++ []).dropWhile (· != '(') = [] :=
      (takeWhile_append_of_ends (bne_of_not_mem absent) (by simp)).2
    rwa [List.append_nil] at parts
  rw [tableKey?]
  simp only [noParenthesis]
  split <;> rfl

/-- What stands before the last character of a text is the rest of it. -/
theorem beforeLast?_append (last : Char) (text : List Char) :
    beforeLast? last (text ++ [last]) = some text := by
  induction text with
  | nil => simp [beforeLast?]
  | cons c text inductionHypothesis => rw [List.cons_append, beforeLast?, inductionHypothesis]

/-- An ASCII word reads as a keyword exactly if it is this keyword in some case. -/
theorem dropKeyword?_beq {keyword word : List Char} (ascii : ∀ c ∈ word, isAsciiWord c) :
    (dropKeyword? keyword word == some []) = (asciiUpper word == keyword) := by
  rw [Bool.eq_iff_iff, beq_iff_eq, beq_iff_eq]
  refine ⟨asciiUpper_of_dropKeyword? ascii, fun cased => ?_⟩
  have found := dropKeyword?_append cased []
  rwa [List.append_nil] at found

/-- The keys of a whole table, by the words that open them. -/
inductive KeyWords : List Char -> ClauseKind -> Prop where
  | primaryKey {words : List Char} (paired : PairText "PRIMARY" "KEY" words) :
      KeyWords words .primaryKey
  | unique {letters : List Char} (cased : asciiUpper letters = "UNIQUE".toList) :
      KeyWords letters .unique

/-- The form of clause that the words of a key open, and that it is none of checks. -/
theorem KeyWords.form {words : List Char} {kind : ClauseKind} (key : KeyWords words kind)
    {blanks : List Char} (blank : isBlankText blanks) :
    ∃ phrase, clauseForms.find? (fun form => opensClause form.1 (blankWords (words ++ blanks))) =
        some (phrase, kind) ∧
      ((blankWords (words ++ blanks)).head?.any fun word => asciiUpper word == "CHECK".toList) =
        false := by
  have ends : EndsWord blanks := .of_isBlankText blank
  have none : blankWords blanks = [] := by
    have all := blankWords_blanks blank []
    rwa [List.append_nil] at all
  cases key with
  | primaryKey paired =>
      obtain ⟨firstWord, secondWord, cased, blankSpace, nonempty, casedOthers⟩ := paired
      rename_i letters space others
      obtain ⟨firstNonempty, ascii⟩ := isAsciiWord_of_cased firstWord cased
      obtain ⟨secondNonempty, asciiOthers⟩ := isAsciiWord_of_cased secondWord casedOthers
      have split : blankWords (letters ++ (space ++ others) ++ blanks) = [letters, others] := by
        rw [List.append_assoc, List.append_assoc, blankWords_word firstNonempty
            (fun c member => isBlank_of_isAsciiWord (ascii c member))
            (.of_blanks blankSpace nonempty _),
          blankWords_blanks blankSpace, blankWords_word secondNonempty
            (fun c member => isBlank_of_isAsciiWord (asciiOthers c member)) ends, none]
      rw [split]
      simp [clauseForms, Phrase.ofWords, opensClause, dropKeyword?_beq ascii,
        dropKeyword?_beq asciiOthers, cased, casedOthers]
  | unique cased =>
      obtain ⟨nonempty, ascii⟩ := isAsciiWord_of_cased (by decide) cased
      have split : blankWords (words ++ blanks) = [words] := by
        rw [blankWords_word nonempty (fun c member => isBlank_of_isAsciiWord (ascii c member)) ends,
          none]
      rw [split]
      simp [clauseForms, Phrase.ofWords, opensClause, dropKeyword?_beq ascii, cased]

/-- No parenthesis stands among blanks. -/
theorem not_mem_of_isBlankText {blanks : List Char} (blank : isBlankText blanks) : '(' ∉ blanks :=
  fun member => (ordinary_of_isBlank (List.all_eq_true.1 blank _ member)).2.1 rfl

/-- No parenthesis stands in a keyword. -/
theorem not_mem_of_cased {keyword letters : List Char} (word : IsWordKeyword keyword)
    (cased : asciiUpper letters = keyword) : '(' ∉ letters :=
  fun member => absurd ((isAsciiWord_of_cased word cased).2 _ member) (by decide)

/-- No parenthesis stands in the words of a key. -/
theorem KeyWords.not_mem {words : List Char} {kind : ClauseKind} (key : KeyWords words kind) :
    '(' ∉ words := by
  cases key with
  | primaryKey paired =>
      obtain ⟨firstWord, secondWord, cased, blank, -, casedOthers⟩ := paired
      simp only [List.mem_append, not_or]
      exact ⟨not_mem_of_cased firstWord cased, not_mem_of_isBlankText blank,
        not_mem_of_cased secondWord casedOthers⟩
  | unique cased => exact not_mem_of_cased (by decide) cased

/-- The columns of a clause are those of its list. -/
theorem clauseColumns_eq {α : Type} {items : List α} {written name : α -> List Char}
    {inner : List Char} (listed : fragments ',' inner = items.map written)
    (spells : ∀ part ∈ items, Spells (written part) (name part)) :
    clauseColumns inner = items.map fun part => String.ofList (name part) := by
  rw [clauseColumns, listed]
  clear listed
  induction items with
  | nil => rfl
  | cons item items inductionHypothesis =>
      obtain ⟨first, others⟩ := List.forall_mem_cons.1 spells
      have read : readWord? ([] ++ (written item ++ [])) = some (written item, []) :=
        first.readWord?_eq rfl (by simp [EndsWord])
      rw [List.nil_append, List.append_nil] at read
      simp only [List.map_cons, List.filterMap_cons, read, Option.map_some, first.nameOf_eq,
        inductionHypothesis others]

/-- The key that a clause of a kind makes of its columns. -/
def KeyWords.key : ClauseKind -> List String -> TableKey
  | .primaryKey, columns => .primary columns
  | .unique, columns => .unique columns
  | .check, _ | .index, _ => .other

/-- A key of the whole table is read with all its columns. -/
theorem tableKey?_eq {α : Type} {words blanks : List Char} {kind : ClauseKind}
    {item : α} {items : List α} {whole written name : α -> List Char}
    (key : KeyWords words kind) (blank : isBlankText blanks)
    (spells : ∀ part ∈ item :: items, Spells (written part) (name part))
    (trimmed : ∀ part ∈ item :: items, trim (whole part) = written part)
    (crossed : ∀ part ∈ item :: items,
      depthAcross? (stopsFragment ',') none 0 (whole part) = some 0)
    (noLiteral : isLiteral (written item) = false)
    (uncommented : Uncommented none (separated ',' ((item :: items).map whole))) :
    tableKey? (words ++ (blanks ++ ('(' :: separated ',' ((item :: items).map whole) ++ [')']))) =
      some (KeyWords.key kind ((item :: items).map fun part => String.ofList (name part))) := by
  have listed : fragments ',' (separated ',' ((item :: items).map whole)) =
      (item :: items).map written :=
    fragments_separated_solid rfl crossed uncommented
      (fun part member => (spells part member).solid.nonempty) trimmed
  generalize separated ',' ((item :: items).map whole) = inner at listed
  have absent : '(' ∉ words ++ blanks := by
    simp only [List.mem_append, not_or]
    exact ⟨key.not_mem, not_mem_of_isBlankText blank⟩
  have stops : ∀ c ∈ ('(' :: (inner ++ [')'])).head?, (c != '(') = false := by
    rintro c ⟨rfl⟩
    rfl
  have split := takeWhile_append_of_ends (bne_of_not_mem absent) stops
  obtain ⟨phrase, form, noCheck⟩ := key.form blank
  have notLiterals : isLiteralList inner = false := by
    simp [isLiteralList, listed, noLiteral]
  rw [tableKey?, ← List.append_assoc, List.cons_append, split.1, split.2]
  simp only [form, noCheck, List.drop_one, List.tail_cons, beforeLast?_append, notLiterals,
    clauseColumns_eq listed spells]
  cases key <;> rfl

/-- A definition that opens with neither a constraint name nor a foreign key is a key
of the table or a column. -/
theorem Definition.read_eq {definition : List Char}
    (unnamed : dropWord? "CONSTRAINT".toList definition = none)
    (notForeign : dropWord? "FOREIGN".toList definition = none) (table : String) :
    Definition.read table definition =
      match tableKey? definition with
      | some clause => .key clause
      | none => readColumn table definition := by
  have noPhrase : foreignKeyPhrase.dropWhole? definition = none :=
    Phrase.dropWhole?_of_dropWord? notForeign
  cases found : tableKey? definition <;>
    simp [Definition.read, withoutConstraintName_eq unnamed, noPhrase, found]

/-- The words of a key do not begin with another keyword. -/
theorem KeyWords.dropWord?_eq_none {words keyword : List Char} {kind : ClauseKind}
    (key : KeyWords words kind) (word : IsWordKeyword keyword)
    (other : keyword ∉ ["PRIMARY".toList, "UNIQUE".toList]) {rest : List Char}
    (boundary : startsInWord rest = false) : dropWord? keyword (words ++ rest) = none := by
  simp only [List.mem_cons, List.not_mem_nil, or_false, not_or] at other
  cases key with
  | primaryKey paired => exact paired.dropWord?_eq_none word (Ne.symm other.1) rest
  | unique cased =>
      obtain ⟨nonempty, ascii⟩ := isAsciiWord_of_cased (by decide) cased
      exact dropWord?_of_not_stands word nonempty
        (Phrase.stands_of_other ascii (by rw [cased]; exact Ne.symm other.2))
        (.of_startsInWord boundary)

end SchemaLoom.Ddl
