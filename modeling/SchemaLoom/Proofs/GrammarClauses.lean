import SchemaLoom.Proofs.GrammarTexts

/-!
# Reading the clauses of a column

The flags of a column are searched for as phrases, and its reference by its keyword,
anywhere behind the type. Each is found exactly if the clause that states it is there,
in whatever order the clauses stand: identifiers hold no reserved word, and no clause
runs into the next one.
-/

namespace SchemaLoom.Ddl.Grammar

open SchemaLoom.Text

/-- The words that a clause of a kind opens with. -/
def Clause.Kind.words : Clause.Kind -> List String
  | primaryKey => ["PRIMARY", "KEY"]
  | unique => ["UNIQUE"]
  | notNull => ["NOT", "NULL"]
  | references => ["REFERENCES"]

/-- The first word of a clause of a kind. -/
def Clause.Kind.opening : Clause.Kind -> String
  | primaryKey => "PRIMARY"
  | unique => "UNIQUE"
  | notNull => "NOT"
  | references => "REFERENCES"

/-- No kind of clause holds the word that opens another kind. -/
theorem Clause.Kind.opening_not_mem_words {kind other : Kind} (different : other ≠ kind) :
    kind.opening ∉ other.words := by
  cases kind <;> cases other <;> first | exact absurd rfl different | decide

/-- Each clause opens with a reserved word. -/
theorem Clause.Kind.opening_reserved (kind : Kind) : kind.opening ∈ reservedWords := by
  cases kind <;> decide

namespace Clause

variable (clause : Clause)

/-- A clause holds no other reserved words than its own. -/
theorem lacks {reserved : String} (isReserved : reserved ∈ reservedWords)
    (absent : reserved ∉ clause.kind.words) : Lacks reserved.toList clause.piece.plain := by
  have word := isWordKeyword_of_mem isReserved
  have different {capitals : String} (other : reserved ≠ capitals) :
      capitals.toList ≠ reserved.toList :=
    fun same => other (String.toList_injective same).symm
  cases clause with
  | primaryKey words =>
      simp only [kind, Kind.words, List.mem_cons, List.not_mem_nil, or_false, not_or] at absent
      exact words.lacks word (different absent.1) (different absent.2)
  | unique letters =>
      simp only [kind, Kind.words, List.mem_cons, List.not_mem_nil, or_false] at absent
      exact letters.lacks (different absent)
  | notNull words =>
      simp only [kind, Kind.words, List.mem_cons, List.not_mem_nil, or_false, not_or] at absent
      exact words.lacks word (different absent.1) (different absent.2)
  | references reference =>
      simp only [kind, Kind.words, List.mem_cons, List.not_mem_nil, or_false] at absent
      exact reference.lacks isReserved (Ne.symm absent)

/-- A clause neither begins nor ends with a blank. -/
theorem solid : Solid clause.piece.plain := by
  cases clause with
  | primaryKey words => exact words.text.solid
  | unique word => exact (Spells.of_cased (by decide) word.cased).solid
  | notNull words => exact words.text.solid
  | references reference => exact reference.refers.solid

/-- A clause is not divided by a comma. -/
theorem undivided : Undivided clause.piece.plain := by
  cases clause with
  | primaryKey words => exact words.text.undivided
  | unique word => exact (Spells.of_cased (by decide) word.cased).undivided
  | notNull words => exact words.text.undivided
  | references reference => exact reference.refers.undivided

/-- A clause that reads as ending in a word is of a kind that does. -/
theorem endsInWord_plain {afterWord : Bool} (ends : Text.endsInWord afterWord clause.piece.plain) :
    clause.endsInWord = true := by
  cases clause with
  | references reference => exact absurd ends (by simp [piece, reference.endsInWord])
  | primaryKey words => rfl
  | unique word => rfl
  | notNull words => rfl

/-- A clause begins with a letter. -/
theorem start : ∃ c rest, clause.piece.plain = c :: rest ∧ isAsciiWord c = true := by
  have opens {capitals : String} (keyword : Keyword capitals) (later : List Char) :
      ∃ c rest, keyword.piece.plain ++ later = c :: rest ∧ isAsciiWord c = true := by
    obtain ⟨nonempty, ascii⟩ :=
      isAsciiWord_of_cased (isWordKeyword_of_mem keyword.reserved) keyword.cased
    obtain ⟨c, rest, shape⟩ := List.exists_cons_of_ne_nil nonempty
    exact ⟨c, rest ++ later, by simp [Keyword.piece, shape], ascii c (by simp [shape])⟩
  cases clause with
  | primaryKey words => exact opens words.firstWord _
  | unique word =>
      have whole := opens word []
      rwa [List.append_nil] at whole
  | notNull words => exact opens words.firstWord _
  | references reference => exact opens reference.word _

/-- A clause that sets a flag is read by the phrase of its kind. -/
theorem dropWhole?_words (isFlag : clause.kind ≠ .references) {rest : List Char}
    (boundary : startsInWord rest = false) :
    (Phrase.ofWords clause.kind.words).dropWhole? (clause.piece.plain ++ rest) = some rest := by
  cases clause with
  | primaryKey words => exact words.text.dropWhole?_eq boundary
  | unique word =>
      have dropped := dropKeyword?_append word.cased rest
      have whole : ((dropKeyword? "UNIQUE".toList (word.letters ++ rest)).filter
          fun rest => !startsInWord rest) = some rest := by
        rw [dropped]
        simp [Option.filter, boundary]
      exact whole
  | notNull words => exact words.text.dropWhole?_eq boundary
  | references reference => exact absurd rfl isFlag

end Clause

/-- A reference is found where its text begins. -/
theorem Reference.findReference?_eq (reference : Reference) (rest : List Char) :
    ∃ target, findReference? false (reference.piece.plain ++ rest) = some target ∧
      ∀ table column, relationshipTo table column target =
        reference.relationship table column := by
  obtain ⟨target, found, named⟩ := reference.refers.reference?_eq rest
  refine ⟨target, ?_, named⟩
  cases shape : reference.piece.plain ++ rest with
  | nil => exact absurd shape (by simp [reference.refers.solid.nonempty])
  | cons c later =>
      rw [shape] at found
      simp [findReference?, found]

namespace Clauses

variable {afterWord : Bool} {clauses : Clauses}

/-- Clauses read as the first one, with its layout in front, and the others. -/
theorem plain_cons (gap : Layout) (clause : Clause) (rest : Clauses) :
    (piece ((gap, clause) :: rest)).plain =
      gap.piece.plain ++ (clause.piece.plain ++ (piece rest).plain) := by
  simp [piece]

/-- Behind a word, clauses that are apart from it do not go on with a word. -/
theorem startsInWord_plain (apart : Apart true clauses) :
    startsInWord clauses.piece.plain = false := by
  cases clauses with
  | nil => rfl
  | cons part rest =>
      obtain ⟨gap, clause⟩ := part
      rw [plain_cons]
      exact startsInWord_space gap.plain_blank (Layout.plain_ne_nil (apart.1 rfl)) _

/-- What follows a clause is apart from it. -/
theorem boundary {clause : Clause} (apart : Apart clause.endsInWord clauses) {before : Bool} :
    Bounded before clause.piece.plain clauses.piece.plain := by
  intro ends
  rw [clause.endsInWord_plain ends] at apart
  exact startsInWord_plain apart

/-- The layout before a clause ends whatever word stands before it. -/
theorem endsInWord_gap {gap : Layout} {clause : Clause}
    (apart : Apart afterWord ((gap, clause) :: clauses)) {before : Bool}
    (known : before -> afterWord) : Text.endsInWord before gap.piece.plain = false :=
  endsInWord_blanks gap.plain_blank fun after => Layout.plain_ne_nil (apart.1 (known after))

/-- Clauses without one of a kind lack the word that it opens with. -/
theorem lacks {kind : Clause.Kind} (absent : clauses.has kind = false)
    (apart : Apart afterWord clauses) : Lacks kind.opening.toList clauses.piece.plain := by
  have word := isWordKeyword_of_mem kind.opening_reserved
  induction clauses generalizing afterWord with
  | nil => rfl
  | cons part rest inductionHypothesis =>
      obtain ⟨gap, clause⟩ := part
      simp only [has, List.any_cons, Bool.or_eq_false_iff, beq_eq_false_iff_ne] at absent
      have here := clause.lacks kind.opening_reserved
        (Clause.Kind.opening_not_mem_words absent.1)
      rw [plain_cons]
      exact .blanks word gap.plain_blank
        (here.append word (inductionHypothesis absent.2 apart.2) (boundary apart.2))

/-- The phrase of a flag occurs behind a word if its clause is there. -/
theorem occurrences_ne_nil {kind : Clause.Kind} (isFlag : kind ≠ .references)
    (present : clauses.has kind = true) {before : Bool} (apart : Apart afterWord clauses)
    (known : before -> afterWord) :
    (Phrase.ofWords kind.words).occurrences before clauses.piece.plain ≠ [] := by
  induction clauses generalizing afterWord before with
  | nil => cases present
  | cons part rest inductionHypothesis =>
      obtain ⟨gap, clause⟩ := part
      rw [plain_cons]
      by_cases same : clause.kind = kind
      · subst same
        refine Phrase.occursIn_append _ ?_
        rw [endsInWord_gap apart known]
        refine Phrase.occurrences_of_dropWhole? (by simp [clause.solid.nonempty]) ?_
        have whole : startsInWord (piece rest).plain = false := by
          refine startsInWord_plain ?_
          have word : clause.endsInWord = true := by
            cases clause with
            | references reference => exact absurd rfl isFlag
            | _ => rfl
          exact word ▸ apart.2
        rw [clause.dropWhole?_words isFlag whole]
        rfl
      · have later : has rest kind = true := by
          simpa [has, same] using present
        rw [← List.append_assoc]
        refine Phrase.occursIn_append _ (inductionHypothesis later apart.2 fun ends => ?_)
        rw [endsInWord_append] at ends
        exact clause.endsInWord_plain ends

/-- A flag is set exactly if its clause is there. -/
theorem occursIn_eq (kind : Clause.Kind) (isFlag : kind ≠ .references)
    (apart : Apart afterWord clauses) :
    (Phrase.ofWords kind.words).occursIn clauses.piece.plain = clauses.has kind := by
  cases present : clauses.has kind with
  | true =>
      have occurs : (Phrase.ofWords kind.words).occurrences false clauses.piece.plain ≠ [] :=
        occurrences_ne_nil isFlag present apart (by simp)
      simp [Phrase.occursIn, occurs]
  | false =>
      have shape : Phrase.ofWords kind.words =
          kind.opening.toList :: (Phrase.ofWords kind.words).tail := by
        cases kind <;> rfl
      rw [Phrase.occursIn, shape, Phrase.occurrences_of_not_stands (lacks present apart)]
      rfl

/-- No reference is found in the layout before a clause. -/
theorem findReference?_gap {gap : Layout} {clause : Clause} {before : Bool}
    (apart : Apart afterWord ((gap, clause) :: clauses)) (known : before -> afterWord) :
    findReference? before (piece ((gap, clause) :: clauses)).plain =
      findReference? false (clause.piece.plain ++ clauses.piece.plain) := by
  have word : IsWordKeyword "REFERENCES".toList := by decide
  have nothing : Lacks "REFERENCES".toList [] := rfl
  have absent : Lacks "REFERENCES".toList gap.piece.plain := by
    simpa using nothing.blanks word gap.plain_blank
  have ends := endsInWord_gap apart known
  rw [plain_cons, findReference?_append (absent.afterWord before)
    fun inWord => absurd inWord (by simp [ends]), ends]

/-- The reference of a column is found wherever its clause stands. -/
theorem findReference?_eq {before : Bool} (apart : Apart afterWord clauses)
    (known : before -> afterWord) (table column : String) :
    (findReference? before clauses.piece.plain).map (relationshipTo table column) =
      clauses.reference?.map (Reference.relationship table column) := by
  induction clauses generalizing afterWord before with
  | nil => rfl
  | cons part rest inductionHypothesis =>
      obtain ⟨gap, clause⟩ := part
      rw [findReference?_gap apart known]
      by_cases isReference : clause.kind = .references
      · cases clause with
        | references reference =>
            obtain ⟨target, found, named⟩ := reference.findReference?_eq (piece rest).plain
            simp only [Clause.piece, found, Option.map_some, named, reference?,
              List.findSome?_cons, Clause.reference?]
        | _ => cases isReference
      · have absent : Lacks "REFERENCES".toList clause.piece.plain :=
          clause.lacks Clause.Kind.references.opening_reserved
            (Clause.Kind.opening_not_mem_words isReference)
        have skipped : clause.reference? = none := by
          cases clause with
          | references reference => exact absurd rfl isReference
          | _ => rfl
        rw [findReference?_append absent (boundary apart.2),
          inductionHypothesis apart.2 clause.endsInWord_plain]
        simp [reference?, skipped]

/-- The clauses without the layout before the first one. -/
def flush : Clauses -> Clauses
  | [] => []
  | (_, clause) :: rest => ([], clause) :: rest

/-- Flush clauses are of the same kinds. -/
@[simp] theorem has_flush (clauses : Clauses) (kind : Clause.Kind) :
    clauses.flush.has kind = clauses.has kind := by
  cases clauses <;> rfl

/-- Flush clauses refer to the same column. -/
@[simp] theorem reference?_flush (clauses : Clauses) :
    clauses.flush.reference? = clauses.reference? := by
  cases clauses <;> rfl

/-- Flush clauses stay apart. -/
theorem apart_flush (apart : Apart afterWord clauses) : Apart false clauses.flush := by
  cases clauses with
  | nil => exact apart
  | cons part rest => exact ⟨fun impossible => absurd impossible (by simp), apart.2⟩

/-- Clauses do not end with a blank. -/
theorem endsSolid_plain (clauses : Clauses) : EndsSolid clauses.piece.plain := by
  induction clauses with
  | nil =>
      intro c member
      cases member
  | cons part rest inductionHypothesis =>
      obtain ⟨gap, clause⟩ := part
      have later : Solid (clause.piece.plain ++ (piece rest).plain) :=
        clause.solid.append inductionHypothesis
      rw [plain_cons]
      exact later.last.append_right later.nonempty _

/-- Trimming takes the layout before the first clause. -/
theorem trim_plain (clauses : Clauses) : trim clauses.piece.plain = clauses.flush.piece.plain := by
  cases clauses with
  | nil => rfl
  | cons part rest =>
      obtain ⟨gap, clause⟩ := part
      have later : Solid (clause.piece.plain ++ (piece rest).plain) :=
        clause.solid.append (endsSolid_plain rest)
      have around : trim (gap.piece.plain ++ (clause.piece.plain ++ (piece rest).plain ++ [])) =
          clause.piece.plain ++ (piece rest).plain :=
        trim_around gap.plain_blank later rfl
      rw [List.append_nil] at around
      rw [flush, plain_cons, plain_cons, around]
      rfl

/-- Clauses are not divided by a comma. -/
theorem undivided (clauses : Clauses) : Undivided clauses.piece.plain := by
  induction clauses with
  | nil => rfl
  | cons part rest inductionHypothesis =>
      obtain ⟨gap, clause⟩ := part
      rw [plain_cons]
      exact (Undivided.of_blanks gap.plain_blank).append
        (clause.undivided.append inductionHypothesis)

/-- The type of a column ends where its clauses begin. -/
theorem endsWord_plain (apart : Apart true clauses) : EndsWord clauses.piece.plain := by
  cases clauses with
  | nil =>
      intro c member
      cases member
  | cons part rest =>
      obtain ⟨gap, clause⟩ := part
      rw [plain_cons]
      exact .of_blanks gap.plain_blank (Layout.plain_ne_nil (apart.1 rfl)) _

/-- The first clause does not begin with a parenthesis. -/
theorem head?_trimStart_plain (clauses : Clauses) :
    (trimStart clauses.piece.plain).head? ≠ some '(' := by
  cases clauses with
  | nil => simp [piece, trimStart]
  | cons part rest =>
      obtain ⟨gap, clause⟩ := part
      have later : Solid (clause.piece.plain ++ (piece rest).plain) :=
        clause.solid.append (endsSolid_plain rest)
      obtain ⟨c, others, shape, letter⟩ := clause.start
      rw [plain_cons, trimStart_blanks gap.plain_blank later.first, shape]
      rintro same
      obtain rfl : c = '(' := by simpa using same
      exact absurd letter (by decide)

end Clauses

/-- The definition that a column as written is read as. -/
theorem columnDefinition_eq (table name : String) (type : List Char) {clauses : Clauses}
    (apart : clauses.Apart true) :
    columnDefinition table name type (trim clauses.piece.plain) =
      .column
        { name
          columnType := .ofSpelling (String.ofList type)
          primaryKey := clauses.has .primaryKey
          unique := clauses.has .unique
          notNull := clauses.has .notNull }
        (clauses.reference?.map (Reference.relationship table name)) := by
  have flushed := Clauses.apart_flush apart
  have flag (kind : Clause.Kind) (isFlag : kind ≠ .references) :
      (Phrase.ofWords kind.words).occursIn clauses.flush.piece.plain = clauses.has kind :=
    (Clauses.occursIn_eq kind isFlag flushed).trans (Clauses.has_flush clauses kind)
  have primaryKey : (Phrase.ofWords ["PRIMARY", "KEY"]).occursIn clauses.flush.piece.plain = _ :=
    flag .primaryKey (by decide)
  have unique : (Phrase.ofWords ["UNIQUE"]).occursIn clauses.flush.piece.plain = _ :=
    flag .unique (by decide)
  have notNull : (Phrase.ofWords ["NOT", "NULL"]).occursIn clauses.flush.piece.plain = _ :=
    flag .notNull (by decide)
  have reference : (findReference? false clauses.flush.piece.plain).map
      (relationshipTo table name) = clauses.flush.reference?.map _ :=
    Clauses.findReference?_eq flushed (by simp) table name
  rw [Clauses.reference?_flush] at reference
  rw [Clauses.trim_plain, columnDefinition, primaryKey, unique, notNull, reference]
  rfl

end SchemaLoom.Ddl.Grammar
