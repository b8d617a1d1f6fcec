import SchemaLoom.Proofs.Definitions

/-!
# Types with parameters

The parameters of a type may hold any text whose parentheses pair up and whose quoted runs
have ends, with commas, semicolons and blanks in it. They are kept character by character,
whether they stand right behind the word of the type or apart from it. Reading looks beyond
the blanks behind a word for them, and where there are none it leaves what it has looked at
unread.
-/

namespace SchemaLoom.Ddl

open SchemaLoom.Text

/-- Whether a character is neither a parenthesis nor opens a quoted run. -/
def isInert (c : Char) : Bool :=
  c != '(' && c != ')' && c != '\x27' && c != '\x22' && c != '\x60' && c != '['

/-- A text whose parentheses pair up outside its quoted runs, all of which have ends. -/
inductive Paired : List Char → Prop where
  | nil : Paired []
  | inert {c : Char} {text : List Char} (inert : isInert c) (others : Paired text) :
      Paired (c :: text)
  | quoted {opening close : Char} {content text : List Char}
      (quotes : quoteClose? opening = some close) (inside : close ∉ content)
      (others : Paired text) : Paired (opening :: content ++ close :: text)
  | parentheses {inner text : List Char} (inside : Paired inner) (others : Paired text) :
      Paired ('(' :: inner ++ ')' :: text)

/-- A word without blanks, parentheses and quotes. -/
structure BareWord (word : List Char) : Prop where
  nonempty : word ≠ []
  solid : word.all fun c => !isBlank c
  inert : word.all isInert

instance (word : List Char) : Decidable (BareWord word) :=
  decidable_of_iff (word ≠ [] ∧ (word.all fun c => !isBlank c) ∧ word.all isInert)
    ⟨fun ⟨nonempty, solid, inert⟩ => ⟨nonempty, solid, inert⟩,
      fun bare => ⟨bare.nonempty, bare.solid, bare.inert⟩⟩

/-- The word at the start of a text, the type behind it, and what follows them without the
blanks around it. -/
def wordAndType? (text : List Char) : Option (List Char × List Char × List Char) :=
  match readWord? text with
  | none => none
  | some (word, behindWord) =>
      match readType? behindWord with
      | none => none
      | some (type, rest) => some (word, type, trim rest)

/-- An inert character opens no quotes and is no parenthesis. -/
theorem quoteClose?_of_isInert {c : Char} (inert : isInert c) :
    quoteClose? c = none ∧ c ≠ '(' ∧ c ≠ ')' := by
  simp only [isInert, Bool.and_eq_true, bne_iff_ne] at inert
  exact ⟨quoteClose?_eq_none (by simp [inert]), by simp [inert], by simp [inert]⟩

/-- Characters that are neither parentheses nor quotes may stand in front of a paired text. -/
theorem Paired.prepend {start text : List Char} (inert : start.all isInert)
    (paired : Paired text) : Paired (start ++ text) := by
  induction start with
  | nil => exact paired
  | cons c start inductionHypothesis =>
      rw [List.all_cons, Bool.and_eq_true] at inert
      exact .inert inert.1 (inductionHypothesis inert.2)

/-- Scans that do not stop within parentheses cross a paired text there. -/
theorem Paired.crossed {stops : Nat -> Char -> Bool} {depth : Nat} {text : List Char}
    (goesOn : ∀ deeper c, depth ≤ deeper → stops deeper c = false) (paired : Paired text) :
    depthAcross? stops none depth text = some depth := by
  induction paired generalizing depth with
  | nil => rfl
  | @inert c text inert _ inductionHypothesis =>
      obtain ⟨unquoted, notOpening, notClosing⟩ := quoteClose?_of_isInert inert
      rw [depthAcross?, if_neg (by simp [goesOn depth c (Nat.le_refl depth), notClosing]),
        openAfter, unquoted, depthAfter_of_ne notOpening notClosing]
      exact inductionHypothesis goesOn
  | @quoted opening close content text quotes inside _ inductionHypothesis =>
      have noParenthesis : opening ≠ ')' ∧ opening ≠ '(' := by
        constructor <;> rintro rfl <;> cases quotes
      have run : depthAcross? stops none depth (opening :: content ++ [close]) = some depth :=
        depthAcross?_quoted quotes inside (goesOn depth opening (Nat.le_refl depth))
          noParenthesis.1 noParenthesis.2
      have whole := (depthAcross?_append run).trans (inductionHypothesis goesOn)
      simpa using whole
  | @parentheses inner text _ _ innerHypothesis inductionHypothesis =>
      have deeper : depthAcross? stops none (depth + 1) inner = some (depth + 1) :=
        innerHypothesis fun further c below => goesOn further c (Nat.le_of_succ_le below)
      have pair : depthAcross? stops none depth ('(' :: inner ++ [')']) = some depth :=
        depthAcross?_parentheses deeper (goesOn depth '(' (Nat.le_refl depth))
          (goesOn (depth + 1) ')' (Nat.le_succ depth))
      have whole := (depthAcross?_append pair).trans (inductionHypothesis goesOn)
      simpa using whole

/-- A paired text in parentheses is part of one word, with all blanks in it. -/
theorem Paired.enclosed_crossed {text : List Char} (paired : Paired text) :
    depthAcross? stopsWord none 0 ('(' :: text ++ [')']) = some 0 := by
  refine TypeSpelling.parameters_crossed (paired.crossed fun deeper c inside => ?_)
  have deep : deeper ≠ 0 := Nat.ne_of_gt inside
  simp [stopsWord, deep]

namespace BareWord

variable {word : List Char}

/-- A bare word does not begin with a blank. -/
theorem startsSolid (bare : BareWord word) : StartsSolid word :=
  .of_forall fun c member => by simpa using List.all_eq_true.1 bare.solid c member

/-- The characters of a bare word open no quotes and are no parentheses. -/
theorem inert_of_mem (bare : BareWord word) {c : Char} (member : c ∈ word) :
    quoteClose? c = none ∧ c ≠ '(' ∧ c ≠ ')' :=
  quoteClose?_of_isInert (List.all_eq_true.1 bare.inert c member)

/-- A bare word opens no parameters. -/
theorem not_mem (bare : BareWord word) : '(' ∉ word :=
  fun member => (bare.inert_of_mem member).2.1 rfl

/-- A scan for the end of a word crosses a bare word. -/
theorem crossed (bare : BareWord word) : depthAcross? stopsWord none 0 word = some 0 := by
  refine depthAcross?_ordinary (fun c member => (bare.inert_of_mem member).1) bare.not_mem
    (fun member => (bare.inert_of_mem member).2.2 rfl) fun c member => ?_
  have solid : isBlank c = false := by simpa using List.all_eq_true.1 bare.solid c member
  simp [stopsWord, solid]

end BareWord

/-- A word up to blanks is read together with what is read as the type behind it. -/
theorem wordAndType?_eq {word space text type rest : List Char} (isWord : BareWord word)
    (blank : isBlankText space) (apart : space ≠ [])
    (typed : readType? (space ++ text) = some (type, rest)) :
    wordAndType? (word ++ (space ++ text)) = some (word, type, trim rest) := by
  have read : readWord? ([] ++ (word ++ (space ++ text))) = some (word, space ++ text) :=
    readWord?_eq rfl isWord.nonempty isWord.startsSolid isWord.crossed
      (.of_blanks blank apart text)
  rw [List.nil_append] at read
  rw [wordAndType?, read]
  simp only [typed]

/-- Behind a word, a type is read with its parameters as they are written. Parameters that
stand apart from the type are read as if they stood right behind it, and a type without
parameters is its word alone. What is left is the same in all three cases. -/
theorem wordAndType?_parameters {word space type parameters gap behind rest : List Char}
    (isWord : BareWord word) (blankSpace : isBlankText space) (spaceApart : space ≠ [])
    (isType : BareWord type) (paired : Paired parameters)
    (blankGap : isBlankText gap) (gapApart : gap ≠ [])
    (blankBehind : isBlankText behind) (behindApart : behind ≠ [])
    (startsSolid : StartsSolid rest) (noOpening : rest.head? ≠ some '(') :
    wordAndType? (word ++ (space ++ ((type ++ ('(' :: parameters ++ [')'])) ++ (behind ++ rest)))) =
        some (word, type ++ ('(' :: parameters ++ [')']), trim rest) ∧
      wordAndType?
          (word ++ (space ++ (type ++ (gap ++ (('(' :: parameters ++ [')']) ++ (behind ++ rest)))))) =
        some (word, type ++ ('(' :: parameters ++ [')']), trim rest) ∧
      wordAndType? (word ++ (space ++ (type ++ (behind ++ rest)))) = some (word, type, trim rest) := by
  have ends : EndsWord (behind ++ rest) := .of_blanks blankBehind behindApart rest
  have left : trim (behind ++ rest) = trim rest := trim_blanks_append blankBehind rest
  have enclosed := paired.enclosed_crossed
  refine ⟨?_, ?_, ?_⟩ <;> rw [← left]
  · have whole : depthAcross? stopsWord none 0 (type ++ ('(' :: parameters ++ [')'])) = some 0 :=
      (depthAcross?_append isType.crossed).trans enclosed
    refine wordAndType?_eq isWord blankSpace spaceApart ?_
    exact readType?_word blankSpace (by simp)
      ((startsSolid_append isType.nonempty).2 isType.startsSolid) whole ends (.inl (by simp))
  · refine wordAndType?_eq isWord blankSpace spaceApart ?_
    exact readType?_parameters blankSpace isType.nonempty isType.startsSolid isType.crossed
      isType.not_mem blankGap gapApart rfl enclosed ends
  · have noParameters : (trimStart (behind ++ rest)).head? ≠ some '(' := by
      rwa [trimStart_blanks blankBehind startsSolid]
    refine wordAndType?_eq isWord blankSpace spaceApart ?_
    exact readType?_word blankSpace isType.nonempty isType.startsSolid isType.crossed ends
      (.inr noParameters)

/-- Parameters with a parenthesis in a literal, a pair of parentheses, a comma, a semicolon and
line breaks. -/
theorem wordAndType?_parameters_nested :
    let parameters := "':)', (1,\n 2); x".toList
    BareWord "Price".toList ∧ BareWord "ENUM".toList ∧ Paired parameters ∧
      wordAndType? "Price\t ENUM(':)', (1,\n 2); x) \nNOT NULL ".toList =
        some ("Price".toList, "ENUM(':)', (1,\n 2); x)".toList, "NOT NULL".toList) ∧
      wordAndType? "Price\t ENUM  (':)', (1,\n 2); x) \nNOT NULL ".toList =
        some ("Price".toList, "ENUM(':)', (1,\n 2); x)".toList, "NOT NULL".toList) ∧
      wordAndType? "Price\t ENUM \nNOT NULL ".toList =
        some ("Price".toList, "ENUM".toList, "NOT NULL".toList) := by
  intro parameters
  have isWord : BareWord "Price".toList := by decide
  have isType : BareWord "ENUM".toList := by decide
  have pair : Paired "1,\n 2".toList := @Paired.prepend "1,\n 2".toList [] (by decide) .nil
  have ending : Paired "; x".toList := @Paired.prepend "; x".toList [] (by decide) .nil
  have behind : Paired ", (1,\n 2); x".toList :=
    @Paired.prepend ", ".toList "(1,\n 2); x".toList (by decide) (pair.parentheses ending)
  have paired : Paired parameters :=
    @Paired.quoted '\x27' '\x27' ":)".toList _ (by decide) (by decide) behind
  have kept := @wordAndType?_parameters "Price".toList "\t ".toList "ENUM".toList parameters
    "  ".toList " \n".toList "NOT NULL ".toList isWord (by decide) (by decide) isType paired
    (by decide) (by decide) (by decide) (by decide) (by decide) (by decide)
  have trimmed : trim "NOT NULL ".toList = "NOT NULL".toList := by decide
  rw [trimmed] at kept
  exact ⟨isWord, isType, paired, kept⟩

end SchemaLoom.Ddl
