import SchemaLoom.Proofs.Identifiers
import SchemaLoom.Proofs.Locality
import SchemaLoom.Proofs.WholeWords

/-!
# Heads of table statements

A head is the words `CREATE TABLE`. Where a text without quotes is cut before a head
or behind a table body, its heads are those of both parts, and the head of a readable
statement has no other head up to the opening parenthesis of its body.
-/

namespace SchemaLoom.Text

/-- A character folds to one capital letter at most. -/
theorem eq_of_foldsTo {first second c : Char} (upperFirst : first.isUpper = true)
    (upperSecond : second.isUpper = true) (foldsFirst : foldsTo first c)
    (foldsSecond : foldsTo second c) : first = second := by
  simp only [foldsTo, Bool.or_eq_true, Bool.and_eq_true, beq_iff_eq] at foldsFirst foldsSecond
  rcases foldsFirst with (same | ⟨rfl, rfl⟩) | ⟨rfl, rfl⟩
  · rcases foldsSecond with (other | ⟨rfl, rfl⟩) | ⟨rfl, rfl⟩
    · exact same.symm.trans other
    · exact absurd (same ▸ upperFirst) (by decide)
    · exact absurd (same ▸ upperFirst) (by decide)
  · rcases foldsSecond with (other | ⟨rfl, -⟩) | ⟨-, kelvin⟩
    · exact absurd (other ▸ upperSecond) (by decide)
    · rfl
    · exact absurd kelvin (by decide)
  · rcases foldsSecond with (other | ⟨-, longS⟩) | ⟨rfl, -⟩
    · exact absurd (other ▸ upperSecond) (by decide)
    · exact absurd longS (by decide)
    · rfl

/-- What follows blanks is the same whether the keyword before them is asked to be a
whole word or not. -/
theorem keywordAndBlanks_eq (keyword text : List Char) :
    (dropKeyword? keyword text).bind dropBlanks? = (dropWord? keyword text).bind dropBlanks? := by
  cases found : dropWord? keyword text with
  | none => exact keywordAndBlanks_of_dropWord? found
  | some rest => rw [(Option.filter_eq_some_iff.1 found).1]

/-- Blanks end where a text that does not begin with one follows them. -/
theorem dropBlanks?_append {rest : List Char} (solid : StartsSolid rest) (text : List Char) :
    dropBlanks? (text ++ rest) = (dropBlanks? text).map (· ++ rest) := by
  cases text with
  | nil =>
      cases rest with
      | nil => rfl
      | cons c rest => simp [dropBlanks?, solid c rfl]
  | cons c text =>
      have trimmed : trimStart (text ++ rest) = trimStart text ++ rest := by
        by_cases blank : isBlankText text
        · rw [trimStart_blanks blank solid, trimStart_eq_nil_iff.2 blank, List.nil_append]
        · exact trimStart_append_of_not_blank blank rest
      simp only [List.cons_append, dropBlanks?, trimmed]
      split <;> rfl

/-- Keywords with different first letters do not begin the same text. -/
theorem dropWord?_of_dropKeyword? {first second text rest : List Char}
    (wordFirst : IsWordKeyword first) (wordSecond : IsWordKeyword second)
    (other : first.head? ≠ second.head?) (found : dropKeyword? first text = some rest) :
    dropWord? second text = none := by
  obtain ⟨capital, letters, rfl⟩ := List.exists_cons_of_ne_nil wordFirst.1
  obtain ⟨otherCapital, others, rfl⟩ := List.exists_cons_of_ne_nil wordSecond.1
  cases text with
  | nil => rfl
  | cons c text =>
      rw [dropKeyword?] at found
      split at found
      · rename_i folds
        have noFold : foldsTo otherCapital c = false := Bool.eq_false_iff.2 fun both =>
          other (congrArg some (eq_of_foldsTo (wordFirst.2 capital List.mem_cons_self)
            (wordSecond.2 otherCapital List.mem_cons_self) folds both))
        simp [dropWord?, dropKeyword?, noFold]
      · cases found

/-- Blanks are taken from a text that begins with one. -/
theorem exists_of_dropBlanks? {text rest : List Char} (found : dropBlanks? text = some rest) :
    ∃ c tail, text = c :: tail ∧ isBlank c = true ∧ rest = trimStart tail := by
  cases text with
  | nil => cases found
  | cons c text =>
      rw [dropBlanks?] at found
      split at found
      · rename_i blank
        exact ⟨c, text, rfl, blank, (Option.some.inj found).symm⟩
      · cases found

/-- Where blanks have to follow, what is left is the text without them. -/
theorem trimStart_of_dropBlanks? {text rest : List Char} (found : dropBlanks? text = some rest) :
    rest = trimStart text := by
  obtain ⟨c, tail, rfl, blank, rfl⟩ := exists_of_dropBlanks? found
  simp [trimStart, blank]

/-- A text that is not empty settles whether it ends in a word. -/
theorem endsInWord_of_ne_nil {text : List Char} (nonempty : text ≠ []) (before after : Bool) :
    endsInWord before text = endsInWord after text := by
  cases text with
  | nil => exact absurd rfl nonempty
  | cons c text => rfl

/-- Whether words run on from a text depends on its end only. -/
theorem Bounded.of_suffix {afterWord : Bool} {text part rest : List Char}
    (bounded : Bounded afterWord text rest) (suffix : part <:+ text) (nonempty : part ≠ []) :
    Bounded afterWord part rest := by
  obtain ⟨before, rfl⟩ := suffix
  intro ends
  refine bounded ?_
  rw [endsInWord_append, endsInWord_of_ne_nil nonempty _ afterWord, ends]

end SchemaLoom.Text

namespace SchemaLoom.Ddl

open SchemaLoom.Text

namespace Phrase

variable {first second text rest : List Char} {afterWord : Bool}

/-- A phrase of two words is two whole words with blanks between them. -/
theorem dropWhole?_pair (first second text : List Char) :
    dropWhole? [first, second] text =
      ((dropWord? first text).bind dropBlanks?).bind (dropWord? second) := by
  rw [dropWhole?, drop?_cons_cons, keywordAndBlanks_eq]
  cases (dropWord? first text).bind dropBlanks? <;> rfl

/-- A phrase of two words that begins within a text ends within it, if what follows
does not begin with the second word. -/
theorem dropWhole?_append (wordFirst : IsWordKeyword first) (wordSecond : IsWordKeyword second)
    (nonempty : text ≠ []) (bounded : Bounded afterWord text rest) (solid : StartsSolid rest)
    (absent : dropWord? second rest = none) :
    dropWhole? [first, second] (text ++ rest) =
      (dropWhole? [first, second] text).map (· ++ rest) := by
  rw [dropWhole?_pair, dropWhole?_pair, dropWord?_append wordFirst.2 (.inl nonempty) bounded]
  cases opened : dropWord? first text with
  | none => rfl
  | some middle =>
      simp only [Option.map_some, Option.bind_some, dropBlanks?_append solid]
      cases spaced : dropBlanks? middle with
      | none => rfl
      | some after =>
          simp only [Option.map_some, Option.bind_some]
          cases after with
          | nil =>
              obtain ⟨capital, letters, rfl⟩ := List.exists_cons_of_ne_nil wordSecond.1
              rw [List.nil_append, absent]
              rfl
          | cons c after =>
              have suffix : c :: after <:+ text := (dropBlanks?_suffix spaced).trans
                (dropKeyword?_suffix (Option.filter_eq_some_iff.1 opened).1).1
              exact dropWord?_append wordSecond.2 (.inl (List.cons_ne_nil c after))
                (bounded.of_suffix suffix (List.cons_ne_nil c after))

/-- The places of a phrase of two words in a text that goes on are those in the text,
and those in what follows it. -/
theorem occurrences_append (wordFirst : IsWordKeyword first) (wordSecond : IsWordKeyword second)
    (bounded : Bounded afterWord text rest) (solid : StartsSolid rest)
    (absent : dropWord? second rest = none) :
    occurrences [first, second] afterWord (text ++ rest) =
      (occurrences [first, second] afterWord text).map (· ++ rest) ++
        occurrences [first, second] (endsInWord afterWord text) rest := by
  induction text generalizing afterWord with
  | nil => rfl
  | cons c text inductionHypothesis =>
      have here := dropWhole?_append wordFirst wordSecond (List.cons_ne_nil c text) bounded solid
        absent
      have others := @inductionHypothesis (isWordChar c) bounded
      rw [List.cons_append] at here
      simp only [List.cons_append, occurrences, endsInWord, others, here, Option.isSome_map]
      split <;> simp

/-- A phrase that cannot be read at a character occurs only behind it. -/
theorem occurrences_cons_absent {phrase : Phrase} {c : Char}
    (absent : phrase.dropWhole? (c :: rest) = none) :
    phrase.occurrences afterWord (c :: rest) = phrase.occurrences (isWordChar c) rest := by
  simp [occurrences, absent]

end Phrase

/-- The heads of table statements in a text, each with all that follows it. -/
def heads (text : List Char) : List (List Char) :=
  createTable.occurrences false text

section Passing

variable {afterWord : Bool} {text rest : List Char}

/-- The phrase of a head has two words. -/
theorem createTable_eq : createTable = ["CREATE".toList, "TABLE".toList] := rfl

/-- A character that does not begin the word `CREATE` begins no head. -/
theorem createTable_cons {c : Char} (absent : dropWord? "CREATE".toList (c :: rest) = none) :
    createTable.occurrences afterWord (c :: rest) = createTable.occurrences (isWordChar c) rest :=
  Phrase.occurrences_cons_absent (Phrase.dropWhole?_of_dropWord? absent)

/-- Behind what is no word character a head may begin. -/
theorem createTable_cons_other {c : Char} (other : isWordChar c = false) (rest : List Char) :
    createTable.occurrences afterWord (c :: rest) = heads rest := by
  rw [createTable_cons (dropWord?_of_other (by decide) other), other]
  rfl

/-- Between words it makes no difference what stands before the text. -/
theorem createTable_between (other : startsInWord text = false) :
    createTable.occurrences afterWord text = heads text := by
  cases text with
  | nil => rfl
  | cons c text => rw [heads, createTable_cons_other other, createTable_cons_other other]

/-- Blanks hold no heads. -/
theorem heads_trimStart (text : List Char) : heads (trimStart text) = heads text := by
  induction text with
  | nil => rfl
  | cons c text inductionHypothesis =>
      cases blank : isBlank c with
      | true =>
          have skipped : trimStart (c :: text) = trimStart text := by simp [trimStart, blank]
          rw [skipped, inductionHypothesis]
          exact (createTable_cons_other (isWordChar_of_isBlank blank) text).symm
      | false => rw [trimStart_of_startsSolid (.cons blank text)]

/-- Blanks that have to stand in front of a text hold no head. -/
theorem heads_of_dropBlanks? (found : dropBlanks? text = some rest) :
    createTable.occurrences afterWord text = heads rest := by
  obtain ⟨c, tail, rfl, blank, rfl⟩ := exists_of_dropBlanks? found
  rw [heads_trimStart, createTable_cons_other (isWordChar_of_isBlank blank)]

/-- No head begins inside a word. -/
theorem createTable_inside {keyword : List Char} (capitals : Capitals keyword)
    (found : dropKeyword? keyword text = some rest) :
    createTable.occurrences true text = createTable.occurrences true rest := by
  induction keyword generalizing text with
  | nil =>
      cases found
      rfl
  | cons capital keyword inductionHypothesis =>
      obtain ⟨upper, others⟩ := List.forall_mem_cons.1 capitals
      cases text with
      | nil => cases found
      | cons c text =>
          rw [dropKeyword?] at found
          split at found
          · rename_i folds
            have wordChar := isWordChar_of_foldsTo upper folds
            rw [Phrase.occurrences, wordChar]
            exact inductionHypothesis others found
          · cases found

/-- Keywords of a statement other than the one that begins it. -/
def Follows (keyword : List Char) : Prop :=
  IsWordKeyword keyword ∧ keyword.head? ≠ some 'C'

instance (keyword : List Char) : Decidable (Follows keyword) :=
  inferInstanceAs (Decidable (_ ∧ _))

/-- A keyword with blanks behind it holds no head. -/
theorem heads_of_keyword {keyword : List Char} (follows : Follows keyword)
    (found : (dropKeyword? keyword text).bind dropBlanks? = some rest) :
    heads text = heads rest := by
  obtain ⟨after, word, blanks⟩ := Option.bind_eq_some_iff.1 found
  have absent : dropWord? "CREATE".toList text = none :=
    dropWord?_of_dropKeyword? follows.1 (by decide) follows.2 word
  obtain ⟨⟨nonempty, capitals⟩, -⟩ := follows
  obtain ⟨capital, letters, rfl⟩ := List.exists_cons_of_ne_nil nonempty
  obtain ⟨upper, others⟩ := List.forall_mem_cons.1 capitals
  cases text with
  | nil => cases word
  | cons c text =>
      rw [dropKeyword?] at word
      split at word
      · rename_i folds
        rw [heads, createTable_cons absent, isWordChar_of_foldsTo upper folds,
          createTable_inside others word, heads_of_dropBlanks? blanks]
      · cases word

/-- The words of a phrase and the blanks behind it hold no head. -/
theorem heads_of_phrase {phrase : Phrase} (nonempty : phrase ≠ [])
    (follow : ∀ keyword ∈ phrase, Follows keyword)
    (found : (phrase.drop? text).bind dropBlanks? = some rest) : heads text = heads rest := by
  induction phrase generalizing text with
  | nil => exact absurd rfl nonempty
  | cons keyword phrase inductionHypothesis =>
      obtain ⟨first, others⟩ := List.forall_mem_cons.1 follow
      cases phrase with
      | nil => exact heads_of_keyword first found
      | cons second phrase =>
          rw [Phrase.drop?_cons_cons] at found
          obtain ⟨after, words, blanks⟩ := Option.bind_eq_some_iff.1 found
          obtain ⟨middle, word, later⟩ := Option.bind_eq_some_iff.1 words
          rw [heads_of_keyword first word]
          exact inductionHypothesis (List.cons_ne_nil second phrase) others
            (Option.bind_eq_some_iff.2 ⟨after, later, blanks⟩)

/-- A text without blanks holds no head, and none begins in it if the word `TABLE`
does not come next. -/
theorem createTable_solid (solid : ∀ c ∈ text, isBlank c = false)
    (boundary : startsInWord rest = false)
    (absent : dropWord? "TABLE".toList (trimStart rest) = none) :
    createTable.occurrences afterWord (text ++ rest) = heads rest := by
  induction text generalizing afterWord with
  | nil => exact createTable_between boundary
  | cons c text inductionHypothesis =>
      have bounded : Bounded afterWord (c :: text) rest := .of_startsInWord boundary
      have noHead : createTable.dropWhole? (c :: text ++ rest) = none := by
        rw [createTable_eq, Phrase.dropWhole?_pair, dropWord?_append (by decide)
          (.inl (List.cons_ne_nil c text)) bounded]
        cases opened : dropWord? "CREATE".toList (c :: text) with
        | none => rfl
        | some middle =>
            have suffix := (dropKeyword?_suffix (Option.filter_eq_some_iff.1 opened).1).1
            cases middle with
            | nil =>
                cases spaced : dropBlanks? rest with
                | none => simp [spaced]
                | some after =>
                    rw [← trimStart_of_dropBlanks? spaced] at absent
                    simpa [spaced] using absent
            | cons d middle =>
                have solidHere : isBlank d = false := solid d (suffix.subset List.mem_cons_self)
                simp [dropBlanks?, solidHere]
      rw [List.cons_append] at noHead ⊢
      rw [Phrase.occurrences_cons_absent noHead]
      exact inductionHypothesis (fun d member => solid d (List.mem_cons_of_mem c member))

/-- What ends a name outside quotes is not part of a word. -/
theorem isWordChar_of_not_isNameChar {c : Char} (ends : isNameChar c = false)
    (unquoted : quoteClose? c = none) : isWordChar c = false := by
  have noQuote := identifierClose?_of_quoteClose? unquoted
  by_cases blank : isBlank c = true
  · exact isWordChar_of_isBlank blank
  · have mark : c ∈ ['(', ')', ',', ';', '.', '\x22', '\x60', '[', ']'] := by
      by_contra other
      simp only [List.mem_cons, List.not_mem_nil, or_false, not_or] at other
      simp [isNameChar, blank, other] at ends
    simp only [List.mem_cons, List.not_mem_nil, or_false] at mark
    rcases mark with rfl | rfl | rfl | rfl | rfl | rfl | rfl | rfl | rfl <;> decide

/-- An identifier outside quotes is a text of name characters that ends where these
do. -/
theorem identifier?_bare {written : List Char} (quoteFree : QuoteFree text)
    (found : identifier? text = some (written, rest)) :
    text = written ++ rest ∧ written ≠ [] ∧ (∀ c ∈ written, isNameChar c = true) ∧
      startsInWord rest = false := by
  cases text with
  | nil => cases found
  | cons c text =>
      simp only [identifier?, identifierClose?_of_quoteClose? (quoteFree c List.mem_cons_self)]
        at found
      split at found
      · rename_i nameChar
        obtain ⟨rfl, rfl⟩ := Prod.mk.inj (Option.some.inj found)
        refine ⟨by rw [List.cons_append, List.takeWhile_append_dropWhile], List.cons_ne_nil _ _, ?_,
          ?_⟩
        · exact List.forall_mem_cons.2 ⟨nameChar, List.all_eq_true.1 List.all_takeWhile⟩
        · cases dropped : text.dropWhile isNameChar with
          | nil => rfl
          | cons d rest =>
              have ends : isNameChar d = false := by
                simpa [dropped] using List.head?_dropWhile_not isNameChar text
              have suffix : d :: rest <:+ text := dropped ▸ List.dropWhile_suffix isNameChar
              exact isWordChar_of_not_isNameChar ends
                (quoteFree d (List.mem_cons_of_mem c (suffix.subset List.mem_cons_self)))
      · cases found

/-- An identifier holds no head, unless the second word of one follows. -/
theorem heads_of_identifier? {written : List Char} (quoteFree : QuoteFree text)
    (found : identifier? text = some (written, rest))
    (absent : dropWord? "TABLE".toList (trimStart rest) = none) : heads text = heads rest := by
  obtain ⟨rfl, -, nameChars, boundary⟩ := identifier?_bare quoteFree found
  refine createTable_solid (fun c member => ?_) boundary absent
  have nameChar := nameChars c member
  simp only [isNameChar, Bool.and_eq_true, Bool.not_eq_true'] at nameChar
  simp [nameChar]

/-- Between the parts of a qualified name and the parenthesis behind it stands no
head. -/
theorem heads_of_lastPart {part body : List Char} (quoteFree : QuoteFree text)
    (opened : trimStart (lastPart part text).2 = '(' :: body) :
    heads text = heads body ∧ dropWord? "TABLE".toList (trimStart text) = none := by
  fun_induction lastPart part text with
  | case1 part text absent =>
      change trimStart text = '(' :: body at opened
      rw [← heads_trimStart text, opened]
      exact ⟨createTable_cons_other (by decide) body, dropWord?_of_other (by decide) (by decide)⟩
  | case2 part text next rest found inductionHypothesis =>
      obtain ⟨others, absent⟩ := inductionHypothesis
        (quoteFree.of_suffix (nextPart?_suffix found).1) opened
      rw [nextPart?] at found
      split at found
      · rename_i after point
        have inner : QuoteFree (trimStart after) :=
          ((quoteFree.of_suffix (trimStart_suffix text)).of_suffix
            (point ▸ List.suffix_cons '.' after)).of_suffix (trimStart_suffix after)
        constructor
        · rw [← heads_trimStart text, point, heads,
            createTable_cons_other (by decide), ← heads_trimStart after,
            heads_of_identifier? inner found absent, others]
        · rw [point]
          exact dropWord?_of_other (by decide) (by decide)
      · cases found

/-- Between the name of a table and its body there is no head. -/
theorem heads_of_nameAndBody? {name body : List Char} (quoteFree : QuoteFree text)
    (found : nameAndBody? text = some (name, body)) : heads text = heads body := by
  rw [nameAndBody?] at found
  split at found
  · cases found
  · rename_i last rest qualified
    split at found
    · rename_i inside opened
      obtain ⟨rfl, rfl⟩ := Prod.mk.inj (Option.some.inj found)
      obtain ⟨⟨written, after⟩, first, parts⟩ := Option.map_eq_some_iff.1 qualified
      have ending : trimStart (lastPart written after).2 = '(' :: inside := by
        rw [parts]
        exact opened
      obtain ⟨others, absent⟩ :=
        heads_of_lastPart (quoteFree.of_suffix (identifier?_suffix first).1) ending
      rw [heads_of_identifier? quoteFree first absent, others]
    · cases found

/-- A statement head does not begin with the word `TABLE`. -/
theorem dropWord?_table_of_tableHead? {parts : List Char × List Char}
    (found : tableHead? text = some parts) : dropWord? "TABLE".toList text = none := by
  rw [tableHead?] at found
  split at found
  · cases found
  · rename_i before
    obtain ⟨middle, phrase, -⟩ := Option.bind_eq_some_iff.1 before
    rw [createTable_eq, Phrase.drop?_cons_cons] at phrase
    obtain ⟨after, create, -⟩ := Option.bind_eq_some_iff.1 phrase
    obtain ⟨letters, word, -⟩ := Option.bind_eq_some_iff.1 create
    exact dropWord?_of_dropKeyword? (by decide) (by decide) (by decide) word

/-- A statement head that is read holds no other head: behind it come those of the
body and what follows. -/
theorem heads_of_tableHead? {name body : List Char} (quoteFree : QuoteFree text)
    (found : tableHead? text = some (name, body)) : heads text = text :: heads body := by
  rw [tableHead?] at found
  split at found
  · cases found
  · rename_i rest before
    have named : heads rest = heads body := by
      have inner := quoteFree.of_suffix (phraseAndBlanks_suffix before)
      split at found
      · rename_i parts guarded
        cases found
        obtain ⟨after, condition, read⟩ := Option.bind_eq_some_iff.1 guarded
        rw [heads_of_phrase (by decide) (by decide) condition]
        exact heads_of_nameAndBody? (inner.of_suffix (phraseAndBlanks_suffix condition)) read
      · exact heads_of_nameAndBody? inner found
    obtain ⟨words, phrase, blanks⟩ := Option.bind_eq_some_iff.1 before
    have whole : createTable.dropWhole? text = some words := by
      obtain ⟨c, tail, rfl, blank, -⟩ := exists_of_dropBlanks? blanks
      rw [Phrase.dropWhole?, phrase]
      simp [Option.filter, startsInWord, isWordChar_of_isBlank blank]
    rw [createTable_eq, Phrase.drop?_cons_cons] at phrase
    obtain ⟨middle, create, table⟩ := Option.bind_eq_some_iff.1 phrase
    obtain ⟨after, word, spaces⟩ := Option.bind_eq_some_iff.1 create
    cases text with
    | nil => cases word
    | cons c text =>
        have inside : createTable.occurrences (isWordChar c) text = heads body := by
          have letters : dropKeyword? "REATE".toList text = some after ∧ isWordChar c = true := by
            change (if foldsTo 'C' c then dropKeyword? "REATE".toList text else none) = _ at word
            split at word
            · rename_i folds
              exact ⟨word, isWordChar_of_foldsTo (by decide) folds⟩
            · cases word
          have tableFound : (dropKeyword? "TABLE".toList middle).bind dropBlanks? = some rest :=
            Option.bind_eq_some_iff.2 ⟨words, table, blanks⟩
          rw [letters.2, createTable_inside (by decide) letters.1, heads_of_dropBlanks? spaces,
            heads_of_keyword (by decide) tableFound, named]
        rw [heads, Phrase.occurrences]
        simp only [whole, Option.isSome_some, Bool.not_false, Bool.and_self, if_true, inside]

end Passing

/-- What the search for a statement head gives: the text before the head has only
heads that cannot be read. -/
structure Head.Found (afterWord : Bool) (text : List Char) (head : Head) : Prop where
  text : text = head.skipped ++ head.start
  boundary : endsInWord afterWord head.skipped = false
  read : tableHead? head.start = some (head.name, head.body)
  unread : ∀ start ∈ createTable.occurrences afterWord head.skipped,
    tableHead? (start ++ head.start) = none

/-- A head that is found is the first that can be read. -/
theorem findHead?_found {afterWord : Bool} {text : List Char} {head : Head}
    (found : findHead? afterWord text = some head) : head.Found afterWord text := by
  induction text generalizing afterWord head with
  | nil => cases found
  | cons c text inductionHypothesis =>
      rw [findHead?] at found
      split at found
      · rename_i name body here
        cases found
        cases afterWord with
        | true => cases here
        | false => exact ⟨rfl, rfl, here, fun start member => by cases member⟩
      · rename_i absent
        obtain ⟨later, inner, rfl⟩ := Option.map_eq_some_iff.1 found
        obtain ⟨whole, boundary, read, unread⟩ := inductionHypothesis inner
        refine ⟨congrArg (c :: ·) whole, boundary, read, fun start member => ?_⟩
        change start ∈ createTable.occurrences afterWord (c :: later.skipped) at member
        rw [Phrase.occurrences] at member
        split at member
        · rename_i here
          rcases List.mem_cons.1 member with rfl | others
          · have start : afterWord = false := by simpa using (Bool.and_eq_true_iff.1 here).1
            rw [start] at absent
            rw [List.cons_append, ← whole]
            exact absent
          · exact unread start others
        · exact unread start member

/-- Where no statement head is found, no head can be read. -/
theorem findHead?_none {afterWord : Bool} {text : List Char}
    (absent : findHead? afterWord text = none) :
    ∀ start ∈ createTable.occurrences afterWord text, tableHead? start = none := by
  induction text generalizing afterWord with
  | nil => intro start member; cases member
  | cons c text inductionHypothesis =>
      intro start member
      rw [findHead?] at absent
      split at absent
      · cases absent
      · rename_i here
        rw [Option.map_eq_none_iff] at absent
        rw [Phrase.occurrences] at member
        split at member
        · rename_i begins
          rcases List.mem_cons.1 member with rfl | others
          · have before : afterWord = false := by simpa using (Bool.and_eq_true_iff.1 begins).1
            rw [before] at here
            exact here
          · exact inductionHypothesis absent start others
        · exact inductionHypothesis absent start member

section Letters

variable {c : Char} {text : List Char}

/-- A table statement begins with the letter of `CREATE`. -/
theorem tableHead?_of_letter (absent : ∀ c ∈ text.head?, foldsTo 'C' c = false) :
    tableHead? text = none := by
  have noWord : dropKeyword? "CREATE".toList text = none := by
    cases text with
    | nil => rfl
    | cons c text =>
        have word : "CREATE".toList = 'C' :: "REATE".toList := by decide
        rw [word, dropKeyword?, absent c rfl]
        rfl
  have noPhrase : createTable.drop? text = none := by
    rw [createTable, Phrase.ofWords, List.map_cons, List.map_cons, Phrase.drop?_cons_cons, noWord]
    rfl
  rw [tableHead?, noPhrase]
  rfl

/-- No table is declared without the letter that begins `CREATE`. -/
theorem findHead?_of_letter {afterWord : Bool} (absent : ∀ c ∈ text, foldsTo 'C' c = false) :
    findHead? afterWord text = none := by
  induction text generalizing afterWord with
  | nil => rfl
  | cons c text inductionHypothesis =>
      have here : tableHead? (c :: text) = none :=
        tableHead?_of_letter fun d first => absent d (List.mem_of_mem_head? first)
      have later : findHead? (isWordChar c) text = none :=
        inductionHypothesis fun d member => absent d (List.mem_cons_of_mem c member)
      simp [findHead?, here, later]

/-- Without the first letter of a head there are no entities. -/
theorem entities_of_letter {document : String}
    (absent : ∀ c ∈ document.toList, foldsTo 'C' c = false) :
    (schemaOf document).entities = [] := by
  have noHead : findHead? false (stripComments document.toList) = none := by
    refine findHead?_of_letter fun c member => ?_
    rcases List.mem_cons.1 (replaceComments_subset .plain _ member) with rfl | inside
    · decide
    · exact absent c inside
  have unread (skipped : List Char) : (unrecognizedHeads skipped).filterMap Block.entity? = [] := by
    rw [List.filterMap_eq_nil_iff]
    intro block member
    obtain ⟨start, -, rfl⟩ := List.mem_map.1 member
    rfl
  rw [schemaOf, Report.ofDocument, blocks_of_no_head noHead]
  exact unread _

end Letters

/-- The heads around a statement head are those before it and those from it on. -/
theorem Head.Found.heads_eq {text : List Char} {head : Head} (found : head.Found false text)
    (quoteFree : QuoteFree text) :
    heads text = (heads head.skipped).map (· ++ head.start) ++ head.start :: heads head.body := by
  have inner : QuoteFree head.start :=
    quoteFree.of_suffix ⟨head.skipped, found.text.symm⟩
  have solid := (startsSolid_of_tableHead? found.read).2
  have bounded : Bounded false head.skipped head.start := by
    intro ends
    rw [found.boundary] at ends
    cases ends
  have absent := dropWord?_table_of_tableHead? found.read
  rw [heads, found.text, createTable_eq, Phrase.occurrences_append (by decide) (by decide) bounded
    solid absent, found.boundary]
  exact congrArg _ (heads_of_tableHead? inner found.read)

end SchemaLoom.Ddl
