import SchemaLoom.Ddl.Document
import SchemaLoom.Proofs.Comments
import SchemaLoom.Proofs.Marks

/-!
# No reader passes a semicolon

In a text without quotes every reader of statement heads stops before a semicolon:
it finds in a longer text what it finds in the part before the semicolon, and leaves
the rest of that part with the semicolon and all that follows. One lemma for each
reader says so, up to the search for a head.
-/

namespace SchemaLoom.Ddl

open SchemaLoom.Text

variable {later : List Char}

/-- A reader's result in a text that goes on behind a semicolon. -/
def extend {α : Type} (later : List Char) (parts : α × List Char) : α × List Char :=
  (parts.1, parts.2 ++ ';' :: later)

/-- A semicolon is no blank. -/
theorem solid_semicolon : isBlank ';' = false := by
  decide

/-- A semicolon ends a word. -/
theorem other_semicolon : isWordChar ';' = false := by
  decide

namespace Phrase

/-- A phrase none of whose letters is a semicolon in any case. -/
def Lettered (phrase : Phrase) : Prop :=
  ∀ keyword ∈ phrase, ∀ capital ∈ keyword, foldsTo capital ';' = false

instance (phrase : Phrase) : Decidable phrase.Lettered :=
  have (keyword : List Char) : Decidable (∀ capital ∈ keyword, foldsTo capital ';' = false) :=
    List.decidableBAll _ keyword
  List.decidableBAll _ phrase

end Phrase

/-- A run that stops at a semicolon does not reach behind it. -/
theorem takeWhile_append_semicolon {accepts : Char -> Bool} (stops : accepts ';' = false)
    (text : List Char) :
    (text ++ ';' :: later).takeWhile accepts = text.takeWhile accepts := by
  induction text with
  | nil => simp [stops]
  | cons c text inductionHypothesis => simp only [List.cons_append, List.takeWhile_cons,
      inductionHypothesis]

/-- What is left behind such a run goes on with the semicolon. -/
theorem dropWhile_append_semicolon {accepts : Char -> Bool} (stops : accepts ';' = false)
    (text : List Char) :
    (text ++ ';' :: later).dropWhile accepts = text.dropWhile accepts ++ ';' :: later := by
  induction text with
  | nil => simp [stops]
  | cons c text inductionHypothesis =>
      simp only [List.cons_append, List.dropWhile_cons, inductionHypothesis]
      split <;> rfl

/-- What opens no quotes opens no quoted identifier. -/
theorem identifierClose?_of_quoteClose? {c : Char} (unquoted : quoteClose? c = none) :
    identifierClose? c = none := by
  unfold quoteClose? at unquoted
  split at unquoted
  · cases unquoted
  · exact unquoted

/-- An identifier is read as without the semicolon, and more is left behind it. -/
theorem identifier?_append_semicolon {text : List Char} (quoteFree : QuoteFree text) :
    identifier? (text ++ ';' :: later) = (identifier? text).map (extend later) := by
  have boundary : isNameChar ';' = false := by decide
  cases text with
  | nil =>
      have unquoted : identifierClose? ';' = none := by decide
      simp [identifier?, unquoted, boundary]
  | cons c text =>
      have unquoted := identifierClose?_of_quoteClose? (quoteFree c List.mem_cons_self)
      simp only [List.cons_append, identifier?, unquoted, takeWhile_append_semicolon boundary,
        dropWhile_append_semicolon boundary]
      split <;> rfl

/-- The next part of a qualified name is read as without the semicolon. -/
theorem nextPart?_append_semicolon {text : List Char} (quoteFree : QuoteFree text) :
    nextPart? (text ++ ';' :: later) = (nextPart? text).map (extend later) := by
  have inner := quoteFree.of_suffix (trimStart_suffix text)
  rw [nextPart?, nextPart?, trimStart_append_mark solid_semicolon]
  cases start : trimStart text with
  | nil => rfl
  | cons c rest =>
      rw [start] at inner
      by_cases point : c = '.'
      · subst point
        have afterPoint := (inner.of_suffix (List.suffix_cons '.' rest)).of_suffix
          (trimStart_suffix rest)
        simp only [List.cons_append, trimStart_append_mark solid_semicolon]
        exact identifier?_append_semicolon afterPoint
      · simp [point]

/-- The last part of a qualified name is found as without the semicolon. -/
theorem lastPart_append_semicolon (part : List Char) {text : List Char}
    (quoteFree : QuoteFree text) :
    lastPart part (text ++ ';' :: later) = extend later (lastPart part text) := by
  fun_induction lastPart part text with
  | case1 part text absent =>
      have still : nextPart? (text ++ ';' :: later) = none := by
        rw [nextPart?_append_semicolon quoteFree, absent]
        rfl
      rw [lastPart]
      split
      · rfl
      · simp_all
  | case2 part text next rest found inductionHypothesis =>
      have still : nextPart? (text ++ ';' :: later) = some (next, rest ++ ';' :: later) := by
        rw [nextPart?_append_semicolon quoteFree, found]
        rfl
      rw [lastPart]
      split
      · simp_all
      · rename_i other remaining same
        obtain ⟨rfl, rfl⟩ : next = other ∧ rest ++ ';' :: later = remaining := by
          simpa [still] using same
        exact inductionHypothesis (quoteFree.of_suffix (nextPart?_suffix found).1)

/-- A qualified name is read as without the semicolon. -/
theorem qualified?_append_semicolon {text : List Char} (quoteFree : QuoteFree text) :
    qualified? (text ++ ';' :: later) = (qualified? text).map (extend later) := by
  rw [qualified?, qualified?, identifier?_append_semicolon quoteFree]
  cases found : identifier? text with
  | none => rfl
  | some parts =>
      exact congrArg some
        (lastPart_append_semicolon parts.1 (quoteFree.of_suffix (identifier?_suffix found).1))

/-- The name of a table and the start of its body are read as without the semicolon. -/
theorem nameAndBody?_append_semicolon {text : List Char} (quoteFree : QuoteFree text) :
    nameAndBody? (text ++ ';' :: later) = (nameAndBody? text).map (extend later) := by
  rw [nameAndBody?, nameAndBody?, qualified?_append_semicolon quoteFree]
  cases qualified? text with
  | none => rfl
  | some parts =>
      simp only [Option.map_some, extend, trimStart_append_mark solid_semicolon]
      cases trimStart parts.2 with
      | nil => rfl
      | cons c rest =>
          by_cases opening : c = '('
          · subst opening
            rfl
          · simp [opening]

/-- The keywords of a head are letters. -/
theorem createTable_lettered : createTable.Lettered := by
  decide

/-- The condition of a head has letters only. -/
theorem ifNotExists_lettered : ifNotExists.Lettered := by
  decide

/-- A phrase with the blanks after it is read in the part before a semicolon. -/
theorem phraseAndBlanks_append_semicolon {phrase : Phrase} (lettered : phrase.Lettered)
    (text : List Char) :
    (phrase.drop? (text ++ ';' :: later)).bind dropBlanks? =
      ((phrase.drop? text).bind dropBlanks?).map (· ++ ';' :: later) := by
  rw [phrase.drop?_append_mark solid_semicolon lettered]
  cases phrase.drop? text with
  | none => rfl
  | some rest => exact dropBlanks?_append_mark solid_semicolon rest

/-- What follows a phrase and blanks is the end of the text. -/
theorem phraseAndBlanks_suffix {phrase : Phrase} {text rest : List Char}
    (found : (phrase.drop? text).bind dropBlanks? = some rest) : rest <:+ text := by
  obtain ⟨middle, words, blanks⟩ := Option.bind_eq_some_iff.1 found
  exact (dropBlanks?_suffix blanks).trans (Phrase.drop?_suffix words)

/-- The head of a statement is read in the part before a semicolon. -/
theorem tableHead?_append_semicolon (later : List Char) {text : List Char}
    (quoteFree : QuoteFree text) :
    tableHead? (text ++ ';' :: later) = (tableHead? text).map (extend later) := by
  rw [tableHead?, tableHead?, phraseAndBlanks_append_semicolon createTable_lettered]
  cases opened : (createTable.drop? text).bind dropBlanks? with
  | none => rfl
  | some rest =>
      have inner := quoteFree.of_suffix (phraseAndBlanks_suffix opened)
      simp only [Option.map_some, phraseAndBlanks_append_semicolon ifNotExists_lettered]
      cases condition : (ifNotExists.drop? rest).bind dropBlanks? with
      | none => simpa using nameAndBody?_append_semicolon inner
      | some name =>
          have afterCondition := inner.of_suffix (phraseAndBlanks_suffix condition)
          simp only [Option.map_some, Option.bind_some,
            nameAndBody?_append_semicolon afterCondition]
          cases nameAndBody? name with
          | none => simpa using nameAndBody?_append_semicolon inner
          | some parts => rfl

/-- A head whose text goes on behind a semicolon. -/
def Head.extend (later : List Char) (head : Head) : Head :=
  { head with start := head.start ++ ';' :: later, body := head.body ++ ';' :: later }

/-- A head found behind some text that has none. -/
def Head.behind (before : List Char) (head : Head) : Head :=
  { head with skipped := before ++ head.skipped }

/-- No head begins with a semicolon. -/
theorem tableHead?_semicolon (later : List Char) : tableHead? (';' :: later) = none := by
  rfl

/-- The first head of a text with a semicolon is the first one before it, or else
the first one after it. -/
theorem findHead?_append_semicolon (later : List Char) {text : List Char}
    (quoteFree : QuoteFree text) (afterWord : Bool) :
    findHead? afterWord (text ++ ';' :: later) =
      match findHead? afterWord text with
      | some head => some (head.extend later)
      | none => (findHead? false later).map (Head.behind (text ++ [';'])) := by
  induction text generalizing afterWord with
  | nil =>
      have boundary : isWordChar ';' = false := by decide
      simp only [List.nil_append, findHead?, tableHead?_semicolon, boundary, ite_self]
      rfl
  | cons c text inductionHypothesis =>
      have here := tableHead?_append_semicolon later quoteFree
      have others := inductionHypothesis (quoteFree.of_suffix (List.suffix_cons c text))
        (isWordChar c)
      rw [List.cons_append] at here ⊢
      cases afterWord with
      | true =>
          simp only [findHead?, if_true, others]
          cases findHead? (isWordChar c) text with
          | some head => rfl
          | none => simp only [Option.map_none, Option.map_map]; rfl
      | false =>
          simp only [findHead?, Bool.false_eq_true, if_false, here]
          cases tableHead? (c :: text) with
          | some parts => rfl
          | none =>
              simp only [Option.map_none, others]
              cases findHead? (isWordChar c) text with
              | some head => rfl
              | none => simp only [Option.map_none, Option.map_map]; rfl

end SchemaLoom.Ddl
