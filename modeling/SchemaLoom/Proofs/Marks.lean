import SchemaLoom.Proofs.WholeWords

/-!
# No phrase passes a mark

A mark is a character that is no part of words and not blank. Phrases of keywords with
blanks between them never reach across one: they stand in a text with a mark in it exactly
where they stand in the part before it or in the part behind it. A reference may reach
across marks, so what counts is where it begins.
-/

namespace SchemaLoom.Text

variable {mark : Char} {later : List Char}

/-- Trimming the start of a text does not reach behind a mark that is no blank. -/
theorem trimStart_append_mark (solid : isBlank mark = false) (text : List Char) :
    trimStart (text ++ mark :: later) = trimStart text ++ mark :: later := by
  induction text with
  | nil => simp [trimStart, solid]
  | cons c text inductionHypothesis =>
      cases blank : isBlank c with
      | true => simpa [trimStart, blank] using inductionHypothesis
      | false => simp [trimStart, blank]

/-- A keyword is read as without the mark, which is none of its letters. -/
theorem dropKeyword?_append_mark {keyword : List Char}
    (letters : ∀ capital ∈ keyword, foldsTo capital mark = false) (text : List Char) :
    dropKeyword? keyword (text ++ mark :: later) =
      (dropKeyword? keyword text).map (· ++ mark :: later) := by
  induction keyword generalizing text with
  | nil => rfl
  | cons capital keyword inductionHypothesis =>
      cases text with
      | nil => simp [dropKeyword?, letters capital List.mem_cons_self]
      | cons c text =>
          have others := inductionHypothesis
            (fun other member => letters other (List.mem_cons_of_mem capital member)) text
          simp only [List.cons_append, dropKeyword?]
          split
          · exact others
          · rfl

/-- Blanks that have to stand in front are read as without the mark. -/
theorem dropBlanks?_append_mark (solid : isBlank mark = false) (text : List Char) :
    dropBlanks? (text ++ mark :: later) = (dropBlanks? text).map (· ++ mark :: later) := by
  cases text with
  | nil => simp [dropBlanks?, solid]
  | cons c text =>
      simp only [List.cons_append, dropBlanks?, trimStart_append_mark solid]
      split <;> rfl

/-- A keyword with the blanks after it is read in the part before a mark. -/
theorem keywordAndBlanks_append_mark (solid : isBlank mark = false) {keyword : List Char}
    (letters : ∀ capital ∈ keyword, foldsTo capital mark = false) (text : List Char) :
    (dropKeyword? keyword (text ++ mark :: later)).bind dropBlanks? =
      ((dropKeyword? keyword text).bind dropBlanks?).map (· ++ mark :: later) := by
  rw [dropKeyword?_append_mark letters]
  cases dropKeyword? keyword text with
  | none => rfl
  | some rest => exact dropBlanks?_append_mark solid rest

end SchemaLoom.Text

namespace SchemaLoom.Ddl

open SchemaLoom.Text

namespace Phrase

variable {mark : Char} {later : List Char} {phrase : Phrase}

/-- A phrase none of whose letters is the mark in any case. -/
def Avoids (mark : Char) (phrase : Phrase) : Prop :=
  ∀ keyword ∈ phrase, ∀ capital ∈ keyword, foldsTo capital mark = false

/-- A phrase that avoids the mark is read as without it. -/
theorem drop?_append_mark (solid : isBlank mark = false) (avoids : phrase.Avoids mark)
    (text : List Char) :
    phrase.drop? (text ++ mark :: later) = (phrase.drop? text).map (· ++ mark :: later) := by
  induction phrase generalizing text with
  | nil => rfl
  | cons keyword phrase inductionHypothesis =>
      have first := avoids keyword List.mem_cons_self
      have others : Avoids mark phrase :=
        fun other member => avoids other (List.mem_cons_of_mem keyword member)
      cases phrase with
      | nil => simpa [drop?] using dropKeyword?_append_mark first text
      | cons second phrase =>
          simp only [drop?, keywordAndBlanks_append_mark solid first]
          cases (dropKeyword? keyword text).bind dropBlanks? with
          | none => rfl
          | some rest => exact inductionHypothesis others rest

/-- A phrase is whole words in front of a mark if it is at the end of the text. -/
theorem dropWhole?_append_mark (solid : isBlank mark = false) (other : isWordChar mark = false)
    (avoids : phrase.Avoids mark) (text : List Char) :
    phrase.dropWhole? (text ++ mark :: later) =
      (phrase.dropWhole? text).map (· ++ mark :: later) := by
  have boundary (rest : List Char) : startsInWord (rest ++ mark :: later) = startsInWord rest := by
    cases rest with
    | nil => exact other
    | cons c rest => rfl
  rw [dropWhole?, dropWhole?, drop?_append_mark solid avoids]
  cases phrase.drop? text with
  | none => rfl
  | some rest =>
      simp only [Option.map_some, Option.filter, boundary]
      split <;> rfl

/-- The places of a phrase around a mark are those in the part before it and those in the
part after it. -/
theorem occurrences_append_mark (solid : isBlank mark = false) (other : isWordChar mark = false)
    (avoids : phrase.Avoids mark) (absent : phrase.dropWhole? (mark :: later) = none)
    (afterWord : Bool) (text : List Char) :
    phrase.occurrences afterWord (text ++ mark :: later) =
      (phrase.occurrences afterWord text).map (· ++ mark :: later) ++
        phrase.occurrences false later := by
  induction text generalizing afterWord with
  | nil => simp [occurrences, absent, other]
  | cons c text inductionHypothesis =>
      have here := @dropWhole?_append_mark mark later phrase solid other avoids (c :: text)
      rw [List.cons_append] at here
      simp only [List.cons_append, occurrences, inductionHypothesis, here, Option.isSome_map]
      split <;> simp

/-- The letters of keywords are no marks. -/
theorem Avoids.of_words (words : ∀ keyword ∈ phrase, IsWordKeyword keyword)
    (other : isWordChar mark = false) : phrase.Avoids mark := by
  intro keyword member capital letter
  refine Bool.eq_false_iff.2 fun folds => ?_
  rw [isWordChar_of_foldsTo ((words keyword member).2 capital letter) folds] at other
  cases other

/-- A phrase occurs in a text with a mark in it if it occurs on one side of the mark. -/
theorem occursIn_append_mark (words : ∀ keyword ∈ phrase, IsWordKeyword keyword)
    (nonempty : phrase ≠ []) (solid : isBlank mark = false) (other : isWordChar mark = false)
    (text later : List Char) :
    phrase.occursIn (text ++ mark :: later) = (phrase.occursIn text || phrase.occursIn later) := by
  have absent : phrase.dropWhole? (mark :: later) = none := by
    obtain ⟨keyword, others, rfl⟩ := List.exists_cons_of_ne_nil nonempty
    exact dropWhole?_of_dropWord? (dropWord?_of_other (words keyword List.mem_cons_self) other)
  rw [occursIn, occursIn, occursIn,
    occurrences_append_mark solid other (.of_words words other) absent]
  cases phrase.occurrences false text <;> simp

end Phrase

/-- No reference begins at a mark. -/
theorem findReference?_mark {mark : Char} (other : isWordChar mark = false) (afterWord : Bool)
    (later : List Char) :
    findReference? afterWord (mark :: later) = findReference? false later := by
  have notHere : reference? (mark :: later) = none :=
    reference?_of_dropWord? (dropWord?_of_other (by decide) other)
  rw [findReference?, notHere, other]
  cases afterWord <;> rfl

/-- Whether a reference begins in a text that goes on with another one. The flag says
whether a word character stands before the text. -/
def beginsReference (later : List Char) : Bool -> List Char -> Bool
  | _, [] => false
  | afterWord, c :: rest =>
      (!afterWord && (reference? (c :: rest ++ later)).isSome) ||
        beginsReference later (isWordChar c) rest

/-- A reference is found in what follows a text in which none begins. -/
theorem findReference?_of_not_begins {later text : List Char} {afterWord : Bool}
    (absent : beginsReference later afterWord text = false) :
    findReference? afterWord (text ++ later) = findReference? (endsInWord afterWord text) later := by
  induction text generalizing afterWord with
  | nil => rfl
  | cons c text inductionHypothesis =>
      simp only [beginsReference, Bool.or_eq_false_iff] at absent
      have notHere : (if afterWord then none else reference? (c :: (text ++ later))) = none := by
        cases afterWord with
        | true => rfl
        | false => simpa using absent.1
      rw [List.cons_append, findReference?, notHere]
      exact inductionHypothesis absent.2

/-- Blanks in front of a text do not matter to its references. -/
theorem findReference?_trimStart (text : List Char) :
    findReference? false (trimStart text) = findReference? false text := by
  have blank : isBlankText (text.takeWhile isBlank) := by simp [isBlankText]
  have lacks : Lacks "REFERENCES".toList (text.takeWhile isBlank ++ []) :=
    Lacks.blanks (by decide) blank rfl
  have ends : endsInWord false (text.takeWhile isBlank) = false :=
    endsInWord_blanks blank (by simp)
  rw [List.append_nil] at lacks
  have passed := findReference?_append lacks
    (show Bounded false (text.takeWhile isBlank) (trimStart text) from
      fun after => by rw [ends] at after; cases after)
  rw [ends] at passed
  have whole : text.takeWhile isBlank ++ trimStart text = text := List.takeWhile_append_dropWhile
  rw [← passed, whole]

end SchemaLoom.Ddl
