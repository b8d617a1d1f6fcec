import SchemaLoom.Ddl.Phrase
import SchemaLoom.Proofs.Blanks

/-!
# Keywords and the characters around them

Letters of keywords are never blank, so a text that begins with a keyword or a
phrase begins with a character that trimming keeps.
-/

namespace SchemaLoom.Text

/-- A blank has no capital form. -/
theorem toUpper_of_isBlank {c : Char} (blank : isBlank c) : c.toUpper = c := by
  have small : ¬('a'.val ≤ c.val ∧ c.val ≤ 'z'.val) := by
    rintro ⟨low, high⟩
    have lowest : 97 ≤ c.toNat := low
    have highest : c.toNat ≤ 122 := high
    simp only [isBlank, Bool.or_eq_true, Bool.and_eq_true, decide_eq_true_eq, beq_iff_eq] at blank
    omega
  exact dif_neg small

/-- A character that stands for a letter in some case is not blank. -/
theorem isBlank_of_foldsTo {capital c : Char} (letter : isBlank capital = false)
    (folds : foldsTo capital c) : isBlank c = false := by
  cases blank : isBlank c with
  | false => rfl
  | true =>
      simp only [foldsTo, Bool.or_eq_true, Bool.and_eq_true, beq_iff_eq] at folds
      rcases folds with (same | ⟨-, kelvin⟩) | ⟨-, longS⟩
      · rw [toUpper_of_isBlank blank] at same
        rw [same, letter] at blank
        cases blank
      · rw [kelvin] at blank
        exact absurd blank (by decide)
      · rw [longS] at blank
        exact absurd blank (by decide)

/-- Keywords as they are given to readers: at least one letter, and no blanks. -/
def IsKeyword (keyword : List Char) : Prop :=
  keyword ≠ [] ∧ ∀ capital ∈ keyword, isBlank capital = false

instance (keyword : List Char) : Decidable (IsKeyword keyword) :=
  have := List.decidableBAll (fun capital => isBlank capital = false) keyword
  inferInstanceAs (Decidable (_ ∧ _))

/-- A text that begins with a keyword begins with a letter. -/
theorem startsSolid_of_dropKeyword? {keyword text rest : List Char} (word : IsKeyword keyword)
    (found : dropKeyword? keyword text = some rest) : text ≠ [] ∧ StartsSolid text := by
  obtain ⟨nonempty, letters⟩ := word
  cases keyword with
  | nil => exact absurd rfl nonempty
  | cons capital keyword =>
      cases text with
      | nil => simp [dropKeyword?] at found
      | cons c text =>
          rw [dropKeyword?] at found
          split at found
          · rename_i folds
            refine ⟨by simp, fun d member => ?_⟩
            obtain rfl : c = d := by simpa using member
            exact isBlank_of_foldsTo (letters capital List.mem_cons_self) folds
          · cases found

/-- A keyword is read in whatever ASCII case it is written. -/
theorem dropKeyword?_append {keyword letters : List Char} (cased : asciiUpper letters = keyword)
    (rest : List Char) : dropKeyword? keyword (letters ++ rest) = some rest := by
  subst cased
  induction letters with
  | nil => rfl
  | cons c letters inductionHypothesis =>
      have folds : foldsTo c.toUpper c = true := by simp [foldsTo]
      rw [List.cons_append, asciiUpper, List.map_cons, dropKeyword?, if_pos folds]
      exact inductionHypothesis

/-- A keyword is read together with the blanks after it. -/
theorem keywordAndBlanks_append {keyword letters blanks rest : List Char}
    (cased : asciiUpper letters = keyword) (blank : isBlankText blanks) (nonempty : blanks ≠ [])
    (solid : StartsSolid rest) :
    (dropKeyword? keyword (letters ++ (blanks ++ rest))).bind dropBlanks? = some rest := by
  rw [dropKeyword?_append cased, Option.bind_some, dropBlanks?_blanks blank nonempty solid]

end SchemaLoom.Text

namespace SchemaLoom.Ddl

open SchemaLoom.Text

/-- A phrase is read only where the text begins with something, which is no blank. -/
theorem Phrase.startsSolid_of_drop? {phrase : Phrase} {text rest : List Char}
    {keyword : List Char} {others : Phrase} (shape : phrase = keyword :: others)
    (word : IsKeyword keyword) (found : phrase.drop? text = some rest) :
    text ≠ [] ∧ StartsSolid text := by
  subst shape
  cases others with
  | nil => exact startsSolid_of_dropKeyword? word found
  | cons second others =>
      simp only [drop?] at found
      split at found
      · cases found
      · rename_i later before
        obtain ⟨middle, first, -⟩ := Option.bind_eq_some_iff.1 before
        exact startsSolid_of_dropKeyword? word first

/-- A phrase occurs in a text as whole words that begin an end of the text. -/
theorem Phrase.of_mem_occurrences {phrase : Phrase} {afterWord : Bool} {text head : List Char}
    (member : head ∈ phrase.occurrences afterWord text) :
    head <:+ text ∧ (phrase.dropWhole? head).isSome = true := by
  induction text generalizing afterWord with
  | nil => cases member
  | cons c text inductionHypothesis =>
      have later (after : head ∈ phrase.occurrences (isWordChar c) text) :=
        (inductionHypothesis after).imp_left fun suffix => suffix.trans (List.suffix_cons c text)
      rw [occurrences] at member
      split at member
      · rename_i here
        rcases List.mem_cons.1 member with rfl | after
        · exact ⟨List.suffix_refl _, (Bool.and_eq_true_iff.1 here).2⟩
        · exact later after
      · exact later member

end SchemaLoom.Ddl
