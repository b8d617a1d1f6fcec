import SchemaLoom.Ddl.Definition
import SchemaLoom.Proofs.Blanks

/-!
# Words of a definition

The words of a definition are parts of it that neither begin nor end with a blank. A word
ends in front of a blank outside parentheses and quoted runs, so its own last character is
none; a word that goes on to the end of the text has the last character of the text.
-/

namespace SchemaLoom.Ddl

open SchemaLoom.Text

section Splitting

variable {quote : Option Char} {depth : Nat} {text : List Char}

/-- Nothing is lost where a word is split off. -/
theorem splitWord_parts (quote : Option Char) (depth : Nat) (text : List Char) :
    (splitWord quote depth text).1 ++ (splitWord quote depth text).2 = text := by
  fun_induction splitWord quote depth text with
  | case1 => rfl
  | case2 close depth c rest word remaining split inductionHypothesis =>
      rw [split] at inductionHypothesis
      exact congrArg (c :: ·) inductionHypothesis
  | case3 depth c rest => rfl
  | case4 depth c rest _ word remaining split inductionHypothesis =>
      rw [split] at inductionHypothesis
      exact congrArg (c :: ·) inductionHypothesis

/-- What a word leaves is the end of the text. -/
theorem splitWord_suffix (quote : Option Char) (depth : Nat) (text : List Char) :
    (splitWord quote depth text).2 <:+ text :=
  ⟨_, splitWord_parts quote depth text⟩

/-- A word has no character only at its end: where the text ends, or in front of a blank
outside parentheses and quoted runs. -/
theorem splitWord_nil {rest : List Char} (split : splitWord quote depth text = ([], rest)) :
    text = [] ∨ quote = none ∧ depth = 0 := by
  cases text with
  | nil => exact .inl rfl
  | cons c text =>
      cases quote with
      | some close => simp [splitWord] at split
      | none =>
          rw [splitWord] at split
          split at split
          · rename_i stops
            rw [Bool.and_eq_true, beq_iff_eq] at stops
            exact .inr ⟨rfl, stops.2⟩
          · simp at split

/-- No quote is closed by a blank. -/
theorem isBlank_of_quoteClose? {c close : Char} (quotes : quoteClose? c = some close) :
    isBlank close = false := by
  rw [quoteClose?] at quotes
  split at quotes
  · rename_i isLiteral
    obtain rfl := Option.some.inj quotes
    rw [beq_iff_eq.1 isLiteral]
    decide
  · rw [identifierClose?] at quotes
    split at quotes
    · rename_i isQuote
      obtain rfl := Option.some.inj quotes
      rw [Bool.or_eq_true, beq_iff_eq, beq_iff_eq] at isQuote
      rcases isQuote with rfl | rfl <;> decide
    · split at quotes
      · obtain rfl := Option.some.inj quotes
        decide
      · cases quotes

/-- A word of a text that does not end with a blank does not end with one. -/
theorem splitWord_endsSolid (closes : ∀ close ∈ quote, isBlank close = false)
    (solid : EndsSolid text) : EndsSolid (splitWord quote depth text).1 := by
  fun_induction splitWord quote depth text with
  | case1 => exact solid
  | case2 close depth c rest word remaining split inductionHypothesis =>
      have isClose := closes close rfl
      have later : EndsSolid word := by
        rw [split] at inductionHypothesis
        refine inductionHypothesis ?_ (solid.of_suffix (List.suffix_cons c rest))
        intro other member
        rw [stillOpen] at member
        split at member
        · cases member
        · exact Option.some.inj member ▸ isClose
      by_cases empty : word = []
      · subst empty
        -- The word ends with this character, which ends the text or closes the quoted run.
        rcases splitWord_nil split with rfl | ⟨closed, -⟩
        · exact solid
        · rw [stillOpen] at closed
          split at closed
          · rename_i same
            rw [beq_iff_eq.1 same]
            exact .singleton isClose
          · cases closed
      · exact later.append_right empty [c]
  | case3 depth c rest => exact solid.of_suffix (List.nil_suffix)
  | case4 depth c rest goesOn word remaining split inductionHypothesis =>
      have later : EndsSolid word := by
        rw [split] at inductionHypothesis
        refine inductionHypothesis ?_ (solid.of_suffix (List.suffix_cons c rest))
        intro other member
        exact isBlank_of_quoteClose? member
      by_cases empty : word = []
      · subst empty
        -- A blank would stand in parentheses here, which are still open behind it.
        rcases splitWord_nil split with rfl | ⟨-, outside⟩
        · exact solid
        · apply EndsSolid.singleton
          cases blank : isBlank c with
          | false => rfl
          | true =>
              have notParenthesis : c ≠ '(' ∧ c ≠ ')' := by
                constructor <;> rintro rfl <;> exact absurd blank (by decide)
              have same : depthAfter depth c = depth := by simp [depthAfter, notParenthesis]
              rw [same] at outside
              exact absurd (by simp [blank, outside]) goesOn
      · exact later.append_right empty [c]

end Splitting

section Words

variable {text word type rest : List Char}

/-- A word that was read is split off behind the blanks before it. -/
theorem readWord?_split (found : readWord? text = some (word, rest)) :
    word ≠ [] ∧ splitWord none 0 (trimStart text) = (word, rest) := by
  rw [readWord?] at found
  split at found
  · cases found
  · rename_i nonempty split
    cases found
    refine ⟨?_, split⟩
    rintro rfl
    exact nonempty rfl

/-- What stands behind a word is the end of the text. -/
theorem readWord?_suffix (found : readWord? text = some (word, rest)) : rest <:+ text := by
  have suffix := splitWord_suffix none 0 (trimStart text)
  rw [(readWord?_split found).2] at suffix
  exact suffix.trans (trimStart_suffix text)

/-- In a text that does not end with a blank no word does, and none begins with one. -/
theorem readWord?_solid (solid : EndsSolid text) (found : readWord? text = some (word, rest)) :
    Solid word := by
  obtain ⟨nonempty, split⟩ := readWord?_split found
  have parts := splitWord_parts none 0 (trimStart text)
  have ending : EndsSolid (splitWord none 0 (trimStart text)).1 :=
    splitWord_endsSolid (by simp) (solid.of_suffix (trimStart_suffix text))
  rw [split] at parts ending
  exact ⟨nonempty, StartsSolid.of_prefix (startsSolid_trimStart text) ⟨rest, parts⟩, ending⟩

/-- What stands behind a type is the end of the text. -/
theorem readType?_suffix (found : readType? text = some (type, rest)) : rest <:+ text := by
  rw [readType?] at found
  split at found
  · cases found
  · rename_i word after read
    have suffix := readWord?_suffix read
    split at found
    · cases found
      exact suffix
    · split at found
      · cases found
        exact ((splitWord_suffix none 0 _).trans (trimStart_suffix after)).trans suffix
      · cases found
        exact suffix

/-- A declared type is a word, or a word and the parameters that stand apart from it. -/
theorem readType?_solid (solid : EndsSolid text) (found : readType? text = some (type, rest)) :
    Solid type := by
  rw [readType?] at found
  split at found
  · cases found
  · rename_i word after read
    have isSolid := readWord?_solid solid read
    split at found
    · cases found
      exact isSolid
    · split at found
      · cases found
        have apart : trimStart after <:+ text :=
          (trimStart_suffix after).trans (readWord?_suffix read)
        exact isSolid.append (splitWord_endsSolid (by simp) (solid.of_suffix apart))
      · cases found
        exact isSolid

/-- A text that begins with a character other than a blank begins with a word. -/
theorem readWord?_isSome (solid : Solid text) : (readWord? text).isSome = true := by
  obtain ⟨c, later, rfl⟩ := List.exists_cons_of_ne_nil solid.nonempty
  have noBlank : isBlank c = false := solid.first c rfl
  rw [readWord?, trimStart_of_startsSolid solid.first, splitWord, if_neg (by simp [noBlank])]
  rfl

/-- What stands behind a constraint name is never blank, as no fragment ends with a blank. -/
theorem withoutConstraintName_solid (solid : Solid text) :
    Solid (withoutConstraintName text) := by
  rw [withoutConstraintName]
  split
  · exact solid
  · rename_i named opened
    split
    · exact solid
    · rename_i rest dropped
      obtain ⟨behind, keyword, blanks⟩ := Option.bind_eq_some_iff.1 opened
      have suffix : named <:+ text :=
        (dropBlanks?_suffix blanks).trans (dropKeyword?_suffix keyword).1
      have inner : Solid rest :=
        solid_of_dropBlanks? (solid.last.of_suffix ((List.dropWhile_suffix _).trans suffix)) dropped
      rw [trim_of_solid inner]
      exact inner

end Words

/-- No fragment begins or ends with a blank. -/
theorem solid_of_mem_fragments {separator : Char} {text piece : List Char}
    (member : piece ∈ fragments separator text) : Solid piece := by
  obtain ⟨trimmed, nonempty⟩ := List.mem_filter.1 member
  obtain ⟨whole, -, rfl⟩ := List.mem_map.1 trimmed
  exact solid_trim (by simpa using nonempty)

end SchemaLoom.Ddl
