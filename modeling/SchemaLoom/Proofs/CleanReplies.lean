import SchemaLoom.Proofs.Lines

/-!
# What cleaning leaves

Cleaning takes away one kind of mark after the other, and what is taken away later must
not bring back what was taken away before. Fences are gone once they have been removed
where they begin, since the marks left of a run are fewer than a fence has. From then on
only lines matter: lines of a kind are emptied one by one, and thinning out blank lines
leaves lines that were there before, and empty ones.
-/

namespace SchemaLoom.Reply

open SchemaLoom.Text

section Fences

variable {text : List Char}

/-- Marks that begin no fence are fewer than a fence has, and something else follows. -/
theorem exists_marks (other : ¬fence <+: text) :
    ∃ marks rest, text = marks ++ rest ∧ Unfenced marks ∧ rest.head? ≠ some '\x60' := by
  let isMark (c : Char) : Bool := c == '\x60'
  have whole : text.takeWhile isMark ++ text.dropWhile isMark = text :=
    List.takeWhile_append_dropWhile
  have allMarks : text.takeWhile isMark = List.replicate (text.takeWhile isMark).length '\x60' :=
    List.eq_replicate_of_mem fun c member => by
      simpa [isMark] using List.all_eq_true.1 List.all_takeWhile c member
  refine ⟨_, _, whole.symm, unfenced_iff.2 fun found => other ?_, fun first => ?_⟩
  · have many : 3 ≤ (text.takeWhile isMark).length := by simpa [fence] using found.length_le
    have begins : fence <+: text.takeWhile isMark := by
      rw [allMarks, fence, List.prefix_replicate_iff]
      exact ⟨by simpa using many, by simp⟩
    exact begins.trans (List.takeWhile_prefix isMark)
  · have stops := List.head?_dropWhile_not isMark text
    rw [first] at stops
    cases stops

/-- Where fences are removed none is left. -/
theorem unfenced_removeMarks (withBreak : Bool) (text : List Char) :
    Unfenced (removeMarks fence withBreak 0 text) := by
  induction length : text.length using Nat.strongRecOn generalizing text with
  | ind length inductionHypothesis =>
      subst length
      by_cases begins : fence <+: text
      · obtain ⟨later, rfl⟩ := begins
        have shorter := (behindMark_suffix withBreak later).length_le
        rw [removeMarks_mark (by decide)]
        exact inductionHypothesis _ (by simp [fence]; omega) _ rfl
      · obtain ⟨marks, rest, rfl, unfenced, first⟩ := exists_marks begins
        rw [removeMarks_unfenced (List.prefix_refl _) unfenced first]
        cases rest with
        | nil => exact unfenced.append .nil
        | cons c rest =>
            have other : c ≠ '\x60' := by simpa using first
            have later := inductionHypothesis rest.length (by simp; omega) rest rfl
            have copied : removeMarks fence withBreak 0 (c :: rest) =
                c :: removeMarks fence withBreak 0 rest :=
              removeMarks_copy fun begins => other (List.cons_prefix_cons.1 begins).1.symm
            rw [copied]
            exact unfenced.append ⟨later.cons other, by simpa using other⟩

/-- A reply without its fences has no fence left. -/
theorem unfenced_unfence (language : List Char) (withBreak : Bool) (reply : List Char) :
    Unfenced (unfence language withBreak reply) :=
  unfenced_removeMarks withBreak _

/-- No part of an unfenced text has a fence. -/
theorem Unfenced.within {part : List Char} (unfenced : Unfenced text) (inside : part <:+: text) :
    Unfenced part :=
  unfenced_iff.2 fun found => unfenced_iff.1 unfenced (found.trans inside)

end Fences

section Lines

variable {c : Char} {line text : List Char} {lines : List (List Char)}

/-- A line has no line break. -/
theorem oneLine_of_mem_splitLines (isLine : line ∈ splitLines text) : '\n' ∉ line := by
  induction text generalizing line with
  | nil =>
      obtain rfl := List.mem_singleton.1 isLine
      simp
  | cons c text inductionHypothesis =>
      by_cases lineBreak : c = '\n'
      · subst lineBreak
        rw [splitLines_lineBreak] at isLine
        rcases List.mem_cons.1 isLine with rfl | later
        · simp
        · exact inductionHypothesis later
      · obtain ⟨first, others, split, whole⟩ := splitLines_cons lineBreak text
        rw [split] at inductionHypothesis
        rw [whole] at isLine
        rcases List.mem_cons.1 isLine with rfl | later
        · simpa [Ne.symm lineBreak] using inductionHypothesis List.mem_cons_self
        · exact inductionHypothesis (List.mem_cons_of_mem _ later)

/-- Lines that were put together are found again. -/
theorem splitLines_joinLines (nonempty : lines ≠ []) (oneLine : ∀ line ∈ lines, '\n' ∉ line) :
    splitLines (joinLines lines) = lines := by
  induction lines with
  | nil => exact absurd rfl nonempty
  | cons first lines inductionHypothesis =>
      obtain ⟨here, others⟩ := List.forall_mem_cons.1 oneLine
      cases lines with
      | nil => exact splitLines_of_oneLine here
      | cons second lines =>
          have nonempty : second :: lines ≠ [] := List.cons_ne_nil _ _
          rw [joinLines_cons first nonempty, splitLines_append_lineBreak here,
            inductionHypothesis nonempty others]

/-- The lines of a kind are emptied, and the others stay. -/
theorem splitLines_blankLines (isSuch : List Char -> Bool) (text : List Char) :
    splitLines (blankLines isSuch text) =
      (splitLines text).map fun line => if isSuch line then [] else line := by
  refine splitLines_joinLines (by simpa using splitLines_ne_nil text) fun line isLine => ?_
  obtain ⟨whole, isWhole, rfl⟩ := List.mem_map.1 isLine
  split
  · simp
  · exact oneLine_of_mem_splitLines isWhole

/-- A line of what is left is empty, or one of the lines and not of the kind taken away. -/
theorem eq_nil_or_mem_of_mem_blankLines {isSuch : List Char -> Bool}
    (isLine : line ∈ splitLines (blankLines isSuch text)) :
    line = [] ∨ line ∈ splitLines text ∧ isSuch line = false := by
  rw [splitLines_blankLines] at isLine
  obtain ⟨whole, isWhole, rfl⟩ := List.mem_map.1 isLine
  split
  · exact .inl rfl
  · rename_i other
    exact .inr ⟨isWhole, by simpa using other⟩

/-- A line is a part of the joined lines. -/
theorem infix_joinLines (isLine : line ∈ lines) : line <:+: joinLines lines := by
  induction lines with
  | nil => cases isLine
  | cons first lines inductionHypothesis =>
      cases lines with
      | nil =>
          obtain rfl := List.mem_singleton.1 isLine
          exact List.infix_refl _
      | cons second lines =>
          rw [joinLines_cons first (List.cons_ne_nil _ _)]
          rcases List.mem_cons.1 isLine with rfl | later
          · exact (List.prefix_append _ _).isInfix
          · have ending : joinLines (second :: lines) <:+
                first ++ '\n' :: joinLines (second :: lines) :=
              (List.suffix_cons '\n' _).trans (List.suffix_append first _)
            exact (inductionHypothesis later).trans ending.isInfix

/-- No fence arises across line breaks. -/
theorem unfenced_joinLines (unfenced : ∀ line ∈ lines, Unfenced line) :
    Unfenced (joinLines lines) := by
  induction lines with
  | nil => exact Appendable.nil.unfenced
  | cons first lines inductionHypothesis =>
      obtain ⟨here, others⟩ := List.forall_mem_cons.1 unfenced
      cases lines with
      | nil => exact here
      | cons second lines =>
          rw [joinLines_cons first (List.cons_ne_nil _ _)]
          exact here.append ⟨(inductionHypothesis others).cons (by decide), by simp⟩

/-- A fence stands within a line. -/
theorem unfenced_iff_lines : Unfenced text ↔ ∀ line ∈ splitLines text, Unfenced line := by
  constructor
  · intro unfenced line isLine
    have inside : line <:+: joinLines (splitLines text) := infix_joinLines isLine
    rw [joinLines_splitLines] at inside
    exact unfenced.within inside
  · intro unfenced
    rw [← joinLines_splitLines text]
    exact unfenced_joinLines unfenced

end Lines

section Thinning

variable {text thinned : List Char}

/-- The first line of a text stays, and every other line of what is left of it is empty or
one of the other lines. -/
def KeepsLines (text thinned : List Char) : Prop :=
  ∃ first others left, splitLines text = first :: others ∧ splitLines thinned = first :: left ∧
    ∀ line ∈ left, line = [] ∨ line ∈ others

namespace KeepsLines

theorem nil : KeepsLines [] [] :=
  ⟨[], [], [], rfl, rfl, by simp⟩

/-- A character in front belongs to the first line of both, or breaks it in both. -/
theorem cons (keeps : KeepsLines text thinned) (c : Char) :
    KeepsLines (c :: text) (c :: thinned) := by
  obtain ⟨first, others, left, split, splitThinned, kept⟩ := keeps
  by_cases lineBreak : c = '\n'
  · subst lineBreak
    refine ⟨[], first :: others, first :: left, ?_, ?_, ?_⟩
    · rw [splitLines_lineBreak, split]
    · rw [splitLines_lineBreak, splitThinned]
    · simpa using fun line isLine => (kept line isLine).imp_right .inr
  · exact ⟨c :: first, others, left, by simp [splitLines, lineBreak, split],
      by simp [splitLines, lineBreak, splitThinned], kept⟩

/-- A text in front leaves the first line of both, and the others, as they are kept. -/
theorem append (keeps : KeepsLines text thinned) (start : List Char) :
    KeepsLines (start ++ text) (start ++ thinned) := by
  induction start with
  | nil => exact keeps
  | cons c start inductionHypothesis => exact inductionHypothesis.cons c

/-- All that stands between two line feeds may go. -/
theorem between (keeps : KeepsLines text thinned) (dropped : List Char) :
    KeepsLines ('\n' :: (dropped ++ '\n' :: text)) ('\n' :: '\n' :: thinned) := by
  obtain ⟨first, others, left, split, splitThinned, kept⟩ := keeps
  refine ⟨[], splitLines dropped ++ first :: others, [] :: first :: left, ?_, ?_, ?_⟩
  · rw [splitLines_lineBreak, splitLines_append, split]
  · rw [splitLines_lineBreak, splitLines_lineBreak, splitThinned]
  · intro line isLine
    rcases List.mem_cons.1 isLine with rfl | isLine
    · exact .inl rfl
    · rcases List.mem_cons.1 isLine with rfl | isLine
      · exact .inr (by simp)
      · exact (kept line isLine).imp_right fun member => by simp [member]

/-- No line is left but empty ones and lines that were there before. -/
theorem mem_splitLines (keeps : KeepsLines text thinned) {line : List Char}
    (isLine : line ∈ splitLines thinned) : line = [] ∨ line ∈ splitLines text := by
  obtain ⟨first, others, left, split, splitThinned, kept⟩ := keeps
  rw [splitThinned] at isLine
  rw [split]
  rcases List.mem_cons.1 isLine with rfl | isLine
  · exact .inr List.mem_cons_self
  · exact (kept line isLine).imp_right (List.mem_cons_of_mem first)

end KeepsLines

/-- What is surplus in a run lies between its first and its last line feed. -/
theorem squeeze_eq {run : List Char} (begins : run.head? = some '\n')
    (surplus : 3 ≤ run.count '\n') : ∃ dropped ending,
      run = '\n' :: (dropped ++ '\n' :: ending) ∧ '\n' ∉ ending ∧
        squeeze run = '\n' :: '\n' :: ending := by
  let within (c : Char) : Bool := c != '\n'
  have split : run.reverse.takeWhile within ++ run.reverse.dropWhile within = run.reverse :=
    List.takeWhile_append_dropWhile
  have oneLine : '\n' ∉ run.reverse.takeWhile within := fun member => by
    simpa [within] using List.all_eq_true.1 List.all_takeWhile _ member
  have stops := List.head?_dropWhile_not within run.reverse
  cases rest : run.reverse.dropWhile within with
  | nil =>
      rw [rest, List.append_nil] at split
      rw [split, List.mem_reverse] at oneLine
      exact absurd (List.mem_of_mem_head? begins) oneLine
  | cons c before =>
      rw [rest] at stops split
      obtain rfl : c = '\n' := by simpa [within] using stops
      have whole : run = before.reverse ++ '\n' :: (run.reverse.takeWhile within).reverse := by
        have reversed := congrArg List.reverse split
        simpa using reversed.symm
      have none : (run.reverse.takeWhile within).reverse.count '\n' = 0 :=
        List.count_eq_zero.2 (by simpa using oneLine)
      cases front : before.reverse with
      | nil =>
          rw [whole, front, List.nil_append, List.count_cons_self, none] at surplus
          omega
      | cons first dropped =>
          rw [front] at whole
          obtain rfl : first = '\n' := by
            rw [whole] at begins
            simpa using begins
          exact ⟨dropped, _, whole, by simpa using oneLine, by rw [squeeze, if_pos surplus]⟩

/-- Collapsing blank lines keeps the first line and makes no new one. -/
theorem keepsLines_collapseBlankLines (text : List Char) :
    KeepsLines text (collapseBlankLines text) := by
  fun_induction collapseBlankLines text with
  | case1 => exact .nil
  | case2 c rest lineBreak inductionHypothesis =>
      obtain rfl : c = '\n' := by simpa using lineBreak
      have whole : '\n' :: rest =
          ('\n' :: rest.takeWhile isBlank) ++ rest.dropWhile isBlank := by
        rw [List.cons_append, List.takeWhile_append_dropWhile]
      rw [whole]
      by_cases surplus : 3 ≤ ('\n' :: rest.takeWhile isBlank).count '\n'
      · obtain ⟨dropped, ending, run, -, squeezed⟩ := squeeze_eq rfl surplus
        rw [squeezed, run]
        simpa using (inductionHypothesis.append ending).between dropped
      · rw [squeeze, if_neg surplus]
        exact inductionHypothesis.append _
  | case3 c rest other inductionHypothesis => exact inductionHypothesis.cons c

/-- What is no line break may stand in front of a spaced text. -/
theorem Spaced.cons {c : Char} (spaced : Spaced text) (other : c ≠ '\n') : Spaced (c :: text) := by
  intro run within blank
  rcases List.infix_cons_iff.1 within with begins | later
  · cases run with
    | nil => simp
    | cons d run =>
        obtain ⟨rfl, start⟩ := List.cons_prefix_cons.1 begins
        rw [isBlankText_cons] at blank
        rw [List.count_cons_of_ne other]
        exact spaced run start.isInfix blank.2
  · exact spaced run later blank

/-- A run of blanks is squeezed to at most two line breaks. -/
theorem count_squeeze {run : List Char} (begins : run.head? = some '\n') :
    (squeeze run).count '\n' ≤ 2 := by
  by_cases surplus : 3 ≤ run.count '\n'
  · obtain ⟨dropped, ending, -, oneLine, squeezed⟩ := squeeze_eq begins surplus
    have none : ending.count '\n' = 0 := List.count_eq_zero.2 oneLine
    simp [squeezed, none]
  · rw [squeeze, if_neg surplus]
    omega

/-- Collapsing blank lines does not take away what a text begins with. -/
theorem startsSolid_collapseBlankLines (solid : StartsSolid text) :
    StartsSolid (collapseBlankLines text) := by
  cases text with
  | nil => simpa [collapseBlankLines] using solid
  | cons c text =>
      have here : isBlank c = false := solid c rfl
      have other : c ≠ '\n' := by
        rintro rfl
        exact absurd here (by decide)
      rw [collapseBlankLines, if_neg (by simpa using other)]
      exact .cons here _

/-- After collapsing, a text has no surplus blank lines. -/
theorem spaced_collapseBlankLines (text : List Char) : Spaced (collapseBlankLines text) := by
  fun_induction collapseBlankLines text with
  | case1 => exact .of_count (by simp)
  | case2 c rest lineBreak inductionHypothesis =>
      have begins : (c :: rest.takeWhile isBlank).head? = some '\n' := by simpa using lineBreak
      exact (Spaced.of_count (count_squeeze begins)).append inductionHypothesis
        (.inr (startsSolid_collapseBlankLines (startsSolid_trimStart rest)))
  | case3 c rest other inductionHypothesis => exact inductionHypothesis.cons (by simpa using other)

end Thinning

section Cleaning

variable {text : List Char}

/-- Blanking lines of a kind makes no fence. -/
theorem Unfenced.blankLines (unfenced : Unfenced text) (isSuch : List Char -> Bool) :
    Unfenced (blankLines isSuch text) := by
  refine unfenced_iff_lines.2 fun line isLine => ?_
  rcases eq_nil_or_mem_of_mem_blankLines isLine with rfl | ⟨before, -⟩
  · exact Appendable.nil.unfenced
  · exact unfenced_iff_lines.1 unfenced line before

/-- A text without fences is clean once its bold lines, then its headings and then its
surplus blank lines are gone. -/
theorem clean_of_unfenced (unfenced : Unfenced text) :
    Clean (collapseBlankLines (blankLines isHeadingLine (blankLines isBoldLine text))) := by
  have keeps :=
    keepsLines_collapseBlankLines (blankLines isHeadingLine (blankLines isBoldLine text))
  constructor
  · refine unfenced_iff_lines.2 fun line isLine => ?_
    rcases keeps.mem_splitLines isLine with rfl | before
    · exact Appendable.nil.unfenced
    · exact unfenced_iff_lines.1 ((unfenced.blankLines _).blankLines _) line before
  · intro line isLine
    rcases keeps.mem_splitLines isLine with rfl | before
    · rfl
    · rcases eq_nil_or_mem_of_mem_blankLines before with rfl | ⟨-, other⟩
      · rfl
      · exact other
  · intro line isLine
    rcases keeps.mem_splitLines isLine with rfl | before
    · rfl
    · rcases eq_nil_or_mem_of_mem_blankLines before with rfl | ⟨earlier, -⟩
      · rfl
      · rcases eq_nil_or_mem_of_mem_blankLines earlier with rfl | ⟨-, other⟩
        · rfl
        · exact other
  · exact spaced_collapseBlankLines _

/-- What was cleaned is clean. -/
theorem clean_cleanDdl (reply : String) : Clean (cleanDdl reply).toList := by
  rw [cleanDdl, String.toList_ofList]
  exact clean_of_unfenced ((unfenced_unfence "sql".toList true _).within (infix_trim _))

/-- What was cleaned as JSON has no fence. -/
theorem unfenced_cleanJson (reply : String) : Unfenced (cleanJson reply).toList := by
  rw [cleanJson, String.toList_ofList]
  exact (unfenced_unfence "json".toList false _).within (infix_trim _)

/-- Cleaning makes statements clean, whatever the reply is, and leaves clean statements
without blanks around them as they are, also in a fence. JSON text is left without
fences. -/
theorem cleanDdl_clean_and_kept :
    (∀ reply : String, Clean (cleanDdl reply).toList) ∧
      (∀ text : String, Clean text.toList → trim text.toList = text.toList →
        ∀ reply ∈ wrappings "sql" text, cleanDdl reply = text) ∧
      ∀ reply : String, Unfenced (cleanJson reply).toList := by
  refine ⟨clean_cleanDdl, fun text clean trimmed reply wraps => ?_, unfenced_cleanJson⟩
  have nothing : isBlankText "".toList := rfl
  simpa using cleanDdl_of_clean clean trimmed nothing nothing wraps

/-- What only resembles a fence, a heading, a bold line or surplus blank lines stays. -/
theorem cleanDdl_clean_and_kept_marks :
    let text := "SELECT 1; -- `` # **\n \n***"
    Clean text.toList ∧ trim text.toList = text.toList ∧
      fenced "sql" text ∈ wrappings "sql" text ∧ cleanDdl (fenced "sql" text) = text := by
  intro text
  have clean : Clean text.toList :=
    ⟨by decide, by decide, by decide, .of_count (by decide)⟩
  have trimmed : trim text.toList = text.toList := by decide
  have wraps : fenced "sql" text ∈ wrappings "sql" text := by simp [wrappings]
  exact ⟨clean, trimmed, wraps, cleanDdl_clean_and_kept.2.1 text clean trimmed _ wraps⟩

/-- Marks that meet where a fence was are a fence again, and emptied lines are blank. -/
example : cleanDdl "a ````sql``\n\n# b\n**c**\n d" = "a \n\n d" := by
  cbv

end Cleaning

end SchemaLoom.Reply
