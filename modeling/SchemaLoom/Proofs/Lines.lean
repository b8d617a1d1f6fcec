import SchemaLoom.Proofs.Fences

/-!
# Lines of a reply

Cleaning empties lines and thins out blank ones. It brings in no character but line
feeds, and it leaves a text alone that has no line and no run of blanks to be mended.
-/

namespace SchemaLoom.Reply

open SchemaLoom.Text

section Splitting

variable {c : Char} {line text : List Char} {lines : List (List Char)}

/-- A line break ends an empty line. -/
@[simp] theorem splitLines_lineBreak (text : List Char) :
    splitLines ('\n' :: text) = [] :: splitLines text := by
  simp [splitLines]

/-- A text has one line at least. -/
theorem splitLines_ne_nil (text : List Char) : splitLines text ≠ [] := by
  cases text with
  | nil => exact List.cons_ne_nil _ _
  | cons c text =>
      rw [splitLines]
      split
      · exact List.cons_ne_nil _ _
      · split <;> exact List.cons_ne_nil _ _

/-- A character within a line stands in front of the first line of what follows it. -/
theorem splitLines_cons (other : c ≠ '\n') (text : List Char) :
    ∃ line lines, splitLines text = line :: lines ∧
      splitLines (c :: text) = (c :: line) :: lines := by
  obtain ⟨line, lines, split⟩ := List.exists_cons_of_ne_nil (splitLines_ne_nil text)
  exact ⟨line, lines, split, by simp [splitLines, other, split]⟩

/-- No line reaches across a line feed. -/
theorem splitLines_append (text later : List Char) :
    splitLines (text ++ '\n' :: later) = splitLines text ++ splitLines later := by
  induction text with
  | nil => exact splitLines_lineBreak later
  | cons c text inductionHypothesis =>
      by_cases lineBreak : c = '\n'
      · subst lineBreak
        rw [List.cons_append, splitLines_lineBreak, splitLines_lineBreak, inductionHypothesis,
          List.cons_append]
      · obtain ⟨line, lines, split, whole⟩ := splitLines_cons lineBreak text
        rw [split] at inductionHypothesis
        rw [whole, List.cons_append, splitLines, if_neg (by simpa using lineBreak),
          inductionHypothesis]
        rfl

/-- A text without line breaks is one line. -/
theorem splitLines_of_oneLine (oneLine : '\n' ∉ line) : splitLines line = [line] := by
  induction line with
  | nil => rfl
  | cons c line inductionHypothesis =>
      obtain ⟨other, others⟩ := List.ne_and_not_mem_of_not_mem_cons oneLine
      obtain ⟨first, later, split, whole⟩ := splitLines_cons (Ne.symm other) line
      obtain ⟨rfl, rfl⟩ := List.cons.inj (split.symm.trans (inductionHypothesis others))
      exact whole

/-- A line ends at its line feed. -/
theorem splitLines_append_lineBreak (oneLine : '\n' ∉ line) (text : List Char) :
    splitLines (line ++ '\n' :: text) = line :: splitLines text := by
  rw [splitLines_append, splitLines_of_oneLine oneLine]
  rfl

/-- Joined lines have a line break behind each but the last. -/
theorem joinLines_cons (line : List Char) (nonempty : lines ≠ []) :
    joinLines (line :: lines) = line ++ '\n' :: joinLines lines := by
  obtain ⟨second, others, rfl⟩ := List.exists_cons_of_ne_nil nonempty
  rfl

/-- A character in front of the first line is in front of the joined lines. -/
theorem joinLines_cons_cons (c : Char) (line : List Char) (lines : List (List Char)) :
    joinLines ((c :: line) :: lines) = c :: joinLines (line :: lines) := by
  cases lines <;> rfl

/-- The lines of a text make it up. -/
theorem joinLines_splitLines (text : List Char) : joinLines (splitLines text) = text := by
  induction text with
  | nil => rfl
  | cons c text inductionHypothesis =>
      by_cases lineBreak : c = '\n'
      · subst lineBreak
        rw [splitLines_lineBreak, joinLines_cons _ (splitLines_ne_nil text), inductionHypothesis]
        rfl
      · obtain ⟨line, lines, split, whole⟩ := splitLines_cons lineBreak text
        rw [whole, joinLines_cons_cons, ← split, inductionHypothesis]

/-- The characters of a line are those of the text. -/
theorem mem_of_mem_splitLines (isLine : line ∈ splitLines text) (member : c ∈ line) : c ∈ text := by
  rw [← joinLines_splitLines text]
  generalize splitLines text = lines at isLine
  induction lines with
  | nil => cases isLine
  | cons first lines inductionHypothesis =>
      cases lines with
      | nil =>
          obtain rfl := List.mem_singleton.1 isLine
          exact member
      | cons second lines =>
          rw [joinLines_cons _ (List.cons_ne_nil _ _)]
          rcases List.mem_cons.1 isLine with rfl | later
          · exact List.mem_append_left _ member
          · exact List.mem_append_right _ (List.mem_cons_of_mem _ (inductionHypothesis later))

/-- The characters of joined lines are theirs, or line breaks. -/
theorem mem_joinLines (member : c ∈ joinLines lines) : c = '\n' ∨ ∃ line ∈ lines, c ∈ line := by
  induction lines with
  | nil => cases member
  | cons first lines inductionHypothesis =>
      cases lines with
      | nil => exact .inr ⟨first, List.mem_cons_self, member⟩
      | cons second lines =>
          rw [joinLines_cons _ (List.cons_ne_nil _ _)] at member
          rcases List.mem_append.1 member with here | later
          · exact .inr ⟨first, List.mem_cons_self, here⟩
          · rcases List.mem_cons.1 later with rfl | later
            · exact .inl rfl
            · refine (inductionHypothesis later).imp_right fun ⟨line, isLine, inside⟩ => ?_
              exact ⟨line, List.mem_cons_of_mem _ isLine, inside⟩

end Splitting

section Emptying

variable {c : Char} {text : List Char} {isSuch : List Char -> Bool}

/-- Emptying lines brings in nothing but what ends lines. -/
theorem mem_blankLines (member : c ∈ blankLines isSuch text) : c = '\n' ∨ c ∈ text := by
  refine (mem_joinLines member).imp_right fun ⟨line, isLine, inside⟩ => ?_
  obtain ⟨whole, isWhole, rfl⟩ := List.mem_map.1 isLine
  split at inside
  · cases inside
  · exact mem_of_mem_splitLines isWhole inside

/-- A text without lines of a kind keeps all of them. -/
theorem blankLines_eq (none : ∀ line ∈ splitLines text, isSuch line = false) :
    blankLines isSuch text = text := by
  have same : (splitLines text).map (fun line => if isSuch line then [] else line) =
      splitLines text :=
    (List.map_congr_left fun line isLine => by simp [none line isLine]).trans (List.map_id _)
  rw [blankLines, same, joinLines_splitLines]

end Emptying

section Thinning

variable {c : Char} {run text later : List Char}

/-- A text in which no run of blanks holds more than two line feeds. -/
def Spaced (text : List Char) : Prop :=
  ∀ run, run <:+: text → isBlankText run → run.count '\n' ≤ 2

/-- A part of a text without surplus blank lines has none. -/
theorem Spaced.of_infix (spaced : Spaced text) (inside : later <:+: text) : Spaced later :=
  fun run within blank => spaced run (within.trans inside) blank

/-- With two line breaks at most there is no surplus blank line. -/
theorem Spaced.of_count (few : text.count '\n' ≤ 2) : Spaced text :=
  fun _ within _ => Nat.le_trans (within.sublist.count_le '\n') few

/-- Runs of blanks do not reach across a seam with no blank on one of its sides. -/
theorem Spaced.append (first : Spaced text) (second : Spaced later)
    (apart : EndsSolid text ∨ StartsSolid later) : Spaced (text ++ later) := by
  rintro run ⟨before, after, whole⟩ blank
  rw [List.append_assoc, List.append_eq_append_iff] at whole
  rcases whole with ⟨part, rfl, whole⟩ | ⟨skipped, rfl, rfl⟩
  · rcases List.append_eq_append_iff.1 whole with ⟨rest, rfl, rfl⟩ | ⟨rest, rfl, rfl⟩
    · exact first _ ⟨before, rest, by simp⟩ blank
    · -- The run has a part on either side, and one of them is empty.
      rw [isBlankText, List.all_append, Bool.and_eq_true] at blank
      rcases apart with solid | solid
      · have ending : StartsSolid part.reverse := solid.of_prefix (by simp)
        obtain rfl : part = [] := by
          simpa using eq_nil_of_isBlankText ending (isBlankText_reverse blank.1)
        exact second _ ⟨[], after, rfl⟩ blank.2
      · obtain rfl : rest = [] :=
          eq_nil_of_isBlankText (solid.of_prefix (List.prefix_append _ _)) blank.2
        exact first _ ⟨before, [], by simp⟩ (by simpa [isBlankText] using blank.1)
  · exact second _ ⟨skipped, after, by simp⟩ blank

/-- Squeezing a run adds no character. -/
theorem mem_squeeze (first : run.head? = some '\n') (member : c ∈ squeeze run) : c ∈ run := by
  rw [squeeze] at member
  split at member
  · have lineBreak : '\n' ∈ run := List.mem_of_mem_head? first
    rcases List.mem_cons.1 member with rfl | member
    · exact lineBreak
    · rcases List.mem_cons.1 member with rfl | member
      · exact lineBreak
      · exact List.mem_reverse.1 ((List.takeWhile_sublist _).subset (List.mem_reverse.1 member))
  · exact member

/-- Thinning out blank lines brings in nothing. -/
theorem mem_collapseBlankLines (member : c ∈ collapseBlankLines text) : c ∈ text := by
  fun_induction collapseBlankLines text with
  | case1 => cases member
  | case2 d rest lineBreak inductionHypothesis =>
      have whole : (d :: rest.takeWhile isBlank) ++ rest.dropWhile isBlank = d :: rest := by
        rw [List.cons_append, List.takeWhile_append_dropWhile]
      rw [← whole]
      rcases List.mem_append.1 member with here | later
      · exact List.mem_append_left _ (mem_squeeze (by simpa using lineBreak) here)
      · exact List.mem_append_right _ (inductionHypothesis later)
  | case3 d rest other inductionHypothesis =>
      rcases List.mem_cons.1 member with rfl | later
      · exact List.mem_cons_self
      · exact List.mem_cons_of_mem _ (inductionHypothesis later)

/-- A text without surplus blank lines keeps all of them. -/
theorem collapseBlankLines_eq (spaced : Spaced text) : collapseBlankLines text = text := by
  fun_induction collapseBlankLines text with
  | case1 => rfl
  | case2 c rest lineBreak inductionHypothesis =>
      obtain rfl : c = '\n' := by simpa using lineBreak
      have start : '\n' :: rest.takeWhile isBlank <+: '\n' :: rest :=
        List.cons_prefix_cons.2 ⟨rfl, List.takeWhile_prefix isBlank⟩
      have lineBreak : isBlankText ['\n'] := by decide
      have blank : isBlankText ('\n' :: rest.takeWhile isBlank) :=
        isBlankText_append lineBreak (by simp [isBlankText])
      have few := spaced _ start.isInfix blank
      have later := (List.dropWhile_suffix isBlank).trans (List.suffix_cons '\n' rest)
      rw [squeeze, if_neg (by omega), inductionHypothesis (spaced.of_infix later.isInfix),
        List.cons_append, List.takeWhile_append_dropWhile]
  | case3 c rest other inductionHypothesis =>
      rw [inductionHypothesis (spaced.of_infix (List.suffix_cons c rest).isInfix)]

end Thinning

section Cleaning

/-- A text that cleaning leaves alone: it has no fence, no heading, no bold line and no
surplus blank lines. -/
structure Clean (text : List Char) : Prop where
  unfenced : Unfenced text
  noHeading : ∀ line ∈ splitLines text, isHeadingLine line = false
  noBold : ∀ line ∈ splitLines text, isBoldLine line = false
  spaced : Spaced text

variable {c : Char} {text before after reply : String}

/-- Cleaning statements brings in nothing but line feeds. -/
theorem mem_cleanDdl (member : c ∈ (cleanDdl reply).toList) : c = '\n' ∨ c ∈ reply.toList := by
  simp only [cleanDdl, String.toList_ofList] at member
  rcases mem_blankLines (mem_collapseBlankLines member) with lineBreak | inside
  · exact .inl lineBreak
  · refine (mem_blankLines inside).imp_right fun unfenced => ?_
    exact (unfence_sublist "sql".toList true _).subset ((infix_trim _).subset unfenced)

/-- Cleaning JSON text brings in nothing. -/
theorem mem_cleanJson (member : c ∈ (cleanJson reply).toList) : c ∈ reply.toList := by
  rw [cleanJson, String.toList_ofList] at member
  exact (unfence_sublist "json".toList false _).subset ((infix_trim _).subset member)

/-- However a reply wraps clean statements, they are what is left of it. -/
theorem cleanDdl_of_clean (clean : Clean text.toList) (trimmed : trim text.toList = text.toList)
    (blankBefore : isBlankText before.toList) (blankAfter : isBlankText after.toList)
    (wraps : reply ∈ wrappings "sql" text) : cleanDdl (before ++ reply ++ after) = text := by
  have language : "sql".toList = 's' :: ['q', 'l'] := by decide
  have left := trim_unfence true language (by decide) clean.unfenced blankBefore
    blankAfter wraps
  rw [trimmed, unfence] at left
  simp only [cleanDdl]
  rw [left, blankLines_eq clean.noBold, blankLines_eq clean.noHeading,
    collapseBlankLines_eq clean.spaced, String.ofList_toList]

end Cleaning

end SchemaLoom.Reply
