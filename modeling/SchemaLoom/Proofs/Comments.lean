import SchemaLoom.Ddl.Fragment

/-!
# Comments of a concatenated text

Removing comments is one scan from left to right, so a text that leaves no comment
and no quoted run open can be cut off: what follows is read as if it stood alone.
The only characters that look ahead are those that begin or end a comment.
-/

namespace SchemaLoom.Ddl

/-- Whether a character begins a comment together with the text after it. -/
def opensComment (c : Char) (rest : List Char) : Bool :=
  (c == '-' && rest.head? == some '-') || (c == '/' && rest.head? == some '*')

/-- Whether a character ends a comment together with the text after it. -/
def closesComment (c : Char) (rest : List Char) : Bool :=
  c == '*' && rest.head? == some '/'

/-- The mode in which a scan that starts in the given mode leaves a text. -/
def Mode.after : Mode -> List Char -> Mode
  | mode, [] => mode
  | .plain, '-' :: '-' :: rest => Mode.after .lineComment rest
  | .plain, '/' :: '*' :: rest => Mode.after .blockComment rest
  | .plain, c :: rest => Mode.after (Mode.afterPlain c) rest
  | .quoted close, c :: rest => Mode.after (Mode.afterQuoted close c) rest
  | .lineComment, c :: rest => Mode.after (Mode.afterLineComment c) rest
  | .blockComment, '*' :: '/' :: rest => Mode.after .plain rest
  | .blockComment, _ :: rest => Mode.after .blockComment rest

/-- Whether a scan stands inside a comment. -/
def Mode.inComment : Mode -> Bool
  | plain | quoted _ => false
  | lineComment | blockComment => true

/-- A text without a character that opens a quoted run. -/
def QuoteFree (text : List Char) : Prop :=
  ∀ c ∈ text, quoteClose? c = none

instance (text : List Char) : Decidable (QuoteFree text) :=
  List.decidableBAll (fun c => quoteClose? c = none) text

/-- The end of a text without quotes has none. -/
theorem QuoteFree.of_suffix {text ending : List Char} (quoteFree : QuoteFree text)
    (suffix : ending <:+ text) : QuoteFree ending :=
  fun c member => quoteFree c (suffix.subset member)

/-- Where no comment opens, neither of its two forms begins. -/
theorem not_opens {c : Char} {rest : List Char} (ordinary : opensComment c rest = false) :
    (∀ later, c = '-' → rest = '-' :: later → False) ∧
      ∀ later, c = '/' → rest = '*' :: later → False := by
  constructor <;> rintro later rfl rfl <;> simp [opensComment] at ordinary

/-- A character that begins no comment is copied. -/
theorem replaceComments_plain_cons {c : Char} {rest : List Char}
    (ordinary : opensComment c rest = false) :
    replaceComments .plain (c :: rest) = c :: replaceComments (Mode.afterPlain c) rest := by
  obtain ⟨noLine, noBlock⟩ := not_opens ordinary
  rw [replaceComments]
  · exact noLine
  · exact noBlock

/-- The mode behind a character that opens no comment is that of the quote it may open. -/
theorem Mode.after_plain_cons {c : Char} {rest : List Char}
    (ordinary : opensComment c rest = false) :
    Mode.after .plain (c :: rest) = Mode.after (Mode.afterPlain c) rest := by
  obtain ⟨noLine, noBlock⟩ := not_opens ordinary
  rw [Mode.after]
  · exact noLine
  · exact noBlock

/-- Within a comment a character that does not close it is left out. -/
theorem replaceComments_block_cons {c : Char} {rest : List Char}
    (ordinary : closesComment c rest = false) :
    replaceComments .blockComment (c :: rest) = replaceComments .blockComment rest := by
  rw [replaceComments]
  rintro later rfl rfl
  simp [closesComment] at ordinary

/-- Within a comment a character that does not close it leaves the mode. -/
theorem Mode.after_block_cons {c : Char} {rest : List Char}
    (ordinary : closesComment c rest = false) :
    Mode.after .blockComment (c :: rest) = Mode.after .blockComment rest := by
  rw [Mode.after]
  rintro later rfl rfl
  simp [closesComment] at ordinary

/-- A comment that no line ends reaches to the end of the text. -/
theorem replaceComments_lastLine {comment : List Char} (oneLine : '\n' ∉ comment) :
    replaceComments .lineComment comment = [] := by
  induction comment with
  | nil => rfl
  | cons c comment inductionHypothesis =>
      simp only [List.mem_cons, not_or] at oneLine
      rw [replaceComments, Mode.afterLineComment, if_neg (by simpa using Ne.symm oneLine.1)]
      exact inductionHypothesis oneLine.2

section Marks

variable {mark : Char}

/-- No comment begins across a mark that has no part in one. -/
theorem opensComment_append_mark (apart : mark ∉ ['-', '*', '/']) (c : Char)
    (text later : List Char) : opensComment c (text ++ mark :: later) = opensComment c text := by
  simp only [List.mem_cons, List.not_mem_nil, or_false, not_or] at apart
  cases text <;> simp [opensComment, apart]

/-- No comment ends across a mark that has no part in one. -/
theorem closesComment_append_mark (apart : mark ∉ ['-', '*', '/']) (c : Char)
    (text later : List Char) : closesComment c (text ++ mark :: later) = closesComment c text := by
  simp only [List.mem_cons, List.not_mem_nil, or_false, not_or] at apart
  cases text <;> simp [closesComment, apart]

/-- From a mark on the removal of comments goes on in the mode that the text before it
has left. -/
theorem replaceComments_append_mark (apart : mark ∉ ['-', '*', '/']) (mode : Mode)
    (text later : List Char) :
    replaceComments mode (text ++ mark :: later) =
      replaceComments mode text ++ replaceComments (mode.after text) (mark :: later) := by
  fun_induction replaceComments mode text with
  | case1 mode => simp [Mode.after]
  | case2 rest inductionHypothesis => simp [replaceComments, Mode.after, inductionHypothesis]
  | case3 rest inductionHypothesis => simp [replaceComments, Mode.after, inductionHypothesis]
  | case4 c rest noLine noBlock inductionHypothesis =>
      have ordinary : opensComment c rest = false := by
        cases rest <;> simp_all [opensComment]
      have still := opensComment_append_mark apart c rest later
      rw [List.cons_append, replaceComments_plain_cons (still.trans ordinary),
        Mode.after_plain_cons ordinary, inductionHypothesis, List.cons_append]
  | case5 close c rest inductionHypothesis =>
      simp [replaceComments, Mode.after, inductionHypothesis]
  | case6 c rest inductionHypothesis => simp [replaceComments, Mode.after, inductionHypothesis]
  | case7 rest inductionHypothesis => simp [replaceComments, Mode.after, inductionHypothesis]
  | case8 c rest noEnd inductionHypothesis =>
      have ordinary : closesComment c rest = false := by
        cases rest <;> simp_all [closesComment]
      have still := closesComment_append_mark apart c rest later
      rw [List.cons_append, replaceComments_block_cons (still.trans ordinary),
        Mode.after_block_cons ordinary, inductionHypothesis]

end Marks

/-- A text whose own comments are all closed and whose rest has no quotes ends in
the plain mode, whatever it holds. -/
theorem Mode.after_of_quoteFree {mode : Mode} {text : List Char}
    (start : ∀ close, mode ≠ .quoted close) (quoteFree : QuoteFree (replaceComments mode text))
    (closed : (mode.after text).inComment = false) : mode.after text = .plain := by
  fun_induction replaceComments mode text with
  | case1 mode => cases mode <;> simp_all [Mode.after, Mode.inComment]
  | case2 rest inductionHypothesis =>
      simp only [Mode.after] at closed ⊢
      exact inductionHypothesis (by simp) (quoteFree.of_suffix (List.suffix_cons ..)) closed
  | case3 rest inductionHypothesis =>
      simp only [Mode.after] at closed ⊢
      exact inductionHypothesis (by simp) (quoteFree.of_suffix (List.suffix_cons ..)) closed
  | case4 c rest noLine noBlock inductionHypothesis =>
      have ordinary : opensComment c rest = false := by
        cases rest <;> simp_all [opensComment]
      have unquoted : quoteClose? c = none := quoteFree c List.mem_cons_self
      rw [Mode.after_plain_cons ordinary] at closed ⊢
      exact inductionHypothesis (by simp [Mode.afterPlain, unquoted])
        (quoteFree.of_suffix (List.suffix_cons ..)) closed
  | case5 close c rest inductionHypothesis => exact absurd rfl (start close)
  | case6 c rest inductionHypothesis =>
      simp only [Mode.after] at closed ⊢
      exact inductionHypothesis (by intro close; simp only [Mode.afterLineComment]; split <;> simp)
        quoteFree closed
  | case7 rest inductionHypothesis =>
      simp only [Mode.after] at closed ⊢
      exact inductionHypothesis (by simp) quoteFree closed
  | case8 c rest noEnd inductionHypothesis =>
      have ordinary : closesComment c rest = false := by
        cases rest <;> simp_all [closesComment]
      rw [Mode.after_block_cons ordinary] at closed ⊢
      exact inductionHypothesis (by simp) quoteFree closed

/-- Two texts around a semicolon lose their comments independently when the first
one has no quotes and leaves no comment open. -/
theorem stripComments_append_semicolon {first : List Char}
    (quoteFree : QuoteFree (stripComments first))
    (closed : (Mode.after .plain first).inComment = false) (second : List Char) :
    stripComments (first ++ ';' :: second) =
      stripComments first ++ ';' :: stripComments second := by
  have ending : Mode.after .plain first = .plain :=
    Mode.after_of_quoteFree (by simp) quoteFree closed
  rw [stripComments, replaceComments_append_mark (by decide), ending,
    replaceComments_plain_cons (by simp [opensComment])]
  rfl

/-- Removing comments brings in nothing but the spaces in their places. -/
theorem replaceComments_subset (mode : Mode) (text : List Char) :
    replaceComments mode text ⊆ ' ' :: text := by
  have skip {skipped kept : List Char} (d : Char) (others : kept ⊆ ' ' :: skipped) :
      kept ⊆ ' ' :: d :: skipped := fun c member =>
    (List.mem_cons.1 (others member)).elim (fun space => List.mem_cons.2 (.inl space))
      fun inside => List.mem_cons_of_mem _ (List.mem_cons_of_mem _ inside)
  have keep {rest kept : List Char} (d : Char) (others : kept ⊆ ' ' :: rest) :
      d :: kept ⊆ ' ' :: d :: rest :=
    List.cons_subset.2 ⟨List.mem_cons_of_mem _ List.mem_cons_self, skip d others⟩
  fun_induction replaceComments mode text with
  | case1 mode => exact List.nil_subset _
  | case2 rest inductionHypothesis =>
      exact List.cons_subset.2 ⟨List.mem_cons_self, skip _ (skip _ inductionHypothesis)⟩
  | case3 rest inductionHypothesis =>
      exact List.cons_subset.2 ⟨List.mem_cons_self, skip _ (skip _ inductionHypothesis)⟩
  | case4 c rest noLine noBlock inductionHypothesis => exact keep c inductionHypothesis
  | case5 close c rest inductionHypothesis => exact keep c inductionHypothesis
  | case6 c rest inductionHypothesis => exact skip c inductionHypothesis
  | case7 rest inductionHypothesis => exact skip _ (skip _ inductionHypothesis)
  | case8 c rest noEnd inductionHypothesis => exact skip c inductionHypothesis

end SchemaLoom.Ddl
