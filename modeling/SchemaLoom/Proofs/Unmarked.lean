import SchemaLoom.Proofs.Fragments

/-!
# Texts without quotes and comments

Where nothing opens a quoted run or a comment, a text is read as it stands: removing
comments keeps it, and what it is cut into are parts of it. A text that has lost its
comments and has no quotes is of this kind, and so are all its parts.
-/

namespace SchemaLoom.Text

/-- A text starts with another exactly if that is a prefix of it. -/
theorem startsWith_iff {start text : List Char} :
    startsWith start text = true ↔ start <+: text := by
  rw [startsWith]
  induction start generalizing text with
  | nil => simp [dropStart?]
  | cons expected start inductionHypothesis =>
      cases text with
      | nil => simp [dropStart?]
      | cons c text =>
          rw [dropStart?, List.cons_prefix_cons, ← inductionHypothesis]
          by_cases same : c = expected
          · simp [same]
          · simp [same, Ne.symm same]

/-- A text contains what stands somewhere in it. -/
theorem contains_iff {part text : List Char} : contains part text = true ↔ part <:+: text := by
  induction text with
  | nil => simp [contains]
  | cons c text inductionHypothesis =>
      rw [contains, Bool.or_eq_true, startsWith_iff, inductionHypothesis, List.infix_cons_iff]

/-- What a text does not contain is not contained in a part of it. -/
theorem not_contains_part {part inner text : List Char} (stands : inner <:+: text)
    (absent : contains part text = false) : contains part inner = false := by
  refine Bool.eq_false_iff.2 fun found => ?_
  have whole : contains part text = true := contains_iff.2 ((contains_iff.1 found).trans stands)
  rw [absent] at whole
  cases whole

/-- A last character that is not in a part completes no occurrence of it. -/
theorem not_contains_concat {part text : List Char} {c : Char} (other : c ∉ part)
    (absent : contains part text = false) : contains part (text ++ [c]) = false := by
  rw [← Bool.not_eq_true, contains_iff] at absent ⊢
  intro found
  rcases List.infix_concat_iff.1 found with last | before
  · rcases List.suffix_concat_iff.1 last with rfl | ⟨start, rfl, -⟩
    · exact absent List.nil_infix
    · exact other (by simp)
  · exact absent before

/-- Two characters stand at the start of a text or in the rest of it. -/
theorem contains_pair_cons (first second c : Char) (text : List Char) :
    contains [first, second] (c :: text) =
      ((c == first && text.head? == some second) || contains [first, second] text) := by
  rw [contains]
  congr 1
  by_cases begins : c = first
  · cases text with
    | nil => simp [startsWith, dropStart?, begins]
    | cons next text =>
        by_cases same : next = second <;> simp [startsWith, dropStart?, begins, same]
  · simp [startsWith, dropStart?, begins]

/-- A trimmed text is a part of the text. -/
theorem infix_trim (text : List Char) : trim text <:+: text := by
  obtain ⟨blanks, -, split⟩ := trimEnd_append_blanks (trimStart text)
  have start : trim text <+: trimStart text := ⟨blanks, split.symm⟩
  exact start.isInfix.trans (trimStart_suffix text).isInfix

end SchemaLoom.Text

namespace SchemaLoom.Ddl

open SchemaLoom.Text

/-- A text without quotes and without the marks that begin a comment. -/
structure Unmarked (text : List Char) : Prop where
  quoteFree : QuoteFree text
  noLineComment : contains ['-', '-'] text = false
  noBlockComment : contains ['/', '*'] text = false

instance (text : List Char) : Decidable (Unmarked text) :=
  decidable_of_iff (QuoteFree text ∧ contains ['-', '-'] text = false ∧
      contains ['/', '*'] text = false)
    ⟨fun all => ⟨all.1, all.2.1, all.2.2⟩,
      fun unmarked => ⟨unmarked.quoteFree, unmarked.noLineComment, unmarked.noBlockComment⟩⟩

namespace Unmarked

variable {text : List Char}

theorem nil : Unmarked [] :=
  ⟨by decide, by decide, by decide⟩

/-- A part of a text without marks has none. -/
theorem part {part : List Char} (unmarked : Unmarked text) (stands : part <:+: text) :
    Unmarked part where
  quoteFree := fun c member => unmarked.quoteFree c (stands.subset member)
  noLineComment := not_contains_part stands unmarked.noLineComment
  noBlockComment := not_contains_part stands unmarked.noBlockComment

/-- The end of a text without marks has none. -/
theorem of_suffix {part : List Char} (unmarked : Unmarked text) (stands : part <:+ text) :
    Unmarked part :=
  unmarked.part stands.isInfix

/-- A text is unmarked if its first character opens nothing and the rest is. -/
theorem cons_iff {c : Char} :
    Unmarked (c :: text) ↔
      quoteClose? c = none ∧ opensComment c text = false ∧ Unmarked text := by
  constructor
  · intro unmarked
    have noLine := unmarked.noLineComment
    have noBlock := unmarked.noBlockComment
    rw [contains_pair_cons, Bool.or_eq_false_iff] at noLine noBlock
    exact ⟨unmarked.quoteFree c List.mem_cons_self,
      Bool.or_eq_false_iff.2 ⟨noLine.1, noBlock.1⟩,
      unmarked.of_suffix (List.suffix_cons c text)⟩
  · rintro ⟨unquoted, ordinary, unmarked⟩
    obtain ⟨noLine, noBlock⟩ := Bool.or_eq_false_iff.1 ordinary
    refine ⟨List.forall_mem_cons.2 ⟨unquoted, unmarked.quoteFree⟩, ?_, ?_⟩
    · rw [contains_pair_cons, noLine, unmarked.noLineComment, Bool.or_false]
    · rw [contains_pair_cons, noBlock, unmarked.noBlockComment, Bool.or_false]

/-- A text without quotes and comments is read as it stands. -/
theorem stripComments_eq (unmarked : Unmarked text) : stripComments text = text := by
  rw [stripComments]
  induction text with
  | nil => rfl
  | cons c text inductionHypothesis =>
      obtain ⟨unquoted, ordinary, others⟩ := cons_iff.1 unmarked
      rw [replaceComments_plain_cons ordinary, Mode.afterPlain, unquoted]
      exact congrArg (c :: ·) (inductionHypothesis others)

end Unmarked

/-- The removal of comments keeps the first character or puts a space. -/
theorem head?_replaceComments {text : List Char} {c : Char}
    (first : (replaceComments .plain text).head? = some c) : c = ' ' ∨ text.head? = some c := by
  cases text with
  | nil => cases first
  | cons d text =>
      by_cases ordinary : opensComment d text = false
      · rw [replaceComments_plain_cons ordinary] at first
        exact .inr first
      · simp only [Bool.not_eq_false, opensComment, Bool.or_eq_true, Bool.and_eq_true, beq_iff_eq,
          List.head?_eq_some_iff] at ordinary
        rcases ordinary with ⟨rfl, later, rfl⟩ | ⟨rfl, later, rfl⟩
        · exact .inl (Option.some.inj first).symm
        · exact .inl (Option.some.inj first).symm

/-- Where no comment began, none begins once the comments behind are gone. -/
theorem opensComment_replaceComments {c : Char} {rest : List Char}
    (ordinary : opensComment c rest = false) :
    opensComment c (replaceComments (Mode.afterPlain c) rest) = false := by
  refine Bool.eq_false_iff.2 fun opens => ?_
  -- The two marks that begin a comment open no quoted run, and a space is neither's second one.
  simp only [opensComment, Bool.or_eq_true, Bool.and_eq_true, beq_iff_eq] at opens
  rcases opens with ⟨rfl, next⟩ | ⟨rfl, next⟩
  · rcases head?_replaceComments next with blank | same
    · exact absurd blank (by decide)
    · simp [opensComment, same] at ordinary
  · rcases head?_replaceComments next with blank | same
    · exact absurd blank (by decide)
    · simp [opensComment, same] at ordinary

/-- Without quotes a text that has lost its comments has none. -/
theorem unmarked_replaceComments {mode : Mode} {text : List Char}
    (start : ∀ close, mode ≠ .quoted close) (quoteFree : QuoteFree (replaceComments mode text)) :
    Unmarked (replaceComments mode text) := by
  have space {text : List Char} (unmarked : Unmarked text) : Unmarked (' ' :: text) :=
    Unmarked.cons_iff.2 ⟨by decide, by simp [opensComment], unmarked⟩
  fun_induction replaceComments mode text with
  | case1 => exact .nil
  | case2 rest inductionHypothesis =>
      exact space (inductionHypothesis (by simp) (quoteFree.of_suffix (List.suffix_cons ..)))
  | case3 rest inductionHypothesis =>
      exact space (inductionHypothesis (by simp) (quoteFree.of_suffix (List.suffix_cons ..)))
  | case4 c rest noLine noBlock inductionHypothesis =>
      have unquoted : quoteClose? c = none := quoteFree c List.mem_cons_self
      have plain : Mode.afterPlain c = .plain := by rw [Mode.afterPlain, unquoted]
      have ordinary : opensComment c rest = false := by
        cases rest <;> simp_all [opensComment]
      have still := opensComment_replaceComments ordinary
      rw [plain] at inductionHypothesis quoteFree still ⊢
      have others := inductionHypothesis (by simp) (quoteFree.of_suffix (List.suffix_cons ..))
      exact Unmarked.cons_iff.2 ⟨unquoted, still, others⟩
  | case5 close c rest => exact absurd rfl (start close)
  | case6 c rest inductionHypothesis =>
      exact inductionHypothesis
        (by intro close; simp only [Mode.afterLineComment]; split <;> simp) quoteFree
  | case7 rest inductionHypothesis => exact inductionHypothesis (by simp) quoteFree
  | case8 c rest noEnd inductionHypothesis => exact inductionHypothesis (by simp) quoteFree

/-- The pieces of an unmarked text are parts of it, the first one its beginning. -/
theorem cut_parts {separator : Char} {text : List Char} (unmarked : Unmarked text) (depth : Nat) :
    ∃ first others, cut separator .plain depth text = first :: others ∧ first <+: text ∧
      ∀ piece ∈ others, piece <:+: text := by
  induction text generalizing depth with
  | nil => exact ⟨[], [], rfl, List.prefix_refl _, by simp⟩
  | cons c text inductionHypothesis =>
      obtain ⟨unquoted, ordinary, inner⟩ := Unmarked.cons_iff.1 unmarked
      have suffix : text <:+ c :: text := List.suffix_cons c text
      have plain : Mode.afterPlain c = .plain := by rw [Mode.afterPlain, unquoted]
      rw [cut_plain_cons ordinary, plain]
      split
      · obtain ⟨first, others, pieces, isPrefix, stand⟩ := inductionHypothesis inner 0
        refine ⟨[], _, congrArg _ pieces, List.nil_prefix, fun piece member => ?_⟩
        rcases List.mem_cons.1 member with rfl | later
        · exact isPrefix.isInfix.trans suffix.isInfix
        · exact (stand piece later).trans suffix.isInfix
      · obtain ⟨first, others, pieces, isPrefix, stand⟩ :=
          inductionHypothesis inner (depthAfter depth c)
        refine ⟨c :: first, others, by rw [pieces, consFirst],
          List.cons_prefix_cons.2 ⟨rfl, isPrefix⟩, fun piece member => ?_⟩
        exact (stand piece member).trans suffix.isInfix

/-- The fragments of an unmarked text are parts of it. -/
theorem infix_of_mem_fragments {separator : Char} {text piece : List Char}
    (unmarked : Unmarked text) (member : piece ∈ fragments separator text) : piece <:+: text := by
  obtain ⟨first, others, pieces, isPrefix, stand⟩ := cut_parts unmarked 0
  obtain ⟨trimmed, -⟩ := List.mem_filter.1 member
  obtain ⟨whole, isPiece, rfl⟩ := List.mem_map.1 trimmed
  refine (infix_trim whole).trans ?_
  rw [pieces] at isPiece
  rcases List.mem_cons.1 isPiece with rfl | later
  · exact isPrefix.isInfix
  · exact stand whole later

end SchemaLoom.Ddl
