import SchemaLoom.Ddl.Document
import SchemaLoom.Proofs.Splitting
import SchemaLoom.Proofs.Unmarked

/-!
# Where scripts are cut

Cutting a script skips its comments on the way, while a document loses them before it
is read. Both look at the same text: nothing that is left by removing comments can be
taken for one, and a script is cut exactly where the separator stands in the text
without comments outside every quoted run and all parentheses. Places are counted from
the front of that text, and what they lie within is found from the characters before
them alone.
-/

namespace SchemaLoom.Ddl

open SchemaLoom.Text

section Comments

/-- The quoted run that a mode stands in. -/
def Mode.quote : Mode -> Option Char
  | quoted close => some close
  | plain | lineComment | blockComment => none

/-- A scan is in quotes behind what opens them. -/
@[simp] theorem Mode.quote_afterPlain (c : Char) : (afterPlain c).quote = openAfter c := by
  rw [afterPlain_eq]
  cases openAfter c <;> rfl

/-- A scan stays in quotes up to what closes them. -/
@[simp] theorem Mode.quote_afterQuoted (close c : Char) :
    (afterQuoted close c).quote = stillOpen close c := by
  rw [afterQuoted_eq]
  cases stillOpen close c <;> rfl

/-- A scan is outside of quotes within a comment to the end of the line, and behind it. -/
@[simp] theorem Mode.quote_afterLineComment (c : Char) : (afterLineComment c).quote = none := by
  unfold afterLineComment
  split <;> rfl

variable {quote : Option Char} {c close : Char} {text : List Char}

/-- A character that opens no comment may stand in front of a text without comments. -/
theorem Uncommented.plain_cons (ordinary : opensComment c text = false)
    (others : Uncommented (openAfter c) text) : Uncommented none (c :: text) := by
  rw [Uncommented, Mode.ofQuote, replaceComments_plain_cons ordinary, Mode.afterPlain_eq]
  exact congrArg (c :: ·) others

/-- Within quotes any character may stand in front. -/
theorem Uncommented.quoted_cons (others : Uncommented (stillOpen close c) text) :
    Uncommented (some close) (c :: text) := by
  rw [Uncommented, Mode.ofQuote, replaceComments, Mode.afterQuoted_eq]
  exact congrArg (c :: ·) others

/-- The removal of comments leaves none, whatever the text holds and however it ends. -/
theorem uncommented_replaceComments (mode : Mode) (text : List Char) :
    Uncommented mode.quote (replaceComments mode text) := by
  have space {text : List Char} (others : Uncommented none text) : Uncommented none (' ' :: text) :=
    .plain_cons (by simp [opensComment]) others
  fun_induction replaceComments mode text with
  | case1 mode => exact .nil mode.quote
  | case2 rest inductionHypothesis => exact space inductionHypothesis
  | case3 rest inductionHypothesis => exact space inductionHypothesis
  | case4 c rest noLine noBlock inductionHypothesis =>
      have ordinary : opensComment c rest = false := by
        cases rest <;> simp_all [opensComment]
      rw [Mode.quote_afterPlain] at inductionHypothesis
      exact .plain_cons (opensComment_replaceComments ordinary) inductionHypothesis
  | case5 close c rest inductionHypothesis =>
      rw [Mode.quote_afterQuoted] at inductionHypothesis
      exact .quoted_cons inductionHypothesis
  | case6 c rest inductionHypothesis =>
      rw [Mode.quote_afterLineComment] at inductionHypothesis
      exact inductionHypothesis
  | case7 rest inductionHypothesis => exact inductionHypothesis
  | case8 c rest noEnd inductionHypothesis => exact inductionHypothesis

/-- Removing comments twice removes no more than removing them once. -/
theorem stripComments_stripComments (script : List Char) :
    stripComments (stripComments script) = stripComments script :=
  uncommented_replaceComments .plain script

/-- How a script turns into its text without comments: character by character, but for
whole comments outside quoted runs, each of which turns into a space. Only the last
comment can lack its end. -/
inductive Stripped : Option Char -> List Char -> List Char -> Prop where
  | nil (quote : Option Char) : Stripped quote [] []
  | plain {c : Char} {rest stripped : List Char} (ordinary : opensComment c rest = false)
      (others : Stripped (openAfter c) rest stripped) : Stripped none (c :: rest) (c :: stripped)
  | quoted {close c : Char} {rest stripped : List Char}
      (others : Stripped (stillOpen close c) rest stripped) :
      Stripped (some close) (c :: rest) (c :: stripped)
  | lineComment {comment rest stripped : List Char} (oneLine : '\n' ∉ comment)
      (others : Stripped none rest stripped) :
      Stripped none ('-' :: '-' :: comment ++ '\n' :: rest) (' ' :: stripped)
  | lastLine {comment : List Char} (oneLine : '\n' ∉ comment) :
      Stripped none ('-' :: '-' :: comment) [' ']
  | blockComment {comment rest stripped : List Char} (inside : ¬['*', '/'] <:+: comment)
      (others : Stripped none rest stripped) :
      Stripped none ('/' :: '*' :: comment ++ '*' :: '/' :: rest) (' ' :: stripped)
  | lastBlock {comment : List Char} (inside : ¬['*', '/'] <:+: comment) :
      Stripped none ('/' :: '*' :: comment) [' ']

/-- What begins like a comment in a block either ends somewhere for the first time or
never. -/
theorem exists_blockEnd (text : List Char) :
    (¬['*', '/'] <:+: text) ∨
      ∃ comment later, text = comment ++ '*' :: '/' :: later ∧ ¬['*', '/'] <:+: comment := by
  induction text with
  | nil => exact .inl (by simp)
  | cons c text inductionHypothesis =>
      by_cases here : ['*', '/'] <+: c :: text
      · obtain ⟨later, whole⟩ := here
        exact .inr ⟨[], later, whole.symm, by simp⟩
      · rcases inductionHypothesis with never | ⟨comment, later, rfl, inside⟩
        · exact .inl fun found => (List.infix_cons_iff.1 found).elim here never
        · refine .inr ⟨c :: comment, later, rfl, fun found => ?_⟩
          rcases List.infix_cons_iff.1 found with first | others
          · exact here (first.trans (List.prefix_append (c :: comment) _))
          · exact inside others

/-- A comment that nothing closes is left out to the end of the text. -/
theorem replaceComments_lastBlock {comment : List Char} (inside : ¬['*', '/'] <:+: comment) :
    replaceComments .blockComment comment = [] := by
  induction comment with
  | nil => rfl
  | cons c comment inductionHypothesis =>
      have goesOn : closesComment c comment = false := by
        refine Bool.eq_false_iff.2 fun closes => inside ?_
        simp only [closesComment, Bool.and_eq_true, beq_iff_eq, List.head?_eq_some_iff] at closes
        obtain ⟨rfl, later, rfl⟩ := closes
        exact ⟨[], later, rfl⟩
      rw [replaceComments_block_cons goesOn]
      exact inductionHypothesis fun found =>
        inside (found.trans (List.suffix_cons c comment).isInfix)

/-- Removing comments takes whole comments and nothing else. -/
theorem stripped_replaceComments (quote : Option Char) (text : List Char) :
    Stripped quote text (replaceComments (Mode.ofQuote quote) text) := by
  induction length : text.length using Nat.strongRecOn generalizing quote text with
  | ind length inductionHypothesis =>
      subst length
      have step (quote : Option Char) {rest : List Char} (shorter : rest.length < text.length) :
          Stripped quote rest (replaceComments (Mode.ofQuote quote) rest) :=
        inductionHypothesis _ shorter quote rest rfl
      cases text with
      | nil => cases quote <;> exact .nil _
      | cons c text =>
          cases quote with
          | some close =>
              rw [Mode.ofQuote, replaceComments, Mode.afterQuoted_eq]
              exact .quoted (step _ (by simp))
          | none =>
              cases opens : opensComment c text with
              | false =>
                  rw [Mode.ofQuote, replaceComments_plain_cons opens, Mode.afterPlain_eq]
                  exact .plain opens (step _ (by simp))
              | true =>
                  simp only [opensComment, Bool.or_eq_true, Bool.and_eq_true, beq_iff_eq,
                    List.head?_eq_some_iff] at opens
                  rcases opens with ⟨rfl, text, rfl⟩ | ⟨rfl, text, rfl⟩
                  · by_cases ended : '\n' ∈ text
                    · obtain ⟨comment, later, rfl, oneLine⟩ := List.eq_append_cons_of_mem ended
                      have gone := Strips.lineComment oneLine later
                      simp only [List.cons_append, List.append_assoc, List.nil_append] at gone
                      rw [Mode.ofQuote, gone]
                      exact .lineComment oneLine (step none (by simp; omega))
                    · rw [Mode.ofQuote, replaceComments, replaceComments_lastLine ended]
                      exact .lastLine ended
                  · rcases exists_blockEnd text with never | ⟨comment, later, rfl, inside⟩
                    · rw [Mode.ofQuote, replaceComments, replaceComments_lastBlock never]
                      exact .lastBlock never
                    · have gone := Strips.blockComment inside later
                      simp only [List.cons_append, List.append_assoc, List.nil_append] at gone
                      rw [Mode.ofQuote, gone]
                      exact .blockComment inside (step none (by simp; omega))

end Comments

section Places

/-- What a place in a text without comments lies within: a quoted run, named by the
character that ends it, and a number of parentheses. -/
structure Scope where
  quote : Option Char
  depth : Nat
  deriving DecidableEq

namespace Scope

/-- Outside quoted runs and parentheses. -/
def outermost : Scope :=
  { quote := none, depth := 0 }

/-- The scope behind a character. Parentheses within quoted runs do not count. -/
def past (scope : Scope) (c : Char) : Scope :=
  match scope.quote with
  | some close => { scope with quote := stillOpen close c }
  | none => { quote := openAfter c, depth := depthAfter scope.depth c }

end Scope

/-- The places of a text at which the separator stands outside all quoted runs and
parentheses, given the scope that the text starts in. -/
def separatorPlaces (separator : Char) (scope : Scope) (text : List Char) : List Nat :=
  (List.range text.length).filter fun place =>
    text[place]? == some separator && (text.take place).foldl Scope.past scope == .outermost

/-- The pieces of a text from a start on between given places. What stands at these
places belongs to no piece. -/
def slices (text : List Char) (start : Nat) : List Nat -> List (List Char)
  | [] => [text.drop start]
  | place :: places => (text.take place).drop start :: slices text (place + 1) places

variable {separator c : Char} {text : List Char}

/-- The places of separators lie one further behind a character, which may be one itself. -/
theorem separatorPlaces_cons (scope : Scope) :
    separatorPlaces separator scope (c :: text) =
      (if c = separator ∧ scope = .outermost then [0] else []) ++
        (separatorPlaces separator (scope.past c) text).map (· + 1) := by
  have later : ((List.range text.length).map Nat.succ).filter (fun place =>
      (c :: text)[place]? == some separator &&
        ((c :: text).take place).foldl Scope.past scope == .outermost) =
      (separatorPlaces separator (scope.past c) text).map (· + 1) := by
    rw [List.filter_map, separatorPlaces]
    rfl
  rw [separatorPlaces, List.length_cons, List.range_succ_eq_map, List.filter_cons, later]
  by_cases here : c = separator ∧ scope = .outermost
  · rw [if_pos here, if_pos (by simpa using here)]
    rfl
  · rw [if_neg here, if_neg (by simpa using here)]
    rfl

/-- A character in front of the first slice shifts all of them. -/
theorem slices_cons_succ (start : Nat) (places : List Nat) :
    slices (c :: text) (start + 1) (places.map (· + 1)) = slices text start places := by
  induction places generalizing start with
  | nil => rfl
  | cons place places inductionHypothesis =>
      rw [List.map_cons, slices, slices, inductionHypothesis]
      rfl

/-- A character at the start of the first slice belongs to it. -/
theorem slices_cons_zero (places : List Nat) :
    slices (c :: text) 0 (places.map (· + 1)) = consFirst c (slices text 0 places) := by
  cases places with
  | nil => rfl
  | cons place places =>
      rw [List.map_cons, slices, slices, slices_cons_succ]
      rfl

/-- A text without comments is cut at the places where the separator stands in the
outermost scope. -/
theorem cut_eq_slices (mark : IsSeparator separator) {quote : Option Char} {depth : Nat}
    (uncommented : Uncommented quote text) :
    cut separator (Mode.ofQuote quote) depth text =
      slices text 0 (separatorPlaces separator { quote, depth } text) := by
  induction text generalizing quote depth with
  | nil => cases quote <;> rfl
  | cons c text inductionHypothesis =>
      rw [separatorPlaces_cons]
      cases quote with
      | some close =>
          rw [cut_quoted_cons, inductionHypothesis uncommented.of_quoted_cons,
            if_neg (by simp [Scope.outermost]), List.nil_append, slices_cons_zero]
          rfl
      | none =>
          obtain ⟨ordinary, others⟩ := uncommented.of_plain_cons
          by_cases here : c = separator ∧ depth = 0
          · obtain ⟨rfl, rfl⟩ := here
            have unquoted : openAfter c = none := mark.quoteClose?_eq
            rw [unquoted] at others
            rw [Mode.ofQuote, cut_plain_cons ordinary, if_pos (by simp), if_pos ⟨rfl, rfl⟩,
              List.singleton_append, slices, slices_cons_succ, Scope.past, mark.depthAfter_eq,
              unquoted, ← inductionHypothesis others]
            rfl
          · rw [cut_plain_of_ne ordinary here, if_neg (by simpa [Scope.outermost] using here),
              List.nil_append, slices_cons_zero, inductionHypothesis others]
            rfl

/-- A character in front of the first piece stands in front of the separated text. -/
theorem separated_consFirst {pieces : List (List Char)} (nonempty : pieces ≠ []) :
    separated separator (consFirst c pieces) = c :: separated separator pieces := by
  cases pieces with
  | nil => exact absurd rfl nonempty
  | cons piece pieces => cases pieces <;> rfl

/-- An empty first piece leaves its separator in front. -/
theorem separated_nil_cons {pieces : List (List Char)} (nonempty : pieces ≠ []) :
    separated separator ([] :: pieces) = separator :: separated separator pieces := by
  cases pieces with
  | nil => exact absurd rfl nonempty
  | cons piece pieces => rfl

/-- Cutting a text without comments takes nothing but the separators. -/
theorem separated_cut (mark : IsSeparator separator) {quote : Option Char} {depth : Nat}
    (uncommented : Uncommented quote text) :
    separated separator (cut separator (Mode.ofQuote quote) depth text) = text := by
  induction text generalizing quote depth with
  | nil => cases quote <;> rfl
  | cons c text inductionHypothesis =>
      cases quote with
      | some close =>
          rw [cut_quoted_cons, separated_consFirst (cut_ne_nil _ _ _ _),
            inductionHypothesis uncommented.of_quoted_cons]
      | none =>
          obtain ⟨ordinary, others⟩ := uncommented.of_plain_cons
          by_cases here : c = separator ∧ depth = 0
          · obtain ⟨rfl, rfl⟩ := here
            have unquoted : openAfter c = none := mark.quoteClose?_eq
            rw [unquoted] at others
            rw [Mode.ofQuote, cut_plain_cons ordinary, if_pos (by simp),
              separated_nil_cons (cut_ne_nil _ _ _ _)]
            exact congrArg (c :: ·) (inductionHypothesis others)
          · rw [cut_plain_of_ne ordinary here, separated_consFirst (cut_ne_nil _ _ _ _),
              inductionHypothesis others]

/-- Comments make no difference to where a text is cut. -/
theorem cut_replaceComments (mark : IsSeparator separator) (mode : Mode) (depth : Nat)
    (text : List Char) :
    cut separator (Mode.ofQuote mode.quote) depth (replaceComments mode text) =
      cut separator mode depth text := by
  have space (depth : Nat) (text : List Char) : cut separator .plain depth (' ' :: text) =
      consFirst ' ' (cut separator .plain depth text) := by
    have other : ' ' ≠ separator := ne_of_isBlank (by decide) mark.1
    rw [cut_plain_cons (by simp [opensComment]), if_neg (by simp [other])]
    rfl
  fun_induction cut separator mode depth text with
  | case1 mode depth => cases mode <;> rfl
  | case2 depth rest inductionHypothesis =>
      rw [replaceComments, ← inductionHypothesis]
      exact space depth _
  | case3 depth rest inductionHypothesis =>
      rw [replaceComments, ← inductionHypothesis]
      exact space depth _
  | case4 depth c rest noLine noBlock here inductionHypothesis =>
      have ordinary : opensComment c rest = false := by
        cases rest <;> simp_all [opensComment]
      obtain ⟨rfl, rfl⟩ : c = separator ∧ depth = 0 := by simpa using here
      have unquoted : Mode.afterPlain c = .plain := by rw [Mode.afterPlain, mark.quoteClose?_eq]
      rw [replaceComments_plain_cons ordinary]
      have still := opensComment_replaceComments ordinary
      rw [unquoted] at still ⊢
      rw [← inductionHypothesis]
      exact (cut_plain_cons still 0).trans (if_pos (by simp))
  | case5 depth c rest noLine noBlock goesOn inductionHypothesis =>
      have ordinary : opensComment c rest = false := by
        cases rest <;> simp_all [opensComment]
      rw [replaceComments_plain_cons ordinary, ← inductionHypothesis, Mode.quote_afterPlain,
        ← Mode.afterPlain_eq]
      exact (cut_plain_cons (opensComment_replaceComments ordinary) depth).trans (if_neg goesOn)
  | case6 close depth c rest inductionHypothesis =>
      rw [replaceComments, ← inductionHypothesis, Mode.quote, Mode.ofQuote, cut,
        Mode.quote_afterQuoted, ← Mode.afterQuoted_eq]
  | case7 depth c rest inductionHypothesis =>
      rw [replaceComments, ← inductionHypothesis, Mode.quote_afterLineComment]
      rfl
  | case8 depth rest inductionHypothesis =>
      rw [replaceComments, ← inductionHypothesis]
      rfl
  | case9 depth c rest noEnd inductionHypothesis =>
      have goesOn : closesComment c rest = false := by
        cases rest <;> simp_all [closesComment]
      rw [replaceComments_block_cons goesOn, ← inductionHypothesis]

/-- The pieces of a text without comments between the separators that stand outside
all quoted runs and parentheses. -/
def topLevelPieces (separator : Char) (text : List Char) : List (List Char) :=
  slices text 0 (separatorPlaces separator .outermost text)

/-- The scan cuts where the separators of the outermost scope stand. -/
theorem cut_eq_topLevelPieces (mark : IsSeparator separator) (script : List Char) :
    cut separator .plain 0 script = topLevelPieces separator (stripComments script) := by
  rw [← cut_replaceComments mark .plain 0 script]
  exact cut_eq_slices mark (uncommented_replaceComments .plain script)

/-- With their separators the pieces are the text without its comments. -/
theorem separated_topLevelPieces (mark : IsSeparator separator) (script : List Char) :
    separated separator (topLevelPieces separator (stripComments script)) =
      stripComments script := by
  rw [← cut_eq_topLevelPieces mark, ← cut_replaceComments mark]
  exact separated_cut mark (uncommented_replaceComments .plain script)

/-- Fragments have no comments, so that they may be stripped before. -/
theorem fragments_stripComments (mark : IsSeparator separator) (script : List Char) :
    fragments separator (stripComments script) = fragments separator script := by
  rw [fragments, fragments, cut_eq_topLevelPieces mark, cut_eq_topLevelPieces mark,
    stripComments_stripComments]

end Places

/-- Removing comments takes whole comments outside quoted runs, a space for each, and
leaves none. At commas or semicolons a script is cut where they stand outside all quoted
runs and parentheses of the text without comments: put together again, the pieces are
that text, and the fragments are the pieces without the blanks around them, the blank
ones left out. So neither cutting a script nor reading it as a document depends on its
comments. -/
theorem fragments_eq_topLevelPieces (script : List Char) :
    Stripped none script (stripComments script) ∧
      stripComments (stripComments script) = stripComments script ∧
      (∀ separator ∈ [',', ';'],
        separated separator (topLevelPieces separator (stripComments script)) =
            stripComments script ∧
          (∀ piece ∈ topLevelPieces separator (stripComments script), ∃ before after,
            isBlankText before ∧ isBlankText after ∧ piece = before ++ (trim piece ++ after)) ∧
          fragments separator script =
            ((topLevelPieces separator (stripComments script)).map trim).filter
              (fun piece => !piece.isEmpty) ∧
          fragments separator script = fragments separator (stripComments script)) ∧
      Report.ofDocument (String.ofList script) =
        Report.ofDocument (String.ofList (stripComments script)) := by
  have once := stripComments_stripComments script
  refine ⟨stripped_replaceComments none script, once, fun separator member => ?_, ?_⟩
  · have mark : IsSeparator separator := by
      simp only [List.mem_cons, List.not_mem_nil, or_false] at member
      rcases member with rfl | rfl <;> decide
    refine ⟨separated_topLevelPieces mark script, fun piece _ => blanks_around_trim piece, ?_,
      (fragments_stripComments mark script).symm⟩
    rw [fragments, cut_eq_topLevelPieces mark]
  · rw [Report.ofDocument, Report.ofDocument, String.toList_ofList, String.toList_ofList, once]

/-- Marks that would meet once a comment between them is gone, a comment mark in quotes,
a quote in a comment, a surplus parenthesis and a comment without an end. -/
theorem fragments_eq_topLevelPieces_marks :
    let script := "a-/*';*/-; [;--] b) //*;*/ (c; 'd'';') ,e /* ;".toList
    ';' ∈ [',', ';'] ∧ stripComments script = "a- -; [;--] b) /  (c; 'd'';') ,e  ".toList ∧
      separatorPlaces ';' .outermost (stripComments script) = [4] ∧
      fragments ';' script = ["a- -".toList, "[;--] b) /  (c; 'd'';') ,e".toList] ∧
      fragments ';' (stripComments script) = fragments ';' script := by
  intro script
  obtain ⟨-, -, cut, -⟩ := fragments_eq_topLevelPieces script
  obtain ⟨-, -, pieces, same⟩ := cut ';' (by decide)
  exact ⟨by decide, by decide, by decide, pieces.trans (by decide), same.symm⟩

end SchemaLoom.Ddl
