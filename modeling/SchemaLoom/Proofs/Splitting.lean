import SchemaLoom.Proofs.Fragments

/-!
# Scripts cut at semicolons

A scan that has closed everything it opened stands as at the start of a script, so a
semicolon at that point cuts the script in two: the statements of both parts follow
each other as they are. Blanks around a script change nothing, even where they fall
into a quoted run or a comment without an end.
-/

namespace SchemaLoom.Ddl

open SchemaLoom.Text

/-- The parenthesis depth in which a scan that starts in the given mode and depth
leaves a text. -/
def Mode.depth : Mode -> Nat -> List Char -> Nat
  | _, depth, [] => depth
  | .plain, depth, '-' :: '-' :: rest => Mode.depth .lineComment depth rest
  | .plain, depth, '/' :: '*' :: rest => Mode.depth .blockComment depth rest
  | .plain, depth, c :: rest => Mode.depth (Mode.afterPlain c) (depthAfter depth c) rest
  | .quoted close, depth, c :: rest => Mode.depth (Mode.afterQuoted close c) depth rest
  | .lineComment, depth, c :: rest => Mode.depth (Mode.afterLineComment c) depth rest
  | .blockComment, depth, '*' :: '/' :: rest => Mode.depth .plain depth rest
  | .blockComment, depth, _ :: rest => Mode.depth .blockComment depth rest

/-- A text behind which a scan stands as it does at the start: outside parentheses,
quoted runs and comments. -/
structure Settled (text : List Char) : Prop where
  mode : Mode.after .plain text = .plain
  depth : Mode.depth .plain 0 text = 0

instance (text : List Char) : Decidable (Settled text) :=
  decidable_of_iff (Mode.after .plain text = .plain ∧ Mode.depth .plain 0 text = 0)
    ⟨fun both => ⟨both.1, both.2⟩, fun settled => ⟨settled.mode, settled.depth⟩⟩

/-- A character that can separate: it is not blank and has no part in parentheses,
quoted runs or comments. -/
def IsSeparator (c : Char) : Prop :=
  isBlank c = false ∧ c ∉ ['(', ')', '-', '*', '/', '\x27', '\x22', '\x60', '[']

instance (c : Char) : Decidable (IsSeparator c) :=
  inferInstanceAs (Decidable (_ ∧ _))

namespace IsSeparator

variable {separator : Char}

/-- A separator is no quote. -/
theorem quoteClose?_eq (mark : IsSeparator separator) : quoteClose? separator = none := by
  have other := mark.2
  simp only [List.mem_cons, List.not_mem_nil, or_false, not_or] at other
  exact quoteClose?_eq_none (by simp [other])

/-- A separator is no parenthesis. -/
theorem depthAfter_eq (mark : IsSeparator separator) (depth : Nat) :
    depthAfter depth separator = depth := by
  have other := mark.2
  simp only [List.mem_cons, List.not_mem_nil, or_false, not_or] at other
  simp [depthAfter, other]

/-- No comment begins at a separator. -/
theorem opensComment_eq (mark : IsSeparator separator) (rest : List Char) :
    opensComment separator rest = false := by
  have other := mark.2
  simp only [List.mem_cons, List.not_mem_nil, or_false, not_or] at other
  simp [opensComment, other]

/-- A separator is none of the characters that comments are opened and closed with. -/
theorem apart (mark : IsSeparator separator) : separator ∉ ['-', '*', '/'] := by
  have other := mark.2
  simp only [List.mem_cons, List.not_mem_nil, or_false, not_or] at other
  simp [other]

end IsSeparator

/-- No comment begins at a blank. -/
theorem opensComment_of_isBlank {c : Char} (blank : isBlank c) (rest : List Char) :
    opensComment c rest = false := by
  have noDash : c ≠ '-' := ne_of_isBlank blank (by decide)
  have noSlash : c ≠ '/' := ne_of_isBlank blank (by decide)
  simp [opensComment, noDash, noSlash]

/-- No comment begins across the end of a text before blanks. -/
theorem opensComment_append_blanks (c : Char) (text : List Char) {blanks : List Char}
    (blank : isBlankText blanks) : opensComment c (text ++ blanks) = opensComment c text := by
  cases text with
  | cons d text => rfl
  | nil =>
      cases blanks with
      | nil => rfl
      | cons d blanks =>
          rw [isBlankText_cons] at blank
          have noDash : d ≠ '-' := ne_of_isBlank blank.1 (by decide)
          have noStar : d ≠ '*' := ne_of_isBlank blank.1 (by decide)
          simp [opensComment, noDash, noStar]

/-- No comment ends across the end of a text before blanks. -/
theorem closesComment_append_blanks (c : Char) (text : List Char) {blanks : List Char}
    (blank : isBlankText blanks) : closesComment c (text ++ blanks) = closesComment c text := by
  cases text with
  | cons d text => rfl
  | nil =>
      cases blanks with
      | nil => rfl
      | cons d blanks =>
          rw [isBlankText_cons] at blank
          have noSlash : d ≠ '/' := ne_of_isBlank blank.1 (by decide)
          simp [closesComment, noSlash]

/-- Within a comment nothing is cut. -/
theorem cut_block_cons {separator c : Char} {rest : List Char}
    (ordinary : closesComment c rest = false) (depth : Nat) :
    cut separator .blockComment depth (c :: rest) = cut separator .blockComment depth rest := by
  rw [cut]
  rintro later rfl rfl
  simp [closesComment] at ordinary

/-- The depth follows the parentheses outside of quotes and comments. -/
theorem Mode.depth_plain_cons {c : Char} {rest : List Char}
    (ordinary : opensComment c rest = false) (depth : Nat) :
    Mode.depth .plain depth (c :: rest) =
      Mode.depth (Mode.afterPlain c) (depthAfter depth c) rest := by
  obtain ⟨noLine, noBlock⟩ := not_opens ordinary
  rw [Mode.depth]
  · exact noLine
  · exact noBlock

/-- Parentheses within a comment do not count. -/
theorem Mode.depth_block_cons {c : Char} {rest : List Char}
    (ordinary : closesComment c rest = false) (depth : Nat) :
    Mode.depth .blockComment depth (c :: rest) = Mode.depth .blockComment depth rest := by
  rw [Mode.depth]
  rintro later rfl rfl
  simp [closesComment] at ordinary

/-- A character goes to the first of several pieces, whatever comes behind them. -/
theorem consFirst_append (c : Char) {pieces : List (List Char)} (nonempty : pieces ≠ [])
    (more : List (List Char)) : consFirst c (pieces ++ more) = consFirst c pieces ++ more := by
  cases pieces with
  | nil => exact absurd rfl nonempty
  | cons piece pieces => rfl

/-- With a character in front there is a piece. -/
theorem consFirst_ne_nil (c : Char) (pieces : List (List Char)) : consFirst c pieces ≠ [] := by
  cases pieces <;> exact List.cons_ne_nil _ _

/-- A text is cut into one piece at least. -/
theorem cut_ne_nil (separator : Char) (mode : Mode) (depth : Nat) (text : List Char) :
    cut separator mode depth text ≠ [] := by
  fun_induction cut separator mode depth text with
  | case1 => exact List.cons_ne_nil _ _
  | case2 => exact consFirst_ne_nil _ _
  | case3 => exact consFirst_ne_nil _ _
  | case4 => exact List.cons_ne_nil _ _
  | case5 => exact consFirst_ne_nil _ _
  | case6 => exact consFirst_ne_nil _ _
  | case7 _ _ _ inductionHypothesis => exact inductionHypothesis
  | case8 _ _ inductionHypothesis => exact inductionHypothesis
  | case9 _ _ _ _ inductionHypothesis => exact inductionHypothesis

/-- A separator behind a text that a scan leaves as it started cuts the pieces of the
text off those of what follows. -/
theorem cut_append_separator {separator : Char} (mark : IsSeparator separator) {mode : Mode}
    {depth : Nat} {text : List Char} (plain : mode.after text = .plain)
    (closed : mode.depth depth text = 0) (later : List Char) :
    cut separator mode depth (text ++ separator :: later) =
      cut separator mode depth text ++ cut separator .plain 0 later := by
  fun_induction cut separator mode depth text with
  | case1 mode depth =>
      obtain rfl : mode = .plain := by simpa [Mode.after] using plain
      obtain rfl : depth = 0 := by simpa [Mode.depth] using closed
      rw [List.nil_append, cut_plain_cons (mark.opensComment_eq later), if_pos (by simp)]
      rfl
  | case2 depth rest inductionHypothesis =>
      simp only [Mode.after, Mode.depth] at plain closed
      simp only [List.cons_append, cut, inductionHypothesis plain closed]
      exact consFirst_append _ (cut_ne_nil _ _ _ _) _
  | case3 depth rest inductionHypothesis =>
      simp only [Mode.after, Mode.depth] at plain closed
      simp only [List.cons_append, cut, inductionHypothesis plain closed]
      exact consFirst_append _ (cut_ne_nil _ _ _ _) _
  | case4 depth c rest noLine noBlock here inductionHypothesis =>
      have ordinary : opensComment c rest = false := by
        cases rest <;> simp_all [opensComment]
      have still := opensComment_append_mark mark.apart c rest later
      rw [Mode.after_plain_cons ordinary] at plain
      rw [Mode.depth_plain_cons ordinary] at closed
      obtain ⟨rfl, rfl⟩ : c = separator ∧ depth = 0 := by simpa using here
      rw [Mode.afterPlain, mark.quoteClose?_eq] at plain closed
      rw [mark.depthAfter_eq] at closed
      rw [List.cons_append, cut_plain_cons (still.trans ordinary), if_pos here,
        inductionHypothesis plain closed]
      rfl
  | case5 depth c rest noLine noBlock goesOn inductionHypothesis =>
      have ordinary : opensComment c rest = false := by
        cases rest <;> simp_all [opensComment]
      have still := opensComment_append_mark mark.apart c rest later
      rw [Mode.after_plain_cons ordinary] at plain
      rw [Mode.depth_plain_cons ordinary] at closed
      rw [List.cons_append, cut_plain_cons (still.trans ordinary), if_neg goesOn,
        inductionHypothesis plain closed, consFirst_append _ (cut_ne_nil _ _ _ _)]
  | case6 close depth c rest inductionHypothesis =>
      simp only [Mode.after, Mode.depth] at plain closed
      simp only [List.cons_append, cut, inductionHypothesis plain closed]
      exact consFirst_append _ (cut_ne_nil _ _ _ _) _
  | case7 depth c rest inductionHypothesis =>
      simp only [Mode.after, Mode.depth] at plain closed
      simp only [List.cons_append, cut, inductionHypothesis plain closed]
  | case8 depth rest inductionHypothesis =>
      simp only [Mode.after, Mode.depth] at plain closed
      simp only [List.cons_append, cut, inductionHypothesis plain closed]
  | case9 depth c rest noEnd inductionHypothesis =>
      have ordinary : closesComment c rest = false := by
        cases rest <;> simp_all [closesComment]
      have still := closesComment_append_mark mark.apart c rest later
      rw [Mode.after_block_cons ordinary] at plain
      rw [Mode.depth_block_cons ordinary] at closed
      rw [List.cons_append, cut_block_cons (still.trans ordinary),
        inductionHypothesis plain closed]

/-- Blanks are one blank piece in whatever mode they are read. -/
theorem cut_blanks {separator : Char} (mark : IsSeparator separator) (mode : Mode) (depth : Nat)
    {blanks : List Char} (blank : isBlankText blanks) :
    ∃ piece, cut separator mode depth blanks = [piece] ∧ isBlankText piece := by
  induction blanks generalizing mode depth with
  | nil => exact ⟨[], by cases mode <;> rfl, rfl⟩
  | cons c blanks inductionHypothesis =>
      obtain ⟨first, others⟩ := isBlankText_cons.1 blank
      have keep (next : Mode) (ending : Nat) :
          ∃ piece, consFirst c (cut separator next ending blanks) = [piece] ∧
            isBlankText piece := by
        obtain ⟨piece, same, blankPiece⟩ := inductionHypothesis next ending others
        refine ⟨c :: piece, by rw [same]; rfl, ?_⟩
        exact isBlankText_cons.2 ⟨first, blankPiece⟩
      cases mode with
      | plain =>
          have noComment : opensComment c blanks = false := opensComment_of_isBlank first blanks
          have notHere : c ≠ separator := ne_of_isBlank first mark.1
          rw [cut_plain_cons noComment, if_neg (by simp [notHere])]
          exact keep _ _
      | quoted close =>
          rw [cut]
          exact keep _ _
      | lineComment =>
          rw [cut]
          exact inductionHypothesis _ _ others
      | blockComment =>
          have noEnd : closesComment c blanks = false := by
            have noStar : c ≠ '*' := ne_of_isBlank first (by decide)
            simp [closesComment, noStar]
          rw [cut_block_cons noEnd]
          exact inductionHypothesis _ _ others

/-- Blanks before a text go into its first piece. -/
theorem cut_blanks_append {separator : Char} (mark : IsSeparator separator) {blanks : List Char}
    (blank : isBlankText blanks) (text : List Char) :
    cut separator .plain 0 (blanks ++ text) =
      blanks.foldr consFirst (cut separator .plain 0 text) := by
  induction blanks with
  | nil => rfl
  | cons c blanks inductionHypothesis =>
      obtain ⟨first, others⟩ := isBlankText_cons.1 blank
      obtain ⟨unquoted, noOpening, noClosing⟩ := ordinary_of_isBlank first
      have notHere : c ≠ separator := ne_of_isBlank first mark.1
      have same := depthAfter_of_ne noOpening noClosing 0
      rw [List.cons_append, cut_plain_cons (opensComment_of_isBlank first _),
        if_neg (by simp [notHere]), Mode.afterPlain, unquoted, same, inductionHypothesis others]
      rfl

/-- Pieces beside the same ones with more blanks behind the last of them. -/
inductive BlanksBehind : List (List Char) -> List (List Char) -> Prop where
  | last (piece : List Char) {blanks : List Char} (blank : isBlankText blanks) :
      BlanksBehind [piece] [piece ++ blanks]
  | cons (piece : List Char) {pieces longer : List (List Char)}
      (others : BlanksBehind pieces longer) : BlanksBehind (piece :: pieces) (piece :: longer)

namespace BlanksBehind

variable {pieces longer : List (List Char)}

/-- A character in front belongs to the first piece of both. -/
theorem consFirst (behind : BlanksBehind pieces longer) (c : Char) :
    BlanksBehind (consFirst c pieces) (consFirst c longer) := by
  cases behind with
  | last piece blank => exact .last (c :: piece) blank
  | cons piece others => exact .cons (c :: piece) others

/-- Trimming leaves no difference. -/
theorem map_trim (behind : BlanksBehind pieces longer) : longer.map trim = pieces.map trim := by
  induction behind with
  | last piece blank => rw [List.map_singleton, List.map_singleton, trim_append_blanks piece blank]
  | cons piece _ inductionHypothesis => rw [List.map_cons, List.map_cons, inductionHypothesis]

end BlanksBehind

/-- Blanks behind a text go into its last piece, unless a comment takes them. -/
theorem cut_append_blanks {separator : Char} (mark : IsSeparator separator) (mode : Mode)
    (depth : Nat) (text : List Char) {blanks : List Char} (blank : isBlankText blanks) :
    BlanksBehind (cut separator mode depth text) (cut separator mode depth (text ++ blanks)) := by
  fun_induction cut separator mode depth text with
  | case1 mode depth =>
      obtain ⟨piece, same, blankPiece⟩ := cut_blanks mark mode depth blank
      rw [List.nil_append, same]
      exact .last [] blankPiece
  | case2 depth rest inductionHypothesis =>
      simp only [List.cons_append, cut]
      exact inductionHypothesis.consFirst ' '
  | case3 depth rest inductionHypothesis =>
      simp only [List.cons_append, cut]
      exact inductionHypothesis.consFirst ' '
  | case4 depth c rest noLine noBlock here inductionHypothesis =>
      have ordinary : opensComment c rest = false := by
        cases rest <;> simp_all [opensComment]
      have still := opensComment_append_blanks c rest blank
      rw [List.cons_append, cut_plain_cons (still.trans ordinary), if_pos here]
      exact .cons [] inductionHypothesis
  | case5 depth c rest noLine noBlock goesOn inductionHypothesis =>
      have ordinary : opensComment c rest = false := by
        cases rest <;> simp_all [opensComment]
      have still := opensComment_append_blanks c rest blank
      rw [List.cons_append, cut_plain_cons (still.trans ordinary), if_neg goesOn]
      exact inductionHypothesis.consFirst c
  | case6 close depth c rest inductionHypothesis =>
      simp only [List.cons_append, cut]
      exact inductionHypothesis.consFirst c
  | case7 depth c rest inductionHypothesis =>
      simp only [List.cons_append, cut]
      exact inductionHypothesis
  | case8 depth rest inductionHypothesis =>
      simp only [List.cons_append, cut]
      exact inductionHypothesis
  | case9 depth c rest noEnd inductionHypothesis =>
      have ordinary : closesComment c rest = false := by
        cases rest <;> simp_all [closesComment]
      have still := closesComment_append_blanks c rest blank
      rw [List.cons_append, cut_block_cons (still.trans ordinary)]
      exact inductionHypothesis

/-- A settled text and what follows a separator behind it are cut on their own. -/
theorem fragments_append_separator {separator : Char} (mark : IsSeparator separator)
    {text : List Char} (settled : Settled text) (later : List Char) :
    fragments separator (text ++ separator :: later) =
      fragments separator text ++ fragments separator later := by
  rw [fragments, cut_append_separator mark settled.mode settled.depth, List.map_append,
    List.filter_append]
  rfl

/-- Blanks around a text leave its fragments as they are. -/
theorem fragments_blanks_around {separator : Char} (mark : IsSeparator separator)
    {before after : List Char} (blankBefore : isBlankText before) (blankAfter : isBlankText after)
    (text : List Char) :
    fragments separator (before ++ text ++ after) = fragments separator text := by
  have behind : BlanksBehind (cut separator .plain 0 (before ++ text))
      (cut separator .plain 0 (before ++ text ++ after)) :=
    cut_append_blanks mark .plain 0 (before ++ text) blankAfter
  have front : (cut separator .plain 0 (before ++ text)).map trim =
      (cut separator .plain 0 text).map trim := by
    rw [cut_blanks_append mark blankBefore]
    obtain ⟨piece, pieces, whole⟩ :=
      List.exists_cons_of_ne_nil (cut_ne_nil separator .plain 0 text)
    rw [whole, foldr_consFirst, List.map_cons, List.map_cons, trim_blanks_append blankBefore]
  rw [fragments, behind.map_trim, front]
  rfl

/-- Statements are separated by semicolons. -/
theorem isSeparator_semicolon : IsSeparator ';' := by
  decide

/-- The statements of a settled script come before those of what follows a semicolon
behind it. -/
theorem statements_append_semicolon {first : String} (settled : Settled first.toList)
    (second : String) :
    statements (first ++ ";" ++ second) = statements first ++ statements second := by
  have text : (first ++ ";" ++ second).toList = first.toList ++ ';' :: second.toList := by simp
  rw [statements, text, fragments_append_separator isSeparator_semicolon settled, List.map_append]
  rfl

/-- Blanks around a script do not change its statements. -/
theorem statements_blanks_around {before after : String} (blankBefore : isBlankText before.toList)
    (blankAfter : isBlankText after.toList) (script : String) :
    statements (before ++ script ++ after) = statements script := by
  have text : (before ++ script ++ after).toList =
      before.toList ++ script.toList ++ after.toList := by simp
  rw [statements, text, fragments_blanks_around isSeparator_semicolon blankBefore blankAfter]
  rfl

/-- A text without comments that a scan crosses is settled. -/
theorem Uncommented.settled {quote : Option Char} {stops : Nat -> Char -> Bool}
    {depth ending : Nat} {text : List Char}
    (crossed : depthAcross? stops quote depth text = some ending)
    (uncommented : Uncommented quote text) :
    Mode.after (Mode.ofQuote quote) text = .plain ∧
      Mode.depth (Mode.ofQuote quote) depth text = ending := by
  fun_induction depthAcross? stops quote depth text with
  | case1 depth => exact ⟨rfl, Option.some.inj crossed⟩
  | case2 => cases crossed
  | case3 close depth c rest inductionHypothesis =>
      rw [Mode.ofQuote, Mode.after, Mode.depth, Mode.afterQuoted_eq]
      exact inductionHypothesis crossed uncommented.of_quoted_cons
  | case4 => cases crossed
  | case5 depth c rest goesOn inductionHypothesis =>
      obtain ⟨ordinary, later⟩ := uncommented.of_plain_cons
      rw [Mode.ofQuote, Mode.after_plain_cons ordinary, Mode.depth_plain_cons ordinary,
        Mode.afterPlain_eq]
      exact inductionHypothesis crossed later

/-- A text that is one statement: it is solid, and a scan crosses it and finds no comment. -/
structure IsStatement (text : List Char) : Prop where
  solid : Solid text
  crossed : depthAcross? (stopsFragment ';') none 0 text = some 0
  strips : Strips text text

/-- A statement leaves no quote, no comment and no parenthesis open. -/
theorem IsStatement.settled {text : List Char} (statement : IsStatement text) : Settled text :=
  have both := Uncommented.settled statement.crossed statement.strips.uncommented
  ⟨both.1, both.2⟩

/-- A text that is one statement is not split. -/
theorem IsStatement.statements_eq {text : String} (statement : IsStatement text.toList) :
    statements text = [text] := by
  have whole := @fragments_separated ';' [text.toList] rfl
    (by simpa using statement.crossed) statement.strips.uncommented
  rw [statements, ← separated.eq_2 ';' text.toList, whole, List.map_singleton,
    trim_of_solid statement.solid]
  simp [statement.solid.nonempty]

/-- Settled scripts of one statement each that end in semicolons, with blanks between
neighbours, are found again. -/
theorem statements_join {separator : String} (blank : isBlankText separator.toList)
    {texts : List String} (alone : ∀ text ∈ texts, statements text = [text])
    (settled : ∀ text ∈ texts, Settled text.toList) :
    statements (Text.join separator (texts.map fun text => text ++ ";")) = texts := by
  induction texts with
  | nil => rfl
  | cons text texts inductionHypothesis =>
      obtain ⟨first, others⟩ := List.forall_mem_cons.1 alone
      obtain ⟨firstSettled, othersSettled⟩ := List.forall_mem_cons.1 settled
      have cut := fun rest : String => statements_append_semicolon firstSettled rest
      cases texts with
      | nil =>
          have single := cut ""
          rw [String.append_empty, first] at single
          exact single
      | cons next texts =>
          have joined : Text.join separator ((text :: next :: texts).map fun text => text ++ ";") =
              text ++ ";" ++ (separator ++
                Text.join separator ((next :: texts).map fun text => text ++ ";") ++ "") := by
            rw [String.append_empty, ← String.append_assoc]
            rfl
          rw [joined, cut, first, statements_blanks_around blank rfl,
            inductionHypothesis others othersSettled]
          rfl

/-- A semicolon behind a settled script divides what it stands in into the statements
of both parts. Blanks around a script, whatever it leaves open, change none of its
statements. -/
theorem statements_append_and_blanks_around :
    (∀ first second : String, Settled first.toList ->
        statements (first ++ ";" ++ second) = statements first ++ statements second) ∧
      ∀ before script after : String, isBlankText before.toList -> isBlankText after.toList ->
        statements (before ++ script ++ after) = statements script :=
  ⟨fun _ second settled => statements_append_semicolon settled second,
    fun _ script _ blankBefore blankAfter => statements_blanks_around blankBefore blankAfter script⟩

/-- A surplus parenthesis, a doubled quote and comments with quotes are settled; blanks
behind a comment mark and a quote without an end are taken away. -/
theorem statements_append_and_blanks_around_marks :
    Settled "a); '(it''s;' -- don't (\n /* ; */ (b;) -".toList ∧
      statements ("a); '(it''s;' -- don't (\n /* ; */ (b;) -" ++ ";" ++ "- c; [d") =
        statements "a); '(it''s;' -- don't (\n /* ; */ (b;) -" ++ statements "- c; [d" ∧
      isBlankText "\n ".toList ∧ isBlankText " \t".toList ∧
      statements ("\n " ++ "(e; 'f -" ++ " \t") = statements "(e; 'f -" :=
  ⟨by decide, statements_append_and_blanks_around.1 _ _ (by decide), by decide, by decide,
    statements_append_and_blanks_around.2 _ _ _ (by decide) (by decide)⟩

end SchemaLoom.Ddl
