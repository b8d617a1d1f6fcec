import SchemaLoom.Cli.Run
import SchemaLoom.Proofs.Surroundings
import SchemaLoom.Proofs.Words

/-!
# Fragments as a normal form

A fragment is cut into itself, and fragments that are put together with separators are cut
into the same ones again. All but the last leave nothing open behind them: each was cut off
where the scan stood in the outermost scope. Blanks do not change what a place lies within,
so that trimming a piece leaves its scope alone, and trimmed or not it has no comment, which
only the whole text could have lost.
-/

namespace SchemaLoom.Ddl

open SchemaLoom.Text

section Scopes

/-- What a scan stands in behind a text is what the text without comments leaves open. -/
theorem scope_replaceComments (mode : Mode) (depth : Nat) (text : List Char) :
    (replaceComments mode text).foldl Scope.past { quote := mode.quote, depth } =
      { quote := (mode.after text).quote, depth := mode.depth depth text } := by
  have space (depth : Nat) :
      Scope.past { quote := none, depth } ' ' = { quote := none, depth } := by
    rfl
  fun_induction replaceComments mode text generalizing depth with
  | case1 mode => rfl
  | case2 rest inductionHypothesis =>
      rw [List.foldl_cons, Mode.quote, space]
      exact inductionHypothesis depth
  | case3 rest inductionHypothesis =>
      rw [List.foldl_cons, Mode.quote, space]
      exact inductionHypothesis depth
  | case4 c rest noLine noBlock inductionHypothesis =>
      have ordinary : opensComment c rest = false := by
        cases rest <;> simp_all [opensComment]
      rw [List.foldl_cons, Mode.after_plain_cons ordinary, Mode.depth_plain_cons ordinary,
        ← inductionHypothesis, Mode.quote_afterPlain]
      rfl
  | case5 close c rest inductionHypothesis =>
      rw [List.foldl_cons, Mode.after, Mode.depth, ← inductionHypothesis, Mode.quote_afterQuoted]
      rfl
  | case6 c rest inductionHypothesis =>
      rw [Mode.after, Mode.depth, ← inductionHypothesis, Mode.quote_afterLineComment]
      rfl
  | case7 rest inductionHypothesis => exact inductionHypothesis depth
  | case8 c rest noEnd inductionHypothesis =>
      have ordinary : closesComment c rest = false := by
        cases rest <;> simp_all [closesComment]
      rw [Mode.after_block_cons ordinary, Mode.depth_block_cons ordinary]
      exact inductionHypothesis depth

/-- The scope behind a text that starts in the outermost one. -/
def scopeBehind (text : List Char) : Scope :=
  text.foldl Scope.past .outermost

/-- The scope goes on from text to text. -/
theorem scopeBehind_append (text later : List Char) :
    scopeBehind (text ++ later) = later.foldl Scope.past (scopeBehind text) :=
  List.foldl_append

/-- A scan of a text without comments never enters one. -/
theorem Uncommented.not_inComment {quote : Option Char} {text : List Char}
    (uncommented : Uncommented quote text) :
    (Mode.after (Mode.ofQuote quote) text).inComment = false := by
  induction text generalizing quote with
  | nil => cases quote <;> rfl
  | cons c text inductionHypothesis =>
      cases quote with
      | some close =>
          rw [Mode.ofQuote, Mode.after, Mode.afterQuoted_eq]
          exact inductionHypothesis uncommented.of_quoted_cons
      | none =>
          obtain ⟨ordinary, later⟩ := uncommented.of_plain_cons
          rw [Mode.ofQuote, Mode.after_plain_cons ordinary, Mode.afterPlain_eq]
          exact inductionHypothesis later

/-- A text without comments is settled if nothing is left open behind it. -/
theorem Uncommented.settled_iff {text : List Char} (uncommented : Uncommented none text) :
    Settled text ↔ scopeBehind text = .outermost := by
  have scope : scopeBehind text =
      { quote := (Mode.after .plain text).quote, depth := Mode.depth .plain 0 text } := by
    have whole := scope_replaceComments .plain 0 text
    rwa [show replaceComments .plain text = text from uncommented] at whole
  have outside : (Mode.after .plain text).inComment = false := uncommented.not_inComment
  rw [scope, Scope.outermost, Scope.mk.injEq]
  constructor
  · intro settled
    exact ⟨by rw [settled.mode]; rfl, settled.depth⟩
  · rintro ⟨quote, depth⟩
    refine ⟨?_, depth⟩
    cases mode : Mode.after .plain text <;> simp_all [Mode.quote, Mode.inComment]

/-- A scope whose quoted run, if it is in one, does not end at a blank. -/
def Scope.EndsSolid (scope : Scope) : Prop :=
  ∀ close ∈ scope.quote, isBlank close = false

/-- No character makes a quoted run end at a blank. -/
theorem Scope.EndsSolid.past {scope : Scope} (solid : scope.EndsSolid) (c : Char) :
    (scope.past c).EndsSolid := by
  obtain ⟨quote, depth⟩ := scope
  cases quote with
  | none => exact fun close member => isBlank_of_quoteClose? member
  | some close =>
      intro other member
      replace member : other ∈ stillOpen close c := member
      rw [stillOpen] at member
      split at member
      · cases member
      · exact Option.some.inj member ▸ solid close rfl

/-- No text makes a quoted run end at a blank. -/
theorem endsSolid_scopeBehind (text : List Char) : (scopeBehind text).EndsSolid := by
  suffices from_ : ∀ scope : Scope, scope.EndsSolid → (text.foldl Scope.past scope).EndsSolid from
    from_ .outermost (by simp [Scope.EndsSolid, Scope.outermost])
  induction text with
  | nil => exact fun scope solid => solid
  | cons c text inductionHypothesis =>
      exact fun scope solid => inductionHypothesis (scope.past c) (solid.past c)

/-- Blanks leave the scope as it is. -/
theorem Scope.EndsSolid.foldl_blanks {scope : Scope} (solid : scope.EndsSolid)
    {blanks : List Char} (blank : isBlankText blanks) :
    blanks.foldl Scope.past scope = scope := by
  induction blanks with
  | nil => rfl
  | cons c blanks inductionHypothesis =>
      rw [isBlankText_cons] at blank
      obtain ⟨unquoted, noOpening, noClosing⟩ := ordinary_of_isBlank blank.1
      have same : scope.past c = scope := by
        obtain ⟨quote, depth⟩ := scope
        cases quote with
        | none => simp [Scope.past, openAfter, unquoted, depthAfter, noOpening, noClosing]
        | some close =>
            have other : c ≠ close := ne_of_isBlank blank.1 (solid close rfl)
            simp [Scope.past, stillOpen, other]
      rw [List.foldl_cons, same]
      exact inductionHypothesis blank.2

/-- Blanks around a text leave the scope behind it. -/
theorem scopeBehind_blanks_around {before after : List Char} (blankBefore : isBlankText before)
    (blankAfter : isBlankText after) (text : List Char) :
    scopeBehind (before ++ (text ++ after)) = scopeBehind text := by
  have outermost : Scope.outermost.EndsSolid := endsSolid_scopeBehind []
  have front : scopeBehind before = .outermost := outermost.foldl_blanks blankBefore
  rw [scopeBehind_append, front]
  change scopeBehind (text ++ after) = _
  rw [scopeBehind_append, (endsSolid_scopeBehind text).foldl_blanks blankAfter]

end Scopes

section Pieces

variable {separator : Char} {text piece : List Char}

/-- A text without comments is one piece, or its first piece ends at a separator in the
outermost scope. -/
theorem cut_first (mark : IsSeparator separator) {quote : Option Char} {depth : Nat}
    (uncommented : Uncommented quote text) :
    cut separator (Mode.ofQuote quote) depth text = [text] ∨
      ∃ piece rest, text = piece ++ separator :: rest ∧
        cut separator (Mode.ofQuote quote) depth piece = [piece] ∧
        piece.foldl Scope.past { quote, depth } = .outermost ∧ Uncommented none rest := by
  induction text generalizing quote depth with
  | nil => exact .inl (by cases quote <;> rfl)
  | cons c text inductionHypothesis =>
      cases quote with
      | some close =>
          rw [cut_quoted_cons]
          rcases inductionHypothesis uncommented.of_quoted_cons with
            whole | ⟨piece, rest, rfl, one, closed, later⟩
          · exact .inl (by rw [whole]; rfl)
          · exact .inr ⟨c :: piece, rest, rfl, by rw [cut_quoted_cons, one]; rfl, closed, later⟩
      | none =>
          obtain ⟨ordinary, inside⟩ := uncommented.of_plain_cons
          by_cases here : c = separator ∧ depth = 0
          · obtain ⟨rfl, rfl⟩ := here
            rw [show openAfter c = none from mark.quoteClose?_eq] at inside
            exact .inr ⟨[], text, rfl, rfl, rfl, inside⟩
          · rw [cut_plain_of_ne ordinary here]
            rcases inductionHypothesis inside with whole | ⟨piece, rest, rfl, one, closed, later⟩
            · exact .inl (by rw [whole]; rfl)
            · rw [opensComment_append_mark mark.apart] at ordinary
              have inFirst := cut_plain_of_ne ordinary here
              exact .inr ⟨c :: piece, rest, rfl, by rw [inFirst, one]; rfl, closed, later⟩

/-- A text that is a fragment of its own: it has no blanks around it and no comment, and is
cut into itself. -/
structure Alone (separator : Char) (text : List Char) : Prop where
  solid : Solid text
  uncommented : Uncommented none text
  fragments_eq : fragments separator text = [text]

/-- The blanks around a text have no part in its comments. -/
theorem Uncommented.of_blanks_around {before after : List Char} (blank : isBlankText before)
    (uncommented : Uncommented none (before ++ (text ++ after))) : Uncommented none text :=
  (uncommented.of_append (Undivided.of_blanks blank)).of_start

/-- A piece without the blanks around it is a fragment of its own, unless nothing is left. -/
theorem fragments_of_one (mark : IsSeparator separator) (uncommented : Uncommented none piece)
    (one : cut separator .plain 0 piece = [piece]) :
    fragments separator piece = [] ∨
      fragments separator piece = [trim piece] ∧ Alone separator (trim piece) := by
  by_cases empty : trim piece = []
  · exact .inl (by simp [fragments, one, empty])
  · have single : fragments separator piece = [trim piece] := by simp [fragments, one, empty]
    obtain ⟨before, after, blankBefore, blankAfter, whole⟩ := blanks_around_trim piece
    have same := fragments_blanks_around mark blankBefore blankAfter (trim piece)
    rw [List.append_assoc, ← whole, single] at same
    rw [whole] at uncommented
    exact .inr ⟨single, solid_trim empty, uncommented.of_blanks_around blankBefore, same.symm⟩

/-- Fragments in order: each is one of its own, and nothing is left open behind any but the
last. -/
inductive Normal (separator : Char) : List (List Char) -> Prop where
  | nil : Normal separator []
  | last {fragment : List Char} (alone : Alone separator fragment) : Normal separator [fragment]
  | cons {fragment : List Char} {fragments : List (List Char)} (alone : Alone separator fragment)
      (settled : Settled fragment) (others : Normal separator fragments) :
      Normal separator (fragment :: fragments)

/-- Normal fragments are fragments of their own. -/
theorem Normal.alone {fragments : List (List Char)} (normal : Normal separator fragments) :
    ∀ fragment ∈ fragments, Alone separator fragment := by
  induction normal with
  | nil => simp
  | last alone => simpa using alone
  | cons alone _ _ inductionHypothesis => exact List.forall_mem_cons.2 ⟨alone, inductionHypothesis⟩

/-- A piece that leaves nothing open does so without the blanks around it, too. -/
theorem settled_trim (uncommented : Uncommented none piece)
    (closed : scopeBehind piece = .outermost) : Settled (trim piece) := by
  obtain ⟨before, after, blankBefore, blankAfter, whole⟩ := blanks_around_trim piece
  rw [whole] at uncommented closed
  rw [scopeBehind_blanks_around blankBefore blankAfter] at closed
  exact (uncommented.of_blanks_around blankBefore).settled_iff.2 closed

/-- A text without comments has normal fragments. If it leaves nothing open, neither does any
of them. -/
theorem Uncommented.normal_fragments (mark : IsSeparator separator) {text : List Char}
    (uncommented : Uncommented none text) :
    Normal separator (fragments separator text) ∧
      (scopeBehind text = .outermost →
        ∀ fragment ∈ fragments separator text, Settled fragment) := by
  induction length : text.length using Nat.strongRecOn generalizing text with
  | ind length inductionHypothesis =>
      subst length
      rcases cut_first mark uncommented with one | ⟨piece, rest, rfl, one, closed, later⟩
      · rcases fragments_of_one mark uncommented one with none | ⟨single, alone⟩
        · rw [none]
          exact ⟨.nil, by simp⟩
        · rw [single]
          exact ⟨.last alone, by simpa using settled_trim uncommented⟩
      · have first : Uncommented none piece := uncommented.of_start
        have settled : Settled piece := first.settled_iff.2 closed
        have behind : scopeBehind (piece ++ separator :: rest) = scopeBehind rest := by
          have same : Scope.past .outermost separator = .outermost := by
            simp [Scope.past, Scope.outermost, openAfter, mark.quoteClose?_eq, mark.depthAfter_eq]
          rw [scopeBehind_append, show scopeBehind piece = .outermost from closed,
            List.foldl_cons, same]
          rfl
        obtain ⟨normal, allSettled⟩ := inductionHypothesis rest.length (by simp; omega) later rfl
        rw [fragments_append_separator mark settled, behind]
        rcases fragments_of_one mark first one with none | ⟨single, alone⟩
        · rw [none]
          exact ⟨normal, allSettled⟩
        · have here : Settled (trim piece) := settled_trim first closed
          rw [single]
          exact ⟨.cons alone here normal,
            fun closed => List.forall_mem_cons.2 ⟨here, allSettled closed⟩⟩

/-- The fragments of any text are normal. -/
theorem normal_fragments (mark : IsSeparator separator) (text : List Char) :
    Normal separator (fragments separator text) := by
  rw [← fragments_stripComments mark]
  exact ((uncommented_replaceComments .plain text).normal_fragments mark).1

/-- Blanks in front of a text that leaves nothing open do not change that. -/
theorem Settled.blanks_append {blanks : List Char} (blank : isBlankText blanks)
    (settled : Settled text) : Settled (blanks ++ text) := by
  induction blanks with
  | nil => exact settled
  | cons c blanks inductionHypothesis =>
      rw [isBlankText_cons] at blank
      obtain ⟨unquoted, noOpening, noClosing⟩ := ordinary_of_isBlank blank.1
      have later := inductionHypothesis blank.2
      have ordinary := opensComment_of_isBlank blank.1 (blanks ++ text)
      have same := depthAfter_of_ne noOpening noClosing 0
      constructor
      · rw [List.cons_append, Mode.after_plain_cons ordinary, Mode.afterPlain, unquoted]
        exact later.mode
      · rw [List.cons_append, Mode.depth_plain_cons ordinary, Mode.afterPlain, unquoted, same]
        exact later.depth

/-- A fragment and a piece that has blanks in front of it. -/
def BlanksBefore (fragment piece : List Char) : Prop :=
  ∃ blanks, isBlankText blanks ∧ piece = blanks ++ fragment

/-- Blanks in front of a fragment are trimmed away. -/
theorem Alone.fragments_of_blanksBefore (mark : IsSeparator separator) {fragment : List Char}
    (alone : Alone separator fragment) (before : BlanksBefore fragment piece) :
    fragments separator piece = [fragment] := by
  obtain ⟨blanks, blank, rfl⟩ := before
  have around := fragments_blanks_around mark blank isBlankText_nil fragment
  rwa [List.append_nil, alone.fragments_eq] at around

/-- Normal fragments are found again, whatever blanks stand behind the separators. -/
theorem Normal.fragments_separated (mark : IsSeparator separator)
    {found pieces : List (List Char)} (normal : Normal separator found)
    (spaced : List.Forall₂ BlanksBefore found pieces) :
    fragments separator (separated separator pieces) = found := by
  induction normal generalizing pieces with
  | nil =>
      cases spaced
      rfl
  | last alone =>
      obtain ⟨piece, none, before, others, rfl⟩ := List.forall₂_cons_left_iff.1 spaced
      obtain rfl := List.forall₂_nil_left_iff.1 others
      exact alone.fragments_of_blanksBefore mark before
  | @cons fragment found alone settled normal inductionHypothesis =>
      obtain ⟨piece, pieces, before, others, rfl⟩ := List.forall₂_cons_left_iff.1 spaced
      have first := alone.fragments_of_blanksBefore mark before
      have later := inductionHypothesis others
      cases pieces with
      | nil =>
          obtain rfl := List.forall₂_nil_right_iff.1 others
          exact first
      | cons next pieces =>
          obtain ⟨blanks, blank, rfl⟩ := before
          rw [separated_cons_cons, fragments_append_separator mark (settled.blanks_append blank),
            first, later]
          rfl

end Pieces

section Statements

/-- A text behind which a scan stands outside parentheses and quoted runs. It may end in a
comment. -/
structure Closed (text : List Char) : Prop where
  quote : (Mode.after .plain text).quote = none
  depth : Mode.depth .plain 0 text = 0

instance (text : List Char) : Decidable (Closed text) :=
  decidable_of_iff ((Mode.after .plain text).quote = none ∧ Mode.depth .plain 0 text = 0)
    ⟨fun both => ⟨both.1, both.2⟩, fun closed => ⟨closed.quote, closed.depth⟩⟩

/-- Where a text leaves neither quotes nor parentheses open, no fragment of it does. -/
theorem Closed.settled {separator : Char} (mark : IsSeparator separator) {text : List Char}
    (closed : Closed text) : ∀ fragment ∈ fragments separator text, Settled fragment := by
  have scope : scopeBehind (stripComments text) = .outermost := by
    have whole := scope_replaceComments .plain 0 text
    rwa [closed.quote, closed.depth] at whole
  rw [← fragments_stripComments mark]
  exact ((uncommented_replaceComments .plain text).normal_fragments mark).2 scope

/-- Statements as they are printed: each with a semicolon, on lines of its own. -/
def statementLines (texts : List String) : String :=
  String.join (texts.map fun text => Cli.line (text ++ ";"))

/-- Statements that are printed line by line are found again. -/
theorem statements_statementLines {texts : List String}
    (alone : ∀ text ∈ texts, statements text = [text])
    (settled : ∀ text ∈ texts, Settled text.toList) :
    statements (statementLines texts) = texts := by
  induction texts with
  | nil => rfl
  | cons text texts inductionHypothesis =>
      obtain ⟨here, others⟩ := List.forall_mem_cons.1 alone
      obtain ⟨settledHere, settledOthers⟩ := List.forall_mem_cons.1 settled
      have printed : statementLines (text :: texts) =
          text ++ ";" ++ ("\n" ++ statementLines texts ++ "") := by
        simp only [statementLines, List.map_cons, String.join_cons, Cli.line,
          String.append_assoc, String.append_empty]
      have lineFeed : isBlankText "\n".toList := by decide
      rw [printed, statements_append_semicolon settledHere,
        statements_blanks_around lineFeed rfl, here,
        inductionHypothesis others settledOthers]
      rfl

/-- What the command that splits a script prints. -/
theorem perform_split {m : Type -> Type} [Monad m] [LawfulMonad m] (host : Host m)
    (settings : Settings) (layout : Json.Layout) (source : String) :
    Cli.perform host settings layout (.split source) =
      (·.map fun script => statementLines (statements script)) <$> Cli.readSource host source := by
  rw [map_eq_pure_bind]
  rfl

end Statements

/-- Cutting gives a normal form. A fragment is neither blank nor has it blanks around it, and
it is cut into itself; put together with separators, with blanks behind them or not, the
fragments are found again. A script that leaves no parenthesis and no quoted run open has the
same statements once they are printed by the command that splits scripts. -/
theorem fragments_normal :
    (∀ separator ∈ [',', ';'], ∀ text : List Char,
        (∀ fragment ∈ fragments separator text, ¬isBlankText fragment ∧
          trim fragment = fragment ∧ fragments separator fragment = [fragment]) ∧
        ∀ pieces, List.Forall₂ BlanksBefore (fragments separator text) pieces →
          fragments separator (separated separator pieces) = fragments separator text) ∧
      (∀ script : String, Closed script.toList →
        statements (statementLines (statements script)) = statements script) ∧
      ∀ (m : Type -> Type) [Monad m] [LawfulMonad m] (host : Host m) (settings : Settings)
        (layout : Json.Layout) (source : String),
        Cli.perform host settings layout (.split source) =
          (·.map fun script => statementLines (statements script)) <$>
            Cli.readSource host source := by
  refine ⟨fun separator member text => ?_, fun script closed => ?_, fun m _ _ => perform_split⟩
  · have mark : IsSeparator separator := by
      simp only [List.mem_cons, List.not_mem_nil, or_false] at member
      rcases member with rfl | rfl <;> decide
    have normal := normal_fragments mark text
    refine ⟨fun fragment member => ?_, fun pieces => normal.fragments_separated mark⟩
    have alone := normal.alone fragment member
    exact ⟨fun blank => alone.solid.nonempty (eq_nil_of_isBlankText alone.solid.first blank),
      trim_of_solid alone.solid, alone.fragments_eq⟩
  · have alone := (normal_fragments isSeparator_semicolon script.toList).alone
    have settled := closed.settled isSeparator_semicolon
    refine statements_statementLines (fun text member => ?_) fun text member => ?_
    · obtain ⟨fragment, isFragment, rfl⟩ := List.mem_map.1 member
      rw [statements, String.toList_ofList, (alone fragment isFragment).fragments_eq]
      rfl
    · obtain ⟨fragment, isFragment, rfl⟩ := List.mem_map.1 member
      rw [String.toList_ofList]
      exact settled fragment isFragment

/-- A surplus parenthesis, a comment between two marks that do not meet, a doubled quote with a
semicolon and a quoted run without an end; and a script that ends in a comment. -/
theorem fragments_normal_marks :
    let text := "a) -/**/- b ; 'c;''(' ;; (d; [e; ".toList
    let script := "a); 'b;''c' ; -- ; (d"
    ';' ∈ [',', ';'] ∧
      fragments ';' text = ["a) - - b".toList, "'c;''('".toList, "(d; [e;".toList] ∧
      (∀ fragment ∈ fragments ';' text, ¬isBlankText fragment ∧
        trim fragment = fragment ∧ fragments ';' fragment = [fragment]) ∧
      fragments ';' "a) - - b;'c;''(';\n (d; [e;".toList = fragments ';' text ∧
      Closed script.toList ∧
      statements (statementLines (statements script)) = statements script := by
  intro text script
  obtain ⟨normal, again⟩ := fragments_normal.1 ';' (by decide) text
  have found : fragments ';' text =
      ["a) - - b".toList, "'c;''('".toList, "(d; [e;".toList] := by
    decide
  have closed : Closed script.toList := by decide
  have spaced : List.Forall₂ BlanksBefore (fragments ';' text)
      ["a) - - b".toList, "'c;''('".toList, "\n (d; [e;".toList] := by
    rw [found]
    exact .cons ⟨[], by decide, rfl⟩ (.cons ⟨[], by decide, rfl⟩
      (.cons ⟨"\n ".toList, by decide, rfl⟩ .nil))
  exact ⟨by decide, found, normal, again _ spaced, closed, fragments_normal.2.1 script closed⟩

end SchemaLoom.Ddl
