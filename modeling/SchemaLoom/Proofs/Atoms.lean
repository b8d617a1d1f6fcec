import SchemaLoom.Proofs.Splitting
import SchemaLoom.Proofs.Lexemes

/-!
# Tokens that no scan of scripts divides

A name is written as a word or in quotes. Neither holds a comment or ends a statement:
between quotes nothing counts, and a doubled quote closes one quoted run and opens the
next one.
-/

namespace SchemaLoom

open Ddl Text

namespace Database

/-- The kind of the first token of a text. -/
def kindOf (text : String) : TokenKind :=
  ((tokens text).head?.map Token.kind).getD .illegal

/-- The lexeme of a text that is one token. -/
def lexemeOf (text : String) : Lexeme :=
  (kindOf text, text)

/-- A text that no scan of scripts divides and that holds no comment. -/
structure IsWhole (text : List Char) : Prop where
  undivided : Undivided text
  strips : Strips text text

/-- A text that is one token and whole. -/
structure IsAtom (text : String) : Prop where
  token : IsToken (kindOf text) text
  whole : IsWhole text.toList

namespace IsWhole

variable {text later : List Char}

/-- Texts that each leave nothing open leave nothing open together. -/
theorem append (first : IsWhole text) (second : IsWhole later) : IsWhole (text ++ later) :=
  ⟨first.undivided.append second.undivided, first.strips.append second.strips⟩

/-- Parentheses around such a text are closed again. -/
theorem parentheses (whole : IsWhole text) : IsWhole ('(' :: text ++ [')']) := by
  have opening : Strips ['('] ['('] := .of_ordinary (by decide)
  have closing : Strips [')'] [')'] := .of_ordinary (by decide)
  exact ⟨whole.undivided.parentheses, (opening.append whole.strips).append closing⟩

/-- Whole pieces with commas between neighbours are whole in parentheses. -/
theorem separated_enclosed {pieces : List (List Char)} (all : ∀ piece ∈ pieces, IsWhole piece) :
    IsWhole ('(' :: Ddl.separated ',' pieces ++ [')']) := by
  have opening : Strips ['('] ['('] := .of_ordinary (by decide)
  have closing : Strips [')'] [')'] := .of_ordinary (by decide)
  have comma : Ordinary [','] := by decide
  have inner := Strips.separated comma fun piece member => (all piece member).strips
  exact ⟨.separated_enclosed fun piece member => (all piece member).undivided,
    (opening.append inner).append closing⟩

/-- A solid text that is whole is one statement. -/
theorem isStatement (whole : IsWhole text) (solid : Solid text) : IsStatement text := by
  refine ⟨solid, depthAcross?_fewer (fun depth c stop => ?_) whole.undivided, whole.strips⟩
  simp only [stopsFragment, Bool.and_eq_true] at stop
  simp [stopsDefinition, stop.1]

/-- A word character has no part in quotes, comments, parentheses and separators. -/
theorem ordinary_of_isWordPart {c : Char} (part : isWordPart c = true) :
    quoteClose? c = none ∧ c ∉ ['-', '/', '(', ')', ',', ';'] := by
  have marks : ∀ d ∈ ['\x27', '\x22', '\x60', '[', '-', '/', '(', ')', ',', ';'],
      isWordPart d = false :=
    List.forall_iff_forall_mem.1 (by decide)
  have other : c ∉ ['\x27', '\x22', '\x60', '[', '-', '/', '(', ')', ',', ';'] := fun member => by
    rw [marks c member] at part
    cases part
  simp only [List.mem_cons, List.not_mem_nil, or_false, not_or] at other
  exact ⟨quoteClose?_eq_none (by simp [other]), by simp [other]⟩

/-- Words and blanks are whole. -/
theorem of_words (parts : text.all fun c => isWordPart c || c == ' ' || c == '\n') :
    IsWhole text := by
  have ordinary : ∀ c ∈ text, quoteClose? c = none ∧ c ∉ ['-', '/', '(', ')', ',', ';'] := by
    intro c member
    have part := List.all_eq_true.1 parts c member
    simp only [Bool.or_eq_true, beq_iff_eq] at part
    rcases part with (part | rfl) | rfl
    · exact ordinary_of_isWordPart part
    · decide
    · decide
  refine ⟨depthAcross?_ordinary (fun c member => (ordinary c member).1)
    (fun member => (ordinary _ member).2 (by decide))
    (fun member => (ordinary _ member).2 (by decide)) fun c member => ?_,
    Strips.of_ordinary fun c member => ?_⟩
  · have other := (ordinary c member).2
    simp only [List.mem_cons, List.not_mem_nil, or_false, not_or] at other
    simp [stopsDefinition, other]
  · have other := (ordinary c member).2
    simp only [List.mem_cons, List.not_mem_nil, or_false, not_or] at other
    exact ⟨(ordinary c member).1, other.1, other.2.1⟩

/-- The characters of a word leave nothing open. -/
theorem of_word (parts : text.all isWordPart) : IsWhole text :=
  of_words (List.all_eq_true.2 fun c member => by simp [List.all_eq_true.1 parts c member])

/-- A quoted run is whole whatever it holds. -/
theorem quoted {opening close : Char} (quotes : quoteClose? opening = some close)
    (inside : close ∉ text) : IsWhole (opening :: text ++ [close]) := by
  have marks : ∀ c ∈ ['(', ')', ',', ';'], quoteClose? c = none :=
    List.forall_iff_forall_mem.1 (by decide)
  have other : opening ∉ ['(', ')', ',', ';'] := by
    intro member
    rw [marks opening member] at quotes
    cases quotes
  simp only [List.mem_cons, List.not_mem_nil, or_false, not_or] at other
  exact ⟨depthAcross?_quoted quotes inside (by simp [stopsDefinition, other]) other.2.1 other.1,
    .quoted quotes inside⟩

/-- A quote that closes at the end of a text is followed by quoted runs side by side. -/
theorem of_closing {quote : Char} (quotes : quoteClose? quote = some quote) {inner rest : List Char}
    (inside : quote ∉ inner) (closed : closing? quote rest = some rest.length) :
    IsWhole (quote :: inner ++ rest) := by
  fun_induction closing? quote rest generalizing inner with
  | case1 => cases closed
  | case2 c isQuote =>
      rw [beq_iff_eq.1 isQuote]
      exact quoted quotes inside
  | case3 => cases closed
  | case4 c d rest isQuote doubled inductionHypothesis =>
      obtain ⟨length, isLength, same⟩ := Option.map_eq_some_iff.1 closed
      obtain rfl : length = rest.length := by simpa using same
      have later := inductionHypothesis List.not_mem_nil isLength
      have whole := (quoted quotes inside).append later
      rw [beq_iff_eq.1 isQuote, beq_iff_eq.1 doubled]
      simpa using whole
  | case5 => simp at closed
  | case6 c d rest isOther inductionHypothesis =>
      obtain ⟨length, isLength, same⟩ := Option.map_eq_some_iff.1 closed
      obtain rfl : length = (d :: rest).length := by simpa using same
      have further : quote ∉ inner ++ [c] := by
        simp only [List.mem_append, List.mem_singleton, not_or]
        exact ⟨inside, fun same => isOther (by simp [same])⟩
      simpa using inductionHypothesis further isLength

/-- A bracket that closes at the end of a text closes there first. -/
theorem of_bracket {rest : List Char} (closed : ']' ∈ rest)
    (ending : (rest.takeWhile (· != ']')).length + 1 = rest.length) : IsWhole ('[' :: rest) := by
  have whole := List.takeWhile_append_dropWhile (p := (· != ']')) (l := rest)
  cases dropped : rest.dropWhile (· != ']') with
  | nil =>
      have all := List.dropWhile_eq_nil_iff.1 dropped ']' closed
      cases all
  | cons c later =>
      rw [dropped] at whole
      have lengths := congrArg List.length whole
      rw [List.length_append, List.length_cons] at lengths
      obtain rfl : later = [] := List.length_eq_zero_iff.1 (by omega)
      have isBracket : c = ']' := by
        have stops := List.head?_dropWhile_not (· != ']') rest
        rw [dropped] at stops
        simpa using stops
      have inside : ']' ∉ rest.takeWhile (· != ']') := fun member => by
        have accepted := List.mem_takeWhile_imp member
        cases accepted
      rw [← whole, isBracket]
      exact quoted rfl inside

/-- A name as it is written is whole. -/
theorem of_nameIn? {text name : String} (named : nameIn? text = some name) :
    IsWhole text.toList := by
  obtain ⟨kind, first, rest, length, spelled, -, lexed, enough, isName⟩ := lexeme_of_nameIn? named
  have naming := isNaming_of_name? isName
  rw [spelled]
  rcases starts_of_isNaming lexed naming with quotes | ⟨starts, rfl, rfl⟩
  · have closes (quotes : quoteClose? first = some first)
        (closed : closing? first rest = some rest.length) : IsWhole (first :: rest) :=
      @of_closing first quotes [] rest List.not_mem_nil closed
    simp only [List.mem_cons, List.not_mem_nil, or_false] at quotes
    rcases quotes with rfl | rfl | rfl | rfl
    · exact closes rfl (closing?_of_isNaming lexeme_single lexed enough naming).1
    · exact closes rfl (closing?_of_isNaming (lexeme_double (.inl rfl)) lexed enough naming).1
    · exact closes rfl (closing?_of_isNaming (lexeme_double (.inr rfl)) lexed enough naming).1
    · obtain ⟨closed, ending, -⟩ := bracket_of_isNaming lexed enough naming
      exact of_bracket closed ending
  · have all := (List.takeWhile_prefix isWordPart).eq_of_length_le enough
    exact of_word (List.all_eq_true.2 (List.forall_mem_cons.2
      ⟨isWordPart_of_startsWord starts, List.takeWhile_eq_self_iff.1 all⟩))

end IsWhole

/-- A token that stands by itself has the kind that it is read as. -/
theorem IsToken.kindOf_eq {kind : TokenKind} {text : String} (isToken : IsToken kind text) :
    kindOf text = kind := by
  have nothing : Delimited [] := fun c member => by cases member
  have whole := (isToken nothing .nil).tokensFrom 0
  rw [List.append_nil, ← tokens] at whole
  obtain ⟨token, rest, equal, lexed, -⟩ := List.map_eq_cons_iff.1 whole
  rw [kindOf, equal]
  exact congrArg Prod.fst lexed

/-- An atom has the name of its lexeme. -/
theorem IsAtom.nameIn?_eq {text : String} (atom : IsAtom text) :
    nameIn? text = (lexemeOf text).name? :=
  nameIn?_of_isToken atom.token

/-- A run of letters, digits and underscores is an atom. -/
theorem IsAtom.of_isRun {text : String} (run : IsRun text) : IsAtom text := by
  obtain ⟨kind, isToken, -⟩ := isToken_of_isRun run
  exact ⟨isToken.kindOf_eq.symm ▸ isToken, .of_word (List.all_eq_true.2 fun c => run.isWordPart)⟩

/-- A name as it is written is an atom. -/
theorem IsAtom.of_nameIn? {text name : String} (named : Database.nameIn? text = some name) :
    IsAtom text := by
  obtain ⟨kind, isToken, -⟩ := isToken_of_nameIn? named
  exact ⟨isToken.kindOf_eq.symm ▸ isToken, .of_nameIn? named⟩

end Database

end SchemaLoom
