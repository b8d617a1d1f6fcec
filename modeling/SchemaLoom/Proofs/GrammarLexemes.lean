import SchemaLoom.Proofs.Grammar
import SchemaLoom.Proofs.Places

/-!
# Lexemes of table statements

A table statement of the grammar that is laid out with spaces and line ends alone, without
comments, points and signs, falls into the tokens of the database that it is written from:
its keywords, its names as they are quoted, its numbers, and the marks between them.
-/

namespace SchemaLoom

namespace Database

section Runs

variable {first : Char} {rest later text : List Char}

/-- A text is composed of one lexeme if it is read as one in front of all that may follow. -/
theorem composed_of_lexeme {kind : TokenKind} (opens : opensToken first = true)
    (lexed : ∀ later, Delimited later -> lexeme first (rest ++ later) = (kind, rest.length)) :
    Composed (first :: rest) [(kind, String.ofList (first :: rest))] := by
  have isToken : IsToken kind (String.ofList (first :: rest)) :=
    .of_lexeme String.toList_ofList opens lexed
  rwa [IsToken, String.toList_ofList] at isToken

/-- Letters, digits and underscores are a word unless they begin with a digit. -/
theorem composed_word_of_isAsciiWord (nonempty : text ≠ [])
    (inside : ∀ c ∈ text, Text.isAsciiWord c) (noDigit : ∀ c ∈ text.head?, c.isDigit = false) :
    Composed text [(.word, String.ofList text)] := by
  obtain ⟨first, rest, rfl⟩ := List.exists_cons_of_ne_nil nonempty
  have isPart {c : Char} (member : c ∈ first :: rest) : isWordPart c = true := by
    have word := inside c member
    simp only [Text.isAsciiWord, Bool.or_eq_true] at word
    simp only [isWordPart, Bool.or_eq_true]
    exact word.elim (fun letter => .inl (.inl (.inl letter))) fun mark => .inl (.inl (.inr mark))
  have starts : startsWord first = true := by
    have word := inside first List.mem_cons_self
    simp only [Text.isAsciiWord, Char.isAlphanum, noDigit first rfl, Bool.or_false] at word
    rw [startsWord, word, Bool.true_or]
  have unmarked : first ≠ '\uFEFF' := by
    rintro rfl
    exact absurd (inside _ List.mem_cons_self) (by decide)
  exact composed_of_lexeme
    (opensToken_of_toNat (Nat.le_trans (by decide) (toNat_of_startsWord starts)) unmarked)
    fun later delimited =>
      lexeme_word starts (fun c member => isPart (List.mem_cons_of_mem first member)) delimited

/-- A quoted run without its quote inside is closed by the first quote. -/
theorem closing?_of_not_mem {quote : Char} (absent : quote ∉ text) :
    closing? quote (text ++ [quote]) = some (text.length + 1) := by
  induction text with
  | nil => simp [closing?]
  | cons c text inductionHypothesis =>
      rw [List.mem_cons, not_or] at absent
      have other : (c == quote) = false := beq_eq_false_iff_ne.2 (Ne.symm absent.1)
      obtain ⟨d, later, shape⟩ : ∃ d later, text ++ [quote] = d :: later :=
        List.exists_cons_of_ne_nil (by simp)
      have inner := inductionHypothesis absent.2
      rw [shape] at inner
      rw [List.cons_append, shape, closing?, other, inner]
      rfl

/-- Without the quote inside, nothing is doubled in a quoted name. -/
theorem undouble_of_not_mem {quote : Char} (absent : quote ∉ text) :
    undouble quote text = text := by
  fun_induction undouble quote text with
  | case1 => rfl
  | case2 c => rfl
  | case3 c d rest doubled inductionHypothesis =>
      rw [Bool.and_eq_true, beq_iff_eq] at doubled
      exact absurd (doubled.1 ▸ List.mem_cons_self) absent
  | case4 c d rest single inductionHypothesis =>
      rw [inductionHypothesis fun member => absent (List.mem_cons_of_mem c member)]

/-- A number is one token, be it a whole one or one with a fraction. -/
theorem numberLexeme_decimal {whole fraction : List Char}
    (digits : (whole ++ fraction).all Char.isDigit) (delimited : Delimited later) :
    numberLexeme (whole ++ (if fraction = [] then [] else '.' :: fraction) ++ later) =
      (.number, (whole ++ if fraction = [] then [] else '.' :: fraction).length) := by
  rw [List.all_append, Bool.and_eq_true, List.all_eq_true, List.all_eq_true] at digits
  have noDigit {c : Char} (head : c ∈ later.head?) : c.isDigit = false := by
    by_contra digit
    have part := delimited.isWordPart head
    rw [isWordPart_of_isDigit (Bool.of_not_eq_false digit)] at part
    cases part
  -- Nothing that belongs to a number begins behind it.
  have exponent : exponentLength ([] ++ later) = 0 :=
    (exponentLength_append (List.forall_mem_nil _) delimited).1
  have attached : ([] ++ later).takeWhile isWordPart = [] :=
    takeWhile_isWordPart (List.forall_mem_nil _) delimited
  have point : fractionLength ([] ++ later) = 0 :=
    fractionLength_append (List.forall_mem_nil _) delimited
  rw [List.nil_append] at exponent attached point
  unfold numberLexeme
  split
  · have start : (whole ++ later).takeWhile Char.isDigit = whole :=
      (Ddl.takeWhile_append_of_ends digits.1 fun _ => noDigit).1
    simp [start, point, exponent, attached]
  · have start : (whole ++ '.' :: (fraction ++ later)).takeWhile Char.isDigit = whole :=
      (Ddl.takeWhile_append_of_ends digits.1 (by simp)).1
    have behind : (fraction ++ later).takeWhile Char.isDigit = fraction :=
      (Ddl.takeWhile_append_of_ends digits.2 fun _ => noDigit).1
    have point : fractionLength ('.' :: (fraction ++ later)) = 1 + fraction.length := by
      rw [fractionLength, behind]
    have length : whole.length + (1 + fraction.length) = (whole ++ '.' :: fraction).length := by
      simp
      omega
    have dropped : (whole ++ '.' :: (fraction ++ later)).drop (whole ++ '.' :: fraction).length =
        later := by
      rw [← List.cons_append, ← List.append_assoc, List.drop_left]
    rw [List.append_assoc, List.cons_append]
    dsimp only
    rw [start, List.drop_left, point, length, dropped, exponent, Nat.add_zero, dropped, attached]
    rfl

end Runs

/-- The name of a token that is a word or stands in quotes which it does not contain. -/
theorem name?_of_quoted {quote closing : Char} (bracket : quote = '[' ∨ closing = quote)
    (absent : closing ∉ text) :
    Lexeme.name? (.quoted, String.ofList (quote :: text ++ [closing])) =
      some (String.ofList text) := by
  rw [Lexeme.name?, Token.name?, Token.inside]
  simp only [String.toList_ofList, List.cons_append, List.head?_cons, List.drop_succ_cons,
    List.drop_zero, List.dropLast_concat]
  split
  · rfl
  · rename_i found other isQuote
    obtain rfl := Option.some.inj isQuote
    have same : closing = quote := bracket.resolve_left other
    rw [undouble_of_not_mem (same ▸ absent)]
  · cases ‹some quote = none›

end Database

namespace Ddl.Grammar

open SchemaLoom.Text SchemaLoom.Database

/-- Joined pieces are written one after the other. -/
@[simp] theorem Piece.written_append (first second : Piece) :
    (first ++ second).written = first.written ++ second.written :=
  rfl

@[simp] theorem Piece.written_empty : Piece.empty.written = [] :=
  rfl

/-- An ordinary text is written as it is. -/
@[simp] theorem Piece.written_ordinary {text : List Char} (isOrdinary : Ordinary text) :
    (Piece.ordinary text isOrdinary).written = text :=
  rfl

section Layouts

variable {later text : List Char} {lexemes others : List Lexeme}

/-- A space or the end of a line. -/
def Filler.IsPlain : Filler -> Prop
  | blank c _ => c = ' ' ∨ c = '\n'
  | _ => False

/-- A layout without comments, of spaces and line ends. -/
def Layout.IsPlain (layout : Layout) : Prop :=
  ∀ filler ∈ layout, filler.IsPlain

/-- A spacing without comments, of spaces and line ends. -/
def Spacing.IsPlain (space : Spacing) : Prop :=
  Layout.IsPlain (space.first :: space.others)

/-- A plain filler is a single blank or line break. -/
theorem Filler.IsPlain.exists_blank {filler : Filler} (plain : filler.IsPlain) :
    ∃ c, (c = ' ' ∨ c = '\n') ∧ filler.piece.written = [c] := by
  cases filler with
  | blank c isBlank => exact ⟨c, plain, rfl⟩
  | lineComment text oneLine => cases plain
  | blockComment text inside => cases plain

/-- A layout is written filler by filler. -/
theorem Layout.written_cons (filler : Filler) (layout : Layout) :
    (Layout.piece (filler :: layout)).written = filler.piece.written ++ layout.piece.written :=
  rfl

/-- A layout in front of a text adds no token. -/
theorem Layout.IsPlain.composed {layout : Layout} (plain : layout.IsPlain)
    (behind : Composed later others) : Composed (layout.piece.written ++ later) others := by
  induction layout with
  | nil => exact behind
  | cons filler layout inductionHypothesis =>
      obtain ⟨here, rest⟩ := List.forall_mem_cons.1 plain
      obtain ⟨c, blank, written⟩ := here.exists_blank
      rw [Layout.written_cons, written]
      exact (inductionHypothesis rest).gap blank

/-- A token may be followed by plain spacing, which is not empty. -/
theorem Spacing.IsPlain.delimited {space : Spacing} (plain : space.IsPlain) (later : List Char) :
    Delimited (space.piece.written ++ later) := by
  obtain ⟨c, blank, written⟩ := (List.forall_mem_cons.1 plain).1.exists_blank
  rw [Spacing.piece, Layout.written_cons, written]
  intro d head
  obtain rfl := Option.some.inj head
  rcases blank with rfl | rfl <;> decide

/-- A token may be followed by a plain layout if it may be followed by what comes then. -/
theorem Layout.IsPlain.delimited {layout : Layout} (plain : layout.IsPlain)
    (delimited : Delimited later) : Delimited (layout.piece.written ++ later) := by
  cases layout with
  | nil => exact delimited
  | cons filler layout =>
      have space : Spacing.IsPlain ⟨filler, layout⟩ := plain
      exact space.delimited later

/-- Texts with space between them. -/
theorem Spacing.IsPlain.between {space : Spacing} (plain : space.IsPlain)
    (first : Composed text lexemes) (second : Composed later others) :
    Composed (text ++ (space.piece.written ++ later)) (lexemes ++ others) :=
  first.append (plain.delimited later) (Layout.IsPlain.composed plain second)

/-- Texts with a layout between them, of which the second begins with a mark. -/
theorem Layout.IsPlain.between {layout : Layout} (plain : layout.IsPlain)
    (delimited : Delimited later) (first : Composed text lexemes)
    (second : Composed later others) :
    Composed (text ++ (layout.piece.written ++ later)) (lexemes ++ others) :=
  first.append (plain.delimited delimited) (plain.composed second)

/-- A text with a layout behind it. -/
theorem Layout.IsPlain.behind {layout : Layout} (plain : layout.IsPlain)
    (first : Composed text lexemes) : Composed (text ++ layout.piece.written) lexemes := by
  have nothing : Delimited [] := fun c member => by cases member
  have whole := plain.between nothing first .nil
  rwa [List.append_nil, List.append_nil] at whole

/-- A token may be followed by an opening parenthesis. -/
theorem delimited_enclosed (inner : Piece) : Delimited inner.enclosed.written := by
  intro c head
  obtain rfl := Option.some.inj head
  decide

/-- What stands behind the closing parenthesis does not matter to the token in front. -/
theorem delimited_enclosed_append (inner : Piece) (later : List Char) :
    Delimited (inner.enclosed.written ++ later) :=
  delimited_enclosed inner

end Layouts

section Words

/-- The lexeme of a keyword. -/
def Keyword.lexeme {capitals : String} (keyword : Keyword capitals) : Lexeme :=
  (.word, String.ofList keyword.letters)

/-- A keyword is one word, whatever the case of its letters. -/
theorem Keyword.composed {capitals : String} (keyword : Keyword capitals) :
    Composed keyword.piece.written [keyword.lexeme] := by
  obtain ⟨word, letters⟩ := isWordKeyword_of_mem keyword.reserved
  obtain ⟨nonempty, ascii⟩ :=
    isAsciiWord_of_cased (isWordKeyword_of_mem keyword.reserved) keyword.cased
  refine composed_word_of_isAsciiWord nonempty ascii fun c head => ?_
  have capital : c.toUpper.isUpper = true :=
    letters _ (keyword.cased ▸ List.mem_map_of_mem (List.mem_of_head? head))
  by_contra digit
  obtain ⟨low, high⟩ := toNat_of_isDigit (Bool.of_not_eq_false digit)
  have same : c.toUpper = c := by
    refine dif_neg fun small => ?_
    have letter := UInt32.le_iff_toNat_le.1 small.1
    have isLow : 'a'.val.toNat = 97 := rfl
    rw [isLow] at letter
    exact absurd (Nat.le_trans letter high) (by decide)
  rw [same] at capital
  have isLetter : c.isAlpha = true := Bool.or_eq_true_iff.2 (.inl capital)
  have starts : startsWord c = true := by simp [startsWord, isLetter]
  have letter := toNat_of_startsWord starts
  omega

/-- The lexemes of two keywords. -/
def Pair.lexemes {first second : String} (pair : Pair first second) : List Lexeme :=
  [pair.firstWord.lexeme, pair.secondWord.lexeme]

/-- Two keywords with spaces and line ends between them. -/
def Pair.IsPlain {first second : String} (pair : Pair first second) : Prop :=
  pair.space.IsPlain

/-- Two keywords with plain spacing between them are two words. -/
theorem Pair.composed {first second : String} {pair : Pair first second} (plain : pair.IsPlain) :
    Composed pair.piece.written pair.lexemes :=
  Spacing.IsPlain.between plain pair.firstWord.composed pair.secondWord.composed

/-- Each kind of quote starts a token. -/
theorem Quotes.opensToken_opening (quotes : Quotes) : opensToken quotes.opening = true := by
  cases quotes <;> decide

/-- Quotes around a text that they do not close make one token, which a null character inside
spoils. -/
theorem Quotes.lexeme_opening (quotes : Quotes) {text later : List Char}
    (inside : quotes.closing ∉ text) (delimited : Delimited later) :
    lexeme quotes.opening (text ++ [quotes.closing] ++ later) =
      (enclosedKind .quoted (text ++ [quotes.closing]), (text ++ [quotes.closing]).length) := by
  have closed {quote : Char} (isQuote : quote = '\x22' ∨ quote = '\x60') (absent : quote ∉ text) :
      lexeme quote (text ++ [quote] ++ later) =
        (enclosedKind .quoted (text ++ [quote]), (text ++ [quote]).length) := by
    have other : quote ∉ later.head? := by
      intro head
      have apart := delimited quote head
      rcases isQuote with rfl | rfl <;> exact absurd apart (by decide)
    refine lexeme_enclosed other (lexeme_double isQuote) ?_
    rw [closing?_of_not_mem absent, List.length_append, List.length_singleton]
  cases quotes with
  | double => exact closed (.inl rfl) inside
  | backticks => exact closed (.inr rfl) inside
  | brackets =>
      have absent : ']' ∉ text := inside
      have found : (text ++ [']']).takeWhile (· != ']') = text :=
        (takeWhile_append_of_ends (bne_of_not_mem absent) (by simp)).1
      refine lexeme_bracketed (by simp [closing]) ?_ later
      rw [closing, found, List.length_append, List.length_singleton]

namespace Identifier

variable (identifier : Identifier)

/-- The kind of token that an identifier is as it is written. One in quotes is none of the
database if it holds a null character. -/
def tokenKind : TokenKind :=
  match identifier.style with
  | .bare _ _ _ => .word
  | .quoted quotes _ => enclosedKind .quoted (identifier.name ++ [quotes.closing])

/-- The lexeme of an identifier. -/
def lexeme : Lexeme :=
  (identifier.tokenKind, String.ofList identifier.piece.written)

/-- An identifier is one token, whether it is bare or quoted. -/
theorem composed : Composed identifier.piece.written [identifier.lexeme] := by
  rw [lexeme, tokenKind, piece]
  cases identifier.style with
  | bare nonempty word noDigit =>
      refine composed_word_of_isAsciiWord nonempty (List.all_eq_true.1 word) fun c head => ?_
      have start : (some c).all (fun c => !c.isDigit) = true := Option.mem_def.1 head ▸ noDigit
      simpa using start
  | quoted quotes inside =>
      exact composed_of_lexeme quotes.opensToken_opening fun later delimited =>
        quotes.lexeme_opening inside delimited

/-- An identifier is its name to the database, unless it is a reserved word of it. -/
theorem name?_lexeme : identifier.lexeme.name? = none ∨
    identifier.lexeme.name? = some identifier.string := by
  rw [lexeme, tokenKind, piece]
  cases identifier.style with
  | bare nonempty word noDigit =>
      rw [Lexeme.name?, Token.name?]
      dsimp only
      split
      · exact .inl rfl
      · exact .inr rfl
  | quoted quotes inside =>
      dsimp only
      rw [enclosedKind]
      split
      · exact .inl rfl
      · refine .inr (name?_of_quoted ?_ inside)
        cases quotes
        · exact .inr rfl
        · exact .inr rfl
        · exact .inl rfl

end Identifier

/-- The lexeme of a number without a sign. -/
def Number.lexeme (number : Number) : Lexeme :=
  (.number, String.ofList number.unsigned)

/-- A number without a sign. -/
def Number.IsPlain (number : Number) : Prop :=
  number.sign = []

/-- A number without a sign is one token. -/
theorem Number.composed {number : Number} (plain : number.IsPlain) :
    Composed number.piece.written [number.lexeme] := by
  have written : number.piece.written = number.sign ++ number.unsigned := rfl
  rw [plain, List.nil_append] at written
  obtain ⟨first, rest, shape⟩ := List.exists_cons_of_ne_nil number.nonempty
  have spelled : number.unsigned =
      first :: (rest ++ if number.fraction = [] then [] else '.' :: number.fraction) := by
    rw [unsigned, shape, List.cons_append]
  have digit : first.isDigit = true :=
    List.all_eq_true.1 number.digits first (by simp [shape])
  have unmarked : first ≠ '\uFEFF' := by
    rintro rfl
    exact absurd digit (by decide)
  rw [written, lexeme, spelled]
  refine composed_of_lexeme (opensToken_of_toNat (toNat_of_isDigit digit).1 unmarked)
    fun later delimited => ?_
  have whole := numberLexeme_decimal number.digits delimited
  rw [shape, List.cons_append, List.cons_append] at whole
  rw [lexeme_digit digit, whole, List.length_cons, Nat.add_sub_cancel]

end Words

section Lists

variable {α : Type} (itemPiece : α -> Piece) (itemLexemes : α -> List Lexeme)

/-- An item with spaces and line ends around it. -/
def Padded.IsPlain (padded : Padded α) : Prop :=
  padded.before.IsPlain ∧ padded.after.IsPlain

/-- Plain layout around an item adds no lexeme. -/
theorem Padded.composed {padded : Padded α} (plain : padded.IsPlain)
    (item : Composed (itemPiece padded.item).written (itemLexemes padded.item)) :
    Composed (padded.piece itemPiece).written (itemLexemes padded.item) :=
  plain.1.composed (plain.2.behind item)

/-- An identifier with plain layout around it is still one token. -/
theorem Padded.composed_identifier {padded : Padded Identifier} (plain : padded.IsPlain) :
    Composed (padded.piece Identifier.piece).written [padded.item.lexeme] :=
  Padded.composed Identifier.piece (fun identifier => [identifier.lexeme]) plain
    padded.item.composed

/-- Items in parentheses, with spaces and line ends around them. -/
def Listed.IsPlain (listed : Listed α) : Prop :=
  ∀ part ∈ listed.parts, part.IsPlain

/-- Lexemes in parentheses. -/
def enclosedLexemes (lexemes : List Lexeme) : List Lexeme :=
  (.symbol, "(") :: lexemes ++ [(.symbol, ")")]

/-- Parentheses around a composed text are two lexemes more. -/
theorem composed_enclosed {inner : Piece} {lexemes : List Lexeme}
    (composed : Composed inner.written lexemes) :
    Composed inner.enclosed.written (enclosedLexemes lexemes) :=
  composed.parentheses

/-- A closing parenthesis is a token whatever follows it. -/
theorem composed_enclosed_append {inner : Piece} {later : List Char} {lexemes others : List Lexeme}
    (composed : Composed inner.written lexemes) (behind : Composed later others) :
    Composed (inner.enclosed.written ++ later) (enclosedLexemes lexemes ++ others) := by
  have closing : Composed (')' :: later) ((.symbol, ")") :: others) := .mark rfl (by decide) behind
  have opening : Composed ('(' :: (inner.written ++ ')' :: later))
      ((.symbol, "(") :: (lexemes ++ (.symbol, ")") :: others)) :=
    .mark rfl (by decide) (composed.append (fun c head => by cases head; decide) closing)
  have written : inner.enclosed.written = '(' :: inner.written ++ [')'] := rfl
  rw [written, enclosedLexemes]
  simpa using opening

/-- Composed items with commas between them have the commas as lexemes. -/
theorem composed_parts {parts : List (Padded α)} (plain : ∀ part ∈ parts, part.IsPlain)
    (items : ∀ part ∈ parts, Composed (itemPiece part.item).written (itemLexemes part.item)) :
    Composed (Piece.listed (parts.map (Padded.piece itemPiece))).written
      (commaSeparated (parts.map fun part => itemLexemes part.item)) := by
  induction parts with
  | nil => exact .nil
  | cons part parts inductionHypothesis =>
      obtain ⟨plainHere, plainLater⟩ := List.forall_mem_cons.1 plain
      obtain ⟨here, later⟩ := List.forall_mem_cons.1 items
      have first := Padded.composed itemPiece itemLexemes plainHere here
      cases parts with
      | nil => simpa [Piece.listed, commaSeparated] using first
      | cons next parts =>
          have others : Composed (',' :: _) ((.symbol, ",") :: _) :=
            .mark rfl (by decide) (inductionHypothesis plainLater later)
          have whole := first.append (fun c head => by cases head; decide) others
          simpa [Piece.listed, commaSeparated] using whole

/-- A list in parentheses has the lexemes of its items, the commas and the parentheses. -/
theorem Listed.composed {listed : Listed α} (plain : listed.IsPlain)
    (items : ∀ part ∈ listed.parts,
      Composed (itemPiece part.item).written (itemLexemes part.item)) :
    Composed (listed.piece itemPiece).written
      (enclosedLexemes (commaSeparated (listed.items.map itemLexemes))) := by
  have parts := composed_enclosed (composed_parts itemPiece itemLexemes plain items)
  rwa [← Function.comp_def, ← List.map_map] at parts

end Lists

section Tables

variable {later : List Char} {others : List Lexeme}

/-- A name without points. -/
def QualifiedName.IsPlain : QualifiedName -> Prop
  | last _ => True
  | part _ _ _ _ => False

/-- A name without a qualifier is the token of its identifier. -/
theorem QualifiedName.composed {name : QualifiedName} (plain : name.IsPlain) :
    Composed name.piece.written [name.identifier.lexeme] := by
  cases name with
  | last identifier => exact identifier.composed
  | part qualifier before after others => cases plain

/-- The lexemes of a type. -/
def DeclaredType.lexemes (type : DeclaredType) : List Lexeme :=
  (.word, String.ofList type.word) :: type.parameters.elim [] fun parameters =>
    enclosedLexemes (commaSeparated (parameters.2.items.map fun number => [number.lexeme]))

/-- A type whose parameters have no signs, with spaces and line ends around them. -/
def DeclaredType.IsPlain (type : DeclaredType) : Prop :=
  ∀ parameters ∈ type.parameters, parameters.1.IsPlain ∧ parameters.2.IsPlain ∧
    ∀ part ∈ parameters.2.parts, part.item.IsPlain

/-- A declared type is its words and the list of its parameters, if it has one. -/
theorem DeclaredType.composed {type : DeclaredType} (plain : type.IsPlain)
    (delimited : Delimited later) (behind : Composed later others) :
    Composed (type.piece.written ++ later) (type.lexemes ++ others) := by
  have word : Composed type.word [(.word, String.ofList type.word)] := by
    refine composed_word_of_isAsciiWord type.nonempty type.wordChars fun c head => ?_
    have letter := List.all_eq_true.1 type.letters c (List.mem_of_head? head)
    by_contra digit
    have low := (toNat_of_isDigit (Bool.of_not_eq_false digit)).2
    have high := toNat_of_startsWord (by simp [startsWord, letter] : startsWord c = true)
    omega
  rw [piece, lexemes]
  cases shape : type.parameters with
  | none => simpa using word.append delimited behind
  | some parameters =>
      obtain ⟨gap, numbers⟩ := parameters
      obtain ⟨gapPlain, numbersPlain, unsigned⟩ := plain (gap, numbers) shape
      have parts := composed_parts Number.piece (fun number => [number.lexeme]) numbersPlain
        fun part member => Number.composed (unsigned part member)
      have whole := gapPlain.between (delimited_enclosed_append _ later) word
        (composed_enclosed_append parts behind)
      simpa [Listed.piece, Listed.items, Function.comp_def] using whole

/-- The lexemes of a reference. -/
def Reference.lexemes (reference : Reference) : List Lexeme :=
  [reference.word.lexeme, reference.table.identifier.lexeme] ++
    enclosedLexemes [reference.column.item.lexeme]

/-- A reference without points, with spaces and line ends between its parts. -/
def Reference.IsPlain (reference : Reference) : Prop :=
  reference.space.IsPlain ∧ reference.table.IsPlain ∧ reference.gap.IsPlain ∧
    reference.column.IsPlain

/-- A reference is the keyword with the table and the column that it names. -/
theorem Reference.composed {reference : Reference} (plain : reference.IsPlain)
    (behind : Composed later others) :
    Composed (reference.piece.written ++ later) (reference.lexemes ++ others) := by
  obtain ⟨space, table, gap, column⟩ := plain
  have target := composed_enclosed_append (Padded.composed_identifier column) behind
  have named := Layout.IsPlain.between gap (delimited_enclosed_append _ later)
    (QualifiedName.composed table) target
  have whole := Spacing.IsPlain.between space reference.word.composed named
  simpa [Reference.piece, Reference.lexemes] using whole

/-- The lexemes of a clause. -/
def Clause.lexemes : Clause -> List Lexeme
  | primaryKey words => words.lexemes
  | unique word => [word.lexeme]
  | notNull words => words.lexemes
  | references reference => reference.lexemes

/-- A clause with spaces and line ends between its parts. -/
def Clause.IsPlain : Clause -> Prop
  | primaryKey words => words.IsPlain
  | unique _ => True
  | notNull words => words.IsPlain
  | references reference => reference.IsPlain

/-- Each clause of a column has its own lexemes; a clause that ends in a word must have
something behind it that ends the word. -/
theorem Clause.composed {clause : Clause} (plain : clause.IsPlain)
    (delimited : clause.endsInWord = true -> Delimited later) (behind : Composed later others) :
    Composed (clause.piece.written ++ later) (clause.lexemes ++ others) := by
  cases clause with
  | primaryKey words => exact (Pair.composed plain).append (delimited rfl) behind
  | unique word => exact word.composed.append (delimited rfl) behind
  | notNull words => exact (Pair.composed plain).append (delimited rfl) behind
  | references reference => exact Reference.composed plain behind

/-- The lexemes of the clauses of a column. -/
def Clauses.lexemes (clauses : Clauses) : List Lexeme :=
  clauses.flatMap fun part => part.2.lexemes

/-- Clauses with spaces and line ends between them, of which one at most is a reference. -/
def Clauses.IsPlain (clauses : Clauses) : Prop :=
  (∀ part ∈ clauses, part.1.IsPlain ∧ part.2.IsPlain) ∧
    (clauses.filterMap fun part => part.2.reference?).length ≤ 1

/-- Clauses one after the other have the lexemes of each, if words are kept apart. -/
theorem Clauses.composed {clauses : Clauses} {afterWord : Bool}
    (plain : ∀ part ∈ clauses, part.1.IsPlain ∧ part.2.IsPlain) (apart : clauses.Apart afterWord) :
    Composed clauses.piece.written clauses.lexemes ∧
      (afterWord = true -> Delimited clauses.piece.written) := by
  induction clauses generalizing afterWord with
  | nil => exact ⟨.nil, fun _ c head => by cases head⟩
  | cons part clauses inductionHypothesis =>
      obtain ⟨gap, clause⟩ := part
      obtain ⟨here, later⟩ := List.forall_mem_cons.1 plain
      obtain ⟨nonempty, apartLater⟩ := apart
      obtain ⟨behind, delimited⟩ := inductionHypothesis later apartLater
      have written : (Clauses.piece ((gap, clause) :: clauses)).written =
          gap.piece.written ++ (clause.piece.written ++ (Clauses.piece clauses).written) :=
        List.append_assoc ..
      rw [written]
      refine ⟨here.1.composed (Clause.composed here.2 delimited behind), fun after => ?_⟩
      obtain ⟨filler, layout, rfl⟩ := List.exists_cons_of_ne_nil (nonempty after)
      have space : Spacing.IsPlain ⟨filler, layout⟩ := here.1
      exact space.delimited _

/-- The lexemes of a column. -/
def Column.lexemes (column : Column) : List Lexeme :=
  column.name.lexeme :: (column.type.lexemes ++ column.clauses.lexemes)

/-- A column with spaces and line ends between its parts. -/
def Column.IsPlain (column : Column) : Prop :=
  column.space.IsPlain ∧ column.type.IsPlain ∧ column.clauses.IsPlain

/-- A column is its name, its type and its clauses. -/
theorem Column.composed {column : Column} (plain : column.IsPlain) :
    Composed column.piece.written column.lexemes := by
  obtain ⟨space, type, clauses, -⟩ := plain
  obtain ⟨behind, delimited⟩ := Clauses.composed clauses column.apart
  exact Spacing.IsPlain.between space column.name.composed
    (DeclaredType.composed type (delimited rfl) behind)

/-- The lexemes of a foreign key. -/
def ForeignKey.lexemes (foreign : ForeignKey) : List Lexeme :=
  foreign.words.lexemes ++
    (enclosedLexemes [foreign.column.item.lexeme] ++ foreign.reference.lexemes)

/-- A foreign key with spaces and line ends between its parts. -/
def ForeignKey.IsPlain (foreign : ForeignKey) : Prop :=
  foreign.words.IsPlain ∧ foreign.gap.IsPlain ∧ foreign.column.IsPlain ∧ foreign.space.IsPlain ∧
    foreign.reference.IsPlain

/-- A foreign key is its two keywords, the column in parentheses and the reference. -/
theorem ForeignKey.composed {foreign : ForeignKey} (plain : foreign.IsPlain) :
    Composed foreign.piece.written foreign.lexemes := by
  obtain ⟨words, gap, column, space, reference⟩ := plain
  have target := Reference.composed reference .nil
  rw [List.append_nil, List.append_nil] at target
  have list := composed_enclosed_append (Padded.composed_identifier column)
    (Layout.IsPlain.composed space target)
  exact Layout.IsPlain.between gap (delimited_enclosed_append _ _) (Pair.composed words) list

/-- The lexemes of the words that open a key. -/
def KeyOpening.lexemes : KeyOpening -> List Lexeme
  | primary words => words.lexemes
  | unique word => [word.lexeme]

/-- Words that open a key with spaces and line ends between them. -/
def KeyOpening.IsPlain : KeyOpening -> Prop
  | primary words => words.IsPlain
  | unique _ => True

/-- The lexemes of a key. -/
def Key.lexemes (key : Key) : List Lexeme :=
  key.opening.lexemes ++
    enclosedLexemes (commaSeparated (key.columns.items.map fun column => [column.lexeme]))

/-- A key with spaces and line ends between its parts. -/
def Key.IsPlain (key : Key) : Prop :=
  key.opening.IsPlain ∧ key.gap.IsPlain ∧ key.columns.IsPlain

/-- A key of the table is its keywords and the list of its columns. -/
theorem Key.composed {key : Key} (plain : key.IsPlain) :
    Composed key.piece.written key.lexemes := by
  obtain ⟨opening, gap, columns⟩ := plain
  have words : Composed key.opening.piece.written key.opening.lexemes := by
    cases shape : key.opening with
    | primary words => exact Pair.composed (by rwa [shape] at opening)
    | unique word => exact word.composed
  have list := Listed.composed Identifier.piece (fun identifier => [identifier.lexeme]) columns
    fun part _ => part.item.composed
  exact Layout.IsPlain.between gap (delimited_enclosed _) words list

/-- The lexemes of a definition. -/
def Item.lexemes : Item -> List Lexeme
  | column declared => declared.lexemes
  | foreignKey foreign => foreign.lexemes
  | key stated => stated.lexemes

/-- A definition with spaces and line ends between its parts. -/
def Item.IsPlain : Item -> Prop
  | column declared => declared.IsPlain
  | foreignKey foreign => foreign.IsPlain
  | key stated => stated.IsPlain

/-- Every item of a body has its own lexemes. -/
theorem Item.composed {item : Item} (plain : item.IsPlain) :
    Composed item.piece.written item.lexemes := by
  cases item with
  | column declared => exact Column.composed plain
  | foreignKey foreign => exact ForeignKey.composed plain
  | key stated => exact Key.composed plain

/-- The lexemes between the parentheses of a table. -/
def Content.lexemes (content : Content) : List Lexeme :=
  enclosedLexemes (commaSeparated (content.definitions.map Item.lexemes))

/-- Definitions with spaces and line ends around them and between their parts. -/
def Content.IsPlain : Content -> Prop
  | blank layout => layout.IsPlain
  | items listed => listed.IsPlain ∧ ∀ part ∈ listed.parts, part.item.IsPlain

/-- A body has the lexemes of its items with commas between them. -/
theorem Content.composed {content : Content} (plain : content.IsPlain) :
    Composed content.piece.written content.lexemes := by
  cases content with
  | blank layout =>
      have nothing := Layout.IsPlain.composed plain .nil
      rw [List.append_nil] at nothing
      exact composed_enclosed nothing
  | items listed =>
      exact Listed.composed Item.piece Item.lexemes plain.1 fun part member =>
        Item.composed (plain.2 part member)

/-- The lexemes of a condition. -/
def Condition.lexemes (condition : Condition) : List Lexeme :=
  condition.word.lexeme :: condition.others.lexemes

/-- A condition with spaces and line ends between its words. -/
def Condition.IsPlain (condition : Condition) : Prop :=
  condition.space.IsPlain ∧ condition.others.IsPlain ∧ condition.after.IsPlain

namespace Table

/-- The lexemes of a table statement. -/
def lexemes (table : Table) : List Lexeme :=
  table.words.lexemes ++ ((table.condition.elim [] Condition.lexemes) ++
    (table.name.identifier.lexeme :: table.content.lexemes))

/-- A table statement that is laid out with spaces and line ends alone, without comments, with
names without points, parameters without signs and one reference in each column at most. -/
structure IsPlain (table : Table) : Prop where
  words : table.words.IsPlain
  space : table.space.IsPlain
  condition : ∀ condition ∈ table.condition, condition.IsPlain
  name : table.name.IsPlain
  gap : table.gap.IsPlain
  content : table.content.IsPlain

/-- The text of a table statement. -/
def text (table : Table) : String :=
  String.ofList table.piece.written

/-- A plain table statement falls into the lexemes that it is written from. -/
theorem IsPlain.composed {table : Table} (plain : table.IsPlain) :
    Composed table.piece.written table.lexemes := by
  have content := Content.composed plain.content
  have delimited : Delimited table.content.piece.written := by
    cases table.content <;> exact delimited_enclosed _
  have named := plain.gap.between delimited (QualifiedName.composed plain.name) content
  cases shape : table.condition with
  | none =>
      have whole := plain.space.between (Pair.composed plain.words) named
      simpa [piece, head, lexemes, shape] using whole
  | some condition =>
      obtain ⟨space, others, after⟩ := plain.condition condition shape
      have conditional := Spacing.IsPlain.between space condition.word.composed
        (Spacing.IsPlain.between after (Pair.composed others) named)
      have whole := plain.space.between (Pair.composed plain.words) conditional
      simpa [piece, head, lexemes, shape, Condition.piece, Condition.lexemes] using whole

/-- The tokens of a plain table are the lexemes of its parts. -/
theorem IsPlain.lexed_tokens {table : Table} (plain : table.IsPlain) :
    (tokens table.text).map Token.lexed = table.lexemes := by
  rw [tokens, text, String.toList_ofList]
  exact plain.composed.lexes.tokensFrom 0

end Table

end Tables

end Ddl.Grammar

end SchemaLoom
