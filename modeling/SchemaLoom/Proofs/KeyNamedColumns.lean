import SchemaLoom.Proofs.Columns
import SchemaLoom.Proofs.Marks
import SchemaLoom.Proofs.Rereading

/-!
# Columns named like a key

A column may be named `Key`, `Index` or `Unique` where parameters of its type tell it from
a clause about the table: numbers and literals are no list of columns. What is taken for
the list reaches to the last closing parenthesis of the definition, so another one among
the clauses of the column usually makes it a clause after all. The column is kept exactly
if there is none, or if what the list then ends with passes for a literal.
-/

namespace SchemaLoom.Text

/-- What stands behind a text that does not end with a blank is trimmed on its own. -/
theorem trimEnd_append {text : List Char} (solid : EndsSolid text) (later : List Char) :
    trimEnd (text ++ later) = text ++ trimEnd later := by
  have kept : trimStart text.reverse = text.reverse := trimStart_of_startsSolid solid
  rw [trimEnd, trimEnd, List.reverse_append]
  change (trimStart (later.reverse ++ text.reverse)).reverse =
    text ++ (trimStart later.reverse).reverse
  by_cases blank : isBlankText later.reverse
  · rw [trimStart_append blank, kept, trimStart_eq_nil_iff.2 blank, List.reverse_reverse,
      List.reverse_nil, List.append_nil]
  · rw [trimStart_append_of_not_blank blank, List.reverse_append, List.reverse_reverse]

end SchemaLoom.Text

namespace SchemaLoom.Ddl

open SchemaLoom.Text

/-- The last occurrence of a character in a joined text is in the later part if it stands
there. -/
theorem beforeLast?_of_append (last : Char) (text later : List Char) :
    beforeLast? last (text ++ later) =
      match beforeLast? last later with
      | some before => some (text ++ before)
      | none => beforeLast? last text := by
  induction text with
  | nil => rw [List.nil_append]; cases beforeLast? last later <;> rfl
  | cons c text inductionHypothesis =>
      rw [List.cons_append, beforeLast?, inductionHypothesis]
      cases beforeLast? last later with
      | some before => rfl
      | none => rw [beforeLast?]

/-- There is nothing before the last occurrence of a character exactly if it does not occur. -/
theorem beforeLast?_eq_none_iff {last : Char} {text : List Char} :
    beforeLast? last text = none ↔ last ∉ text := by
  induction text with
  | nil => simp [beforeLast?]
  | cons c text inductionHypothesis =>
      rw [beforeLast?, List.mem_cons, not_or, ← inductionHypothesis]
      cases beforeLast? last text with
      | some before => simp
      | none =>
          by_cases same : c = last
          · simp [same]
          · simp [same, Ne.symm same]

/-- What stands before the last occurrence is followed by it and by nothing like it. -/
theorem beforeLast?_eq_some_iff {last : Char} {text before : List Char} :
    beforeLast? last text = some before ↔
      ∃ after, text = before ++ last :: after ∧ last ∉ after := by
  constructor
  · intro found
    induction text generalizing before with
    | nil => cases found
    | cons c text inductionHypothesis =>
        rw [beforeLast?] at found
        split at found
        · rename_i inner later
          obtain rfl := Option.some.inj found
          obtain ⟨after, rfl, absent⟩ := inductionHypothesis later
          exact ⟨after, rfl, absent⟩
        · rename_i absent
          split at found
          · rename_i same
            obtain rfl := Option.some.inj found
            exact ⟨text, by rw [beq_iff_eq.1 same]; rfl, beforeLast?_eq_none_iff.1 absent⟩
          · cases found
  · rintro ⟨after, rfl, absent⟩
    rw [beforeLast?_of_append, beforeLast?, beforeLast?_eq_none_iff.2 absent]
    simp

/-- What is put behind separated pieces goes into the last one. -/
theorem separated_concat (separator : Char) (pieces : List (List Char)) (piece later : List Char) :
    separated separator (pieces ++ [piece]) ++ later =
      separated separator (pieces ++ [piece ++ later]) := by
  induction pieces with
  | nil => rfl
  | cons first pieces inductionHypothesis =>
      cases pieces with
      | nil => simp [separated]
      | cons next pieces =>
          simp only [List.cons_append, separated_cons_cons, List.append_assoc] at inductionHypothesis ⊢
          rw [inductionHypothesis]

/-- A text in single quotes. A quote in it is doubled, so that it ends one quoted run and
begins the next. -/
inductive QuotedText : List Char -> Prop where
  | single {content : List Char} (inside : '\x27' ∉ content) :
      QuotedText ('\x27' :: content ++ ['\x27'])
  | doubled {content rest : List Char} (inside : '\x27' ∉ content) (others : QuotedText rest) :
      QuotedText ('\x27' :: content ++ '\x27' :: rest)

namespace QuotedText

variable {text : List Char}

/-- No comma within quotes divides a text. -/
theorem undivided (quoted : QuotedText text) : Undivided text := by
  induction quoted with
  | single inside => exact depthAcross?_quoted rfl inside rfl (by decide) (by decide)
  | @doubled content rest inside others inductionHypothesis =>
      have run : Undivided ('\x27' :: content ++ ['\x27']) :=
        depthAcross?_quoted rfl inside rfl (by decide) (by decide)
      simpa using run.append inductionHypothesis

/-- A text in quotes begins with one quote and ends with another. -/
theorem ends (quoted : QuotedText text) :
    2 ≤ text.length ∧ text.head? = some '\x27' ∧ text.getLast? = some '\x27' := by
  induction quoted with
  | single inside => exact ⟨by simp, rfl, List.getLast?_concat⟩
  | @doubled content rest inside others inductionHypothesis =>
      obtain ⟨long, -, last⟩ := inductionHypothesis
      refine ⟨by simp; omega, rfl, ?_⟩
      rw [List.append_cons, List.getLast?_append, last]
      rfl

end QuotedText

/-- A parameter as types have them: a number without a sign, or a text in quotes. -/
inductive LiteralText : List Char -> Prop where
  | number {digits : List Char} (nonempty : digits ≠ [])
      (chars : ∀ c ∈ digits, (c.isDigit || c == '.') = true) : LiteralText digits
  | quoted {text : List Char} (quoted : QuotedText text) : LiteralText text

namespace LiteralText

variable {text : List Char}

/-- Numbers have no blanks. -/
theorem isBlank_of_isNumeric {c : Char} (numeric : (c.isDigit || c == '.') = true) :
    isBlank c = false := by
  rcases Bool.or_eq_true_iff.1 numeric with digit | point
  · exact isBlank_of_isAsciiWord (by simp [isAsciiWord, Char.isAlphanum, digit])
  · rw [beq_iff_eq.1 point]
    decide

/-- A literal neither begins nor ends with a blank. -/
theorem solid (literal : LiteralText text) : Solid text := by
  cases literal with
  | number nonempty chars =>
      exact .of_forall nonempty fun c member => isBlank_of_isNumeric (chars c member)
  | quoted quoted =>
      obtain ⟨-, first, last⟩ := quoted.ends
      refine ⟨?_, fun c member => ?_, fun c member => ?_⟩
      · rintro rfl
        cases first
      · rw [first] at member
        cases member
        decide
      · rw [List.head?_reverse, last] at member
        cases member
        decide

/-- No literal falls apart at a comma. -/
theorem undivided (literal : LiteralText text) : Undivided text := by
  cases literal with
  | number _ chars =>
      have marks : ['(', ')', ',', ';', '\x27', '\x22', '\x60', '['].all
          fun d => !(d.isDigit || d == '.') := by
        decide
      have other : ∀ c ∈ text, c ∉ ['(', ')', ',', ';', '\x27', '\x22', '\x60', '['] := by
        intro c member mark
        have numeric := chars c member
        have here := List.all_eq_true.1 marks c mark
        simp [numeric] at here
      simp only [List.mem_cons, List.not_mem_nil, or_false, not_or] at other
      refine depthAcross?_ordinary (fun c member => quoteClose?_eq_none (by simp [other c member]))
        (fun member => (other _ member).1 rfl) (fun member => (other _ member).2.1 rfl) ?_
      intro c member
      simp [stopsDefinition, other c member]
  | quoted quoted => exact quoted.undivided

/-- Literals of both forms pass for literals. -/
theorem isLiteral_eq (literal : LiteralText text) : isLiteral text = true := by
  cases literal with
  | number _ chars =>
      refine Bool.or_eq_true_iff.2 (.inr (List.all_eq_true.2 fun c member => ?_))
      simp [chars c member]
  | quoted quoted => simp [isLiteral, quoted.ends]

/-- Whatever is added behind a literal and ends with a mark, it passes for a literal only
as a text in quotes. -/
theorem isLiteral_append (literal : LiteralText text) {later : List Char} (mark : ')' ∈ later) :
    isLiteral (text ++ later) = true ↔
      text.head? = some '\x27' ∧ later.getLast? = some '\x27' := by
  have noNumber : (text ++ later).all (fun c => c.isDigit || c == '.' || c == '-' || c == '+') =
      false := by
    refine List.all_eq_false.2 ⟨')', List.mem_append_right text mark, by decide⟩
  obtain ⟨c, text, rfl⟩ := List.exists_cons_of_ne_nil literal.solid.nonempty
  obtain ⟨d, inner, rfl⟩ := List.exists_cons_of_ne_nil (List.ne_nil_of_mem mark)
  have last : (c :: text ++ d :: inner).getLast? = (d :: inner).getLast? := by
    rw [List.getLast?_append, List.getLast?_cons]
    rfl
  have long : 2 ≤ (c :: text ++ d :: inner).length := by simp; omega
  rw [isLiteral, noNumber, last, Bool.or_false, decide_eq_true long, Bool.true_and]
  simp

end LiteralText

/-- A parameter of a type with the blanks around it. -/
structure Parameter where
  before : List Char
  blankBefore : isBlankText before
  text : List Char
  literal : LiteralText text
  after : List Char
  blankAfter : isBlankText after

namespace Parameter

variable (parameter : Parameter)

/-- The text of a parameter with the blanks around it. -/
def whole : List Char :=
  parameter.before ++ (parameter.text ++ parameter.after)

/-- Trimmed, a parameter is its text. -/
theorem trim_whole : trim parameter.whole = parameter.text :=
  trim_around parameter.blankBefore parameter.literal.solid parameter.blankAfter

/-- A parameter with its blanks does not fall apart at a comma. -/
theorem undivided : Undivided parameter.whole :=
  (Undivided.of_blanks parameter.blankBefore).append
    (parameter.literal.undivided.append (.of_blanks parameter.blankAfter))

end Parameter

/-- A column named like a key, with the parameters of its type and its clauses. -/
structure KeyNamedColumn where
  name : List Char
  keyNamed : ∃ word ∈ ["KEY", "INDEX", "UNIQUE"], asciiUpper name = word.toList
  space : List Char
  blankSpace : isBlankText space
  apart : space ≠ []
  type : List Char
  nonempty : type ≠ []
  typeChars : ∀ c ∈ type, isNameChar c
  quoteFree : QuoteFree type
  gap : List Char
  blankGap : isBlankText gap
  parameters : List Parameter
  last : Parameter
  clauses : List Char
  ends : EndsType clauses
  ending : EndsSolid clauses
  undivided : Undivided clauses

namespace KeyNamedColumn

variable (column : KeyNamedColumn)

/-- The text between the parentheses behind the type. -/
def inner : List Char :=
  separated ',' (column.parameters.map Parameter.whole ++ [column.last.whole])

/-- The type as it is kept. -/
def spelling : List Char :=
  column.type ++ ('(' :: column.inner ++ [')'])

/-- The type as it is written. -/
def typeText : List Char :=
  column.type ++ (column.gap ++ ('(' :: column.inner ++ [')']))

/-- The text of the definition. -/
def text : List Char :=
  column.name ++ (column.space ++ (column.typeText ++ column.clauses))

/-- Whether the column is kept. Its clauses must have no closing parenthesis, unless the
last parameter is in quotes and a quote stands before the last closing parenthesis. -/
def Kept : Prop :=
  ∀ before after, column.clauses = before ++ ')' :: after → ')' ∉ after →
    column.last.text.head? = some '\x27' ∧ (trimEnd before).getLast? = some '\x27'

/-- A column is kept exactly if, wherever its clauses close a parenthesis, the last
parameter starts with a quote and the clauses have one before their last parenthesis. -/
theorem kept_iff : column.Kept ↔ ∀ before, beforeLast? ')' column.clauses = some before →
    column.last.text.head? = some '\x27' ∧ (trimEnd before).getLast? = some '\x27' := by
  simp only [Kept, beforeLast?_eq_some_iff, forall_exists_index, and_imp]

instance : Decidable column.Kept :=
  decidable_of_iff ((beforeLast? ')' column.clauses).all fun before =>
      column.last.text.head? = some '\x27' ∧ (trimEnd before).getLast? = some '\x27') (by
    rw [kept_iff]
    cases beforeLast? ')' column.clauses <;> simp)

/-- No parameter of the type falls apart at a comma. -/
theorem undivided_pieces :
    ∀ piece ∈ column.parameters.map Parameter.whole ++ [column.last.whole], Undivided piece := by
  intro piece member
  rcases List.mem_append.1 member with others | here
  · obtain ⟨parameter, -, rfl⟩ := List.mem_map.1 others
    exact parameter.undivided
  · obtain rfl := List.mem_singleton.1 here
    exact column.last.undivided

/-- The name of the column is a word. -/
theorem nameChars : column.name ≠ [] ∧ ∀ c ∈ column.name, isAsciiWord c := by
  obtain ⟨word, member, cased⟩ := column.keyNamed
  have words : ∀ word ∈ ["KEY", "INDEX", "UNIQUE"], IsWordKeyword word.toList := by decide
  exact isAsciiWord_of_cased (words word member) cased

/-- The name is written bare. -/
theorem spells : Spells column.name column.name :=
  .of_word column.nameChars.1 column.nameChars.2

/-- The name of the type is written bare. -/
theorem spells_type : Spells column.type column.type :=
  .bare column.nonempty column.typeChars column.quoteFree

/-- The name of the type opens no parenthesis. -/
theorem bare : '(' ∉ column.type :=
  fun member => absurd (column.typeChars '(' member) (by decide)

/-- The type with its parameters is read as its spelling. -/
theorem typed : TypeSpelling column.typeText column.spelling := by
  have undivided : Undivided ('(' :: column.inner ++ [')']) :=
    Undivided.separated_enclosed column.undivided_pieces
  have crossed : depthAcross? stopsWord none 1 column.inner = some 1 := by
    refine depthAcross?_separated rfl rfl rfl (by decide) fun piece member => ?_
    exact depthAcross?_deeper 1 (fun depth c stop => by simp [stopsWord] at stop)
      (column.undivided_pieces piece member)
  exact .of_spells column.spells_type column.bare column.blankGap crossed undivided

/-- The first parenthesis of a definition opens the list of parameters. -/
theorem text_eq : column.text =
    column.name ++ (column.space ++ (column.type ++ column.gap)) ++
      '(' :: (column.inner ++ ')' :: column.clauses) := by
  simp [text, typeText]

/-- The definition is not divided by its own commas. -/
theorem undivided_text : Undivided column.text :=
  column.spells.undivided.append ((Undivided.of_blanks column.blankSpace).append
    (column.typed.undivided.append column.undivided))

/-- The definition neither begins nor ends with a blank. -/
theorem solid_text : Solid column.text := by
  have closing : EndsSolid (')' :: column.clauses) :=
    (EndsSolid.singleton (by decide : isBlank ')' = false)).append column.ending
  rw [text_eq, List.append_assoc]
  refine column.spells.solid.append ?_
  rw [← List.append_assoc, List.append_cons, ← List.append_assoc]
  exact closing.append_right (by simp) _

/-- What is taken for the list goes on behind the parameters up to the last closing
parenthesis of the clauses. -/
def reach : List Char :=
  match beforeLast? ')' column.clauses with
  | some before => ')' :: before
  | none => []

/-- In front of the list there are two words, the name and the type. -/
theorem blankWords_eq :
    blankWords (column.name ++ (column.space ++ (column.type ++ column.gap))) =
      [column.name, column.type] := by
  have name : ∀ c ∈ column.name, isBlank c = false :=
    fun c member => isBlank_of_isAsciiWord (column.nameChars.2 c member)
  have type : ∀ c ∈ column.type, isBlank c = false :=
    fun c member => isBlank_of_isNameChar (column.typeChars c member)
  have endsGap : EndsWord column.gap := .of_isBlankText column.blankGap
  have none : blankWords column.gap = [] := by
    have all := blankWords_blanks column.blankGap []
    rwa [List.append_nil] at all
  rw [blankWords_word column.nameChars.1 name (.of_blanks column.blankSpace column.apart _),
    blankWords_blanks column.blankSpace, blankWords_word column.nonempty type endsGap, none]

/-- A name and a type read like the opening of a clause about the table. -/
theorem opensClause_eq : ∃ form ∈ clauseForms,
    opensClause form.1 [column.name, column.type] = true := by
  obtain ⟨word, member, cased⟩ := column.keyNamed
  have forms : ∀ word ∈ ["KEY", "INDEX", "UNIQUE"],
      ∃ form ∈ clauseForms, form.1 = [word.toList] := by
    decide
  obtain ⟨form, isForm, phrase⟩ := forms word member
  refine ⟨form, isForm, ?_⟩
  rw [phrase, opensClause, dropKeyword?_beq column.nameChars.2, cased]
  simp [opensClause]

/-- The last closing parenthesis is that of the clauses if they have one, else that of the list. -/
theorem beforeLast?_eq :
    beforeLast? ')' (column.inner ++ ')' :: column.clauses) =
      some (column.inner ++ column.reach) := by
  rw [beforeLast?_of_append, reach, beforeLast?]
  cases beforeLast? ')' column.clauses <;> rfl

/-- The column is told from a clause by what is taken for the list. -/
theorem tableKey?_isSome :
    (tableKey? column.text).isSome = !isLiteralList (column.inner ++ column.reach) := by
  have absent : '(' ∉ column.name ++ (column.space ++ (column.type ++ column.gap)) := by
    have name : '(' ∉ column.name :=
      fun member => absurd (column.nameChars.2 '(' member) (by decide)
    simp only [List.mem_append, not_or]
    exact ⟨name, Ddl.not_mem_of_isBlankText column.blankSpace, column.bare,
      Ddl.not_mem_of_isBlankText column.blankGap⟩
  have stops : ∀ c ∈ ('(' :: (column.inner ++ ')' :: column.clauses)).head?, (c != '(') = false := by
    rintro c ⟨rfl⟩
    rfl
  have split := takeWhile_append_of_ends (bne_of_not_mem absent) stops
  have opens : (clauseForms.find? fun form =>
      opensClause form.1 [column.name, column.type]).isSome = true :=
    List.find?_isSome.2 column.opensClause_eq
  obtain ⟨⟨phrase, kind⟩, found⟩ := Option.isSome_iff_exists.1 opens
  have noCheck : (asciiUpper column.name == "CHECK".toList) = false := by
    obtain ⟨word, member, cased⟩ := column.keyNamed
    have other : ∀ word ∈ ["KEY", "INDEX", "UNIQUE"], (word.toList == "CHECK".toList) = false := by
      decide
    rw [cased]
    exact other word member
  rw [tableKey?, text_eq, split.1, split.2]
  simp only [column.blankWords_eq, found, List.drop_one, List.tail_cons, column.beforeLast?_eq,
    List.head?_cons, Option.any_some, noCheck]
  cases isLiteralList (column.inner ++ column.reach) <;> cases kind <;> rfl

/-- A closing parenthesis behind the parameters goes into the last piece with all that
follows it. -/
theorem cut_last (uncommented : Uncommented none (column.last.whole ++ column.reach)) :
    cut ',' .plain 0 (column.last.whole ++ column.reach) =
      [column.last.whole ++ column.reach] := by
  have behind : cut ',' .plain 0 column.reach = [column.reach] := by
    have later := uncommented.of_append column.last.undivided
    rw [reach] at later ⊢
    cases found : beforeLast? ')' column.clauses with
    | none => rfl
    | some before =>
        simp only [found] at later ⊢
        obtain ⟨after, clauses, -⟩ := beforeLast?_eq_some_iff.1 found
        have crossed : (depthAcross? (stopsFragment ',') none 0
            (before ++ ')' :: after)).isSome = true := by
          rw [← clauses, column.undivided.fragment]
          rfl
        obtain ⟨ordinary, inside⟩ := later.of_plain_cons
        have pieces : cut ',' .plain 0 before = [before] := cut_of_start crossed inside
        rw [cut_plain_cons ordinary, if_neg (by decide)]
        exact congrArg (consFirst ')') pieces
  have whole : cut ',' (Mode.ofQuote none) 0 (column.last.whole ++ column.reach) =
      column.last.whole.foldr consFirst (cut ',' .plain 0 column.reach) :=
    cut_append column.last.undivided.fragment uncommented
  rw [behind, foldr_consFirst] at whole
  exact whole

/-- What the last piece has behind the last parameter. -/
def trailing : List Char :=
  match beforeLast? ')' column.clauses with
  | some before => column.last.after ++ ')' :: trimEnd before
  | none => []

/-- Trimmed, the last piece of the list begins with the last parameter. -/
theorem trim_last :
    trim (column.last.whole ++ column.reach) = column.last.text ++ column.trailing := by
  rw [reach, trailing]
  cases beforeLast? ')' column.clauses with
  | none => rw [List.append_nil, List.append_nil, column.last.trim_whole]
  | some before =>
      have closing : EndsSolid (column.last.text ++ (column.last.after ++ [')'])) := by
        rw [← List.append_assoc]
        exact (EndsSolid.singleton (by decide)).append_right (by simp) _
      have start : StartsSolid (column.last.text ++ (column.last.after ++ ')' :: before)) :=
        (startsSolid_append column.last.literal.solid.nonempty).2 column.last.literal.solid.first
      have ending : trimEnd (column.last.text ++ (column.last.after ++ [')']) ++ before) =
          column.last.text ++ (column.last.after ++ [')']) ++ trimEnd before :=
        trimEnd_append closing before
      simp only [Parameter.whole, List.append_assoc, trim_blanks_append column.last.blankBefore]
      rw [trim, trimStart_of_startsSolid start]
      simpa using ending

/-- Of the pieces of the list only the last one is in question. -/
theorem isLiteralList_eq (uncommented : Uncommented none (column.inner ++ column.reach)) :
    isLiteralList (column.inner ++ column.reach) =
      isLiteral (column.last.text ++ column.trailing) := by
  have joined : column.inner ++ column.reach =
      separated ',' (column.parameters.map Parameter.whole ++
        [column.last.whole ++ column.reach]) :=
    separated_concat _ _ _ _
  have crossed : ∀ piece ∈ column.parameters.map Parameter.whole,
      depthAcross? (stopsFragment ',') none 0 piece = some 0 := fun piece member =>
    (column.undivided_pieces piece (List.mem_append_left _ member)).fragment
  rw [joined] at uncommented ⊢
  have pieces := cut_separated_concat rfl crossed column.cut_last uncommented
  have trimmed : (column.parameters.map Parameter.whole).map trim =
      column.parameters.map Parameter.text := by
    rw [List.map_map]
    exact List.map_congr_left fun parameter _ => parameter.trim_whole
  have items : fragments ',' (separated ',' (column.parameters.map Parameter.whole ++
      [column.last.whole ++ column.reach])) =
        column.parameters.map Parameter.text ++ [column.last.text ++ column.trailing] := by
    rw [fragments, pieces, List.map_append, trimmed, List.map_singleton, trim_last]
    refine List.filter_eq_self.2 fun item member => ?_
    rcases List.mem_append.1 member with others | here
    · obtain ⟨parameter, -, rfl⟩ := List.mem_map.1 others
      simp [parameter.literal.solid.nonempty]
    · obtain rfl := List.mem_singleton.1 here
      simp [column.last.literal.solid.nonempty]
  have literals : (column.parameters.map Parameter.text).all isLiteral = true := by
    refine List.all_eq_true.2 fun item member => ?_
    obtain ⟨parameter, -, rfl⟩ := List.mem_map.1 member
    exact parameter.literal.isLiteral_eq
  simp [isLiteralList, items, literals]

/-- The last piece passes for a literal exactly if the column is kept. -/
theorem isLiteral_last_iff :
    isLiteral (column.last.text ++ column.trailing) = true ↔ column.Kept := by
  rw [trailing, kept_iff]
  cases beforeLast? ')' column.clauses with
  | none => simp [column.last.literal.isLiteral_eq]
  | some before =>
      have last : (')' :: trimEnd before).getLast? = some '\x27' ↔
          (trimEnd before).getLast? = some '\x27' := by
        cases trimEnd before <;> simp
      simp [column.last.literal.isLiteral_append, last]

/-- The name, the type and the clauses of the column are read as they are. -/
theorem readColumn_text (table : String) :
    readColumn table column.text =
      columnDefinition table (String.ofList column.name) column.spelling
        (trimStart column.clauses) := by
  have ordinary : isClauseKeyword column.spelling = false := Bool.eq_false_iff.2 fun clause =>
    absurd (isAlpha_of_isClauseKeyword clause '(' (by simp [spelling])) (by decide)
  rw [← trim_of_endsSolid column.ending, text]
  exact readColumn_eq table column.spells column.blankSpace column.apart column.typed ordinary
    column.ends.1 column.ends.2

/-- The definition is a clause about the table if it reads as one, else a column. -/
theorem read_eq (table : String) :
    Definition.read table column.text =
      match tableKey? column.text with
      | some clause => .key clause
      | none => readColumn table column.text := by
  have opens {word : String} (keyword : IsWordKeyword word.toList)
      (other : ∀ name ∈ ["KEY", "INDEX", "UNIQUE"], name.toList ≠ word.toList) :
      dropWord? word.toList column.text = none := by
    obtain ⟨name, member, cased⟩ := column.keyNamed
    exact dropWord?_of_not_stands keyword column.nameChars.1
      (Phrase.stands_of_other column.nameChars.2 (cased ▸ other name member))
      (.of_startsInWord (startsInWord_space column.blankSpace column.apart _))
  exact Definition.read_eq (opens (by decide) (by decide)) (opens (by decide) (by decide)) table

/-- What is taken for the list has no comment if the definition has none. -/
theorem uncommented_reach (uncommented : Uncommented none column.text) :
    Uncommented none (column.inner ++ column.reach) := by
  have opening : Undivided (column.name ++ (column.space ++ (column.type ++ column.gap))) :=
    column.spells.undivided.append ((Undivided.of_blanks column.blankSpace).append
      (column.spells_type.undivided.append (.of_blanks column.blankGap)))
  rw [text_eq] at uncommented
  have inside := (uncommented.of_append opening).of_plain_cons.2
  obtain ⟨after, split, -⟩ := beforeLast?_eq_some_iff.1 column.beforeLast?_eq
  rw [split] at inside
  exact inside.of_start

/-- What is taken for the list passes for literals exactly if the column is kept. -/
theorem isLiteralList_iff (uncommented : Uncommented none column.text) :
    isLiteralList (column.inner ++ column.reach) = true ↔ column.Kept := by
  rw [column.isLiteralList_eq (column.uncommented_reach uncommented), column.isLiteral_last_iff]

/-- A column that is kept is read with its name, its whole type and its clauses. -/
theorem read_of_kept (uncommented : Uncommented none column.text) (kept : column.Kept)
    (table : String) :
    Definition.read table column.text =
      columnDefinition table (String.ofList column.name) column.spelling
        (trimStart column.clauses) := by
  have literals := (column.isLiteralList_iff uncommented).2 kept
  have noKey : tableKey? column.text = none := by
    have isSome := column.tableKey?_isSome
    rw [literals] at isSome
    simpa using isSome
  rw [read_eq, noKey, ← readColumn_text]

/-- A column that is not kept is a clause about the table. -/
theorem read_of_not_kept (uncommented : Uncommented none column.text) (lost : ¬column.Kept)
    (table : String) : ∃ clause, Definition.read table column.text = .key clause := by
  have literals : isLiteralList (column.inner ++ column.reach) = false :=
    Bool.eq_false_iff.2 fun list => lost ((column.isLiteralList_iff uncommented).1 list)
  have isSome := column.tableKey?_isSome
  rw [literals] at isSome
  obtain ⟨clause, found⟩ := Option.isSome_iff_exists.1 isSome
  exact ⟨clause, by rw [read_eq, found]⟩

end KeyNamedColumn

end SchemaLoom.Ddl

namespace SchemaLoom

/-- What a column is declared with apart from its constraints. -/
def Attribute.heading (declared : Attribute) : String × ColumnType :=
  (declared.name, declared.columnType)

end SchemaLoom

namespace SchemaLoom.Ddl

open SchemaLoom.Text

/-- Keys of the table leave the names and the types of its columns. -/
theorem map_heading_entityOf (table : String) (items : List Definition) :
    (entityOf table items).attributes.map Attribute.heading =
      (items.filterMap Definition.attribute?).map Attribute.heading := by
  rw [entityOf_eq, List.map_map]
  rfl

/-- The names and types that definitions declare. -/
def headings (items : List Definition) : List (String × ColumnType) :=
  (items.filterMap Definition.attribute?).map Attribute.heading

/-- The column of a definition stands between those before it and those after it. -/
theorem headings_entity (around : Surroundings) (declared : Attribute)
    (reference : Option Relationship) :
    (around.entity [.column declared reference]).attributes.map Attribute.heading =
      headings around.itemsBefore ++ declared.heading :: headings around.itemsAfter := by
  rw [Surroundings.entity, map_heading_entityOf]
  simp [Surroundings.items, headings, List.filterMap_append, Definition.attribute?]

/-- The clauses of a column change neither its name nor its type; they say what it refers to. -/
theorem columnDefinition_heading (table name : String) (type clauses : List Char) :
    ∃ declared, declared.heading = (name, .ofSpelling (String.ofList type)) ∧
      columnDefinition table name type clauses =
        .column declared ((findReference? false clauses).map (relationshipTo table name)) :=
  ⟨_, rfl, rfl⟩

/-- The reference of a column is the first one that begins in its clauses. -/
theorem findReference?_refers {before text after : List Char} {target : List Char × List Char}
    (absent : beginsReference (text ++ after) false before = false)
    (boundary : endsInWord false before = false) (refers : Refers text target)
    (table column : String) :
    (findReference? false (before ++ (text ++ after))).map (relationshipTo table column) =
      some
        { fromTable := table
          fromColumn := column
          toTable := String.ofList target.1
          toColumn := String.ofList target.2 } := by
  obtain ⟨found, read, named⟩ := refers.reference?_eq after
  have here : findReference? false (text ++ after) = some found := by
    obtain ⟨c, text, rfl⟩ := List.exists_cons_of_ne_nil refers.solid.nonempty
    rw [List.cons_append] at read ⊢
    rw [findReference?]
    simp only [Bool.false_eq_true, if_false, read]
  rw [findReference?_of_not_begins absent, boundary, here, Option.map_some, named]

/-- A column named like a key stays a column, with its type in its place and with what it
refers to, exactly if what is taken for a list of columns passes for a list of literals;
otherwise it becomes a clause about the table. -/
theorem Report.ofDocument_keyNamed {around : Surroundings} {column : KeyNamedColumn}
    {document : String} (stripped : stripComments document.toList = around.text column.text) :
    (column.Kept → ∃ declared reference,
      ofDocument document = around.report [.column declared reference] ∧
      (around.entity [.column declared reference]).attributes.map Attribute.heading =
        headings around.itemsBefore ++
          (String.ofList column.name, .ofSpelling (String.ofList column.spelling)) ::
            headings around.itemsAfter ∧
      ∀ before text after target, column.clauses = before ++ (text ++ after) →
        beginsReference (text ++ after) false before = false → endsInWord false before = false →
        Refers text target → reference = some
          { fromTable := around.table
            fromColumn := String.ofList column.name
            toTable := String.ofList target.1
            toColumn := String.ofList target.2 }) ∧
    (¬column.Kept → ∃ clause, ofDocument document = around.report [.key clause]) := by
  have uncommented := around.uncommented_definition column.undivided_text stripped
  rw [ofDocument_surrounded column.solid_text column.undivided_text stripped]
  constructor
  · intro kept
    obtain ⟨declared, headed, defined⟩ := columnDefinition_heading around.table
      (String.ofList column.name) column.spelling (trimStart column.clauses)
    rw [column.read_of_kept uncommented kept, defined]
    refine ⟨declared, _, rfl, by rw [headings_entity, headed], ?_⟩
    intro before text after target clauses absent boundary refers
    rw [findReference?_trimStart, clauses]
    exact findReference?_refers absent boundary refers _ _
  · intro lost
    obtain ⟨clause, read⟩ := column.read_of_not_kept uncommented lost around.table
    exact ⟨clause, by rw [read]⟩

/-- A column `Key` that may be one of two texts and refers to another table. -/
def KeyNamedColumn.choice : KeyNamedColumn where
  name := "Key".toList
  keyNamed := ⟨"KEY", by decide, rfl⟩
  space := [' ']
  blankSpace := isBlankText_space
  apart := space_ne_nil
  type := "ENUM".toList
  nonempty := by simp
  typeChars := List.all_eq_true.1 (by decide)
  quoteFree := by decide
  gap := []
  blankGap := isBlankText_nil
  parameters :=
    [{ before := []
       blankBefore := isBlankText_nil
       text := '\x27' :: "it".toList ++ '\x27' :: ('\x27' :: "s".toList ++ ['\x27'])
       literal := .quoted (.doubled (by decide) (.single (by decide)))
       after := []
       blankAfter := isBlankText_nil }]
  last :=
    { before := [' ']
      blankBefore := isBlankText_space
      text := '\x27' :: "b".toList ++ ['\x27']
      literal := .quoted (.single (by decide))
      after := []
      blankAfter := isBlankText_nil }
  clauses := " REFERENCES u(id) CHECK (Key <> 'b')".toList
  ends := by decide
  ending := by decide
  undivided := by decide

/-- The reference is found in front of a check that ends like a literal. -/
theorem Report.ofDocument_keyNamed_choice : ∃ declared reference,
    ofDocument ("CREATE TABLE t (a INTEGER, " ++
        "Key ENUM('it''s', 'b') REFERENCES u(id) CHECK (Key <> 'b'))") =
      Surroundings.behindColumn.report [.column declared reference] ∧
    (Surroundings.behindColumn.entity [.column declared reference]).attributes.map
        Attribute.heading =
      [("a", .integer), ("Key", .declared "ENUM('it''s', 'b')")] ∧
    reference = some { fromTable := "t", fromColumn := "Key", toTable := "u", toColumn := "id" } := by
  have kept : KeyNamedColumn.choice.Kept := by decide
  obtain ⟨declared, reference, read, headed, refers⟩ :=
    (@ofDocument_keyNamed .behindColumn .choice ("CREATE TABLE t (a INTEGER, " ++
      "Key ENUM('it''s', 'b') REFERENCES u(id) CHECK (Key <> 'b'))") (by decide)).1 kept
  refine ⟨declared, reference, read, headed.trans (by decide +kernel), ?_⟩
  have written : Refers ("REFERENCES".toList ++ ([' '] ++ (['u'] ++ ([] ++
      enclosed [] "id".toList [])))) (['u'], "id".toList) :=
    .intro rfl rfl (by simp) (.last (.of_word (by simp) (List.all_eq_true.1 rfl))) rfl rfl
      (.of_word (by simp) (List.all_eq_true.1 rfl)) rfl
  exact refers [' '] _ " CHECK (Key <> 'b')".toList _ rfl (by decide) (by decide) written

/-- A column `Key` of ten characters that refers to another table. -/
def KeyNamedColumn.sized : KeyNamedColumn :=
  { KeyNamedColumn.choice with
    type := "VARCHAR".toList
    nonempty := by simp
    typeChars := List.all_eq_true.1 (by decide)
    quoteFree := by decide
    parameters := []
    last :=
      { before := []
        blankBefore := isBlankText_nil
        text := "10".toList
        literal := .number (by simp) (List.all_eq_true.1 rfl)
        after := []
        blankAfter := isBlankText_nil }
    clauses := " REFERENCES u(id)".toList
    ends := by decide
    ending := by decide
    undivided := by decide }

/-- A reference alone makes a column named like a key a clause about the table. -/
theorem Report.not_forall_keyNamed :
    ¬∀ (around : Surroundings) (column : KeyNamedColumn) (document : String),
      stripComments document.toList = around.text column.text →
      ∃ entity ∈ (ofDocument document).schema.entities,
        entity.attributes.map Attribute.heading =
          headings around.itemsBefore ++
            (String.ofList column.name, .ofSpelling (String.ofList column.spelling)) ::
              headings around.itemsAfter := by
  intro all
  have stripped : stripComments
      "CREATE TABLE t (a INTEGER, Key VARCHAR(10) REFERENCES u(id))".toList =
        Surroundings.behindColumn.text KeyNamedColumn.sized.text := by
    decide
  have kept := all _ _ _ stripped
  rw [ofDocument_surrounded KeyNamedColumn.sized.solid_text KeyNamedColumn.sized.undivided_text
    stripped] at kept
  revert kept
  decide +kernel

end SchemaLoom.Ddl
