import SchemaLoom.Proofs.Grammar
import SchemaLoom.Proofs.Statements

/-!
# The texts of the grammar

What is written for a part of the grammar has, without its comments, the shape that
readers ask for: layouts are blank, identifiers spell their names, references refer to
what they name. No part holds a keyword that it does not itself state, whatever its
identifiers are.
-/

namespace SchemaLoom.Ddl.Grammar

open SchemaLoom.Text

/-- What fills a gap reads as blanks without its comments, and never as nothing. -/
theorem Filler.plain_blank (filler : Filler) :
    isBlankText filler.piece.plain ∧ filler.piece.plain ≠ [] := by
  cases filler with
  | blank c isBlank => exact ⟨by simpa [piece, isBlankText] using isBlank, List.cons_ne_nil c []⟩
  | lineComment text oneLine => exact ⟨rfl, List.cons_ne_nil ' ' []⟩
  | blockComment text inside => exact ⟨rfl, List.cons_ne_nil ' ' []⟩

namespace Layout

/-- A layout is its first filler and those that follow. -/
theorem plain_cons (filler : Filler) (layout : Layout) :
    Layout.piece (filler :: layout) = filler.piece ++ layout.piece :=
  rfl

/-- A layout leaves blanks only. -/
theorem plain_blank (layout : Layout) : isBlankText layout.piece.plain := by
  induction layout with
  | nil => rfl
  | cons filler layout inductionHypothesis =>
      rw [plain_cons, Piece.plain_append]
      exact isBlankText_append filler.plain_blank.1 inductionHypothesis

/-- A layout that is not empty does not read as nothing. -/
theorem plain_ne_nil {layout : Layout} (nonempty : layout ≠ []) : layout.piece.plain ≠ [] := by
  cases layout with
  | nil => exact absurd rfl nonempty
  | cons filler layout =>
      rw [plain_cons, Piece.plain_append]
      exact List.append_ne_nil_of_left_ne_nil filler.plain_blank.2 _

end Layout

namespace Spacing

/-- Spacing reads as blanks. -/
theorem plain_blank (space : Spacing) : isBlankText space.piece.plain :=
  Layout.plain_blank _

/-- Spacing does not read as nothing. -/
theorem plain_ne_nil (space : Spacing) : space.piece.plain ≠ [] :=
  Layout.plain_ne_nil (List.cons_ne_nil space.first space.others)

end Spacing

/-- A keyword stands only where it is written. -/
theorem Keyword.lacks {capitals : String} (keyword : Keyword capitals) {other : List Char}
    (different : capitals.toList ≠ other) : Lacks other keyword.piece.plain := by
  obtain ⟨nonempty, ascii⟩ :=
    isAsciiWord_of_cased (isWordKeyword_of_mem keyword.reserved) keyword.cased
  exact Phrase.stands_of_other ascii (keyword.cased ▸ different)

/-- Two keywords with spacing between them read as the two. -/
theorem Pair.text {first second : String} (pair : Pair first second) :
    PairText first second pair.piece.plain :=
  .intro (isWordKeyword_of_mem pair.firstWord.reserved)
    (isWordKeyword_of_mem pair.secondWord.reserved) pair.firstWord.cased
    pair.space.plain_blank pair.space.plain_ne_nil pair.secondWord.cased

/-- Two keywords lack every other keyword. -/
theorem Pair.lacks {first second : String} (pair : Pair first second) {other : List Char}
    (word : IsWordKeyword other) (firstDifferent : first.toList ≠ other)
    (secondDifferent : second.toList ≠ other) : Lacks other pair.piece.plain := by
  refine (pair.firstWord.lacks firstDifferent).append word
    (.blanks word pair.space.plain_blank (pair.secondWord.lacks secondDifferent)) ?_
  exact .of_startsInWord (startsInWord_space pair.space.plain_blank pair.space.plain_ne_nil _)

namespace Identifier

/-- An identifier as written spells its name. -/
theorem spells (identifier : Identifier) : Spells identifier.piece.plain identifier.name := by
  cases style : identifier.style with
  | bare nonempty word noDigit =>
      simpa [piece, style] using Spells.of_word nonempty (List.all_eq_true.1 word)
  | quoted quotes inside =>
      simpa [piece, style, Piece.kept] using
        Spells.quoted quotes.opening quotes.identifierClose?_opening inside

/-- No reserved word stands in the name of an identifier. -/
theorem lacks_name (identifier : Identifier) {reserved : String}
    (isReserved : reserved ∈ reservedWords) :
    Lacks reserved.toList identifier.name := by
  refine Bool.eq_false_iff.2 fun stands => ?_
  obtain ⟨run, member, same⟩ := Phrase.mem_runs_of_stands reserved.toList
    (isWordKeyword_of_mem isReserved) (by simpa using identifier.ascii) stands
  exact identifier.unreserved run member reserved isReserved same

/-- Quotes are no part of a word. -/
theorem isWordChar_quotes (quotes : Quotes) :
    isWordChar quotes.opening = false ∧ isWordChar quotes.closing = false := by
  cases quotes <;> decide

/-- No reserved word stands in an identifier, bare or quoted. -/
theorem lacks (identifier : Identifier) {reserved : String}
    (isReserved : reserved ∈ reservedWords) :
    Lacks reserved.toList identifier.piece.plain := by
  have word := isWordKeyword_of_mem isReserved
  have inside := identifier.lacks_name isReserved
  cases style : identifier.style with
  | bare nonempty letters noDigit => simpa [piece, style] using inside
  | quoted quotes notClosed =>
      have closing : Lacks reserved.toList [quotes.closing] :=
        .cons word (isWordChar_quotes quotes).2 rfl
      have content : Lacks reserved.toList (identifier.name ++ [quotes.closing]) :=
        inside.append word closing (.of_startsInWord (isWordChar_quotes quotes).2)
      simpa [piece, style, Piece.kept] using content.cons word (isWordChar_quotes quotes).1

end Identifier

namespace QualifiedName

/-- A qualified name reads as its last part, however many there are in front. -/
theorem qualifies (name : QualifiedName) :
    ∃ last, Qualifies name.piece.plain last name.identifier.name := by
  induction name with
  | last identifier => exact ⟨_, .last identifier.spells⟩
  | part qualifier before after others inductionHypothesis =>
      obtain ⟨last, tail⟩ := inductionHypothesis
      have whole := Qualifies.part qualifier.spells before.plain_blank after.plain_blank tail
      exact ⟨last, whole⟩

/-- A qualified name does not read as nothing. -/
theorem plain_ne_nil (name : QualifiedName) : name.piece.plain ≠ [] := by
  cases name with
  | last identifier => exact identifier.spells.solid.nonempty
  | part qualifier before after others =>
      exact List.append_ne_nil_of_left_ne_nil qualifier.spells.solid.nonempty _

/-- No part of a qualified name is a reserved word. -/
theorem lacks (name : QualifiedName) {reserved : String} (isReserved : reserved ∈ reservedWords) :
    Lacks reserved.toList name.piece.plain := by
  have word := isWordKeyword_of_mem isReserved
  induction name with
  | last identifier => exact identifier.lacks isReserved
  | part qualifier before after others inductionHypothesis =>
      have tail : Lacks reserved.toList ('.' :: (after.piece.plain ++ others.piece.plain)) :=
        .cons word (by decide) (.blanks word after.plain_blank inductionHypothesis)
      refine (qualifier.lacks isReserved).append word (.blanks word before.plain_blank tail) ?_
      exact .of_startsInWord (startsInWord_mark before.plain_blank (by decide) _)

end QualifiedName

section Enclosed

variable (column : Padded Identifier)

/-- A column in parentheses reads as enclosed with the blanks around it. -/
theorem plain_enclosed : (column.piece Identifier.piece).enclosed.plain =
    enclosed column.before.piece.plain column.item.piece.plain column.after.piece.plain := by
  simp [Padded.piece, enclosed]

/-- A column in parentheses lacks every reserved word. -/
theorem enclosed_lacks {reserved : String} (isReserved : reserved ∈ reservedWords) :
    Lacks reserved.toList (column.piece Identifier.piece).enclosed.plain := by
  have word := isWordKeyword_of_mem isReserved
  have closing : Lacks reserved.toList (column.after.piece.plain ++ [')']) :=
    .blanks word column.after.plain_blank (.cons word (by decide) rfl)
  have inside : Lacks reserved.toList
      (column.item.piece.plain ++ (column.after.piece.plain ++ [')'])) := by
    refine (column.item.lacks isReserved).append word closing ?_
    exact .of_startsInWord (startsInWord_mark column.after.plain_blank (by decide) [])
  rw [plain_enclosed]
  exact .cons word (by decide) (.blanks word column.before.plain_blank inside)

end Enclosed

namespace Reference

variable (reference : Reference)

/-- A reference reads as the names of its table and its column. -/
theorem refers : Refers reference.piece.plain
    (reference.table.identifier.name, reference.column.item.name) := by
  obtain ⟨last, qualifies⟩ := reference.table.qualifies
  have whole := Refers.intro reference.word.cased reference.space.plain_blank
    reference.space.plain_ne_nil qualifies reference.gap.plain_blank
    reference.column.before.plain_blank reference.column.item.spells
    reference.column.after.plain_blank
  simp only [piece, Piece.plain_append, plain_enclosed]
  exact whole

/-- A reference holds no other reserved word than the one that opens it. -/
theorem lacks {reserved : String} (isReserved : reserved ∈ reservedWords)
    (other : "REFERENCES" ≠ reserved) : Lacks reserved.toList reference.piece.plain := by
  have word := isWordKeyword_of_mem isReserved
  have column : Lacks reserved.toList
      (reference.gap.piece.plain ++ (reference.column.piece Identifier.piece).enclosed.plain) :=
    .blanks word reference.gap.plain_blank (enclosed_lacks reference.column isReserved)
  have target : Lacks reserved.toList (reference.table.piece.plain ++
      (reference.gap.piece.plain ++ (reference.column.piece Identifier.piece).enclosed.plain)) := by
    refine (reference.table.lacks isReserved).append word column ?_
    exact .of_startsInWord (startsInWord_mark reference.gap.plain_blank (by decide) _)
  refine (reference.word.lacks fun same => other (String.toList_injective same)).append word
    (.blanks word reference.space.plain_blank target) ?_
  exact .of_startsInWord
    (startsInWord_space reference.space.plain_blank reference.space.plain_ne_nil _)

/-- A reference ends with its parenthesis, not with a word. -/
theorem endsInWord (afterWord : Bool) :
    endsInWord afterWord reference.piece.plain = false := by
  simp only [piece, Piece.plain_append, Piece.plain_enclosed, endsInWord_append]
  exact show isWordChar ')' = false by decide

end Reference

/-- A foreign key reads as its column and as what it refers to. -/
theorem ForeignKey.text (foreign : ForeignKey) : ForeignKeyText foreign.piece.plain
    foreign.column.item.name
    (foreign.reference.table.identifier.name, foreign.reference.column.item.name) := by
  have whole := ForeignKeyText.intro foreign.words.text foreign.gap.plain_blank
    foreign.column.before.plain_blank foreign.column.item.spells foreign.column.after.plain_blank
    foreign.space.plain_blank foreign.reference.refers
  simp only [piece, Piece.plain_append, plain_enclosed]
  exact whole

/-- The characters that the parameters of a type consist of. -/
def IsParameterChar (c : Char) : Prop :=
  isBlank c = true ∨ c.isDigit = true ∨ c ∈ ['.', '+', '-', ',']

/-- What stands in parameters neither opens a quote nor ends a type. -/
theorem IsParameterChar.ordinary {c : Char} (parameter : IsParameterChar c) :
    quoteClose? c = none ∧ c ∉ ['(', ')', ';'] := by
  have special : ∀ d ∈ ['\x27', '\x22', '\x60', '[', '(', ')', ';'], c ≠ d := by
    rintro d member rfl
    have none : ['\x27', '\x22', '\x60', '[', '(', ')', ';'].all (fun d =>
        !isBlank d && !d.isDigit && !(['.', '+', '-', ','].contains d)) = true := by
      decide
    have here := List.all_eq_true.1 none c member
    simp only [Bool.and_eq_true, Bool.not_eq_true', List.contains_eq_mem,
      decide_eq_false_iff_not] at here
    rcases parameter with blank | digit | mark
    · simp [here.1.1] at blank
    · simp [here.1.2] at digit
    · exact here.2 mark
  exact ⟨quoteClose?_eq_none fun member => special c (by simp_all) rfl,
    fun member => special c (by simp_all) rfl⟩

/-- Numbers may stand in parameters. -/
theorem Number.isParameterChar (number : Number) {c : Char} (member : c ∈ number.piece.plain) :
    IsParameterChar c := by
  have signs := number.isSign
  rcases List.mem_append.1 member with sign | unsigned
  · refine .inr (.inr ?_)
    simp only [List.mem_cons, List.not_mem_nil, or_false] at signs
    rcases signs with none | plus | minus <;> simp_all
  · rcases Number.mem_unsigned unsigned with digit | rfl
    · exact .inr (.inl digit)
    · exact .inr (.inr (by decide))

/-- Blanks may stand in parameters. -/
theorem isParameterChar_of_mem_layout {layout : Layout} {c : Char}
    (member : c ∈ layout.piece.plain) : IsParameterChar c :=
  .inl (List.all_eq_true.1 layout.plain_blank c member)

/-- The text between the parentheses of a list. -/
def Listed.inner {α : Type} (itemPiece : α -> Piece) (listed : Listed α) : List Char :=
  separated ',' (listed.parts.map fun part => (part.piece itemPiece).plain)

/-- A list reads as enclosed in its parentheses. -/
theorem Listed.plain_eq {α : Type} (itemPiece : α -> Piece) (listed : Listed α) :
    (listed.piece itemPiece).plain = '(' :: listed.inner itemPiece ++ [')'] := by
  simp [piece, inner, Function.comp_def]

namespace DeclaredType

/-- Between the parentheses of a list of numbers there is nothing but what may stand in
parameters. -/
theorem isParameterChar (numbers : Listed Number) {c : Char}
    (member : c ∈ numbers.inner Number.piece) : IsParameterChar c := by
  rcases mem_separated member with rfl | ⟨text, isText, inside⟩
  · exact .inr (.inr (by decide))
  · obtain ⟨part, -, rfl⟩ := List.mem_map.1 isText
    simp only [Padded.piece, Piece.plain_append, List.mem_append] at inside
    rcases inside with before | number | after
    · exact isParameterChar_of_mem_layout before
    · exact part.item.isParameterChar number
    · exact isParameterChar_of_mem_layout after

/-- Scans that heed only blanks, commas and semicolons cross parameters. -/
theorem crossed (numbers : Listed Number) {stops : Nat -> Char -> Bool}
    (noStop : ∀ c, stops 1 c -> c = ';') :
    depthAcross? stops none 1 (numbers.inner Number.piece) = some 1 := by
  have ordinary := fun c member => (isParameterChar numbers (c := c) member).ordinary
  refine depthAcross?_ordinary (fun c member => (ordinary c member).1)
    (fun member => (ordinary _ member).2 (by decide))
    (fun member => (ordinary _ member).2 (by decide)) fun c member => ?_
  refine Bool.eq_false_iff.2 fun stop => (ordinary c member).2 ?_
  rw [noStop c stop]
  decide

/-- A type as written is read as its spelling. -/
theorem text (type : DeclaredType) : TypeText type.piece.plain type.spelling := by
  cases shape : type.parameters with
  | none => simpa [piece, spelling, shape] using TypeText.word type.nonempty type.wordChars
  | some parameters =>
      obtain ⟨gap, numbers⟩ := parameters
      have undivided : Undivided ('(' :: numbers.inner Number.piece ++ [')']) :=
        depthAcross?_parentheses (crossed numbers (by simp [stopsDefinition])) (by decide)
          (by decide)
      have whole := TypeText.parameters type.nonempty type.wordChars gap.plain_blank
        (crossed numbers (by simp [stopsWord])) undivided
      simpa [piece, spelling, shape, Listed.plain_eq] using whole

/-- A type is no word that opens a clause. -/
theorem isClauseKeyword_spelling (type : DeclaredType) : isClauseKeyword type.spelling = false := by
  refine Bool.eq_false_iff.2 fun found => ?_
  obtain ⟨keyword, member, same⟩ := List.any_eq_true.1 found
  have words : ∀ keyword ∈ clauseKeywords,
      keyword ∈ reservedWords ∧ '(' ∉ asciiLower keyword.toList := by
    decide
  obtain ⟨isReserved, noParenthesis⟩ := words keyword member
  cases shape : type.parameters with
  | none =>
      have word : type.spelling = type.word := by simp [spelling, shape]
      rw [word, type.unreserved keyword isReserved] at same
      cases same
  | some parameters =>
      have inside : '(' ∈ asciiLower type.spelling := by
        refine List.mem_map.2 ⟨'(', ?_, rfl⟩
        simp [spelling, shape, Listed.plain_eq]
      have lower : asciiLower type.spelling = asciiLower keyword.toList := beq_iff_eq.1 same
      exact noParenthesis (lower ▸ inside)

end DeclaredType

end SchemaLoom.Ddl.Grammar
