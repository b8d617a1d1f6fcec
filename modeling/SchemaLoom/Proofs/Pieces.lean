import SchemaLoom.Proofs.Definitions

/-!
# Pieces of statements

Statements are written from words, marks, identifiers and numbers, with blanks and
comments between them. Each of these carries the proof that it is well-formed. A piece
knows its text as it is written and what the removal of comments leaves of it, so a
text that was put together from pieces needs no further argument about comments.
-/

namespace SchemaLoom.Ddl.Grammar

open SchemaLoom.Text

/-- A piece of text as it is written, beside what the removal of comments leaves. -/
structure Piece where
  written : List Char
  plain : List Char
  strips : Strips written plain
  settled : Strips plain plain

namespace Piece

/-- A piece that the removal of comments leaves as it is. -/
def kept (text : List Char) (settled : Strips text text) : Piece :=
  { written := text, plain := text, strips := settled, settled }

/-- A piece in which neither a comment nor a quoted run begins. -/
def ordinary (text : List Char) (ordinary : Ordinary text) : Piece :=
  kept text (.of_ordinary ordinary)

/-- A comment, which leaves a space. -/
def comment (written : List Char) (strips : Strips written [' ']) : Piece :=
  { written, plain := [' '], strips, settled := .of_ordinary (by decide) }

/-- The piece without text. -/
def empty : Piece :=
  kept [] .nil

instance : Append Piece where
  append first second :=
    { written := first.written ++ second.written
      plain := first.plain ++ second.plain
      strips := first.strips.append second.strips
      settled := first.settled.append second.settled }

/-- Joined pieces read as the two one after the other. -/
@[simp] theorem plain_append (first second : Piece) :
    (first ++ second).plain = first.plain ++ second.plain :=
  rfl

/-- An ordinary text reads as it is written. -/
@[simp] theorem plain_ordinary {text : List Char} (isOrdinary : Ordinary text) :
    (ordinary text isOrdinary).plain = text :=
  rfl

@[simp] theorem plain_empty : empty.plain = [] :=
  rfl

/-- Pieces one after the other. -/
def joined (pieces : List Piece) : Piece :=
  pieces.foldr (· ++ ·) empty

/-- Several joined pieces read one after the other. -/
@[simp] theorem plain_joined (pieces : List Piece) :
    (joined pieces).plain = pieces.flatMap Piece.plain := by
  induction pieces with
  | nil => rfl
  | cons piece pieces inductionHypothesis =>
      rw [List.flatMap_cons, ← inductionHypothesis]
      rfl

/-- Pieces with commas between neighbours. -/
def listed : List Piece -> Piece
  | [] => empty
  | [piece] => piece
  | piece :: pieces => piece ++ ordinary [','] (by decide) ++ listed pieces

/-- A list reads as its items with commas between them. -/
@[simp] theorem plain_listed (pieces : List Piece) :
    (listed pieces).plain = separated ',' (pieces.map Piece.plain) := by
  induction pieces with
  | nil => rfl
  | cons piece pieces inductionHypothesis =>
      cases pieces with
      | nil => rfl
      | cons next pieces =>
          simp only [listed, List.map_cons, separated_cons_cons] at inductionHypothesis ⊢
          simp [← inductionHypothesis]

/-- A piece in parentheses. -/
def enclosed (inner : Piece) : Piece :=
  ordinary ['('] (by decide) ++ inner ++ ordinary [')'] (by decide)

/-- An enclosed piece reads as it does between its parentheses. -/
@[simp] theorem plain_enclosed (inner : Piece) :
    inner.enclosed.plain = '(' :: inner.plain ++ [')'] :=
  rfl

end Piece

/-- What may stand between words and marks. -/
inductive Filler where
  | blank (c : Char) (isBlank : isBlank c)
  | lineComment (text : List Char) (oneLine : '\n' ∉ text)
  | blockComment (text : List Char) (inside : ¬['*', '/'] <:+: text)

/-- The text of a filler. -/
def Filler.piece : Filler -> Piece
  | blank c isBlank => .ordinary [c] (.of_blank isBlank)
  | lineComment text oneLine => .comment ('-' :: '-' :: text ++ ['\n']) (.lineComment oneLine)
  | blockComment text inside =>
      .comment ('/' :: '*' :: text ++ ['*', '/']) (.blockComment inside)

/-- Any number of blanks and comments. -/
abbrev Layout := List Filler

/-- The text of a layout. -/
def Layout.piece (layout : Layout) : Piece :=
  .joined (layout.map Filler.piece)

/-- At least one blank or comment. -/
structure Spacing where
  first : Filler
  others : Layout

/-- The text of a spacing. -/
def Spacing.piece (space : Spacing) : Piece :=
  Layout.piece (space.first :: space.others)

/-- The words that have a meaning in statements. -/
def reservedWords : List String :=
  ["CREATE", "TABLE", "IF", "NOT", "EXISTS", "CONSTRAINT", "PRIMARY", "UNIQUE", "KEY", "INDEX",
    "FULLTEXT", "CHECK", "FOREIGN", "REFERENCES", "NULL", "DEFAULT"]

/-- The runs of letters, digits and underscores in a text, with an empty one between
any two other characters. -/
def runs (text : List Char) : List (List Char) :=
  text.splitOnP fun c => !isAsciiWord c

/-- A text none of whose runs is a reserved word in any case. -/
def Unreserved (text : List Char) : Prop :=
  ∀ run ∈ runs text, ∀ word ∈ reservedWords, asciiUpper run ≠ word.toList

instance (text : List Char) : Decidable (Unreserved text) :=
  inferInstanceAs (Decidable (∀ run ∈ runs text, _))

/-- A reserved word, given in capitals, in some case. -/
structure Keyword (capitals : String) where
  letters : List Char
  cased : asciiUpper letters = capitals.toList
  reserved : capitals ∈ reservedWords := by decide

/-- The reserved words are words of capital letters. -/
theorem isWordKeyword_of_mem {capitals : String} (reserved : capitals ∈ reservedWords) :
    IsWordKeyword capitals.toList := by
  have all : ∀ word ∈ reservedWords, IsWordKeyword word.toList := by decide
  exact all capitals reserved

/-- The text of a keyword. -/
def Keyword.piece {capitals : String} (keyword : Keyword capitals) : Piece :=
  .ordinary keyword.letters (ordinary_of_isAsciiWord
    (isAsciiWord_of_cased (isWordKeyword_of_mem keyword.reserved) keyword.cased).2)

/-- Two keywords with space between them. -/
structure Pair (first second : String) where
  firstWord : Keyword first
  space : Spacing
  secondWord : Keyword second

/-- The text of two keywords. -/
def Pair.piece {first second : String} (pair : Pair first second) : Piece :=
  pair.firstWord.piece ++ (pair.space.piece ++ pair.secondWord.piece)

/-- The quotes of an identifier. -/
inductive Quotes where
  | double
  | backticks
  | brackets
  deriving DecidableEq, Repr

namespace Quotes

/-- The character that opens a quoted identifier. -/
def opening : Quotes -> Char
  | double => '\x22'
  | backticks => '\x60'
  | brackets => '['

/-- The character that closes a quoted identifier. -/
def closing : Quotes -> Char
  | double => '\x22'
  | backticks => '\x60'
  | brackets => ']'

/-- Each kind of quote closes with its own mark. -/
theorem identifierClose?_opening (quotes : Quotes) :
    identifierClose? quotes.opening = some quotes.closing := by
  cases quotes <;> rfl

end Quotes

/-- The ways to write a name: bare as a word that does not begin with a digit, or in
quotes that the name does not close. -/
inductive Style (name : List Char) where
  | bare (nonempty : name ≠ []) (word : name.all isAsciiWord)
      (noDigit : name.head?.all fun c => !c.isDigit)
  | quoted (quotes : Quotes) (inside : quotes.closing ∉ name)

/-- A name without reserved words, and how it is written. -/
structure Identifier where
  name : List Char
  ascii : name.all fun c => c.toNat < 0x80
  unreserved : Unreserved name
  style : Style name

namespace Identifier

/-- The text of an identifier. -/
def piece (identifier : Identifier) : Piece :=
  match identifier.style with
  | .bare _ word _ =>
      .ordinary identifier.name (ordinary_of_isAsciiWord (List.all_eq_true.1 word))
  | .quoted quotes inside =>
      .kept (quotes.opening :: identifier.name ++ [quotes.closing])
        (.quoted (quoteClose?_of_identifierClose? quotes.identifierClose?_opening) inside)

/-- The name as a string. -/
def string (identifier : Identifier) : String :=
  String.ofList identifier.name

end Identifier

/-- Identifiers with points between them. -/
inductive QualifiedName where
  | last (identifier : Identifier)
  | part (qualifier : Identifier) (before after : Layout) (others : QualifiedName)

namespace QualifiedName

/-- The text of a qualified name. -/
def piece : QualifiedName -> Piece
  | last identifier => identifier.piece
  | part qualifier before after others =>
      qualifier.piece ++
        (before.piece ++ (.ordinary ['.'] (by decide) ++ (after.piece ++ others.piece)))

/-- The identifier that names the table. -/
def identifier : QualifiedName -> Identifier
  | last identifier => identifier
  | part _ _ _ others => others.identifier

/-- The name of the table as a string. -/
def string (name : QualifiedName) : String :=
  name.identifier.string

end QualifiedName

/-- An item with the layout around it. -/
structure Padded (α : Type) where
  before : Layout
  item : α
  after : Layout

/-- The text of a padded item. -/
def Padded.piece {α : Type} (itemPiece : α -> Piece) (padded : Padded α) : Piece :=
  padded.before.piece ++ (itemPiece padded.item ++ padded.after.piece)

/-- One item or more, in parentheses and with commas between them. -/
structure Listed (α : Type) where
  first : Padded α
  others : List (Padded α)

namespace Listed

variable {α : Type}

/-- All parts of a list, in order. -/
def parts (listed : Listed α) : List (Padded α) :=
  listed.first :: listed.others

/-- All items of a list, in order. -/
def items (listed : Listed α) : List α :=
  listed.parts.map Padded.item

/-- The text of a list. -/
def piece (itemPiece : α -> Piece) (listed : Listed α) : Piece :=
  (Piece.listed (listed.parts.map (Padded.piece itemPiece))).enclosed

end Listed

/-- A decimal number, perhaps with a sign and a fraction. -/
structure Number where
  sign : List Char
  isSign : sign ∈ [[], ['+'], ['-']]
  whole : List Char
  nonempty : whole ≠ []
  fraction : List Char
  digits : (whole ++ fraction).all Char.isDigit

namespace Number

/-- The digits of a number, with a point before a fraction. -/
def unsigned (number : Number) : List Char :=
  number.whole ++ if number.fraction = [] then [] else '.' :: number.fraction

/-- A number without its sign has digits and points only. -/
theorem mem_unsigned {number : Number} {c : Char} (member : c ∈ number.unsigned) :
    c.isDigit = true ∨ c = '.' := by
  simp only [unsigned, List.mem_append] at member
  rcases member with whole | fraction
  · exact .inl (List.all_eq_true.1 number.digits c (List.mem_append_left _ whole))
  · split at fraction
    · cases fraction
    · rcases List.mem_cons.1 fraction with rfl | later
      · exact .inr rfl
      · exact .inl (List.all_eq_true.1 number.digits c (List.mem_append_right _ later))

/-- A number without its sign has no marks of quotes or comments. -/
theorem ordinary_unsigned (number : Number) : Ordinary number.unsigned := by
  intro c member
  rcases mem_unsigned member with digit | rfl
  · have word : isAsciiWord c = true := by simp [isAsciiWord, Char.isAlphanum, digit]
    exact ordinary_of_isAsciiWord (List.forall_mem_singleton.2 word) c (List.mem_singleton_self c)
  · decide

/-- No comment begins in a number, whose sign is a single one. -/
theorem strips (number : Number) :
    Strips (number.sign ++ number.unsigned) (number.sign ++ number.unsigned) := by
  have unsigned : Strips number.unsigned number.unsigned := .of_ordinary number.ordinary_unsigned
  have noDash : ∀ rest, (number.unsigned ++ rest).head? ≠ some '-' := by
    intro rest start
    cases shape : number.unsigned with
    | nil => exact number.nonempty (List.append_eq_nil_iff.1 shape).1
    | cons c later =>
        have same : c = '-' := by simpa [shape] using start
        exact (number.ordinary_unsigned c (by simp [shape])).2.1 same
  have signs := number.isSign
  simp only [List.mem_cons, List.not_mem_nil, or_false] at signs
  rcases signs with none | plus | minus
  · rw [none]
    exact unsigned
  · rw [plus]
    exact Strips.append (.of_ordinary (by decide)) unsigned
  · rw [minus]
    refine .cons (by decide) (fun rest => ?_) unsigned
    rw [opensComment, Bool.or_eq_false_iff, Bool.and_eq_false_iff, beq_eq_false_iff_ne]
    exact ⟨.inr (by simpa using noDash rest), rfl⟩

/-- The text of a number. -/
def piece (number : Number) : Piece :=
  .kept (number.sign ++ number.unsigned) number.strips

end Number

end SchemaLoom.Ddl.Grammar
