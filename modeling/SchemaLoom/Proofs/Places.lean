import Mathlib.Data.List.Forall2
import SchemaLoom.Database.Reading
import SchemaLoom.Proofs.Lexemes

/-!
# From place to place through a table definition

The reading of a table definition goes from place to place, with some clauses found on
the way, until a parenthesis closes it or a step finds nothing that fits. Columns with an
inferred type and the constraints that go with it, and foreign keys of one column, lead
from place to place if all their names are names to the database.
-/

namespace SchemaLoom

open Database in
/-- The lexemes of a constraint. -/
def Constraint.lexemes : Constraint -> List Lexeme
  | primaryKey => [(.word, "PRIMARY"), (.word, "KEY")]
  | unique => [(.word, "UNIQUE")]
  | notNull => [(.word, "NOT"), (.word, "NULL")]

open Database in
/-- The clause that a constraint on one column is. -/
def Constraint.clause : Constraint -> Clause
  | primaryKey => .primaryKey none false false
  | unique => .unique none
  | notNull => .notNull

namespace Database

open Reading

section Tokens

variable {kind : TokenKind} {before source : String} {offset : Nat}

/-- A word is told by its letters, in any case. -/
@[simp] theorem Token.isWord_word (word : String) :
    isWord { kind := .word, before, source, offset } word =
      (Text.asciiUpper source.toList == word.toList) :=
  rfl

/-- A symbol is no word. -/
@[simp] theorem Token.isWord_symbol (word : String) :
    isWord { kind := .symbol, before, source, offset } word = false :=
  rfl

/-- A symbol is told by its spelling. -/
@[simp] theorem Token.isSymbol_mk (symbol : String) :
    isSymbol { kind, before, source, offset } symbol = (kind == .symbol && source == symbol) :=
  rfl

/-- The first token of a text that begins with a lexeme has its kind and its spelling. -/
theorem Token.exists_of_lexed {tokens : List Token} {kind : TokenKind} {source : String}
    {lexemes : List Lexeme} (spelled : tokens.map Token.lexed = (kind, source) :: lexemes) :
    ∃ before offset rest, tokens = { kind, before, source, offset } :: rest ∧
      rest.map Token.lexed = lexemes := by
  obtain ⟨⟨_, before, _, offset⟩, rest, rfl, isLexeme, others⟩ := List.map_eq_cons_iff.1 spelled
  cases isLexeme
  exact ⟨before, offset, rest, rfl, others⟩

/-- Where there is a lexeme there is a token, so that a reader may take a step. -/
theorem Token.exists_length_of_lexed {tokens : List Token} {first : Lexeme} {lexemes : List Lexeme}
    (spelled : tokens.map Token.lexed = first :: lexemes) :
    ∃ bound, tokens.length = bound + 1 := by
  have length := congrArg List.length spelled
  rw [List.length_map, List.length_cons] at length
  exact ⟨_, length⟩

end Tokens

/-- What begins behind a clause: the next constraint, a comma, or the closing
parenthesis. -/
def clauseEnds : List Lexeme :=
  [(.word, "PRIMARY"), (.word, "UNIQUE"), (.word, "NOT"), (.symbol, ","), (.symbol, ")")]

/-- Lexemes that begin with what stands behind a clause. -/
def EndsClause (lexemes : List Lexeme) : Prop :=
  ∃ first ∈ lexemes.head?, first ∈ clauseEnds

/-- Where a clause ends there is a token, which ends it. -/
theorem EndsClause.exists_token {tokens : List Token} (ends : EndsClause (tokens.map Token.lexed)) :
    ∃ kind source before offset rest, tokens = { kind, before, source, offset } :: rest ∧
      (kind, source) ∈ clauseEnds := by
  obtain ⟨first, isFirst, isEnd⟩ := ends
  cases tokens with
  | nil => cases isFirst
  | cons token rest =>
      obtain rfl := Option.some.inj isFirst
      exact ⟨token.kind, token.source, token.before, token.offset, rest, rfl, isEnd⟩

/-- A column as it is written: a lexeme for its name, an inferred type, and constraints. -/
structure ColumnLine where
  written : Lexeme
  type : String
  constraints : List Constraint
  inferred : type ∈ ["INTEGER", "DATE", "TEXT"]

namespace ColumnLine

/-- The lexemes of a column. -/
def lexemes (line : ColumnLine) : List Lexeme :=
  line.written :: (.word, line.type) :: line.constraints.flatMap Constraint.lexemes

/-- Whether the name of a column is one. -/
def IsNamed (line : ColumnLine) : Prop :=
  line.written.name?.isSome = true

/-- The clauses that a column with a name consists of. -/
def clauses (line : ColumnLine) : List Clause :=
  .column (line.written.name?.getD "") line.type :: line.constraints.map Constraint.clause

end ColumnLine

/-- A foreign key of one column as it is written: lexemes for three names. -/
structure KeyLine where
  column : Lexeme
  table : Lexeme
  target : Lexeme

namespace KeyLine

/-- The lexemes of a foreign key. -/
def lexemes (line : KeyLine) : List Lexeme :=
  [(.word, "FOREIGN"), (.word, "KEY"), (.symbol, "("), line.column, (.symbol, ")"),
    (.word, "REFERENCES"), line.table, (.symbol, "("), line.target, (.symbol, ")")]

/-- Whether the table and the column that a foreign key leads to have names. -/
def IsNamed (line : KeyLine) : Prop :=
  line.table.name?.isSome = true ∧ line.target.name?.isSome = true

/-- A clause that is a foreign key with names, wherever these stand. -/
def Gives (line : KeyLine) (clause : Clause) : Prop :=
  ∃ mention : Mention, some mention.name = line.table.name? ∧
    clause = .reference (some [line.column.name?.getD ""]) mention [line.target.name?.getD ""] .noAction

end KeyLine

/-- Lexemes with commas between neighbours. -/
def commaSeparated : List (List Lexeme) -> List Lexeme
  | [] => []
  | first :: others => first ++ others.flatMap ((.symbol, ",") :: ·)

namespace Place

/-- Steps from one place to another, with the clauses that they find. -/
inductive Passes : Place -> List Token -> List Clause -> Place -> List Token -> Prop where
  | refl (place : Place) (tokens : List Token) : Passes place tokens [] place tokens
  | step {place next final : Place} {tokens rest last : List Token} {found later : List Clause}
      (here : Place.step place tokens = .ok ((found, some next), rest))
      (shorter : rest.length < tokens.length) (others : Passes next rest later final last) :
      Passes place tokens (found ++ later) final last

namespace Passes

variable {place next final : Place} {tokens rest last : List Token} {found later : List Clause}

/-- One step is a passage. -/
theorem single (here : Place.step place tokens = .ok ((found, some next), rest))
    (shorter : rest.length < tokens.length) : Passes place tokens found next rest := by
  have passes := step here shorter (.refl next rest)
  rwa [List.append_nil] at passes

/-- Passages follow one another, and so do the clauses that they find. -/
theorem trans (first : Passes place tokens found next rest)
    (second : Passes next rest later final last) :
    Passes place tokens (found ++ later) final last := by
  induction first with
  | refl => exact second
  | step here shorter others inductionHypothesis =>
      rw [List.append_assoc]
      exact step here shorter (inductionHypothesis second)

/-- A definition is read up to its closing parenthesis. -/
theorem clauses_of_close (passes : Passes place tokens found next rest)
    (closes : Place.step next rest = .ok (([], none), last)) {bound : Nat}
    (enough : tokens.length < bound) : clauses bound place tokens = (found, .ok last) := by
  induction passes generalizing bound with
  | refl place tokens =>
      obtain ⟨bound, rfl⟩ := Nat.exists_eq_add_one_of_ne_zero (Nat.ne_zero_of_lt enough)
      rw [clauses, closes]
  | step here shorter others inductionHypothesis =>
      obtain ⟨bound, rfl⟩ := Nat.exists_eq_add_one_of_ne_zero (Nat.ne_zero_of_lt enough)
      have later := inductionHypothesis closes (Nat.lt_of_lt_of_le shorter (Nat.le_of_lt_succ enough))
      rw [clauses, here]
      simp only [later]

/-- A definition is read up to what fits nowhere. -/
theorem clauses_of_stop (passes : Passes place tokens found next rest)
    (stops : Place.step next rest = .error last) {bound : Nat} (enough : tokens.length < bound) :
    ∃ stop, (clauses bound place tokens).2 = .error stop := by
  induction passes generalizing bound with
  | refl place tokens =>
      obtain ⟨bound, rfl⟩ := Nat.exists_eq_add_one_of_ne_zero (Nat.ne_zero_of_lt enough)
      exact ⟨last, by rw [clauses, stops]⟩
  | step here shorter others inductionHypothesis =>
      obtain ⟨bound, rfl⟩ := Nat.exists_eq_add_one_of_ne_zero (Nat.ne_zero_of_lt enough)
      obtain ⟨stop, stopped⟩ :=
        inductionHypothesis stops (Nat.lt_of_lt_of_le shorter (Nat.le_of_lt_succ enough))
      refine ⟨stop, ?_⟩
      rw [clauses, here]
      dsimp only
      split
      · rename_i ended
        rw [ended] at stopped
        cases stopped
      · rename_i ended
        rw [ended] at stopped
        exact stopped

end Passes

section Readers

variable {tokens : List Token} {lexemes : List Lexeme} {written : Lexeme} {name : String}

/-- A keyword that is expected is read where it stands. -/
theorem word_of_lexed {expected : String}
    (capitals : Text.asciiUpper expected.toList = expected.toList)
    (spelled : tokens.map Token.lexed = (.word, expected) :: lexemes) :
    ∃ rest, rest.map Token.lexed = lexemes ∧ word expected tokens = .ok rest := by
  obtain ⟨_, _, rest, rfl, isRest⟩ := Token.exists_of_lexed spelled
  exact ⟨rest, isRest, by simp [word, capitals]⟩

/-- A symbol that is expected is read where it stands. -/
theorem symbol_of_lexed {expected : String}
    (spelled : tokens.map Token.lexed = (.symbol, expected) :: lexemes) :
    ∃ rest, rest.map Token.lexed = lexemes ∧ symbol expected tokens = .ok rest := by
  obtain ⟨_, _, rest, rfl, isRest⟩ := Token.exists_of_lexed spelled
  exact ⟨rest, isRest, by simp [symbol]⟩

/-- A symbol is not read where another lexeme stands. -/
theorem symbol_of_other {expected : String} (other : written ≠ (.symbol, expected))
    (spelled : tokens.map Token.lexed = written :: lexemes) :
    symbol expected tokens = .error tokens := by
  obtain ⟨kind, source⟩ := written
  obtain ⟨_, _, rest, rfl, -⟩ := Token.exists_of_lexed spelled
  refine if_neg fun same => other ?_
  simp only [Token.isSymbol_mk, Bool.and_eq_true, beq_iff_eq] at same
  rw [same.1, same.2]

/-- A lexeme with a name is read as a mention of the name. -/
theorem mention_of_lexed (named : written.name? = some name)
    (spelled : tokens.map Token.lexed = written :: lexemes) :
    ∃ rest mentioned, rest.map Token.lexed = lexemes ∧ mentioned.name = name ∧
      mention tokens = .ok (mentioned, rest) := by
  obtain ⟨kind, source⟩ := written
  obtain ⟨before, offset, rest, rfl, isRest⟩ := Token.exists_of_lexed spelled
  have isName : Token.name? { kind, before, source, offset } = some name := named
  exact ⟨rest, _, isRest, rfl, by rw [mention, isName]⟩

/-- A lexeme without a name is no mention. -/
theorem mention_of_unnamed (unnamed : written.name? = none)
    (spelled : tokens.map Token.lexed = written :: lexemes) : mention tokens = .error tokens := by
  obtain ⟨kind, source⟩ := written
  obtain ⟨before, offset, rest, rfl, -⟩ := Token.exists_of_lexed spelled
  have noName : Token.name? { kind, before, source, offset } = none := unnamed
  rw [mention, noName]

/-- A single name in parentheses. -/
theorem listed_of_lexed (named : written.name? = some name)
    (spelled : tokens.map Token.lexed = (.symbol, "(") :: written :: (.symbol, ")") :: lexemes) :
    ∃ rest mentioned, rest.map Token.lexed = lexemes ∧ mentioned.name = name ∧
      listed mention tokens = .ok ([mentioned], rest) := by
  obtain ⟨opened, isOpened, opening⟩ := symbol_of_lexed spelled
  obtain ⟨closing, mentioned, isClosing, isName, mentions⟩ := mention_of_lexed named isOpened
  obtain ⟨rest, isRest, closes⟩ := symbol_of_lexed isClosing
  obtain ⟨bound, enough⟩ := Token.exists_length_of_lexed isOpened
  have noComma : symbol "," closing = .error closing := symbol_of_other (by decide) isClosing
  refine ⟨rest, mentioned, isRest, isName, ?_⟩
  simp [listed, opening, enough, separated, mentions, noComma, closes, bind, Except.bind, pure,
    Except.pure]

/-- A list that begins with a lexeme without a name is not read. -/
theorem listed_of_unnamed (unnamed : written.name? = none)
    (spelled : tokens.map Token.lexed = (.symbol, "(") :: written :: lexemes) :
    ∃ stop, listed mention tokens = .error stop := by
  obtain ⟨opened, isOpened, opening⟩ := symbol_of_lexed spelled
  have noMention := mention_of_unnamed unnamed isOpened
  obtain ⟨bound, enough⟩ := Token.exists_length_of_lexed isOpened
  exact ⟨opened, by simp [listed, opening, enough, separated, noMention, bind, Except.bind]⟩

/-- A reference to one column of a table, behind which a comma or a parenthesis stands. -/
theorem reference_of_lexed {table : Lexeme} {tableName mark : String}
    (tableNamed : table.name? = some tableName) (named : written.name? = some name)
    (spelled : tokens.map Token.lexed = table :: (.symbol, "(") :: written :: (.symbol, ")") ::
      (.symbol, mark) :: lexemes) (columns : Option (List String)) :
    ∃ rest target, rest.map Token.lexed = (.symbol, mark) :: lexemes ∧ target.name = tableName ∧
      reference columns tokens = .ok (.reference columns target [name] .noAction, rest) := by
  obtain ⟨middle, target, isMiddle, isTarget, mentions⟩ := mention_of_lexed tableNamed spelled
  obtain ⟨opened, -, opening⟩ := symbol_of_lexed isMiddle
  obtain ⟨rest, mentioned, isRest, rfl, list⟩ := listed_of_lexed named isMiddle
  refine ⟨rest, target, isRest, isTarget, ?_⟩
  obtain ⟨_, _, more, rfl, -⟩ := Token.exists_of_lexed isRest
  simp [reference, mentions, optionalList, opening, list, conditions, bind, Except.bind, pure,
    Except.pure]

/-- A reference whose table or column has no name is not read. -/
theorem reference_of_unnamed {table : Lexeme} (unnamed : table.name? = none ∨ written.name? = none)
    (spelled : tokens.map Token.lexed = table :: (.symbol, "(") :: written :: lexemes)
    (columns : Option (List String)) : ∃ stop, reference columns tokens = .error stop := by
  cases tableNamed : table.name? with
  | none =>
      have noMention := mention_of_unnamed tableNamed spelled
      exact ⟨tokens, by simp [reference, noMention, bind, Except.bind]⟩
  | some tableName =>
      rw [tableNamed] at unnamed
      obtain ⟨middle, target, isMiddle, -, mentions⟩ := mention_of_lexed tableNamed spelled
      obtain ⟨opened, -, opening⟩ := symbol_of_lexed isMiddle
      obtain ⟨stop, stopped⟩ := listed_of_unnamed (unnamed.resolve_left (by simp)) isMiddle
      exact ⟨stop, by simp [reference, mentions, optionalList, opening, stopped, bind, Except.bind]⟩

end Readers

section Steps

variable {tokens : List Token} {lexemes : List Lexeme}

/-- A column with a type stands where the next clause of the column may follow. -/
theorem passes_column {name type : String} {written : Lexeme} (named : written.name? = some name)
    (inferred : type ∈ ["INTEGER", "DATE", "TEXT"]) (ends : EndsClause lexemes)
    (spelled : tokens.map Token.lexed = written :: (.word, type) :: lexemes) :
    ∃ rest, rest.map Token.lexed = lexemes ∧
      Passes .column tokens [.column name type] .inside rest := by
  obtain ⟨typed, mentioned, isTyped, rfl, mentions⟩ := mention_of_lexed named spelled
  have length := congrArg List.length spelled
  obtain ⟨typeBefore, typeOffset, rest, rfl, rfl⟩ := Token.exists_of_lexed isTyped
  obtain ⟨endKind, endSource, endBefore, endOffset, more, rfl, isEnd⟩ := ends.exists_token
  have isType : Token.isTypePart
      { kind := .word, before := typeBefore, source := type, offset := typeOffset } = true := by
    have all : ∀ type ∈ ["INTEGER", "DATE", "TEXT"], Token.isTypePart
        { kind := .word, before := "", source := type, offset := 0 } = true := by decide
    exact all type inferred
  have noPart : Token.isTypePart
      { kind := endKind, before := endBefore, source := endSource, offset := endOffset } = false := by
    have all : ∀ lexeme ∈ clauseEnds, Token.isTypePart
        { kind := lexeme.1, before := "", source := lexeme.2, offset := 0 } = false := by decide
    exact all _ isEnd
  have noParameters : symbol "("
      ({ kind := endKind, before := endBefore, source := endSource, offset := endOffset } :: more) =
        .error _ :=
    symbol_of_other (fun same => absurd (show (.symbol, "(") ∈ clauseEnds from same ▸ isEnd)
      (by decide)) rfl
  refine ⟨_, rfl, .single ?_ ?_⟩
  · obtain ⟨kind, source⟩ := written
    obtain ⟨_, _, _, rfl, -⟩ := Token.exists_of_lexed spelled
    simp [step, mentions, Reading.type, typeParameters, noParameters, isType, noPart,
      Token.spelling, String.join, bind, Except.bind, pure, Except.pure]
  · simp at length ⊢
    omega

/-- A column whose name is none is no column. -/
theorem step_column_of_unnamed {written : Lexeme} (unnamed : written.name? = none)
    (spelled : tokens.map Token.lexed = written :: lexemes) :
    step .column tokens = .error tokens := by
  have noMention := mention_of_unnamed unnamed spelled
  obtain ⟨kind, source⟩ := written
  obtain ⟨_, _, rest, rfl, -⟩ := Token.exists_of_lexed spelled
  simp [step, noMention, bind, Except.bind]

/-- A constraint stands where the next one may follow. -/
theorem passes_constraint (constraint : Constraint) (ends : EndsClause lexemes)
    (spelled : tokens.map Token.lexed = constraint.lexemes ++ lexemes) :
    ∃ rest, rest.map Token.lexed = lexemes ∧
      Passes .inside tokens [constraint.clause] .inside rest := by
  have noOption {token : Token} (isEnd : token.lexed ∈ clauseEnds) :
      ∀ word ∈ ["ASC", "DESC", "AUTOINCREMENT"], token.isWord word = false := by
    have all : ∀ lexeme ∈ clauseEnds, ∀ word ∈ ["ASC", "DESC", "AUTOINCREMENT"],
        Token.isWord { kind := lexeme.1, before := "", source := lexeme.2, offset := 0 } word =
          false := by
      decide
    exact all token.lexed isEnd
  cases constraint with
  | primaryKey =>
      obtain ⟨_, _, _, rfl, others⟩ := Token.exists_of_lexed spelled
      obtain ⟨_, _, rest, rfl, rfl⟩ := Token.exists_of_lexed others
      obtain ⟨endKind, endSource, endBefore, endOffset, more, rfl, isEnd⟩ := ends.exists_token
      have noOption := @noOption ⟨endKind, endBefore, endSource, endOffset⟩ isEnd
      refine ⟨_, rfl, .single ?_ (by simp)⟩
      simp +decide [step, columnClause, word, skipWord, noOption, Constraint.clause, bind,
        Except.bind, pure, Except.pure]
  | unique =>
      obtain ⟨_, _, rest, rfl, rfl⟩ := Token.exists_of_lexed spelled
      refine ⟨_, rfl, .single ?_ (by simp)⟩
      simp +decide [step, columnClause, Constraint.clause, pure, Except.pure]
  | notNull =>
      obtain ⟨_, _, _, rfl, others⟩ := Token.exists_of_lexed spelled
      obtain ⟨_, _, rest, rfl, rfl⟩ := Token.exists_of_lexed others
      refine ⟨_, rfl, .single ?_ (by simp only [List.length_cons]; omega)⟩
      simp +decide [step, columnClause, word, skipWord, Constraint.clause, bind, Except.bind, pure,
        Except.pure]

/-- In front of the end of a clause constraints begin like one. -/
theorem endsClause_constraints (constraints : List Constraint) (ends : EndsClause lexemes) :
    EndsClause (constraints.flatMap Constraint.lexemes ++ lexemes) := by
  cases constraints with
  | nil => exact ends
  | cons constraint constraints => cases constraint <;> exact ⟨_, rfl, by decide⟩

/-- The constraints of a column are passed one by one, and each is found as a clause. -/
theorem passes_constraints (constraints : List Constraint) (ends : EndsClause lexemes)
    (spelled : tokens.map Token.lexed = constraints.flatMap Constraint.lexemes ++ lexemes) :
    ∃ rest, rest.map Token.lexed = lexemes ∧
      Passes .inside tokens (constraints.map Constraint.clause) .inside rest := by
  induction constraints generalizing tokens with
  | nil => exact ⟨tokens, spelled, .refl _ _⟩
  | cons constraint constraints inductionHypothesis =>
      rw [List.flatMap_cons, List.append_assoc] at spelled
      obtain ⟨middle, others, first⟩ :=
        passes_constraint constraint (endsClause_constraints constraints ends) spelled
      obtain ⟨rest, isRest, later⟩ := inductionHypothesis others
      exact ⟨rest, isRest, first.trans later⟩

/-- A parenthesis closes the definition where a constraint or a comma may follow. -/
theorem step_close {place : Place} (after : place = .inside ∨ place = .between)
    (spelled : tokens.map Token.lexed = (.symbol, ")") :: lexemes) :
    ∃ rest, rest.map Token.lexed = lexemes ∧ step place tokens = .ok (([], none), rest) := by
  obtain ⟨_, _, rest, rfl, rfl⟩ := Token.exists_of_lexed spelled
  refine ⟨rest, rfl, ?_⟩
  rcases after with rfl | rfl <;> simp [step]

/-- What names something starts no constraint on the whole table. -/
theorem startsConstraint_of_name {token : Token} (named : token.name?.isSome = true)
    (rest : List Token) : startsConstraint (token :: rest) = false := by
  have isReserved : ∀ word ∈ ["CONSTRAINT", "PRIMARY", "UNIQUE", "CHECK", "FOREIGN"],
      word ∈ Token.reserved := by
    decide
  rw [startsConstraint, Token.isOneOf, List.any_eq_false]
  intro word isStart isWord
  have reserved : token.isOneOf Token.reserved = true :=
    List.any_eq_true.2 ⟨word, isReserved word isStart, isWord⟩
  rw [Token.isWord, Bool.and_eq_true, beq_iff_eq] at isWord
  rw [Token.name?, isWord.1] at named
  simp [reserved] at named

/-- Behind a comma a name begins a column. -/
theorem passes_comma {written : Lexeme} {name : String} (named : written.name? = some name)
    (spelled : tokens.map Token.lexed = (.symbol, ",") :: written :: lexemes) :
    ∃ rest, rest.map Token.lexed = written :: lexemes ∧ Passes .inside tokens [] .column rest := by
  obtain ⟨kind, source⟩ := written
  obtain ⟨_, _, middle, rfl, others⟩ := Token.exists_of_lexed spelled
  obtain ⟨before, offset, rest, rfl, isRest⟩ := Token.exists_of_lexed others
  have isName : Token.name? { kind, before, source, offset } = some name := named
  refine ⟨_, others, .single ?_ (Nat.lt_succ_self _)⟩
  simp [step, startsConstraint_of_name (Option.isSome_of_mem isName)]

/-- No constraint on the whole table goes on with a type, but for a constraint name. -/
theorem step_constraint_of_type {token : Token} {type : String}
    (inferred : type ∈ ["INTEGER", "DATE", "TEXT"]) (unnamed : token.isWord "CONSTRAINT" = false)
    (spelled : tokens.map Token.lexed = (.word, type) :: lexemes) :
    ∃ stop, step .constraint (token :: tokens) = .error stop := by
  have noParenthesis : symbol "(" tokens = .error tokens := symbol_of_other (by simp) spelled
  have noKey : word "KEY" tokens = .error tokens := by
    obtain ⟨_, _, rest, rfl, -⟩ := Token.exists_of_lexed spelled
    have all : ∀ type ∈ ["INTEGER", "DATE", "TEXT"],
        Text.asciiUpper type.toList ≠ "KEY".toList := by
      decide
    refine if_neg ?_
    simpa using all type inferred
  simp only [step, tableClause, unnamed, noKey, listed, enclosed, noParenthesis, bind, Except.bind]
  split
  · contradiction
  repeat' split
  all_goals exact ⟨_, rfl⟩

/-- Behind a comma, what names nothing begins neither a column nor, unless it is the word
that names constraints, a constraint on the whole table. -/
theorem stops_comma_of_unnamed {written : Lexeme} {type : String} (unnamed : written.name? = none)
    (other : Text.asciiUpper written.2.toList ≠ "CONSTRAINT".toList)
    (inferred : type ∈ ["INTEGER", "DATE", "TEXT"])
    (spelled : tokens.map Token.lexed = (.symbol, ",") :: written :: (.word, type) :: lexemes) :
    ∃ place rest stop, Passes .inside tokens [] place rest ∧ step place rest = .error stop := by
  obtain ⟨kind, source⟩ := written
  obtain ⟨_, _, middle, rfl, others⟩ := Token.exists_of_lexed spelled
  have noColumn := step_column_of_unnamed unnamed others
  obtain ⟨before, offset, typed, rfl, isTyped⟩ := Token.exists_of_lexed others
  cases starts : startsConstraint ({ kind, before, source, offset } :: typed) with
  | false =>
      exact ⟨.column, _, _, .single (by simp [step, starts]) (Nat.lt_succ_self _), noColumn⟩
  | true =>
      have noName : Token.isWord { kind, before, source, offset } "CONSTRAINT" = false := by
        rw [Token.isWord, Bool.and_eq_false_iff, beq_eq_false_iff_ne (a := Text.asciiUpper _)]
        exact .inr other
      obtain ⟨stop, stopped⟩ := step_constraint_of_type inferred noName isTyped
      exact ⟨.constraint, _, stop, .single (by simp [step, starts]) (Nat.lt_succ_self _), stopped⟩

/-- Behind a comma a foreign key is a constraint on the whole table. -/
theorem passes_foreign {place : Place} (after : place = .inside ∨ place = .between)
    {line : KeyLine}
    (spelled : tokens.map Token.lexed = (.symbol, ",") :: (line.lexemes ++ lexemes)) :
    ∃ rest, rest.map Token.lexed = line.lexemes ++ lexemes ∧
      Passes place tokens [] .constraint rest := by
  obtain ⟨_, _, rest, rfl, isRest⟩ := Token.exists_of_lexed spelled
  refine ⟨rest, isRest, .single ?_ (Nat.lt_succ_self _)⟩
  obtain ⟨_, _, keyed, rfl, -⟩ := Token.exists_of_lexed isRest
  rcases after with rfl | rfl <;> simp +decide [step, startsConstraint, Token.isOneOf]

/-- A foreign key of one column stands where a comma may follow. -/
theorem passes_foreignKey {place : Place} (after : place = .inside ∨ place = .between)
    {line : KeyLine} {mark : String} (columnNamed : line.column.name?.isSome = true)
    (named : line.IsNamed)
    (spelled : tokens.map Token.lexed = (.symbol, ",") :: line.lexemes ++ (.symbol, mark) :: lexemes) :
    ∃ rest clause, rest.map Token.lexed = (.symbol, mark) :: lexemes ∧ line.Gives clause ∧
      Passes place tokens [clause] .between rest := by
  obtain ⟨columnName, columnNamed⟩ := Option.isSome_iff_exists.1 columnNamed
  obtain ⟨tableName, tableNamed⟩ := Option.isSome_iff_exists.1 named.1
  obtain ⟨targetName, targetNamed⟩ := Option.isSome_iff_exists.1 named.2
  obtain ⟨middle, isMiddle, comma⟩ := passes_foreign after spelled
  have length := congrArg List.length isMiddle
  obtain ⟨before, offset, keyed, rfl, isKeyed⟩ := Token.exists_of_lexed isMiddle
  obtain ⟨opened, isOpened, isKey⟩ := word_of_lexed (by decide) isKeyed
  obtain ⟨referring, mentioned, isReferring, rfl, list⟩ := listed_of_lexed columnNamed isOpened
  obtain ⟨targeted, isTargeted, refers⟩ := word_of_lexed (by decide) isReferring
  obtain ⟨rest, mention, isRest, isMention, referred⟩ :=
    reference_of_lexed tableNamed targetNamed isTargeted (some [mentioned.name])
  have restLength := congrArg List.length isRest
  have noDeferral : ∀ word, skipWord word rest = (false, rest) := by
    intro word
    obtain ⟨_, _, more, rfl, -⟩ := Token.exists_of_lexed isRest
    rfl
  have clause : step .constraint ({ kind := .word, before, source := "FOREIGN", offset } :: keyed) =
      .ok (([.reference (some [mentioned.name]) mention [targetName] .noAction], some .between),
        rest) := by
    simp +decide [step, tableClause, isKey, list, refers, referred, noDeferral, bind, Except.bind,
      pure, Except.pure]
  refine ⟨rest, _, isRest, ⟨mention, isMention ▸ tableNamed.symm, rfl⟩, ?_⟩
  rw [columnNamed, targetNamed]
  simp only [List.length_map, List.length_cons, KeyLine.lexemes, List.length_append,
    List.length_nil] at length restLength
  refine comma.trans (.single clause ?_)
  simp only [List.length_cons]
  omega

/-- A foreign key that names no table or no column is none. -/
theorem step_foreignKey_of_unnamed {line : KeyLine} (columnNamed : line.column.name?.isSome = true)
    (unnamed : ¬line.IsNamed) (spelled : tokens.map Token.lexed = line.lexemes ++ lexemes) :
    ∃ stop, step .constraint tokens = .error stop := by
  obtain ⟨columnName, columnNamed⟩ := Option.isSome_iff_exists.1 columnNamed
  have unnamed : line.table.name? = none ∨ line.target.name? = none := by
    rwa [KeyLine.IsNamed, not_and_or, Option.not_isSome_iff_eq_none,
      Option.not_isSome_iff_eq_none] at unnamed
  obtain ⟨before, offset, keyed, rfl, isKeyed⟩ := Token.exists_of_lexed spelled
  obtain ⟨opened, isOpened, isKey⟩ := word_of_lexed (by decide) isKeyed
  obtain ⟨referring, mentioned, isReferring, rfl, list⟩ := listed_of_lexed columnNamed isOpened
  obtain ⟨targeted, isTargeted, refers⟩ := word_of_lexed (by decide) isReferring
  obtain ⟨stop, stopped⟩ := reference_of_unnamed unnamed isTargeted (some [mentioned.name])
  exact ⟨stop, by
    simp +decide [step, tableClause, isKey, list, refers, stopped, bind, Except.bind]⟩

end Steps

end Place

end Database

end SchemaLoom
