import SchemaLoom.Proofs.GrammarLexemes
import SchemaLoom.Proofs.Rendering
import SchemaLoom.Proofs.StatedKeys

/-!
# Table statements that the database reads

What the database reads in a plain table statement of the grammar, if it can read it to its
end, states the relationships of the grammar, in their order: of each definition that which
the reader of documents takes from it. The database may refuse what the grammar allows, such
as a column behind a key, so all that is said here is said of readings that succeed.
-/

namespace SchemaLoom

namespace Ddl.Grammar

open SchemaLoom.Text SchemaLoom.Database

/-- The word of a type is none of the reserved words, in any case of its letters. -/
theorem DeclaredType.asciiUpper_word (type : DeclaredType) {reserved : String}
    (isReserved : reserved ∈ reservedWords) : asciiUpper type.word ≠ reserved.toList := by
  intro same
  have small : asciiLower (asciiUpper type.word) = asciiLower type.word := by
    rw [asciiLower, asciiUpper, List.map_map]
    exact List.map_congr_left fun c member =>
      toLower_toUpper (ascii_of_isAsciiWord (type.wordChars c member))
  have found : sameIgnoringCase type.word reserved.toList = true := by
    rw [sameIgnoringCase, ← small, same, beq_self_eq_true]
  rw [type.unreserved reserved isReserved] at found
  cases found

/-- Keywords that are reserved name nothing. -/
theorem Keyword.name?_lexeme {capitals : String} (keyword : Keyword capitals)
    (isReserved : capitals ∈ Token.reserved) : keyword.lexeme.name? = none := by
  have reserved : Token.isOneOf ⟨.word, "", String.ofList keyword.letters, 0⟩ Token.reserved =
      true :=
    List.any_eq_true.2 ⟨capitals, isReserved, by simp [keyword.cased]⟩
  rw [Keyword.lexeme, Lexeme.name?, Token.name?]
  exact if_pos reserved

/-- An identifier is no word with a meaning, neither bare nor quoted. -/
theorem Identifier.isWord_of_lexed (identifier : Identifier) {token : Token} {reserved : String}
    (isReserved : reserved ∈ reservedWords) (lexed : token.lexed = identifier.lexeme) :
    token.isWord reserved = false := by
  obtain ⟨kind, before, source, offset⟩ := token
  obtain ⟨rfl, rfl⟩ := Prod.mk.inj lexed
  rw [Identifier.tokenKind, Identifier.piece]
  cases identifier.style with
  | bare nonempty word noDigit =>
      have whole : runs identifier.name = [identifier.name] := by
        refine List.splitOnP_eq_singleton fun c member => ?_
        simpa using List.all_eq_true.1 word c member
      have other := identifier.unreserved identifier.name (by simp [whole]) reserved isReserved
      rw [Token.isWord_word, Piece.written_ordinary, String.toList_ofList]
      exact beq_eq_false_iff_ne.2 other
  | quoted quotes inside =>
      dsimp only
      rw [enclosedKind]
      split <;> rfl

end Ddl.Grammar

namespace Database

open Reading

namespace Place

section Readers

variable {tokens rest : List Token} {first : Lexeme} {lexemes : List Lexeme}

/-- A word or a symbol that is read is the first lexeme. -/
theorem one_lexed {accepts : Token -> Bool} (read : one accepts tokens = .ok rest)
    (spelled : tokens.map Token.lexed = first :: lexemes) : rest.map Token.lexed = lexemes := by
  obtain ⟨_, _, behind, rfl, isBehind⟩ := Token.exists_of_lexed spelled
  rw [one] at read
  split at read
  · cases read
    exact isBehind
  · cases read

/-- A mention that is read has the name of the first lexeme and leaves the others. -/
theorem mention_lexed {mentioned : Mention} (read : mention tokens = .ok (mentioned, rest))
    (spelled : tokens.map Token.lexed = first :: lexemes) :
    first.name? = some mentioned.name ∧ rest.map Token.lexed = lexemes := by
  cases named : first.name? with
  | none =>
      rw [mention_of_unnamed named spelled] at read
      cases read
  | some name =>
      obtain ⟨behind, other, isBehind, rfl, found⟩ := mention_of_lexed named spelled
      rw [found] at read
      cases read
      exact ⟨rfl, isBehind⟩

end Readers

/-- Tokens from which a definition can be read to its closing parenthesis, with the clauses
that are found. -/
inductive Reads : Place -> List Token -> List Clause -> Prop where
  | close {place : Place} {tokens rest : List Token} {found : List Clause}
      (here : step place tokens = .ok ((found, none), rest)) : Reads place tokens []
  | step {place next : Place} {tokens rest : List Token} {found later : List Clause}
      (here : step place tokens = .ok ((found, some next), rest)) (others : Reads next rest later) :
      Reads place tokens (found ++ later)

/-- Clauses that are read to the closing parenthesis are read step by step. -/
theorem reads_of_clauses {bound : Nat} {place : Place} {tokens last : List Token}
    {found : List Clause} (read : clauses bound place tokens = (found, .ok last)) :
    Reads place tokens found := by
  induction bound generalizing place tokens found with
  | zero => cases read
  | succ bound inductionHypothesis =>
      rw [clauses] at read
      split at read
      · cases read
      · rename_i ended
        cases read
        exact .close ended
      · rename_i here
        split at read
        · rename_i others
          cases read
          exact .step here (inductionHypothesis others)
        · cases read

namespace Reads

variable {place : Place} {tokens : List Token} {found : List Clause}

/-- After a step the rest is read from the place where the step leads. -/
theorem of_step (reads : Reads place tokens found) (here : List Clause) (next : Place)
    (rest : List Token) (stepped : Place.step place tokens = .ok ((here, some next), rest)) :
    ∃ later, found = here ++ later ∧ Reads next rest later := by
  cases reads with
  | close ended =>
      rw [stepped] at ended
      cases ended
  | step other others =>
      rw [stepped] at other
      cases other
      exact ⟨_, rfl, others⟩

/-- Where a definition is read, no step fails. -/
theorem not_error (reads : Reads place tokens found) (stop : List Token) :
    Place.step place tokens ≠ .error stop := by
  cases reads with
  | close ended => simp [ended]
  | step here others => simp [here]

end Reads

/-- A column is read as a name, a type and what follows. -/
theorem Reads.column {tokens : List Token} {found : List Clause}
    (reads : Reads .column tokens found) :
    ∃ named typed type rest later, mention tokens = .ok (named, typed) ∧
      Reading.type typed = .ok (type, rest) ∧ found = .column named.name type :: later ∧
        Reads .inside rest later := by
  have shape {stepped : (List Clause × Option Place) × List Token}
      (here : Place.step .column tokens = .ok stepped) :
      ∃ named typed type, mention tokens = .ok (named, typed) ∧
        Reading.type typed = .ok (type, stepped.2) ∧
          stepped.1 = ([.column named.name type], some .inside) := by
    cases tokens with
    | nil => cases here
    | cons token rest =>
        obtain ⟨⟨named, typed⟩, mentions, here⟩ := exists_of_bind_eq_ok here
        obtain ⟨⟨type, behind⟩, isType, here⟩ := exists_of_bind_eq_ok here
        cases here
        exact ⟨named, typed, type, mentions, isType, rfl⟩
  cases reads with
  | close here =>
      obtain ⟨named, typed, type, -, -, isColumn⟩ := shape here
      cases isColumn
  | step here others =>
      obtain ⟨named, typed, type, mentions, isType, isColumn⟩ := shape here
      cases isColumn
      exact ⟨named, typed, type, _, _, mentions, isType, rfl, others⟩

section Ends

/-- What stands behind a part of a column in the grammar: a comma, a parenthesis that closes,
or a word that begins a clause. -/
def EndsPart (lexemes : List Lexeme) : Prop :=
  ∃ first ∈ lexemes.head?, first = (.symbol, ",") ∨ first = (.symbol, ")") ∨
    first.1 = .word ∧ ∃ word ∈ ["PRIMARY", "UNIQUE", "NOT", "REFERENCES"],
      Text.asciiUpper first.2.toList = word.toList

/-- A token that neither names anything nor goes on with a part of a column. -/
structure StopsPart (token : Token) : Prop where
  unnamed : token.name? = none
  noOpening : token.isSymbol "(" = false
  noOption : ∀ word ∈ ["ASC", "DESC", "AUTOINCREMENT", "MATCH", "ON", "INITIALLY"],
    token.isWord word = false

/-- Where a part of a column ends there is a token that stops it. -/
theorem EndsPart.exists_stop {tokens : List Token} {lexemes : List Lexeme} (ends : EndsPart lexemes)
    (spelled : tokens.map Token.lexed = lexemes) :
    ∃ token rest, tokens = token :: rest ∧ StopsPart token := by
  obtain ⟨⟨kind, source⟩, head, ends⟩ := ends
  obtain ⟨others, rfl⟩ : ∃ others, lexemes = (kind, source) :: others := by
    cases lexemes with
    | nil => cases head
    | cons first others => exact ⟨others, by rw [Option.some.inj head]⟩
  obtain ⟨before, offset, rest, rfl, -⟩ := Token.exists_of_lexed spelled
  refine ⟨_, rest, rfl, ?_⟩
  rcases ends with isComma | isClosing | ⟨isWord, word, begins, cased⟩
  · cases isComma
    exact ⟨rfl, rfl, fun _ _ => rfl⟩
  · cases isClosing
    exact ⟨rfl, rfl, fun _ _ => rfl⟩
  · dsimp only at isWord cased
    subst isWord
    have reserved : ∀ word ∈ ["PRIMARY", "UNIQUE", "NOT", "REFERENCES"], word ∈ Token.reserved := by
      decide
    have different : ∀ word ∈ ["PRIMARY", "UNIQUE", "NOT", "REFERENCES"],
        ∀ option ∈ ["ASC", "DESC", "AUTOINCREMENT", "MATCH", "ON", "INITIALLY"],
          (word.toList == option.toList) = false := by
      decide
    refine ⟨?_, rfl, fun option isOption => ?_⟩
    · have isReserved : Token.isOneOf { kind := .word, before, source, offset } Token.reserved =
          true :=
        List.any_eq_true.2 ⟨word, reserved word begins, by simp [cased]⟩
      rw [Token.name?]
      exact if_pos isReserved
    · rw [Token.isWord_word, cased]
      exact different word begins option isOption

end Ends

section Parts

open Ddl.Grammar (enclosedLexemes)

variable {tokens rest : List Token} {found : List Clause} {lexemes : List Lexeme}

/-- Parameters are read over, since there are one or two of them. -/
theorem typeParameters_lexed {number : Ddl.Grammar.Number} {others : List Ddl.Grammar.Number}
    (read : typeParameters tokens = .ok rest)
    (spelled : tokens.map Token.lexed = enclosedLexemes (commaSeparated
      ((number :: others).map fun number => [number.lexeme])) ++ lexemes) :
    rest.map Token.lexed = lexemes := by
  obtain ⟨_, _, opened, rfl, isOpened⟩ := Token.exists_of_lexed spelled
  match others with
  | [] =>
      obtain ⟨_, _, closing, rfl, isClosing⟩ := Token.exists_of_lexed isOpened
      obtain ⟨_, _, behind, rfl, isBehind⟩ := Token.exists_of_lexed isClosing
      simp [typeParameters, symbol, signedNumber, bind, Except.bind] at read
      exact read ▸ isBehind
  | [second] =>
      obtain ⟨_, _, comma, rfl, isComma⟩ := Token.exists_of_lexed isOpened
      obtain ⟨_, _, next, rfl, isNext⟩ := Token.exists_of_lexed isComma
      obtain ⟨_, _, closing, rfl, isClosing⟩ := Token.exists_of_lexed isNext
      obtain ⟨_, _, behind, rfl, isBehind⟩ := Token.exists_of_lexed isClosing
      simp [typeParameters, symbol, signedNumber, bind, Except.bind] at read
      exact read ▸ isBehind
  | second :: third :: others =>
      obtain ⟨_, _, comma, rfl, isComma⟩ := Token.exists_of_lexed isOpened
      obtain ⟨_, _, next, rfl, isNext⟩ := Token.exists_of_lexed isComma
      obtain ⟨_, _, more, rfl, isMore⟩ := Token.exists_of_lexed isNext
      obtain ⟨_, _, behind, rfl, -⟩ := Token.exists_of_lexed isMore
      simp [typeParameters, symbol, signedNumber, bind, Except.bind] at read

/-- A word that is no part of a type is a clause only where it says nothing. -/
theorem reads_noType {token : Token} (isWord : token.kind = .word)
    (other : ∀ reserved ∈ Ddl.Grammar.reservedWords, token.isWord reserved = false)
    (unnamed : ∀ next ∈ rest.head?, next.name? = none ∧ next.isWord "INITIALLY" = false)
    (reads : Reads .inside (token :: rest) found) : Reads .inside rest found := by
  have noMention : ∃ stop, mention rest = .error stop := by
    cases rest with
    | nil => exact ⟨_, rfl⟩
    | cons next rest => exact ⟨_, by rw [mention, (unnamed next rfl).1]⟩
  have noDeferral : deferral rest = .ok rest := by
    cases rest with
    | nil => rfl
    | cons next rest => simp [deferral, skipWord, word, (unnamed next rfl).2]
  obtain ⟨stop, noMention⟩ := noMention
  have stepped : step .inside (token :: rest) = columnClause token rest := by
    simp [step, Token.isSymbol, isWord]
  cases deferrable : token.isWord "DEFERRABLE" with
  | true =>
      have here : step .inside (token :: rest) = .ok (([], some .inside), rest) := by
        rw [stepped]
        simp [columnClause, other _ (by decide : "CONSTRAINT" ∈ _),
          other _ (by decide : "NULL" ∈ _), other _ (by decide : "NOT" ∈ _), deferrable,
          noDeferral, bind, Except.bind, pure, Except.pure]
      obtain ⟨later, rfl, others⟩ := reads.of_step [] .inside rest here
      exact others
  | false =>
      have refused : ∃ stop, step .inside (token :: rest) = .error stop := by
        rw [stepped]
        simp [columnClause, other _ (by decide : "CONSTRAINT" ∈ _),
          other _ (by decide : "NULL" ∈ _), other _ (by decide : "NOT" ∈ _), deferrable,
          other _ (by decide : "PRIMARY" ∈ _), other _ (by decide : "UNIQUE" ∈ _),
          other _ (by decide : "DEFAULT" ∈ _), other _ (by decide : "CHECK" ∈ _),
          other _ (by decide : "REFERENCES" ∈ _), noMention, bind, Except.bind]
        split <;> exact ⟨_, rfl⟩
      obtain ⟨stop, refused⟩ := refused
      exact (reads.not_error stop refused).elim

/-- A type is one word with its parameters, or there is none. -/
theorem type_ok {token : Token} {behind : List Token} {spelling : String}
    (single : ∀ next ∈ behind.head?, next.name? = none)
    (read : Reading.type (token :: behind) = .ok (spelling, rest)) :
    typeParameters behind = .ok rest ∨ rest = token :: behind := by
  rw [Reading.type] at read
  cases isPart : token.isTypePart with
  | false =>
      simp [isPart, pure, Except.pure] at read
      exact .inr read.2.symm
  | true =>
      have noPart : behind.takeWhile Token.isTypePart = [] := by
        cases behind with
        | nil => rfl
        | cons next more =>
            exact List.takeWhile_cons_of_neg (by simp [Token.isTypePart, single next rfl])
      simp only [List.takeWhile_cons_of_pos isPart, noPart] at read
      obtain ⟨ending, found, read⟩ := exists_of_bind_eq_ok read
      cases read
      exact .inl found

/-- A type is read over, or the database takes it for a clause that says nothing. -/
theorem reads_type {type : Ddl.Grammar.DeclaredType} {spelling : String}
    (ends : EndsPart lexemes) (spelled : tokens.map Token.lexed = type.lexemes ++ lexemes)
    (read : Reading.type tokens = .ok (spelling, rest)) (reads : Reads .inside rest found) :
    ∃ behind, behind.map Token.lexed = lexemes ∧ Reads .inside behind found := by
  obtain ⟨before, offset, behind, rfl, isBehind⟩ := Token.exists_of_lexed spelled
  have other : ∀ reserved ∈ Ddl.Grammar.reservedWords, Token.isWord
      { kind := .word, before, source := String.ofList type.word, offset } reserved = false := by
    intro reserved isReserved
    rw [Token.isWord_word, String.toList_ofList]
    exact beq_eq_false_iff_ne.2 (type.asciiUpper_word isReserved)
  cases shape : type.parameters with
  | none =>
      rw [shape] at isBehind
      obtain ⟨next, more, rfl, stops⟩ := ends.exists_stop isBehind
      have unnamed : ∀ other ∈ (next :: more).head?,
          other.name? = none ∧ other.isWord "INITIALLY" = false := by
        intro other head
        cases head
        exact ⟨stops.unnamed, stops.noOption _ (by decide)⟩
      rcases type_ok (fun other head => (unnamed other head).1) read with parameters | rfl
      · rw [typeParameters, symbol, one, stops.noOpening] at parameters
        cases parameters
        exact ⟨_, isBehind, reads⟩
      · exact ⟨_, isBehind, reads_noType rfl other unnamed reads⟩
  | some parameters =>
      obtain ⟨gap, numbers⟩ := parameters
      rw [shape] at isBehind
      obtain ⟨_, _, inner, rfl, -⟩ := Token.exists_of_lexed isBehind
      rcases type_ok (fun other head => by cases head; rfl) read with parameters | rfl
      · exact ⟨rest, typeParameters_lexed parameters isBehind, reads⟩
      · have inside := reads_noType rfl other (fun _ head => by cases head; exact ⟨rfl, rfl⟩) reads
        exact (inside.not_error _ rfl).elim

/-- An identifier is read as a mention of its name. -/
theorem mention_identifier {identifier : Ddl.Grammar.Identifier} {mentioned : Mention}
    (spelled : tokens.map Token.lexed = identifier.lexeme :: lexemes)
    (read : mention tokens = .ok (mentioned, rest)) :
    mentioned.name = identifier.string ∧ rest.map Token.lexed = lexemes := by
  obtain ⟨named, isRest⟩ := mention_lexed read spelled
  refine ⟨?_, isRest⟩
  rcases identifier.name?_lexeme with unnamed | isName
  · rw [unnamed] at named
    cases named
  · rw [isName] at named
    exact (Option.some.inj named).symm

/-- A column is found under its name, whatever is taken for its type. -/
theorem reads_column {column : Ddl.Grammar.Column} (ends : EndsPart lexemes)
    (spelled : tokens.map Token.lexed =
      column.name.lexeme :: (column.type.lexemes ++ lexemes))
    (reads : Reads .column tokens found) :
    ∃ type rest later, found = .column column.name.string type :: later ∧
      rest.map Token.lexed = lexemes ∧ Reads .inside rest later := by
  obtain ⟨named, typed, type, behind, later, mentions, isType, rfl, others⟩ := reads.column
  obtain ⟨isName, isTyped⟩ := mention_identifier spelled mentions
  obtain ⟨rest, isRest, inside⟩ := reads_type ends isTyped isType others
  exact ⟨type, rest, later, by rw [isName], isRest, inside⟩

/-- An identifier in parentheses is read as a list of its name alone. -/
theorem listed_identifier {identifier : Ddl.Grammar.Identifier} {items : List Mention}
    (spelled : tokens.map Token.lexed = enclosedLexemes [identifier.lexeme] ++ lexemes)
    (read : listed mention tokens = .ok (items, rest)) :
    items.map Mention.name = [identifier.string] ∧ rest.map Token.lexed = lexemes := by
  rcases identifier.name?_lexeme with unnamed | isName
  · obtain ⟨stop, refused⟩ := listed_of_unnamed unnamed spelled
    rw [refused] at read
    cases read
  · obtain ⟨behind, mentioned, isBehind, named, found⟩ := listed_of_lexed isName spelled
    rw [found] at read
    cases read
    exact ⟨by rw [List.map_singleton, named], isBehind⟩

/-- A reference leads to one column of a table, and nothing is passed on. -/
theorem reference_ok {table column : Ddl.Grammar.Identifier} {columns : Option (List String)}
    {clause : Clause} (ends : EndsPart lexemes)
    (spelled : tokens.map Token.lexed =
      table.lexeme :: (enclosedLexemes [column.lexeme] ++ lexemes))
    (read : reference columns tokens = .ok (clause, rest)) :
    rest.map Token.lexed = lexemes ∧ ∃ target : Mention, target.name = table.string ∧
      clause = .reference columns target [column.string] .noAction := by
  obtain ⟨⟨target, listing⟩, mentions, read⟩ := exists_of_bind_eq_ok read
  obtain ⟨isTarget, isListing⟩ := mention_identifier spelled mentions
  obtain ⟨⟨targets, behind⟩, list, read⟩ := exists_of_bind_eq_ok read
  obtain ⟨opened, -, opening⟩ := symbol_of_lexed isListing
  rw [optionalList, opening] at list
  obtain ⟨⟨items, after⟩, items?, list⟩ := exists_of_bind_eq_ok list
  cases list
  obtain ⟨names, isBehind⟩ := listed_identifier isListing items?
  obtain ⟨⟨onDelete, final⟩, condition, read⟩ := exists_of_bind_eq_ok read
  cases read
  obtain ⟨token, more, rfl, stops⟩ := ends.exists_stop isBehind
  simp [conditions, stops.noOption _ (by decide : "MATCH" ∈ _),
    stops.noOption _ (by decide : "ON" ∈ _)] at condition
  obtain ⟨rfl, rfl⟩ := condition
  exact ⟨isBehind, target, isTarget, by rw [← names]; rfl⟩

end Parts

section Clauses

open Ddl.Grammar (Clauses)

variable {tokens : List Token} {found : List Clause} {lexemes : List Lexeme}

/-- A clause of a column states what it refers to, if it is a reference. -/
theorem reads_clause {clause : Ddl.Grammar.Clause} (ends : EndsPart lexemes)
    (spelled : tokens.map Token.lexed = clause.lexemes ++ lexemes)
    (reads : Reads .inside tokens found) :
    ∃ rest later, rest.map Token.lexed = lexemes ∧ Reads .inside rest later ∧
      ∀ table last, statedBy table last found =
        (clause.reference?.map (Ddl.Grammar.Reference.relationship table last)).toList ++
          statedBy table last later := by
  cases clause with
  | primaryKey words =>
      obtain ⟨_, _, keyed, rfl, isKeyed⟩ := Token.exists_of_lexed spelled
      obtain ⟨_, _, rest, rfl, isRest⟩ := Token.exists_of_lexed isKeyed
      obtain ⟨token, more, rfl, stops⟩ := ends.exists_stop isRest
      obtain ⟨later, rfl, others⟩ :=
        reads.of_step [.primaryKey none false false] .inside (token :: more) (by
          simp +decide [step, columnClause, word, skipWord, words.firstWord.cased,
            words.secondWord.cased, stops.noOption _ (by decide : "ASC" ∈ _),
            stops.noOption _ (by decide : "DESC" ∈ _),
            stops.noOption _ (by decide : "AUTOINCREMENT" ∈ _), bind, Except.bind, pure,
            Except.pure])
      exact ⟨_, later, isRest, others, fun _ _ => rfl⟩
  | unique keyword =>
      obtain ⟨_, _, rest, rfl, isRest⟩ := Token.exists_of_lexed spelled
      obtain ⟨later, rfl, others⟩ := reads.of_step [.unique none] .inside rest (by
        simp +decide [step, columnClause, keyword.cased, pure, Except.pure])
      exact ⟨_, later, isRest, others, fun _ _ => rfl⟩
  | notNull words =>
      obtain ⟨_, _, negated, rfl, isNegated⟩ := Token.exists_of_lexed spelled
      obtain ⟨_, _, rest, rfl, isRest⟩ := Token.exists_of_lexed isNegated
      obtain ⟨later, rfl, others⟩ := reads.of_step [.notNull] .inside rest (by
        simp +decide [step, columnClause, word, skipWord, words.firstWord.cased,
          words.secondWord.cased, bind, Except.bind, pure, Except.pure])
      exact ⟨_, later, isRest, others, fun _ _ => rfl⟩
  | references stated =>
      obtain ⟨_, _, referring, rfl, isReferring⟩ := Token.exists_of_lexed spelled
      cases read : reference none referring with
      | error stop =>
          refine absurd ?_ (reads.not_error stop)
          simp +decide [step, columnClause, stated.word.cased, read, bind, Except.bind]
      | ok result =>
          obtain ⟨clause, rest⟩ := result
          obtain ⟨isRest, target, named, rfl⟩ := reference_ok ends isReferring read
          obtain ⟨later, rfl, others⟩ := reads.of_step
            [.reference none target [stated.column.item.string] .noAction] .inside rest (by
              simp +decide [step, columnClause, stated.word.cased, read, bind, Except.bind, pure,
                Except.pure])
          refine ⟨_, later, isRest, others, fun table last => ?_⟩
          simp [statedBy, Clause.relationship?, Clause.lastAfter, named,
            Ddl.Grammar.Clause.reference?, Ddl.Grammar.Reference.relationship,
            Ddl.Grammar.QualifiedName.string]

/-- In front of the end of a part the clauses of a column begin like one. -/
theorem endsPart_clauses (clauses : Clauses) (ends : EndsPart lexemes) :
    EndsPart (clauses.lexemes ++ lexemes) := by
  cases clauses with
  | nil => exact ends
  | cons part clauses =>
      obtain ⟨gap, clause⟩ := part
      have begins {capitals : String} (keyword : Ddl.Grammar.Keyword capitals)
          (begins : capitals ∈ ["PRIMARY", "UNIQUE", "NOT", "REFERENCES"]) (behind : List Lexeme) :
          EndsPart (keyword.lexeme :: behind) :=
        ⟨_, rfl, .inr (.inr ⟨rfl, capitals, begins, by
          rw [Ddl.Grammar.Keyword.lexeme, String.toList_ofList, keyword.cased]⟩)⟩
      cases clause with
      | primaryKey words => exact begins words.firstWord (by decide) _
      | unique keyword => exact begins keyword (by decide) _
      | notNull words => exact begins words.firstWord (by decide) _
      | references stated => exact begins stated.word (by decide) _

/-- The clauses of a column state the references among them, in order. -/
theorem reads_clauses {clauses : Clauses} (ends : EndsPart lexemes)
    (spelled : tokens.map Token.lexed = clauses.lexemes ++ lexemes)
    (reads : Reads .inside tokens found) :
    ∃ rest later, rest.map Token.lexed = lexemes ∧ Reads .inside rest later ∧
      ∀ table last, statedBy table last found =
        (clauses.filterMap fun part => part.2.reference?).map
          (Ddl.Grammar.Reference.relationship table last) ++ statedBy table last later := by
  induction clauses generalizing tokens found with
  | nil => exact ⟨tokens, found, spelled, reads, fun _ _ => rfl⟩
  | cons part clauses inductionHypothesis =>
      have first : tokens.map Token.lexed =
          part.2.lexemes ++ (Clauses.lexemes clauses ++ lexemes) := by
        rw [spelled, Clauses.lexemes, List.flatMap_cons, List.append_assoc]
        rfl
      obtain ⟨middle, others, isMiddle, inside, here⟩ :=
        reads_clause (endsPart_clauses clauses ends) first reads
      obtain ⟨rest, later, isRest, final, behind⟩ := inductionHypothesis isMiddle inside
      refine ⟨rest, later, isRest, final, fun table last => ?_⟩
      rw [here, behind, List.filterMap_cons]
      cases part.2.reference? <;> simp

end Clauses

section Constraints

open Ddl.Grammar (enclosedLexemes)

variable {tokens rest : List Token} {found : List Clause} {lexemes : List Lexeme}

/-- What stands behind a definition: a comma, or the parenthesis that closes the table. -/
def EndsItem (lexemes : List Lexeme) : Prop :=
  ∃ mark ∈ [",", ")"], ∃ others, lexemes = (.symbol, mark) :: others

/-- What stands behind a definition also ends a part of it. -/
theorem EndsItem.endsPart (ends : EndsItem lexemes) : EndsPart lexemes := by
  obtain ⟨mark, isMark, others, rfl⟩ := ends
  refine ⟨_, rfl, ?_⟩
  simp only [List.mem_cons, List.not_mem_nil, or_false] at isMark
  rcases isMark with rfl | rfl
  · exact .inl rfl
  · exact .inr (.inl rfl)

/-- A column of a key is read up to the mark behind it. -/
theorem keyColumn_lexed {identifier : Ddl.Grammar.Identifier} {column : Mention} {mark : String}
    (spelled : tokens.map Token.lexed = identifier.lexeme :: (.symbol, mark) :: lexemes)
    (read : keyColumn tokens = .ok (column, rest)) :
    rest.map Token.lexed = (.symbol, mark) :: lexemes := by
  obtain ⟨⟨named, behind⟩, mentions, read⟩ := exists_of_bind_eq_ok read
  obtain ⟨-, isBehind⟩ := mention_identifier spelled mentions
  obtain ⟨_, _, more, rfl, -⟩ := Token.exists_of_lexed isBehind
  cases read
  exact isBehind

/-- The columns that a key lists are read up to the closing parenthesis. -/
theorem separated_keyColumn {first : Ddl.Grammar.Identifier}
    {others : List Ddl.Grammar.Identifier} {bound : Nat} {columns : List Mention}
    (spelled : tokens.map Token.lexed = commaSeparated
      ((first :: others).map fun identifier => [identifier.lexeme]) ++ (.symbol, ")") :: lexemes)
    (read : separated keyColumn bound tokens = .ok (columns, rest)) :
    rest.map Token.lexed = (.symbol, ")") :: lexemes := by
  induction others generalizing first tokens bound columns with
  | nil =>
      cases bound with
      | zero => cases read
      | succ bound =>
          obtain ⟨⟨column, behind⟩, here, read⟩ := exists_of_bind_eq_ok read
          have isBehind := keyColumn_lexed spelled here
          obtain ⟨_, _, more, rfl, -⟩ := Token.exists_of_lexed isBehind
          cases read
          exact isBehind
  | cons second others inductionHypothesis =>
      cases bound with
      | zero => cases read
      | succ bound =>
          obtain ⟨⟨column, behind⟩, here, read⟩ := exists_of_bind_eq_ok read
          have isBehind := keyColumn_lexed spelled here
          obtain ⟨_, _, more, rfl, isMore⟩ := Token.exists_of_lexed isBehind
          obtain ⟨⟨later, final⟩, behind, read⟩ := exists_of_bind_eq_ok read
          cases read
          exact inductionHypothesis isMore behind

/-- A key of the whole table states no relationship. -/
theorem reads_key {key : Ddl.Grammar.Key}
    (spelled : tokens.map Token.lexed = key.lexemes ++ lexemes)
    (reads : Reads .constraint tokens found) :
    ∃ rest later, rest.map Token.lexed = lexemes ∧ Reads .between rest later ∧
      ∀ table last, statedBy table last found = statedBy table last later := by
  rw [Ddl.Grammar.Key.lexemes, List.append_assoc] at spelled
  cases opening : key.opening with
  | primary words =>
      rw [opening] at spelled
      obtain ⟨_, _, keyed, rfl, isKeyed⟩ := Token.exists_of_lexed spelled
      obtain ⟨_, _, listing, rfl, isListing⟩ := Token.exists_of_lexed isKeyed
      obtain ⟨_, _, inner, rfl, isInner⟩ := Token.exists_of_lexed isListing
      cases read : separated keyColumn inner.length inner with
      | error stop =>
          refine absurd ?_ (reads.not_error stop)
          simp +decide [step, tableClause, word, symbol, words.firstWord.cased,
            words.secondWord.cased, read, bind, Except.bind]
      | ok result =>
          obtain ⟨columns, closing⟩ := result
          have isClosing := separated_keyColumn (isInner.trans (List.append_assoc ..)) read
          obtain ⟨_, _, rest, rfl, isRest⟩ := Token.exists_of_lexed isClosing
          obtain ⟨later, rfl, others⟩ :=
            reads.of_step [.primaryKey (some columns) false false] .between rest (by
              simp +decide [step, tableClause, word, symbol, skipWord, words.firstWord.cased,
                words.secondWord.cased, read, bind, Except.bind, pure, Except.pure])
          exact ⟨rest, later, isRest, others, fun _ _ => rfl⟩
  | unique keyword =>
      rw [opening] at spelled
      obtain ⟨_, _, listing, rfl, isListing⟩ := Token.exists_of_lexed spelled
      obtain ⟨_, _, inner, rfl, isInner⟩ := Token.exists_of_lexed isListing
      cases read : separated keyColumn inner.length inner with
      | error stop =>
          refine absurd ?_ (reads.not_error stop)
          simp +decide [step, tableClause, listed, symbol, keyword.cased, read, bind, Except.bind]
      | ok result =>
          obtain ⟨columns, closing⟩ := result
          have isClosing := separated_keyColumn (isInner.trans (List.append_assoc ..)) read
          obtain ⟨_, _, rest, rfl, isRest⟩ := Token.exists_of_lexed isClosing
          obtain ⟨later, rfl, others⟩ := reads.of_step [.unique (some columns)] .between rest (by
            simp +decide [step, tableClause, listed, symbol, keyword.cased, read, bind, Except.bind,
              pure, Except.pure])
          exact ⟨rest, later, isRest, others, fun _ _ => rfl⟩

/-- A foreign key states a relationship from the column that it lists. -/
theorem reads_foreignKey {foreign : Ddl.Grammar.ForeignKey} (ends : EndsItem lexemes)
    (spelled : tokens.map Token.lexed = foreign.lexemes ++ lexemes)
    (reads : Reads .constraint tokens found) :
    ∃ rest later, rest.map Token.lexed = lexemes ∧ Reads .between rest later ∧
      ∀ table last, statedBy table last found =
        foreign.reference.relationship table foreign.column.item.string ::
          statedBy table last later := by
  rw [Ddl.Grammar.ForeignKey.lexemes, List.append_assoc, List.append_assoc] at spelled
  obtain ⟨_, _, keyed, rfl, isKeyed⟩ := Token.exists_of_lexed spelled
  obtain ⟨_, _, listing, rfl, isListing⟩ := Token.exists_of_lexed isKeyed
  cases list : listed mention listing with
  | error stop =>
      refine absurd ?_ (reads.not_error stop)
      simp +decide [step, tableClause, word, foreign.words.firstWord.cased,
        foreign.words.secondWord.cased, list, bind, Except.bind]
  | ok result =>
      obtain ⟨columns, behind⟩ := result
      obtain ⟨names, isBehind⟩ := listed_identifier isListing list
      obtain ⟨_, _, referring, rfl, isReferring⟩ := Token.exists_of_lexed isBehind
      cases read : reference (some (columns.map (·.name))) referring with
      | error stop =>
          refine absurd ?_ (reads.not_error stop)
          simp +decide [step, tableClause, word, foreign.words.firstWord.cased,
            foreign.words.secondWord.cased, foreign.reference.word.cased, list, read, bind,
            Except.bind]
      | ok result =>
          obtain ⟨clause, rest⟩ := result
          obtain ⟨isRest, target, named, rfl⟩ := reference_ok ends.endsPart isReferring read
          obtain ⟨mark, isMark, others, rfl⟩ := ends
          obtain ⟨_, _, more, rfl, -⟩ := Token.exists_of_lexed isRest
          obtain ⟨later, rfl, others⟩ := reads.of_step
            [.reference (some (columns.map (·.name))) target [foreign.reference.column.item.string]
              .noAction] .between _ (by
            simp +decide [step, tableClause, word, skipWord, foreign.words.firstWord.cased,
              foreign.words.secondWord.cased, foreign.reference.word.cased, list, read, bind,
              Except.bind, pure, Except.pure]
            rfl)
          refine ⟨_, later, isRest, others, fun table last => ?_⟩
          simp [statedBy, Clause.relationship?, Clause.lastAfter, named, names,
            Ddl.Grammar.Reference.relationship, Ddl.Grammar.QualifiedName.string]

/-- A name begins no constraint on the whole table. -/
theorem not_reads_name {identifier : Ddl.Grammar.Identifier}
    (spelled : tokens.map Token.lexed = identifier.lexeme :: lexemes) :
    ¬Reads .constraint tokens found := by
  intro reads
  cases tokens with
  | nil => cases spelled
  | cons token rest =>
      have other {reserved : String} (isReserved : reserved ∈ Ddl.Grammar.reservedWords) :=
        identifier.isWord_of_lexed isReserved (List.cons.inj spelled).1
      exact reads.not_error (token :: rest) (by
        simp [step, tableClause, other (by decide : "CONSTRAINT" ∈ _),
          other (by decide : "PRIMARY" ∈ _), other (by decide : "UNIQUE" ∈ _),
          other (by decide : "CHECK" ∈ _), other (by decide : "FOREIGN" ∈ _)])

/-- What names nothing begins no column. -/
theorem not_reads_column {first : Lexeme} (unnamed : first.name? = none)
    (spelled : tokens.map Token.lexed = first :: lexemes) : ¬Reads .column tokens found :=
  fun reads => reads.not_error tokens (step_column_of_unnamed unnamed spelled)

end Constraints

section Definitions

open Ddl.Grammar (Item)

variable {place : Place} {tokens : List Token} {found : List Clause} {lexemes : List Lexeme}
  {items : List Item}

/-- The columns of definitions refer to one other column each at most. -/
def ReferOnce (items : List Item) : Prop :=
  ∀ item ∈ items, ∀ column ∈ item.column?,
    (column.clauses.filterMap fun part => part.2.reference?).length ≤ 1

/-- What begins like a column is one, and states what its reference does. -/
theorem reads_first {item : Item} (once : ReferOnce [item]) (ends : EndsItem lexemes)
    (spelled : tokens.map Token.lexed = item.lexemes ++ lexemes)
    (reads : Reads .column tokens found) (table last : String) :
    ∃ rest later final, rest.map Token.lexed = lexemes ∧ Reads .inside rest later ∧
      statedBy table last found =
        (item.relationship? table).toList ++ statedBy table final later := by
  have noColumn {capitals : String} (keyword : Ddl.Grammar.Keyword capitals)
      (isReserved : capitals ∈ Token.reserved) {behind : List Lexeme} :
      tokens.map Token.lexed ≠ keyword.lexeme :: behind :=
    fun same => not_reads_column (keyword.name?_lexeme isReserved) same reads
  cases item with
  | foreignKey foreign => exact absurd spelled (noColumn foreign.words.firstWord (by decide))
  | key key =>
      rw [Item.lexemes, Ddl.Grammar.Key.lexemes] at spelled
      cases opening : key.opening with
      | primary words =>
          rw [opening] at spelled
          exact absurd spelled (noColumn words.firstWord (by decide))
      | unique keyword =>
          rw [opening] at spelled
          exact absurd spelled (noColumn keyword (by decide))
  | column column =>
      have once := once _ (List.mem_singleton_self _) column rfl
      have parts : tokens.map Token.lexed =
          column.name.lexeme :: (column.type.lexemes ++ (column.clauses.lexemes ++ lexemes)) := by
        rw [spelled, Item.lexemes, Ddl.Grammar.Column.lexemes, List.cons_append, List.append_assoc]
      obtain ⟨type, middle, inner, rfl, isMiddle, inside⟩ :=
        reads_column (endsPart_clauses _ ends.endsPart) parts reads
      obtain ⟨rest, later, isRest, others, stated⟩ := reads_clauses ends.endsPart isMiddle inside
      have single : (column.clauses.filterMap fun part => part.2.reference?) =
          column.clauses.reference?.toList := by
        rw [Ddl.Grammar.Clauses.reference?, ← List.head?_filterMap]
        generalize (column.clauses.filterMap fun part => part.2.reference?) = references at once ⊢
        cases references with
        | nil => rfl
        | cons reference others =>
            obtain rfl := List.length_eq_zero_iff.1 (Nat.le_zero.1 (Nat.le_of_succ_le_succ once))
            rfl
      refine ⟨rest, later, column.name.string, isRest, others, ?_⟩
      have whole := stated table column.name.string
      rw [single] at whole
      refine whole.trans (congrArg (· ++ _) ?_)
      rw [Item.relationship?]
      cases column.clauses.reference? <;> rfl

/-- Behind a comma stands a constraint on the whole table or a column. -/
theorem reads_comma (after : place = .inside ∨ place = .between)
    (spelled : tokens.map Token.lexed = (.symbol, ",") :: lexemes)
    (reads : Reads place tokens found) :
    ∃ rest, rest.map Token.lexed = lexemes ∧
      (Reads .constraint rest found ∨ Reads .column rest found) := by
  obtain ⟨_, _, rest, rfl, isRest⟩ := Token.exists_of_lexed spelled
  refine ⟨rest, isRest, ?_⟩
  rcases after with rfl | rfl
  · cases starts : startsConstraint rest with
    | true =>
        obtain ⟨later, rfl, others⟩ := reads.of_step [] .constraint rest (by simp [step, starts])
        exact .inl others
    | false =>
        obtain ⟨later, rfl, others⟩ := reads.of_step [] .column rest (by simp [step, starts])
        exact .inr others
  · obtain ⟨later, rfl, others⟩ := reads.of_step [] .constraint rest (by simp [step])
    exact .inl others

/-- The step: a definition states its relationship, if it has one. -/
theorem reads_item {item : Item} (after : place = .inside ∨ place = .between)
    (once : ReferOnce [item]) (ends : EndsItem lexemes)
    (spelled : tokens.map Token.lexed = (.symbol, ",") :: (item.lexemes ++ lexemes))
    (reads : Reads place tokens found) (table last : String) :
    ∃ next rest later final, (next = .inside ∨ next = .between) ∧
      rest.map Token.lexed = lexemes ∧ Reads next rest later ∧
        statedBy table last found =
          (item.relationship? table).toList ++ statedBy table final later := by
  obtain ⟨begun, isBegun, constraint | column⟩ := reads_comma after spelled reads
  · cases item with
    | column column => exact absurd constraint (not_reads_name isBegun)
    | foreignKey foreign =>
        obtain ⟨rest, later, isRest, others, stated⟩ := reads_foreignKey ends isBegun constraint
        exact ⟨.between, rest, later, last, .inr rfl, isRest, others, stated table last⟩
    | key key =>
        obtain ⟨rest, later, isRest, others, stated⟩ := reads_key isBegun constraint
        exact ⟨.between, rest, later, last, .inr rfl, isRest, others, stated table last⟩
  · obtain ⟨rest, later, final, isRest, others, stated⟩ :=
      reads_first once ends isBegun column table last
    exact ⟨.inside, rest, later, final, .inl rfl, isRest, others, stated⟩

/-- Behind a definition there are others with commas in front, or the closing parenthesis. -/
theorem endsItem_items (items : List Item) :
    EndsItem (items.flatMap (fun item => (.symbol, ",") :: item.lexemes) ++ [(.symbol, ")")]) := by
  cases items with
  | nil => exact ⟨")", by decide, [], rfl⟩
  | cons item items => exact ⟨",", by decide, _, rfl⟩

/-- The run: definitions state their relationships, in order. -/
theorem reads_items (after : place = .inside ∨ place = .between) (once : ReferOnce items)
    (spelled : tokens.map Token.lexed =
      items.flatMap (fun item => (.symbol, ",") :: item.lexemes) ++ [(.symbol, ")")])
    (reads : Reads place tokens found) (table last : String) :
    statedBy table last found = items.filterMap (Item.relationship? table) := by
  induction items generalizing place tokens found last with
  | nil =>
      obtain ⟨rest, -, closes⟩ := step_close after spelled
      cases reads with
      | close here => rfl
      | step here others =>
          rw [closes] at here
          cases here
  | cons item items inductionHypothesis =>
      have parts : tokens.map Token.lexed = (.symbol, ",") :: (item.lexemes ++
          (items.flatMap (fun item => (.symbol, ",") :: item.lexemes) ++ [(.symbol, ")")])) := by
        rw [spelled, List.flatMap_cons, List.append_assoc, List.cons_append]
      obtain ⟨onceHere, onceLater⟩ := List.forall_mem_cons.1 once
      obtain ⟨next, rest, later, final, isNext, isRest, others, stated⟩ :=
        reads_item after (List.forall_mem_singleton.2 onceHere) (endsItem_items items) parts reads
          table last
      rw [stated, inductionHypothesis isNext onceLater isRest others final, List.filterMap_cons]
      cases item.relationship? table <;> rfl

/-- What is read between the parentheses of a table states the relationships of its
definitions, in order. -/
theorem reads_content {content : Ddl.Grammar.Content} (once : ReferOnce content.definitions)
    (spelled : tokens.map Token.lexed =
      commaSeparated (content.definitions.map Item.lexemes) ++ [(.symbol, ")")])
    (reads : Reads .column tokens found) (table last : String) :
    statedBy table last found = content.definitions.filterMap (Item.relationship? table) := by
  cases definitions : content.definitions with
  | nil =>
      rw [definitions] at spelled
      exact absurd reads (not_reads_column rfl spelled)
  | cons item items =>
      rw [definitions] at once spelled
      rw [List.map_cons, commaSeparated, List.flatMap_map, List.append_assoc] at spelled
      obtain ⟨onceHere, onceLater⟩ := List.forall_mem_cons.1 once
      obtain ⟨rest, later, final, isRest, others, stated⟩ :=
        reads_first (List.forall_mem_singleton.2 onceHere) (endsItem_items items) spelled reads
          table last
      rw [stated, reads_items (.inl rfl) onceLater isRest others, List.filterMap_cons]
      cases item.relationship? table <;> rfl

end Definitions

end Place

end Database

end SchemaLoom
