import Mathlib.Data.List.Forall2
import SchemaLoom.Proofs.Places

/-!
# Tables as they are written

A table definition of columns and foreign keys is read as their clauses, in order, if
there are columns and all names are such; otherwise reading stops in it. The only other
way through would be a column that is spelled like the word that names constraints.
-/

namespace SchemaLoom.Database

open Reading

namespace Place

section Bodies

variable {tokens : List Token} {lexemes : List Lexeme} {lines : List ColumnLine}
  {keys : List KeyLine}

/-- Reading that comes to tokens that fit nowhere. -/
def Stops (place : Place) (tokens : List Token) : Prop :=
  ∃ found next rest stop, Passes place tokens found next rest ∧ step next rest = .error stop

/-- Reading that stops behind a passage stops in front of it. -/
theorem Passes.stops {place next : Place} {rest : List Token} {found : List Clause}
    (passes : Passes place tokens found next rest) (stops : Stops next rest) :
    Stops place tokens := by
  obtain ⟨later, last, final, stop, others, stopped⟩ := stops
  exact ⟨_, last, final, stop, passes.trans others, stopped⟩

/-- A column with its constraints stands where the next one may follow. -/
theorem passes_line {line : ColumnLine} (named : line.IsNamed) (ends : EndsClause lexemes)
    (spelled : tokens.map Token.lexed = line.lexemes ++ lexemes) :
    ∃ rest, rest.map Token.lexed = lexemes ∧ Passes .column tokens line.clauses .inside rest := by
  obtain ⟨name, isName⟩ := Option.isSome_iff_exists.1 named
  obtain ⟨typed, isTyped, first⟩ := passes_column isName line.inferred
    (endsClause_constraints line.constraints ends) spelled
  obtain ⟨rest, isRest, others⟩ := passes_constraints line.constraints ends isTyped
  refine ⟨rest, isRest, ?_⟩
  rw [ColumnLine.clauses, isName]
  exact first.trans others

/-- A comma ends a clause. -/
theorem endsClause_comma (lexemes : List Lexeme) : EndsClause ((.symbol, ",") :: lexemes) :=
  ⟨_, rfl, by decide⟩

/-- In front of the end of a clause further columns begin like one. -/
theorem endsClause_lines (lines : List ColumnLine) (ends : EndsClause lexemes) :
    EndsClause (lines.flatMap (fun line => (.symbol, ",") :: line.lexemes) ++ lexemes) := by
  cases lines with
  | nil => exact ends
  | cons line lines => exact endsClause_comma _

/-- The columns behind the first one are read one after the other. -/
theorem passes_lines (named : ∀ line ∈ lines, line.IsNamed) (ends : EndsClause lexemes)
    (spelled : tokens.map Token.lexed =
      lines.flatMap (fun line => (.symbol, ",") :: line.lexemes) ++ lexemes) :
    ∃ rest, rest.map Token.lexed = lexemes ∧
      Passes .inside tokens (lines.flatMap ColumnLine.clauses) .inside rest := by
  induction lines generalizing tokens with
  | nil => exact ⟨tokens, spelled, .refl _ _⟩
  | cons line lines inductionHypothesis =>
      obtain ⟨first, others⟩ := List.forall_mem_cons.1 named
      obtain ⟨name, isName⟩ := Option.isSome_iff_exists.1 first
      rw [List.flatMap_cons, List.append_assoc] at spelled
      obtain ⟨middle, isMiddle, comma⟩ := passes_comma isName spelled
      obtain ⟨next, isNext, here⟩ := passes_line first (endsClause_lines lines ends) isMiddle
      obtain ⟨rest, isRest, later⟩ := inductionHypothesis others isNext
      exact ⟨rest, isRest, comma.trans (here.trans later)⟩

/-- Reading stops at the first column without a name. -/
theorem stops_lines (unnamed : ¬∀ line ∈ lines, line.IsNamed)
    (other : ∀ line ∈ lines, Text.asciiUpper line.written.2.toList ≠ "CONSTRAINT".toList)
    (ends : EndsClause lexemes)
    (spelled : tokens.map Token.lexed =
      lines.flatMap (fun line => (.symbol, ",") :: line.lexemes) ++ lexemes) :
    Stops .inside tokens := by
  induction lines generalizing tokens with
  | nil => exact absurd (fun line member => by cases member) unnamed
  | cons line lines inductionHypothesis =>
      obtain ⟨otherHere, otherLater⟩ := List.forall_mem_cons.1 other
      rw [List.flatMap_cons, List.append_assoc] at spelled
      cases isName : line.written.name? with
      | none =>
          obtain ⟨place, rest, stop, passes, stopped⟩ :=
            stops_comma_of_unnamed isName otherHere line.inferred spelled
          exact ⟨_, place, rest, stop, passes, stopped⟩
      | some name =>
          have named : line.IsNamed := Option.isSome_of_mem isName
          obtain ⟨middle, isMiddle, comma⟩ := passes_comma isName spelled
          obtain ⟨next, isNext, here⟩ := passes_line named (endsClause_lines lines ends) isMiddle
          refine (comma.trans here).stops (inductionHypothesis (fun all => unnamed ?_) otherLater isNext)
          exact List.forall_mem_cons.2 ⟨named, all⟩

/-- What stands behind a foreign key: the next one, or the closing parenthesis. -/
theorem exists_mark (keys : List KeyLine) :
    ∃ mark rest, keys.flatMap (fun key => (.symbol, ",") :: key.lexemes) ++ [(.symbol, ")")] =
      ((TokenKind.symbol, mark) : Lexeme) :: rest := by
  cases keys with
  | nil => exact ⟨")", [], rfl⟩
  | cons key keys => exact ⟨",", _, rfl⟩

/-- The foreign keys are read one after the other. -/
theorem passes_keys {place : Place} (after : place = .inside ∨ place = .between)
    (columns : ∀ key ∈ keys, key.column.name?.isSome = true) (named : ∀ key ∈ keys, key.IsNamed)
    (spelled : tokens.map Token.lexed =
      keys.flatMap (fun key => (.symbol, ",") :: key.lexemes) ++ [(.symbol, ")")]) :
    ∃ clauses next rest, List.Forall₂ KeyLine.Gives keys clauses ∧
      (next = .inside ∨ next = .between) ∧ rest.map Token.lexed = [(.symbol, ")")] ∧
        Passes place tokens clauses next rest := by
  induction keys generalizing place tokens with
  | nil => exact ⟨[], place, tokens, .nil, after, spelled, .refl _ _⟩
  | cons key keys inductionHypothesis =>
      obtain ⟨first, others⟩ := List.forall_mem_cons.1 named
      obtain ⟨firstColumn, otherColumns⟩ := List.forall_mem_cons.1 columns
      obtain ⟨mark, lexemes, isMark⟩ := exists_mark keys
      rw [List.flatMap_cons, List.append_assoc, isMark] at spelled
      obtain ⟨middle, clause, isMiddle, gives, here⟩ :=
        passes_foreignKey after firstColumn first spelled
      obtain ⟨clauses, next, rest, givesOthers, isNext, isRest, later⟩ :=
        inductionHypothesis (.inr rfl) otherColumns others (isMiddle.trans isMark.symm)
      exact ⟨clause :: clauses, next, rest, .cons gives givesOthers, isNext, isRest,
        here.trans later⟩

/-- Reading stops at the first foreign key that leads to what has no name. -/
theorem stops_keys {place : Place} (after : place = .inside ∨ place = .between)
    (columns : ∀ key ∈ keys, key.column.name?.isSome = true)
    (unnamed : ¬∀ key ∈ keys, key.IsNamed)
    (spelled : tokens.map Token.lexed =
      keys.flatMap (fun key => (.symbol, ",") :: key.lexemes) ++ [(.symbol, ")")]) :
    Stops place tokens := by
  induction keys generalizing place tokens with
  | nil => exact absurd (fun key member => by cases member) unnamed
  | cons key keys inductionHypothesis =>
      obtain ⟨firstColumn, otherColumns⟩ := List.forall_mem_cons.1 columns
      by_cases first : key.IsNamed
      · obtain ⟨mark, lexemes, isMark⟩ := exists_mark keys
        rw [List.flatMap_cons, List.append_assoc, isMark] at spelled
        obtain ⟨middle, clause, isMiddle, -, here⟩ :=
          passes_foreignKey after firstColumn first spelled
        exact here.stops (inductionHypothesis (.inr rfl) otherColumns
          (fun all => unnamed (List.forall_mem_cons.2 ⟨first, all⟩)) (isMiddle.trans isMark.symm))
      · rw [List.flatMap_cons, List.append_assoc] at spelled
        obtain ⟨middle, isMiddle, comma⟩ := passes_foreign after spelled
        obtain ⟨stop, stopped⟩ := step_foreignKey_of_unnamed firstColumn first isMiddle
        exact ⟨_, _, middle, stop, comma, stopped⟩

end Bodies

end Place

/-- A definition of a table as it is written: a lexeme for its name, columns, and foreign
keys that leave some of these. -/
structure TableLines where
  table : Lexeme
  columns : List ColumnLine
  keys : List KeyLine
  leaving : ∀ key ∈ keys, ∃ line ∈ columns, line.written = key.column

namespace TableLines

variable {lines : TableLines} {tokens : List Token}

/-- The lexemes between the parentheses of a definition. -/
def body (lines : TableLines) : List Lexeme :=
  commaSeparated (lines.columns.map ColumnLine.lexemes ++ lines.keys.map KeyLine.lexemes)

/-- The lexemes of a definition. -/
def lexemes (lines : TableLines) : List Lexeme :=
  (.word, "CREATE") :: (.word, "TABLE") :: (.word, "IF") :: (.word, "NOT") :: (.word, "EXISTS") ::
    lines.table :: (.symbol, "(") :: (lines.body ++ [(.symbol, ")")])

/-- Whether there are columns and all names in a body are such. -/
structure IsNamed (lines : TableLines) : Prop where
  nonempty : lines.columns ≠ []
  columns : ∀ line ∈ lines.columns, line.IsNamed
  keys : ∀ key ∈ lines.keys, key.IsNamed

/-- The keys of a table leave columns that have names. -/
theorem named_column (named : ∀ line ∈ lines.columns, line.IsNamed) :
    ∀ key ∈ lines.keys, key.column.name?.isSome = true := by
  intro key isKey
  obtain ⟨line, isLine, same⟩ := lines.leaving key isKey
  exact same ▸ named line isLine

/-- Behind the columns there are foreign keys, or the closing parenthesis. -/
theorem endsClause_keys (keys : List KeyLine) :
    EndsClause (keys.flatMap (fun key => (.symbol, ",") :: key.lexemes) ++ [(.symbol, ")")]) := by
  cases keys with
  | nil => exact ⟨_, rfl, by decide⟩
  | cons key keys => exact Place.endsClause_comma _

/-- A body whose names are such is read as the clauses of its columns and keys. -/
theorem clauses_of_named (named : lines.IsNamed)
    (spelled : tokens.map Token.lexed = lines.body ++ [(.symbol, ")")]) {bound : Nat}
    (enough : tokens.length < bound) :
    ∃ clauses, List.Forall₂ KeyLine.Gives lines.keys clauses ∧
      Place.clauses bound .column tokens =
        (lines.columns.flatMap ColumnLine.clauses ++ clauses, .ok []) := by
  obtain ⟨line, others, isColumns⟩ := List.exists_cons_of_ne_nil named.nonempty
  have columns := named.columns
  have keyColumns := named_column named.columns
  rw [body, isColumns] at spelled
  rw [isColumns] at columns ⊢
  obtain ⟨first, later⟩ := List.forall_mem_cons.1 columns
  have whole : tokens.map Token.lexed = line.lexemes ++
      (others.flatMap (fun line => (.symbol, ",") :: line.lexemes) ++
        (lines.keys.flatMap (fun key => (.symbol, ",") :: key.lexemes) ++ [(.symbol, ")")])) := by
    rw [spelled]
    simp [commaSeparated, List.flatMap_map]
  obtain ⟨next, isNext, here⟩ :=
    Place.passes_line first (Place.endsClause_lines others (endsClause_keys lines.keys)) whole
  obtain ⟨middle, isMiddle, passes⟩ := Place.passes_lines later (endsClause_keys lines.keys) isNext
  obtain ⟨clauses, place, rest, gives, isPlace, isRest, last⟩ :=
    Place.passes_keys (.inl rfl) keyColumns named.keys isMiddle
  obtain ⟨final, isFinal, closes⟩ := Place.step_close isPlace isRest
  obtain rfl := List.map_eq_nil_iff.1 isFinal
  refine ⟨clauses, gives, ?_⟩
  have read := (here.trans (passes.trans last)).clauses_of_close closes enough
  rwa [← List.append_assoc, ← List.flatMap_cons] at read

/-- A body that has no columns, or a name that is none, is not read to its end. -/
theorem clauses_of_unnamed (unnamed : ¬lines.IsNamed)
    (other : ∀ line ∈ lines.columns,
      Text.asciiUpper line.written.2.toList ≠ "CONSTRAINT".toList)
    (spelled : tokens.map Token.lexed = lines.body ++ [(.symbol, ")")]) {bound : Nat}
    (enough : tokens.length < bound) :
    ∃ stop, (Place.clauses bound .column tokens).2 = .error stop := by
  suffices stops : Place.Stops .column tokens by
    obtain ⟨found, next, rest, stop, passes, stopped⟩ := stops
    exact passes.clauses_of_stop stopped enough
  cases isColumns : lines.columns with
  | nil =>
      have noKeys : lines.keys = [] := by
        refine List.eq_nil_iff_forall_not_mem.2 fun key isKey => ?_
        obtain ⟨line, isLine, -⟩ := lines.leaving key isKey
        rw [isColumns] at isLine
        cases isLine
      rw [body, isColumns, noKeys] at spelled
      exact ⟨_, _, _, _, .refl _ _, Place.step_column_of_unnamed rfl spelled⟩
  | cons line others =>
      rw [isColumns] at other
      obtain ⟨-, otherLater⟩ := List.forall_mem_cons.1 other
      have whole : tokens.map Token.lexed = line.lexemes ++
          (others.flatMap (fun line => (.symbol, ",") :: line.lexemes) ++
            (lines.keys.flatMap (fun key => (.symbol, ",") :: key.lexemes) ++
              [(.symbol, ")")])) := by
        rw [spelled, body, isColumns]
        simp [commaSeparated, List.flatMap_map]
      cases isName : line.written.name? with
      | none => exact ⟨_, _, _, _, .refl _ _, Place.step_column_of_unnamed isName whole⟩
      | some name =>
          have first : line.IsNamed := Option.isSome_of_mem isName
          obtain ⟨next, isNext, here⟩ := Place.passes_line first
            (Place.endsClause_lines others (endsClause_keys lines.keys)) whole
          by_cases later : ∀ line ∈ others, line.IsNamed
          · have columns : ∀ line ∈ lines.columns, line.IsNamed := by
              rw [isColumns]
              exact List.forall_mem_cons.2 ⟨first, later⟩
            obtain ⟨middle, isMiddle, passes⟩ :=
              Place.passes_lines later (endsClause_keys lines.keys) isNext
            refine (here.trans passes).stops (Place.stops_keys (.inl rfl) (named_column columns)
              (fun keys => unnamed ⟨by simp [isColumns], columns, keys⟩) isMiddle)
          · exact here.stops (Place.stops_lines later otherLater (endsClause_keys lines.keys) isNext)

end TableLines

namespace Statement

variable {lines : TableLines} {tokens : List Token}

/-- Behind the words that let a definition stand back for a table that is there, it is read
from the name of the table on. -/
theorem ofTokens_conditional {lexemes : List Lexeme}
    (spelled : tokens.map Token.lexed = (.word, "CREATE") :: (.word, "TABLE") :: (.word, "IF") ::
      (.word, "NOT") :: (.word, "EXISTS") :: lexemes) :
    ∃ rest, rest.map Token.lexed = lexemes ∧ ofTokens tokens = namedDefinition true rest := by
  obtain ⟨_, _, rest, rfl, isRest⟩ := Token.exists_of_lexed spelled
  obtain ⟨afterTable, isTable, table⟩ := Place.word_of_lexed (by decide) isRest
  obtain ⟨afterIf, isIf, condition⟩ := Place.word_of_lexed (by decide) isTable
  obtain ⟨afterNot, isNot, negation⟩ := Place.word_of_lexed (by decide) isIf
  obtain ⟨afterExists, isExists, existence⟩ := Place.word_of_lexed (by decide) isNot
  refine ⟨afterExists, isExists, ?_⟩
  simp +decide only [ofTokens, Token.isWord_word, table, definition, skipWord, condition, negation,
    existence, bind, Except.bind, if_true]

/-- The statement that a definition is read as, up to what is wrong with the body. -/
theorem ofTokens_lines {name : String} (named : lines.table.name? = some name)
    (spelled : tokens.map Token.lexed = lines.lexemes) :
    ∃ mention inner, mention.name = name ∧ inner.map Token.lexed = lines.body ++ [(.symbol, ")")] ∧
      ofTokens tokens = .ok (.create
        { table := mention
          onlyIfMissing := true
          clauses := (Place.clauses (inner.length + 1) .column inner).1
          fault :=
            match (Place.clauses (inner.length + 1) .column inner).2 with
            | .error stop => some (problemAt stop)
            | .ok rest => afterDefinition rest }) := by
  obtain ⟨rest, isRest, read⟩ := ofTokens_conditional spelled
  obtain ⟨opening, mentioned, isOpening, isName, mentions⟩ := Place.mention_of_lexed named isRest
  obtain ⟨inner, isInner, opens⟩ := Place.symbol_of_lexed isOpening
  refine ⟨mentioned, inner, isName, isInner, read.trans ?_⟩
  rw [namedDefinition, mentions]
  change (symbol "(" opening >>= _) = _
  rw [opens]
  rfl

/-- A definition whose names are such is read as a whole. -/
theorem ofTokens_of_named {name : String} (tableNamed : lines.table.name? = some name)
    (named : lines.IsNamed) (spelled : tokens.map Token.lexed = lines.lexemes) :
    ∃ mention clauses, mention.name = name ∧ List.Forall₂ KeyLine.Gives lines.keys clauses ∧
      ofTokens tokens = .ok (.create
        { table := mention
          onlyIfMissing := true
          clauses := lines.columns.flatMap ColumnLine.clauses ++ clauses
          fault := none }) := by
  obtain ⟨mention, inner, isName, isInner, read⟩ := ofTokens_lines tableNamed spelled
  obtain ⟨clauses, gives, found⟩ :=
    TableLines.clauses_of_named named isInner (Nat.lt_succ_self inner.length)
  refine ⟨mention, clauses, isName, gives, ?_⟩
  rw [read, found]
  rfl

/-- A definition with a name that is none is read, as far as that, as one with a fault. -/
theorem ofTokens_of_unnamed {name : String} (tableNamed : lines.table.name? = some name)
    (unnamed : ¬lines.IsNamed)
    (other : ∀ line ∈ lines.columns, Text.asciiUpper line.written.2.toList ≠ "CONSTRAINT".toList)
    (spelled : tokens.map Token.lexed = lines.lexemes) :
    ∃ definition, ofTokens tokens = .ok (.create definition) ∧ definition.fault ≠ none := by
  obtain ⟨mention, inner, isName, isInner, read⟩ := ofTokens_lines tableNamed spelled
  obtain ⟨stop, found⟩ :=
    TableLines.clauses_of_unnamed unnamed other isInner (Nat.lt_succ_self inner.length)
  refine ⟨_, read, ?_⟩
  rw [found]
  exact Option.some_ne_none _

/-- A definition of a table without a name is not read. -/
theorem ofTokens_of_unnamed_table (unnamed : lines.table.name? = none)
    (spelled : tokens.map Token.lexed = lines.lexemes) :
    ∃ stop, ofTokens tokens = .error stop := by
  obtain ⟨rest, isRest, read⟩ := ofTokens_conditional spelled
  refine ⟨rest, read.trans ?_⟩
  simp only [namedDefinition, Place.mention_of_unnamed unnamed isRest, bind, Except.bind]

end Statement

end SchemaLoom.Database
