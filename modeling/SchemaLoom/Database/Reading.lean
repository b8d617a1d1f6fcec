import SchemaLoom.Database.Statement

/-!
# Reading statements

A reader takes tokens from the front and gives what it read with the tokens left, or
the tokens at which it cannot go on. `Statement.ofText` reads a whole statement; the
first token that fits nowhere is the problem, or the end if the statement ends too
soon.
-/

namespace SchemaLoom.Database

/-- What an attempt to read gives, or the tokens at which it stopped. -/
abbrev Attempt := Except (List Token)

/-- The problem of stopping in front of the given tokens. -/
def problemAt : List Token -> Problem
  | [] => { cause := .incomplete }
  | token :: _ =>
      { cause :=
          if token.kind == .illegal then .unrecognized token.shown else .unexpected token.source
        offset := some token.offset }

namespace Reading

/-- Reads one token, of those that are accepted. -/
@[simp] def one (accepts : Token -> Bool) : List Token -> Attempt (List Token)
  | [] => .error []
  | token :: rest => if accepts token then .ok rest else .error (token :: rest)

/-- Reads a word, given in capitals. -/
def word (expected : String) : List Token -> Attempt (List Token) :=
  one (Token.isWord · expected)

/-- Reads a symbol. -/
def symbol (expected : String) : List Token -> Attempt (List Token) :=
  one (Token.isSymbol · expected)

/-- Leaves out a word that may be absent. -/
def skipWord (expected : String) (tokens : List Token) : Bool × List Token :=
  match word expected tokens with
  | .ok rest => (true, rest)
  | .error _ => (false, tokens)

/-- Reads a name. -/
def mention : List Token -> Attempt (Mention × List Token)
  | [] => .error []
  | token :: rest =>
      match token.name? with
      | some name => .ok ({ name, source := token.source, offset := token.offset }, rest)
      | none => .error (token :: rest)

/-- Reads items with commas between them, at most as many as the bound. -/
def separated {α : Type} (item : List Token -> Attempt (α × List Token)) : Nat -> List Token -> Attempt (List α × List Token)
  | 0, tokens => .error tokens
  | bound + 1, tokens => do
      let (first, rest) ← item tokens
      match symbol "," rest with
      | .ok rest => do
          let (others, rest) ← separated item bound rest
          return (first :: others, rest)
      | .error _ => return ([first], rest)

/-- Reads items in parentheses. -/
def listed {α : Type} (item : List Token -> Attempt (α × List Token)) (tokens : List Token) :
    Attempt (List α × List Token) := do
  let rest ← symbol "(" tokens
  let (items, rest) ← separated item rest.length rest
  let rest ← symbol ")" rest
  return (items, rest)

/-- Reads items in parentheses if there are parentheses. -/
def optionalList {α : Type} (item : List Token -> Attempt (α × List Token)) (tokens : List Token) :
    Attempt (Option (List α) × List Token) :=
  match symbol "(" tokens with
  | .error _ => .ok (none, tokens)
  | .ok _ => do
      let (items, rest) ← listed item tokens
      return (some items, rest)

/-- Reads up to the parenthesis that closes the given number of inner ones and one
more. -/
def closed : Nat -> List Token -> Attempt (List Token)
  | _, [] => .error []
  | depth, token :: rest =>
      if token.kind == .illegal || token.isSymbol ";" then .error (token :: rest)
      else if token.isSymbol "(" then closed (depth + 1) rest
      else if token.isSymbol ")" then
        match depth with
        | 0 => .ok rest
        | depth + 1 => closed depth rest
      else closed depth rest

/-- Reads over an expression in parentheses. -/
def enclosed (tokens : List Token) : Attempt (List Token) := do
  let rest ← symbol "(" tokens
  match symbol ")" rest with
  | .ok _ => .error rest
  | .error _ => closed 0 rest

/-- The value of a hexadecimal digit. -/
def hexValue (c : Char) : Nat :=
  if c.isDigit then c.toNat - 0x30
  else if c.toNat < 0x60 then c.toNat - 0x37
  else c.toNat - 0x57

/-- The bytes that pairs of hexadecimal digits write. -/
def bytes : List Char -> List Nat
  | high :: low :: rest => (16 * hexValue high + hexValue low) :: bytes rest
  | _ => []

/-- The value that a token writes. Only a number can have a sign. -/
def literal? (negative : Bool) (token : Token) : Option Value :=
  match token.kind with
  | .number => Value.unsigned? negative token.source.toList
  | .text => if negative then none else some (.text token.inside)
  | .blob => if negative then none else some (.blob (bytes ((token.source.toList.drop 2).dropLast)))
  | .word => if token.isWord "NULL" then some .null else none
  | _ => none

/-- Reads a value with its signs, or a name. -/
def term (negative : Bool) : List Token -> Attempt (Term × List Token)
  | [] => .error []
  | token :: rest =>
      if token.isSymbol "-" then term (!negative) rest
      else if token.isSymbol "+" then term negative rest
      else
        match literal? negative token with
        | some value => .ok (.value value, rest)
        | none =>
            if negative then .error (token :: rest)
            else do
              let (mention, rest) ← mention (token :: rest)
              return (.named mention token.kind, rest)

/-- Reads a number with a sign. -/
def signedNumber : List Token -> Attempt (List Token)
  | [] => .error []
  | token :: rest =>
      if token.kind == .number then .ok rest
      else if token.isSymbol "-" || token.isSymbol "+" then
        match rest with
        | number :: more => if number.kind == .number then .ok more else .error rest
        | [] => .error []
      else .error (token :: rest)

/-- Reads over the parameters of a type, one or two numbers, if there are any. -/
def typeParameters (tokens : List Token) : Attempt (List Token) :=
  match symbol "(" tokens with
  | .error _ => .ok tokens
  | .ok rest => do
      let rest ← signedNumber rest
      match symbol "," rest with
      | .ok rest => do
          let rest ← signedNumber rest
          symbol ")" rest
      | .error _ => symbol ")" rest

/-- Reads a type, which may be absent, as it is spelled. -/
def type (tokens : List Token) : Attempt (String × List Token) := do
  let words := tokens.takeWhile Token.isTypePart
  let rest := tokens.drop words.length
  if words.isEmpty then return ("", tokens)
  else
    let rest ← typeParameters rest
    return (Token.spelling (tokens.take (tokens.length - rest.length)), rest)

/-- Reads a column of a key with its order. -/
def keyColumn (tokens : List Token) : Attempt (Mention × List Token) := do
  let (column, rest) ← mention tokens
  let rest ←
    match skipWord "COLLATE" rest with
    | (true, rest) => do
        let (_, rest) ← mention rest
        pure rest
    | (false, rest) => pure rest
  return (column, (skipWord "DESC" (skipWord "ASC" rest).2).2)

/-- Reads what happens to a reference when its target changes. -/
def action (tokens : List Token) : Attempt (Action × List Token) :=
  match tokens with
  | [] => .error []
  | token :: rest =>
      if token.isWord "CASCADE" then .ok (.cascade, rest)
      else if token.isWord "RESTRICT" then .ok (.restrict, rest)
      else if token.isWord "NO" then (word "ACTION" rest).map (.noAction, ·)
      else if token.isWord "SET" then
        match word "NULL" rest with
        | .ok rest => .ok (.setNull, rest)
        | .error _ => (word "DEFAULT" rest).map (.setDefault, ·)
      else .error tokens

/-- Reads when a deferred constraint is checked. -/
def deferral (tokens : List Token) : Attempt (List Token) :=
  match skipWord "INITIALLY" tokens with
  | (false, rest) => .ok rest
  | (true, rest) =>
      match word "DEFERRED" rest with
      | .ok rest => .ok rest
      | .error _ => word "IMMEDIATE" rest

/-- Reads the conditions after a reference, at most as many as the bound. The last one
about deletions counts. -/
def conditions (onDelete : Action) : Nat -> List Token -> Attempt (Action × List Token)
  | 0, tokens => .ok (onDelete, tokens)
  | bound + 1, tokens =>
      match tokens with
      | [] => .ok (onDelete, [])
      | token :: rest =>
          if token.isWord "MATCH" then do
            let (_, rest) ← mention rest
            conditions onDelete bound rest
          else if token.isWord "ON" then
            match rest with
            | event :: rest =>
                if event.isOneOf ["DELETE", "UPDATE", "INSERT"] then do
                  let (found, rest) ← action rest
                  conditions (if event.isWord "DELETE" then found else onDelete) bound rest
                else .error (event :: rest)
            | [] => .error []
          else .ok (onDelete, tokens)

/-- Reads the target of a reference and its conditions. -/
def reference (columns : Option (List String)) (tokens : List Token) : Attempt (Clause × List Token) := do
  let (target, rest) ← mention tokens
  let (targets, rest) ← optionalList mention rest
  let (onDelete, rest) ← conditions .noAction rest.length rest
  return (.reference columns target ((targets.getD []).map (·.name)) onDelete, rest)

/-- Reads the value that a column has when none is given. -/
def defaultValue (tokens : List Token) : Attempt (Clause × List Token) :=
  match tokens with
  | [] => .error []
  | token :: rest =>
      if token.isSymbol "(" then
        let value :=
          match term false rest with
          | .ok (.value value, after) => if (symbol ")" after).isOk then value else .null
          | _ => .null
        (enclosed tokens).map fun rest => (.default value, rest)
      else if token.isSymbol "-" || token.isSymbol "+" then
        match rest with
        | number :: more =>
            match literal? (token.isSymbol "-") number with
            | some value => .ok (.default value, more)
            | none => .error rest
        | [] => .error []
      else
        match literal? false token with
        | some value => .ok (.default value, rest)
        | none =>
            match token.name? with
            | none => .error tokens
            | some name =>
                .ok (.default (if token.isWord "TRUE" then .integer 1
                  else if token.isWord "FALSE" then .integer 0
                  else .text name), rest)

end Reading

/-- Where the reading of a table definition stands. -/
inductive Place where
  | column
  | inside
  | constraint
  | between
  deriving DecidableEq, Repr

namespace Place

open Reading

/-- Whether a word starts a constraint on the whole table. -/
def startsConstraint : List Token -> Bool
  | [] => false
  | token :: _ => token.isOneOf ["CONSTRAINT", "PRIMARY", "UNIQUE", "CHECK", "FOREIGN"]

/-- What one step reads: clauses, and the place after them or none after the closing
parenthesis. -/
abbrev Step := Attempt ((List Clause × Option Place) × List Token)

/-- Reads one clause of a column. -/
def columnClause (token : Token) (rest : List Token) : Step := do
  let here : Option Place := some .inside
  if token.isWord "CONSTRAINT" then
    let (_, rest) ← mention rest
    return (([], here), rest)
  else if token.isWord "NULL" then return (([], here), rest)
  else if token.isWord "NOT" then
    match skipWord "DEFERRABLE" rest with
    | (true, rest) => do
        let rest ← deferral rest
        return (([], here), rest)
    | (false, rest) => do
        let rest ← word "NULL" rest
        return (([.notNull], here), rest)
  else if token.isWord "DEFERRABLE" then
    let rest ← deferral rest
    return (([], here), rest)
  else if token.isWord "PRIMARY" then
    let rest ← word "KEY" rest
    let (ascending, rest) := skipWord "ASC" rest
    let (descending, rest) := if ascending then (false, rest) else skipWord "DESC" rest
    let (automatic, rest) := skipWord "AUTOINCREMENT" rest
    return (([.primaryKey none descending automatic], here), rest)
  else if token.isWord "UNIQUE" then return (([.unique none], here), rest)
  else if token.isWord "DEFAULT" then
    let (clause, rest) ← defaultValue rest
    return (([clause], here), rest)
  else if token.isWord "CHECK" then
    let rest ← enclosed rest
    return (([], here), rest)
  else if token.isWord "COLLATE" then
    let (_, rest) ← mention rest
    return (([], here), rest)
  else if token.isWord "REFERENCES" then
    let (clause, rest) ← reference none rest
    return (([clause], here), rest)
  else .error (token :: rest)

/-- Reads one constraint on the whole table. A name alone is a constraint, too. -/
def tableClause (token : Token) (rest : List Token) : Step := do
  let here : Option Place := some .between
  if token.isWord "CONSTRAINT" then
    let (_, rest) ← mention rest
    return (([], here), rest)
  else if token.isWord "PRIMARY" then
    let rest ← word "KEY" rest
    let rest ← symbol "(" rest
    let (columns, rest) ← separated keyColumn rest.length rest
    let (automatic, rest) := skipWord "AUTOINCREMENT" rest
    let rest ← symbol ")" rest
    return (([.primaryKey (some columns) false automatic], here), rest)
  else if token.isWord "UNIQUE" then
    let (columns, rest) ← listed keyColumn rest
    return (([.unique (some columns)], here), rest)
  else if token.isWord "CHECK" then
    let rest ← enclosed rest
    return (([], here), rest)
  else if token.isWord "FOREIGN" then
    let rest ← word "KEY" rest
    let (columns, rest) ← listed mention rest
    let rest ← word "REFERENCES" rest
    let (clause, rest) ← reference (some (columns.map (·.name))) rest
    let rest ←
      match skipWord "DEFERRABLE" (skipWord "NOT" rest).2 with
      | (true, rest) => deferral rest
      | (false, _) => pure rest
    return (([clause], here), rest)
  else .error (token :: rest)

/-- One step of reading a table definition. -/
def step (place : Place) (tokens : List Token) : Step :=
  match tokens with
  | [] => .error []
  | token :: rest =>
      match place with
      | .column => do
          let (named, rest) ← mention tokens
          let (type, rest) ← Reading.type rest
          return (([.column named.name type], some .inside), rest)
      | .inside =>
          if token.isSymbol ")" then .ok (([], none), rest)
          else if token.isSymbol "," then
            .ok (([], some (if startsConstraint rest then .constraint else .column)), rest)
          else columnClause token rest
      | .constraint => tableClause token rest
      | .between =>
          if token.isSymbol ")" then .ok (([], none), rest)
          else if token.isSymbol "," then .ok (([], some .constraint), rest)
          else tableClause token rest

/-- The clauses of a definition from a place on, and where reading them stopped: after
the closing parenthesis, or at tokens that fit nowhere. A clause right before such
tokens does not take effect. -/
def clauses : Nat -> Place -> List Token -> List Clause × Attempt (List Token)
  | 0, _, tokens => ([], .error tokens)
  | bound + 1, place, tokens =>
      match step place tokens with
      | .error stop => ([], .error stop)
      | .ok ((_, none), rest) => ([], .ok rest)
      | .ok ((found, some next), rest) =>
          match clauses bound next rest with
          | (later, .ok final) => (found ++ later, .ok final)
          | (later, .error stop) =>
              (if stop.length == rest.length then later else found ++ later, .error stop)

end Place

namespace Statement

open Reading

/-- The problem of an option after a table definition, of which none is known. -/
def unknownOption (option : Token) (rest : List Token) : Problem :=
  match rest with
  | [] => { cause := .tableOption option.source }
  | next :: _ => if next.isSymbol "," then { cause := .tableOption option.source } else problemAt rest

/-- What is wrong with what follows a table definition. -/
def afterDefinition : List Token -> Option Problem
  | [] => none
  | token :: rest =>
      if token.isSymbol "," then
        match rest with
        | [] => some (problemAt [])
        | option :: more =>
            if option.name?.isSome then some (unknownOption option more) else some (problemAt rest)
      else if token.name?.isSome then some (unknownOption token rest)
      else some (problemAt (token :: rest))

/-- Reads a table definition from the name of the table on. -/
def namedDefinition (onlyIfMissing : Bool) (tokens : List Token) : Attempt Statement := do
  let (table, rest) ← mention tokens
  let rest ← symbol "(" rest
  let (clauses, stop) := Place.clauses (rest.length + 1) .column rest
  let fault :=
    match stop with
    | .error stop => some (problemAt stop)
    | .ok rest => afterDefinition rest
  return .create { table, onlyIfMissing, clauses, fault }

/-- Reads a table definition after its first two words. -/
def definition (tokens : List Token) : Attempt Statement := do
  let (onlyIfMissing, rest) := skipWord "IF" tokens
  let rest ← if onlyIfMissing then do word "EXISTS" (← word "NOT" rest) else pure rest
  namedDefinition onlyIfMissing rest

/-- The end of a statement. -/
def ending : List Token -> Attempt Unit
  | [] => .ok ()
  | tokens => .error tokens

/-- Reads rows of values. -/
def rows (tokens : List Token) : Attempt (List (List Term)) := do
  let (rows, rest) ← separated (listed (term false)) tokens.length tokens
  ending rest
  return rows

/-- Reads an item of a selection. -/
def selected (tokens : List Token) : Attempt (Selected × List Token) :=
  match symbol "*" tokens with
  | .ok rest => .ok (.everything, rest)
  | .error _ => do
      let (found, rest) ← term false tokens
      let spelling := Token.spelling (tokens.take (tokens.length - rest.length))
      match rest with
      | [] => return (.term found spelling none, rest)
      | token :: more =>
          if token.isWord "AS" then
            let (name, rest) ← mention more
            return (.term found spelling (some name.name), rest)
          else if token.isTypePart then
            return (.term found spelling token.name?, more)
          else return (.term found spelling none, rest)

/-- Reads a selection after its first word. -/
def selection (tokens : List Token) : Attempt Statement := do
  let (items, rest) ← separated selected tokens.length tokens
  match skipWord "FROM" rest with
  | (false, rest) => do
      ending rest
      return .select items none
  | (true, rest) => do
      let (table, rest) ← mention rest
      ending rest
      return .select items (some table)

/-- Reads an insertion after its first word. -/
def insertion (tokens : List Token) : Attempt Statement := do
  let rest ← word "INTO" tokens
  let (table, rest) ← mention rest
  let (columns, rest) ← optionalList mention rest
  let rest ← word "VALUES" rest
  let rows ← rows rest
  return .insert table (columns.map fun columns => columns.map (·.name)) rows

/-- Reads the tokens of a statement. -/
def ofTokens : List Token -> Attempt Statement
  | [] => .error []
  | token :: rest => do
      if token.isWord "CREATE" then
        let rest ← word "TABLE" rest
        definition rest
      else if token.isWord "DROP" then
        let rest ← word "TABLE" rest
        let (onlyIfPresent, rest) := skipWord "IF" rest
        let rest ← if onlyIfPresent then word "EXISTS" rest else pure rest
        let (table, rest) ← mention rest
        ending rest
        return .drop table onlyIfPresent
      else if token.isWord "DELETE" then
        let rest ← word "FROM" rest
        let (table, rest) ← mention rest
        ending rest
        return .delete table
      else if token.isWord "INSERT" then insertion rest
      else if token.isWord "SELECT" then selection rest
      else if token.isWord "VALUES" then return .values (← rows rest)
      else .error (token :: rest)

/-- Reads the text of a statement. -/
def ofText (text : String) : Except Problem Statement :=
  (ofTokens (tokens text)).mapError problemAt

end Statement

end SchemaLoom.Database
