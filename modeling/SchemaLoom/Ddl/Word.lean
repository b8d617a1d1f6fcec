import SchemaLoom.Ddl.Fragment

/-!
# Words, types and table bodies

These readers work on text without comments. Quoted runs are opaque to all three,
and words keep the parentheses that stand inside them together.
-/

namespace SchemaLoom.Ddl

open SchemaLoom.Text

/-- The quoted run left open after an ordinary character, by its closing one. -/
def openAfter (c : Char) : Option Char :=
  quoteClose? c

/-- The quoted run left open after a character inside one. -/
def stillOpen (close c : Char) : Option Char :=
  if c == close then none else some close

/-- Splits a text before its first blank outside parentheses and quoted runs. -/
def splitWord : Option Char -> Nat -> List Char -> List Char × List Char
  | _, _, [] => ([], [])
  | some close, depth, c :: rest =>
      let (word, remaining) := splitWord (stillOpen close c) depth rest
      (c :: word, remaining)
  | none, depth, c :: rest =>
      if isBlank c && depth == 0 then ([], c :: rest)
      else
        let (word, remaining) := splitWord (openAfter c) (depthAfter depth c) rest
        (c :: word, remaining)

/-- The next word of a text and what follows it. -/
def readWord? (text : List Char) : Option (List Char × List Char) :=
  match splitWord none 0 (trimStart text) with
  | ([], _) => none
  | (word, rest) => some (word, rest)

/-- A declared type and what follows it. Parameters that stand after blanks belong
to the type unless it has some already. -/
def readType? (text : List Char) : Option (List Char × List Char) :=
  match readWord? text with
  | none => none
  | some (word, rest) =>
      if word.contains '(' then some (word, rest)
      else if startsWith '(' (trimStart rest) then
        let (parameters, remaining) := splitWord none 0 (trimStart rest)
        some (word ++ parameters, remaining)
      else some (word, rest)
where
  /-- Whether a text begins with the given character. -/
  startsWith (c : Char) (text : List Char) : Bool :=
    text.head? == some c

/-- What reading a table body from just after its opening parenthesis gives. -/
inductive Body where
  /-- The body up to its matching parenthesis, and what follows that. -/
  | closed (body rest : List Char)
  /-- No matching parenthesis before a semicolon or the end; what follows that. -/
  | unclosed (rest : List Char)
  deriving DecidableEq, Repr

namespace Body

/-- Puts a character in front of a body. -/
def cons (c : Char) : Body -> Body
  | closed body rest => closed (c :: body) rest
  | unclosed rest => unclosed rest

/-- The text that reading leaves. -/
def rest : Body -> List Char
  | closed _ rest => rest
  | unclosed rest => rest

/-- Reads a body in which the given number of parentheses is open besides its own. -/
def read : Option Char -> Nat -> List Char -> Body
  | _, _, [] => unclosed []
  | some close, inner, c :: rest => (read (stillOpen close c) inner rest).cons c
  | none, inner, c :: rest =>
      if c == ';' then unclosed rest
      else if c == ')' && inner == 0 then closed [] rest
      else (read (openAfter c) (depthAfter inner c) rest).cons c

/-- A character in front of a body leaves what follows the body. -/
@[simp] theorem rest_cons (c : Char) (body : Body) : (body.cons c).rest = body.rest := by
  cases body <;> rfl

/-- Reading a body leaves the end of the text. -/
theorem read_rest_suffix (close : Option Char) (inner : Nat) (text : List Char) :
    (read close inner text).rest <:+ text := by
  fun_induction read close inner text with
  | case1 => exact List.suffix_refl _
  | case2 _ _ c rest inductionHypothesis =>
      rw [rest_cons]
      exact inductionHypothesis.trans (List.suffix_cons c rest)
  | case3 _ c rest => exact List.suffix_cons c rest
  | case4 _ c rest => exact List.suffix_cons c rest
  | case5 _ c rest _ _ inductionHypothesis =>
      rw [rest_cons]
      exact inductionHypothesis.trans (List.suffix_cons c rest)

end Body

end SchemaLoom.Ddl
