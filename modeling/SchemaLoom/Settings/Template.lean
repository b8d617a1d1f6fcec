/-!
# Texts with variables

A text may refer to variables as `${name}`. A template is such a text taken apart, once
and from left to right: characters, and names between `${` and the next closing brace.
Without a closing brace the rest is plain text. Filling a template puts values in as
they are, so a value that looks like a reference stays what it is.
-/

namespace SchemaLoom

/-- A part of a text: a character, or a reference to a variable. -/
inductive Piece where
  | char (c : Char)
  | reference (name : String)
  deriving DecidableEq, Repr

/-- A text taken apart. -/
abbrev Template := List Piece

namespace Template

/-- What follows the first closing brace of a text is shorter than the text. -/
theorem afterBrace_length (text : List Char) :
    ((text.dropWhile (· != '\x7d')).drop 1).length ≤ text.length := by
  have shorter := (List.dropWhile_suffix (· != '\x7d') (l := text)).length_le
  simp only [List.length_drop]
  omega

/-- Takes a text apart. -/
def ofChars (text : List Char) : Template :=
  match text with
  | [] => []
  | [c] => [.char c]
  | c :: d :: rest =>
      if c == '$' && d == '\x7b' then
        if rest.contains '\x7d' then
          .reference (String.ofList (rest.takeWhile (· != '\x7d'))) ::
            ofChars ((rest.dropWhile (· != '\x7d')).drop 1)
        else (c :: d :: rest).map .char
      else .char c :: ofChars (d :: rest)
termination_by text.length
decreasing_by
  · have shorter := afterBrace_length rest
    simp only [List.length_cons]
    omega
  · simp

/-- Takes a text apart. -/
def ofText (text : String) : Template :=
  ofChars text.toList

/-- The names that a template refers to, in order. -/
def references (template : Template) : List String :=
  template.filterMap fun
    | .reference name => some name
    | .char _ => none

/-- The text of a template with values in place of references, or the first name
without a value. -/
def fill (value : String -> Option String) : Template -> Except String (List Char)
  | [] => .ok []
  | .char c :: pieces => (fill value pieces).map (c :: ·)
  | .reference name :: pieces =>
      match value name with
      | none => .error name
      | some text => (fill value pieces).map (text.toList ++ ·)

end Template

end SchemaLoom
