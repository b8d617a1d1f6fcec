import SchemaLoom.Ddl.Fragment

/-!
# Identifiers

An identifier is quoted or a run of name characters, and may be qualified by
others before it. The name it stands for is its last part without the quotes.
-/

namespace SchemaLoom.Ddl

open SchemaLoom.Text

/-- Whether a character can stand in an identifier without quotes. -/
def isNameChar (c : Char) : Bool :=
  !isBlank c && c != '(' && c != ')' && c != ',' && c != ';' && c != '.' && c != '\x22' &&
    c != '\x60' && c != '[' && c != ']'

/-- Splits a text after the first occurrence of a character. -/
def splitAfter? (last : Char) : List Char -> Option (List Char × List Char)
  | [] => none
  | c :: rest =>
      if c == last then some ([c], rest)
      else (splitAfter? last rest).map fun parts => (c :: parts.1, parts.2)

/-- The identifier at the start of a text as it is written, and what follows it. -/
def identifier? : List Char -> Option (List Char × List Char)
  | [] => none
  | c :: rest =>
      match identifierClose? c with
      | some close => (splitAfter? close rest).map fun parts => (c :: parts.1, parts.2)
      | none =>
          if isNameChar c then some (c :: rest.takeWhile isNameChar, rest.dropWhile isNameChar)
          else none

/-- The identifier after a point, which blanks may surround. -/
def nextPart? (text : List Char) : Option (List Char × List Char) :=
  match trimStart text with
  | '.' :: rest => identifier? (trimStart rest)
  | _ => none

/-- What is left behind a character is the end of the text. -/
theorem splitAfter?_suffix {last : Char} {text taken rest : List Char}
    (found : splitAfter? last text = some (taken, rest)) : rest <:+ text := by
  induction text generalizing taken with
  | nil => simp [splitAfter?] at found
  | cons c text inductionHypothesis =>
      rw [splitAfter?] at found
      split at found
      · cases found
        exact List.suffix_cons c rest
      · obtain ⟨parts, inner, equal⟩ := Option.map_eq_some_iff.1 found
        cases equal
        exact (inductionHypothesis inner).trans (List.suffix_cons c text)

/-- An identifier takes at least one character from the front of a text. -/
theorem identifier?_suffix {text taken rest : List Char}
    (found : identifier? text = some (taken, rest)) :
    rest <:+ text ∧ rest.length < text.length := by
  cases text with
  | nil => simp [identifier?] at found
  | cons c text =>
      rw [identifier?] at found
      have suffix : rest <:+ text := by
        split at found
        · obtain ⟨parts, inner, equal⟩ := Option.map_eq_some_iff.1 found
          cases equal
          exact splitAfter?_suffix inner
        · split at found
          · cases found
            exact List.dropWhile_suffix isNameChar
          · simp at found
      exact ⟨suffix.trans (List.suffix_cons c text), Nat.lt_succ_of_le suffix.length_le⟩

/-- What is left behind a part of a name is the end of the text, and shorter than it. -/
theorem nextPart?_suffix {text taken rest : List Char}
    (found : nextPart? text = some (taken, rest)) :
    rest <:+ text ∧ rest.length < text.length := by
  rw [nextPart?] at found
  split at found
  · rename_i after point
    obtain ⟨suffix, shorter⟩ := identifier?_suffix found
    have whole : rest <:+ after := suffix.trans (trimStart_suffix after)
    have start : '.' :: after <:+ text := point ▸ trimStart_suffix text
    have length := start.length_le
    have wholeLength := whole.length_le
    exact ⟨whole.trans ((List.suffix_cons '.' after).trans start), by simp at length; omega⟩
  · simp at found

/-- The last part of a qualified identifier whose given part has been read. -/
def lastPart (part text : List Char) : List Char × List Char :=
  match _found : nextPart? text with
  | none => (part, text)
  | some (next, rest) => lastPart next rest
termination_by text.length
decreasing_by exact (nextPart?_suffix _found).2

/-- The last part of the qualified identifier at the start of a text, and what
follows it. -/
def qualified? (text : List Char) : Option (List Char × List Char) :=
  (identifier? text).map fun parts => lastPart parts.1 parts.2

/-- What is left behind a qualified name is the end of the text. -/
theorem lastPart_suffix (part text : List Char) : (lastPart part text).2 <:+ text := by
  fun_induction lastPart part text with
  | case1 => exact List.suffix_refl _
  | case2 part text next rest found inductionHypothesis =>
      exact inductionHypothesis.trans (nextPart?_suffix found).1

/-- A qualified identifier takes at least one character from the front of a text. -/
theorem qualified?_suffix {text taken rest : List Char}
    (found : qualified? text = some (taken, rest)) :
    rest <:+ text ∧ rest.length < text.length := by
  obtain ⟨parts, inner, equal⟩ := Option.map_eq_some_iff.1 found
  obtain ⟨suffix, shorter⟩ := identifier?_suffix inner
  have tail := lastPart_suffix parts.1 parts.2
  rw [equal] at tail
  exact ⟨tail.trans suffix, Nat.lt_of_le_of_lt tail.length_le shorter⟩

/-- The parts of an identifier as written, without quotes and without the blanks
outside them. The argument before the text is the closing character of an open
quote. -/
def identifierParts : Option Char -> List Char -> List (List Char)
  | _, [] => [[]]
  | some close, c :: rest =>
      if c == close then identifierParts none rest
      else consFirst c (identifierParts (some close) rest)
  | none, c :: rest =>
      match identifierClose? c with
      | some close => identifierParts (some close) rest
      | none =>
          if c == '.' then [] :: identifierParts none rest
          else if isBlank c then identifierParts none rest
          else consFirst c (identifierParts none rest)

/-- The name that an identifier as written stands for: its last part. -/
def identifierName (written : List Char) : List Char :=
  (identifierParts none (trim written)).getLastD []

end SchemaLoom.Ddl
