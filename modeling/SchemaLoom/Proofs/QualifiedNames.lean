import SchemaLoom.Proofs.Pieces

/-!
# Names behind qualifiers and quotes

An identifier has one part or more, with points between them and blanks around the points. A
part is bare or in one of three kinds of quotes, where it may hold blanks, points and the
other quotes. Whatever stands in front of the last part and however it is written, the
identifier stands for the name of its last part, and so two of them stand for the same name
exactly if their last parts do.
-/

namespace SchemaLoom.Ddl

open SchemaLoom.Text

/-- The ways to write a part of an identifier: bare, or in quotes that the name does not
close. A name without characters has to be in quotes. -/
inductive PartStyle (name : List Char) where
  | bare (nonempty : name ≠ []) (partChars : name.all isPartChar)
  | quoted (quotes : Grammar.Quotes) (inside : quotes.closing ∉ name)

/-- The text of a name in a style. -/
def PartStyle.text {name : List Char} : PartStyle name -> List Char
  | bare _ _ => name
  | quoted quotes _ => quotes.opening :: name ++ [quotes.closing]

/-- A part of an identifier: its name, and how that is written. -/
structure NamePart where
  name : List Char
  style : PartStyle name

/-- Any number of blanks. -/
abbrev Blanks := {text : List Char // isBlankText text}

/-- The parts of an identifier, with the blanks around the points between them. -/
inductive NameParts where
  | last (part : NamePart)
  | qualified (qualifier : NamePart) (before after : Blanks) (others : NameParts)

namespace NameParts

/-- The text of an identifier. -/
def text : NameParts -> List Char
  | last part => part.style.text
  | qualified qualifier before after others =>
      qualifier.style.text ++ (before.1 ++ '.' :: (after.1 ++ others.text))

/-- The names of all parts, in order. -/
def names : NameParts -> List (List Char)
  | last part => [part.name]
  | qualified qualifier _ _ others => qualifier.name :: others.names

/-- The name of the last part. -/
def name : NameParts -> List Char
  | last part => part.name
  | qualified _ _ _ others => others.name

end NameParts

section Reading

variable {rest blanks : List Char} {parts : List (List Char)}

/-- Blanks open no quoted identifier. -/
theorem identifierClose?_of_isBlank {c : Char} (blank : isBlank c) : identifierClose? c = none := by
  refine Option.eq_none_iff_forall_ne_some.2 fun close opened => ?_
  have literal := quoteClose?_of_identifierClose? opened
  rw [(ordinary_of_isBlank blank).1] at literal
  cases literal

/-- Blanks outside of quotes belong to no part. -/
theorem identifierParts_blanks (blank : isBlankText blanks) (rest : List Char) :
    identifierParts none (blanks ++ rest) = identifierParts none rest := by
  induction blanks with
  | nil => rfl
  | cons c blanks inductionHypothesis =>
      obtain ⟨first, others⟩ := isBlankText_cons.1 blank
      have noPoint : c ≠ '.' := ne_of_isBlank first (by decide)
      rw [List.cons_append, identifierParts, identifierClose?_of_isBlank first]
      simpa [noPoint, first] using inductionHypothesis others

/-- A point outside of quotes, with blanks around it, ends a part. -/
theorem identifierParts_point (before after : Blanks) (rest : List Char) :
    identifierParts none (before.1 ++ '.' :: (after.1 ++ rest)) =
      [] :: identifierParts none rest := by
  rw [identifierParts_blanks before.2, identifierParts,
    show identifierClose? '.' = none from rfl]
  simp only [beq_self_eq_true, if_true, identifierParts_blanks after.2]

/-- The name of a part is kept as it is, however it is written. -/
theorem PartStyle.identifierParts_text {name : List Char} (style : PartStyle name)
    (behind : identifierParts none rest = [] :: parts) :
    identifierParts none (style.text ++ rest) = name :: parts := by
  cases style with
  | bare _ partChars => exact identifierParts_bare (List.all_eq_true.1 partChars) behind
  | quoted quotes inside =>
      have kept := identifierParts_quoted quotes.identifierClose?_opening inside behind
      simpa [text] using kept

/-- A part begins and ends with characters that are not blank: with those of a bare name, or
with its quotes. -/
theorem PartStyle.solid_text {name : List Char} (style : PartStyle name) : Solid style.text := by
  cases style with
  | bare nonempty partChars =>
      have solidChars : ∀ c ∈ name, isBlank c = false := by
        intro c member
        have partChar := List.all_eq_true.1 partChars c member
        simp only [isPartChar, Bool.and_eq_true, Bool.not_eq_true'] at partChar
        exact partChar.1.1.1.1
      exact .of_forall nonempty solidChars
  | quoted quotes _ =>
      cases quotes
      all_goals
        exact ⟨by simp [text], .cons (by decide) _,
          .append_right (by simp) (.singleton (by decide)) _⟩

end Reading

namespace NameParts

/-- The last name of several parts is that of the last part. -/
theorem getLastD_names (parts : NameParts) (otherwise : List Char) :
    parts.names.getLastD otherwise = parts.name := by
  induction parts generalizing otherwise with
  | last part => rfl
  | qualified qualifier before after others inductionHypothesis =>
      rw [names, List.getLastD_cons]
      exact inductionHypothesis qualifier.name

/-- The parts of an identifier are read back with their names, in order. -/
theorem identifierParts_text (parts : NameParts) :
    identifierParts none parts.text = parts.names := by
  induction parts with
  | last part =>
      have alone := part.style.identifierParts_text (show identifierParts none [] = [] :: [] from rfl)
      rwa [List.append_nil] at alone
  | qualified qualifier before after others inductionHypothesis =>
      have behind := identifierParts_point before after others.text
      rw [inductionHypothesis] at behind
      exact qualifier.style.identifierParts_text behind

/-- A name in parts neither begins nor ends with a blank. -/
theorem solid_text (parts : NameParts) : Solid parts.text := by
  induction parts with
  | last part => exact part.style.solid_text
  | qualified qualifier before after others inductionHypothesis =>
      refine qualifier.style.solid_text.append ?_
      have ending : EndsSolid ('.' :: after.1 ++ others.text) :=
        inductionHypothesis.last.append_right inductionHypothesis.nonempty _
      exact ending.append_right (by simp) before.1

end NameParts

/-- An identifier stands for the name of its last part, whatever blanks stand around it. Two
of them stand for the same name exactly if their last parts have the same name, so neither
the qualifiers nor the quotes make a difference. -/
theorem identifierName_text :
    (∀ (parts : NameParts) (before after : Blanks),
        identifierName (before.1 ++ (parts.text ++ after.1)) = parts.name) ∧
      ∀ (first second : NameParts) (before after left right : Blanks),
        identifierName (before.1 ++ (first.text ++ after.1)) =
            identifierName (left.1 ++ (second.text ++ right.1)) ↔
          first.name = second.name := by
  have stands (parts : NameParts) (before after : Blanks) :
      identifierName (before.1 ++ (parts.text ++ after.1)) = parts.name := by
    rw [identifierName, trim_around before.2 parts.solid_text after.2,
      parts.identifierParts_text, parts.getLastD_names]
  refine ⟨stands, fun first second before after left right => ?_⟩
  rw [stands, stands]

example : identifierName " \x22my.[schema\x22 . [a.b c] ".toList = "a.b c".toList := by
  decide

end SchemaLoom.Ddl
