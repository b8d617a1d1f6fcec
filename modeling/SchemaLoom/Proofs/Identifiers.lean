import SchemaLoom.Ddl.Definition
import SchemaLoom.Proofs.Keywords
import SchemaLoom.Proofs.Nesting

/-!
# Reading identifiers and references

An identifier that is written bare or in quotes is read up to its end and stands for
its name again, whatever follows it, as long as a bare one is not followed by more
name characters. The same goes for qualified names, for identifiers in parentheses
and for references, with any blanks between their parts.
-/

namespace SchemaLoom.Ddl

open SchemaLoom.Text

/-- The ways to write an identifier of a given name. -/
inductive Spells : List Char -> List Char -> Prop where
  | bare {name : List Char} (nonempty : name ≠ []) (nameChars : ∀ c ∈ name, isNameChar c)
      (quoteFree : QuoteFree name) : Spells name name
  | quoted (opening : Char) {close : Char} {name : List Char}
      (quotes : identifierClose? opening = some close) (inside : close ∉ name) :
      Spells (opening :: name ++ [close]) name

/-- A text after which an identifier without quotes has ended. -/
def EndsName (rest : List Char) : Prop :=
  ∀ c ∈ rest.head?, isNameChar c = false

/-- Blanks do not stand in bare names. -/
theorem isNameChar_of_isBlank {c : Char} (blank : isBlank c) : isNameChar c = false := by
  simp [isNameChar, blank]

/-- The characters of bare names are no blanks. -/
theorem isBlank_of_isNameChar {c : Char} (nameChar : isNameChar c) : isBlank c = false :=
  Bool.eq_false_iff.2 fun blank => by simp [isNameChar_of_isBlank blank] at nameChar

/-- A name that ends where a text begins ends where blanks stand in front of it, too. -/
theorem EndsName.of_blanks {blanks rest : List Char} (blank : isBlankText blanks)
    (ends : EndsName rest) : EndsName (blanks ++ rest) := by
  cases blanks with
  | nil => exact ends
  | cons c blanks =>
      intro d member
      obtain rfl : c = d := by simpa using member
      exact isNameChar_of_isBlank (isBlankText_cons.1 blank).1

/-- A name ends in front of a character that is none of its own. -/
theorem EndsName.cons {c : Char} (other : isNameChar c = false) (rest : List Char) :
    EndsName (c :: rest) := by
  intro d member
  obtain rfl : c = d := by simpa using member
  exact other

/-- What opens a quoted identifier is one of three characters. -/
theorem eq_of_identifierClose? {opening close : Char}
    (quotes : identifierClose? opening = some close) :
    (opening = '\x22' ∧ close = '\x22') ∨ (opening = '\x60' ∧ close = '\x60') ∨
      (opening = '[' ∧ close = ']') := by
  unfold identifierClose? at quotes
  split at quotes
  · rename_i same
    obtain rfl := Option.some.inj quotes
    rcases Bool.or_eq_true_iff.1 same with double | backtick
    · exact .inl ⟨beq_iff_eq.1 double, beq_iff_eq.1 double⟩
    · exact .inr (.inl ⟨beq_iff_eq.1 backtick, beq_iff_eq.1 backtick⟩)
  · split at quotes
    · rename_i bracket
      exact .inr (.inr ⟨beq_iff_eq.1 bracket, (Option.some.inj quotes).symm⟩)
    · cases quotes

/-- What closes a quoted identifier closes a quoted run. -/
theorem quoteClose?_of_identifierClose? {opening close : Char}
    (quotes : identifierClose? opening = some close) : quoteClose? opening = some close := by
  rcases eq_of_identifierClose? quotes with ⟨rfl, rfl⟩ | ⟨rfl, rfl⟩ | ⟨rfl, rfl⟩ <;> decide

/-- A bare name opens no quotes. -/
theorem identifierClose?_of_isNameChar {c : Char} (nameChar : isNameChar c) :
    identifierClose? c = none := by
  simp only [isNameChar, Bool.and_eq_true, bne_iff_ne] at nameChar
  simp [identifierClose?, nameChar.1.1.1.2, nameChar.1.1.2, nameChar.1.2]

/-- A quoted name is split off up to its closing quote. -/
theorem splitAfter?_append {close : Char} {name : List Char} (inside : close ∉ name)
    (rest : List Char) :
    splitAfter? close (name ++ close :: rest) = some (name ++ [close], rest) := by
  induction name with
  | nil => simp [splitAfter?]
  | cons c name inductionHypothesis =>
      simp only [List.mem_cons, not_or] at inside
      rw [List.cons_append, splitAfter?, if_neg (by simpa using Ne.symm inside.1),
        inductionHypothesis inside.2]
      rfl

/-- A run of accepted characters is taken whole where something else follows it. -/
theorem takeWhile_append_of_ends {accepts : Char -> Bool} {text rest : List Char}
    (all : ∀ c ∈ text, accepts c) (ends : ∀ c ∈ rest.head?, accepts c = false) :
    (text ++ rest).takeWhile accepts = text ∧ (text ++ rest).dropWhile accepts = rest := by
  have stops : rest.takeWhile accepts = [] ∧ rest.dropWhile accepts = rest := by
    cases rest with
    | nil => exact ⟨rfl, rfl⟩
    | cons c rest => simp [ends c rfl]
  rw [List.takeWhile_append_of_pos all, List.dropWhile_append_of_pos all, stops.1, stops.2,
    List.append_nil]
  exact ⟨rfl, rfl⟩

/-- Whether a character outside of quotes belongs to the part of an identifier that it
stands in: it is no blank, does not end the part and opens no quotes. -/
def isPartChar (c : Char) : Bool :=
  !isBlank c && c != '.' && c != '\x22' && c != '\x60' && c != '['

/-- The parts of a name open no quotes. -/
theorem identifierClose?_of_isPartChar {c : Char} (partChar : isPartChar c) :
    identifierClose? c = none := by
  simp only [isPartChar, Bool.and_eq_true, bne_iff_ne] at partChar
  simp [identifierClose?, partChar]

/-- Whatever stands in a bare name may stand in a part of one. -/
theorem isPartChar_of_isNameChar {c : Char} (nameChar : isNameChar c) : isPartChar c = true := by
  simp only [isNameChar, Bool.and_eq_true] at nameChar
  simp [isPartChar, nameChar]

section Parts

variable {name rest : List Char} {parts : List (List Char)}

/-- A part without quotes is kept as it is, up to what does not belong to it. -/
theorem identifierParts_bare (partChars : ∀ c ∈ name, isPartChar c)
    (behind : identifierParts none rest = [] :: parts) :
    identifierParts none (name ++ rest) = name :: parts := by
  induction name with
  | nil => exact behind
  | cons c name inductionHypothesis =>
      obtain ⟨first, others⟩ := List.forall_mem_cons.1 partChars
      have unquoted := identifierClose?_of_isPartChar first
      simp only [isPartChar, Bool.and_eq_true, bne_iff_ne, Bool.not_eq_true'] at first
      rw [List.cons_append, identifierParts, unquoted]
      simp [first, inductionHypothesis others, consFirst]

/-- Within quotes everything up to the closing quote is one part, dots included. -/
theorem identifierParts_inside {close : Char} (inside : close ∉ name)
    (behind : identifierParts none rest = [] :: parts) :
    identifierParts (some close) (name ++ close :: rest) = name :: parts := by
  induction name with
  | nil => simpa [identifierParts] using behind
  | cons c name inductionHypothesis =>
      simp only [List.mem_cons, not_or] at inside
      rw [List.cons_append, identifierParts, if_neg (by simpa using Ne.symm inside.1),
        inductionHypothesis inside.2]
      rfl

/-- A part in quotes is kept as it is between them, whatever it holds. -/
theorem identifierParts_quoted {opening close : Char}
    (quotes : identifierClose? opening = some close) (inside : close ∉ name)
    (behind : identifierParts none rest = [] :: parts) :
    identifierParts none (opening :: (name ++ close :: rest)) = name :: parts := by
  rw [identifierParts, quotes]
  exact identifierParts_inside inside behind

end Parts

namespace Spells

variable {written name rest : List Char}

/-- An identifier as written is read up to its end. -/
theorem identifier?_eq (spells : Spells written name) (ends : EndsName rest) :
    identifier? (written ++ rest) = some (written, rest) := by
  cases spells with
  | bare nonempty nameChars _ =>
      cases written with
      | nil => exact absurd rfl nonempty
      | cons c written =>
          obtain ⟨first, others⟩ := List.forall_mem_cons.1 nameChars
          obtain ⟨taken, dropped⟩ := takeWhile_append_of_ends others ends
          rw [List.cons_append, identifier?, identifierClose?_of_isNameChar first]
          simp only [first, if_true, taken, dropped]
  | quoted opening quotes inside =>
      rw [List.append_assoc, List.cons_append, List.cons_append, identifier?, quotes]
      rw [List.nil_append]
      simp only [splitAfter?_append inside, Option.map_some, List.cons_append]

/-- An identifier as written begins and ends with characters that are not blank. -/
theorem solid (spells : Spells written name) : Solid written := by
  cases spells with
  | bare nonempty nameChars _ =>
      exact .of_forall nonempty fun c member => isBlank_of_isNameChar (nameChars c member)
  | quoted opening quotes _ =>
      rcases eq_of_identifierClose? quotes with ⟨rfl, rfl⟩ | ⟨rfl, rfl⟩ | ⟨rfl, rfl⟩
      all_goals
        exact ⟨by simp, .cons (by decide) _, .append_right (by simp) (.singleton (by decide)) _⟩

/-- An identifier as written stands for its name. -/
theorem identifierName_eq (spells : Spells written name) : identifierName written = name := by
  have parts : identifierParts none written = [name] := by
    cases spells with
    | bare _ nameChars _ =>
        have partChars : ∀ c ∈ written, isPartChar c :=
          fun c member => isPartChar_of_isNameChar (nameChars c member)
        have alone := @identifierParts_bare written [] [] partChars rfl
        rwa [List.append_nil] at alone
    | quoted opening quotes inside => exact identifierParts_quoted quotes inside rfl
  rw [identifierName, trim_of_solid spells.solid, parts]
  rfl

/-- A spelled name is the name that it spells. -/
theorem nameOf_eq (spells : Spells written name) : nameOf written = String.ofList name := by
  rw [nameOf, spells.identifierName_eq]

/-- Scans that stop at blanks, commas or semicolons only cross an identifier. -/
theorem crossed {stops : Nat -> Char -> Bool} (spells : Spells written name)
    (fewerStops : ∀ depth c, stops depth c → stopsAny depth c) (depth : Nat) :
    depthAcross? stops none depth written = some depth := by
  refine depthAcross?_fewer fewerStops ?_
  cases spells with
  | bare _ nameChars quoteFree =>
      have ordinary : ∀ c ∈ written, c ≠ '(' ∧ c ≠ ')' ∧ stopsAny depth c = false := by
        intro c member
        have nameChar := nameChars c member
        simp only [isNameChar, Bool.and_eq_true, bne_iff_ne, Bool.not_eq_true'] at nameChar
        simp [nameChar, stopsAny, stopsDefinition, stopsWord]
      exact depthAcross?_ordinary quoteFree (fun member => (ordinary _ member).1 rfl)
        (fun member => (ordinary _ member).2.1 rfl) fun c member => (ordinary c member).2.2
  | quoted opening quotes inside =>
      have noStop : stopsAny depth opening = false ∧ opening ≠ ')' ∧ opening ≠ '(' := by
        rcases eq_of_identifierClose? quotes with ⟨rfl, -⟩ | ⟨rfl, -⟩ | ⟨rfl, -⟩ <;>
          simp [stopsAny, stopsDefinition, stopsWord, isBlank]
      exact depthAcross?_quoted (quoteClose?_of_identifierClose? quotes) inside noStop.1
        noStop.2.1 noStop.2.2

/-- A spelled name is not divided by a comma, since one in it stands within quotes. -/
theorem undivided (spells : Spells written name) : Undivided written :=
  spells.crossed (fun _ _ stop => by simp [stopsAny, stop]) 0

end Spells

/-- The ways to write a qualified name: the text, its last part as written, and the
name of that part. -/
inductive Qualifies : List Char -> List Char -> List Char -> Prop where
  | last {written name : List Char} (spells : Spells written name) : Qualifies written written name
  | part {qualifier qualifierName before after text last name : List Char}
      (spells : Spells qualifier qualifierName) (blankBefore : isBlankText before)
      (blankAfter : isBlankText after) (others : Qualifies text last name) :
      Qualifies (qualifier ++ (before ++ '.' :: (after ++ text))) last name

namespace Qualifies

variable {text last name : List Char}

/-- The last part of a qualified name is spelled like a name. -/
theorem spells (qualifies : Qualifies text last name) : Spells last name := by
  induction qualifies with
  | last spells => exact spells
  | part _ _ _ _ inductionHypothesis => exact inductionHypothesis

/-- A qualified name does not begin with a blank. -/
theorem startsSolid (qualifies : Qualifies text last name) (rest : List Char) :
    StartsSolid (text ++ rest) := by
  cases qualifies with
  | last spells => exact (startsSolid_append spells.solid.nonempty).2 spells.solid.first
  | part spells _ _ _ =>
      rw [List.append_assoc]
      exact (startsSolid_append spells.solid.nonempty).2 spells.solid.first

/-- In front of a parenthesis a qualified name has no further part. -/
theorem nextPart?_of_parenthesis {blanks : List Char} (blank : isBlankText blanks)
    (rest : List Char) : nextPart? (blanks ++ '(' :: rest) = none := by
  have start : StartsSolid ('(' :: rest) := .cons (by decide) _
  rw [nextPart?, trimStart_blanks blank start]
  rfl

/-- A part that no further one follows is the last. -/
theorem lastPart_of_none {part text : List Char} (absent : nextPart? text = none) :
    lastPart part text = (part, text) := by
  rw [lastPart]
  split
  · rfl
  · simp_all

/-- A part that another one follows makes no difference to the last. -/
theorem lastPart_of_some {part text next rest : List Char}
    (found : nextPart? text = some (next, rest)) : lastPart part text = lastPart next rest := by
  rw [lastPart]
  split <;> simp_all

/-- A qualified name before a parenthesis is read up to its end. -/
theorem qualified?_eq (qualifies : Qualifies text last name) {blanks : List Char}
    (blank : isBlankText blanks) (rest : List Char) :
    qualified? (text ++ (blanks ++ '(' :: rest)) = some (last, blanks ++ '(' :: rest) := by
  have ends : EndsName (blanks ++ '(' :: rest) := .of_blanks blank (.cons (by decide) rest)
  -- Each part is read by the step that the part before it takes across the point.
  suffices parts : ∃ written later,
      identifier? (text ++ (blanks ++ '(' :: rest)) = some (written, later) ∧
        lastPart written later = (last, blanks ++ '(' :: rest) by
    obtain ⟨written, later, first, others⟩ := parts
    rw [qualified?, first, Option.map_some, others]
  induction qualifies with
  | last spells =>
      exact ⟨_, _, spells.identifier?_eq ends,
        lastPart_of_none (nextPart?_of_parenthesis blank rest)⟩
  | @part qualifier _ before after text last name spells blankBefore blankAfter others
      inductionHypothesis =>
      obtain ⟨written, later, next, tail⟩ := inductionHypothesis
      have point : StartsSolid ('.' :: (after ++ (text ++ (blanks ++ '(' :: rest)))) :=
        .cons (by decide) _
      have step : nextPart? (before ++ '.' :: (after ++ (text ++ (blanks ++ '(' :: rest)))) =
          some (written, later) := by
        rw [nextPart?, trimStart_blanks blankBefore point]
        simp only [trimStart_blanks blankAfter (others.startsSolid _), next]
      refine ⟨qualifier, _, ?_, (lastPart_of_some step).trans tail⟩
      simp only [List.append_assoc, List.cons_append]
      exact spells.identifier?_eq (.of_blanks blankBefore (.cons (by decide) _))

/-- A qualified name is not divided by a comma. -/
theorem undivided (qualifies : Qualifies text last name) : Undivided text := by
  induction qualifies with
  | last spells => exact spells.undivided
  | @part _ _ _ after text _ _ spells blankBefore blankAfter others inductionHypothesis =>
      have point : Undivided ['.'] := by decide
      have tail : Undivided ('.' :: (after ++ text)) :=
        point.append ((Undivided.of_blanks blankAfter).append inductionHypothesis)
      exact spells.undivided.append ((Undivided.of_blanks blankBefore).append tail)

end Qualifies

/-- An identifier in parentheses. -/
def enclosed (before written after : List Char) : List Char :=
  '(' :: (before ++ (written ++ (after ++ [')'])))

/-- A name in parentheses is not divided by a comma. -/
theorem enclosed_undivided {before written name after : List Char}
    (blankBefore : isBlankText before) (spells : Spells written name)
    (blankAfter : isBlankText after) : Undivided (enclosed before written after) := by
  have inner : Undivided (before ++ (written ++ after)) :=
    (Undivided.of_blanks blankBefore).append
      (spells.undivided.append (.of_blanks blankAfter))
  simpa [enclosed] using inner.parentheses

/-- A name in parentheses begins and ends with them. -/
theorem enclosed_solid (before written after : List Char) :
    Solid (enclosed before written after) := by
  have whole : enclosed before written after = '(' :: (before ++ (written ++ after)) ++ [')'] := by
    simp [enclosed]
  rw [whole]
  exact ⟨by simp, .cons (by decide) _, .append_right (by simp) (.singleton (by decide)) _⟩

/-- An identifier in parentheses is read with all blanks around and inside them. -/
theorem parenthesizedIdentifier?_enclosed {outside before written name after : List Char}
    (blankOutside : isBlankText outside) (blankBefore : isBlankText before)
    (spells : Spells written name) (blankAfter : isBlankText after) (rest : List Char) :
    parenthesizedIdentifier? (outside ++ (enclosed before written after ++ rest)) =
      some (written, rest) := by
  have opening : StartsSolid (enclosed before written after ++ rest) := .cons (by decide) _
  have closing : StartsSolid (')' :: rest) := .cons (by decide) _
  have start : StartsSolid (written ++ (after ++ ')' :: rest)) :=
    (startsSolid_append spells.solid.nonempty).2 spells.solid.first
  have ends : EndsName (after ++ ')' :: rest) := .of_blanks blankAfter (.cons (by decide) rest)
  rw [parenthesizedIdentifier?, trimStart_blanks blankOutside opening]
  simp only [enclosed, List.cons_append, List.append_assoc, List.nil_append]
  simp only [trimStart_blanks blankBefore start, spells.identifier?_eq ends,
    trimStart_blanks blankAfter closing]

/-- The ways to write a reference to a column of a table. -/
inductive Refers : List Char -> List Char × List Char -> Prop where
  | intro {letters space target last table middle before written column after : List Char}
      (cased : asciiUpper letters = "REFERENCES".toList) (blankSpace : isBlankText space)
      (nonempty : space ≠ []) (qualifies : Qualifies target last table)
      (blankMiddle : isBlankText middle) (blankBefore : isBlankText before)
      (spells : Spells written column) (blankAfter : isBlankText after) :
      Refers (letters ++ (space ++ (target ++ (middle ++ enclosed before written after))))
        (table, column)

/-- A reference is read up to its closing parenthesis and names what it refers to. -/
theorem Refers.reference?_eq {text : List Char} {names : List Char × List Char}
    (refers : Refers text names) (rest : List Char) :
    ∃ target, reference? (text ++ rest) = some target ∧
      ∀ table column, relationshipTo table column target =
        { fromTable := table
          fromColumn := column
          toTable := String.ofList names.1
          toColumn := String.ofList names.2 } := by
  obtain ⟨cased, blankSpace, nonempty, qualifies, blankMiddle, blankBefore, spells, blankAfter⟩ :=
    refers
  rename_i letters space targetText last table middle before written column after
  refine ⟨(last, written), ?_, ?_⟩
  · have name := qualifies.qualified?_eq blankMiddle (before ++ (written ++ (after ++ ')' :: rest)))
    have inside : parenthesizedIdentifier? (middle ++ (enclosed before written after ++ rest)) =
        some (written, rest) :=
      parenthesizedIdentifier?_enclosed blankMiddle blankBefore spells blankAfter rest
    simp only [enclosed, List.append_assoc, List.cons_append, List.nil_append] at inside ⊢
    rw [reference?, keywordAndBlanks_append cased blankSpace nonempty (qualifies.startsSolid _)]
    simp only [name, inside, Option.map_some]
  · intro table column
    rw [relationshipTo, qualifies.spells.nameOf_eq, spells.nameOf_eq]

end SchemaLoom.Ddl
