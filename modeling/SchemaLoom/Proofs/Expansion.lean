import SchemaLoom.Settings.Template

/-!
# Expansion of references

A text is plain texts and references by turns, in one way only: the mark that begins a
reference stands in no plain text, and a name goes up to the first closing brace. Where no
closing brace follows a mark, the mark and what is behind it are a tail. A text that is taken
apart shows these parts, and filling it puts values in place of the references and looks at
nothing twice.
-/

namespace SchemaLoom.Template

/-- The mark that begins a reference. -/
def opening : List Char :=
  ['$', '\x7b']

/-- A text as plain texts and references by turns, and a tail. -/
structure Parts where
  /-- The references, each with the plain text before it. -/
  references : List (List Char × String)
  /-- The plain text behind the last reference. -/
  last : List Char
  /-- What begins like a reference and has no end. -/
  tail : List Char
  deriving DecidableEq, Repr

namespace Parts

/-- The text of some parts. -/
def text (parts : Parts) : List Char :=
  parts.references.flatMap
      (fun part => part.1 ++ '$' :: '\x7b' :: (part.2.toList ++ ['\x7d'])) ++
    (parts.last ++ parts.tail)

/-- The text of some parts with values in place of their references. -/
def filled (parts : Parts) (value : String -> String) : List Char :=
  parts.references.flatMap (fun part => part.1 ++ (value part.2).toList) ++
    (parts.last ++ parts.tail)

/-- The template of some parts. -/
def template (parts : Parts) : Template :=
  parts.references.flatMap (fun part => part.1.map .char ++ [.reference part.2]) ++
    (parts.last ++ parts.tail).map .char

/-- Parts of which none contains the beginning or the end of another. -/
structure Proper (parts : Parts) : Prop where
  plain : ∀ part ∈ parts.references, ¬opening <:+: part.1
  names : ∀ part ∈ parts.references, '\x7d' ∉ part.2.toList
  last : ¬opening <:+: parts.last
  tail : parts.tail = [] ∨ opening <+: parts.tail ∧ '\x7d' ∉ parts.tail

end Parts

section Marks

variable {text plain other rest later : List Char}

/-- A text without an opening has none in its rest. -/
theorem not_opening_of_cons {c : Char} (absent : ¬opening <:+: c :: text) :
    ¬opening <:+: text :=
  fun stands => absent (stands.trans (List.suffix_cons c text).isInfix)

theorem not_opening_nil : ¬opening <:+: [] := by
  simp [opening]

/-- The mark stands at the front of a text, or within what follows the first character. -/
theorem opening_infix_cons {c : Char} :
    opening <:+: c :: text ↔ (c = '$' ∧ text.head? = some '\x7b') ∨ opening <:+: text := by
  have front : opening <+: c :: text ↔ c = '$' ∧ text.head? = some '\x7b' := by
    cases text with
    | nil => simp [opening]
    | cons d text => simp [opening, List.cons_prefix_cons, eq_comm]
  rw [List.infix_cons_iff, front]

/-- A text with a mark has a first one. -/
theorem exists_first_opening (stands : opening <:+: text) :
    ∃ plain rest, text = plain ++ '$' :: '\x7b' :: rest ∧ ¬opening <:+: plain := by
  induction text with
  | nil => exact absurd stands not_opening_nil
  | cons c text inductionHypothesis =>
      by_cases here : c = '$' ∧ text.head? = some '\x7b'
      · obtain ⟨rfl, next⟩ := here
        obtain ⟨rest, rfl⟩ := List.head?_eq_some_iff.1 next
        exact ⟨[], rest, rfl, not_opening_nil⟩
      · obtain ⟨plain, rest, rfl, absent⟩ :=
          inductionHypothesis ((opening_infix_cons.1 stands).resolve_left here)
        refine ⟨c :: plain, rest, rfl, fun inside => ?_⟩
        rcases opening_infix_cons.1 inside with ⟨rfl, next⟩ | later
        · exact here ⟨rfl, by cases plain <;> simp_all⟩
        · exact absent later

/-- A mark at the front does not reach beyond a plain text before another one. -/
theorem opening_of_front {c : Char}
    (same : '$' :: '\x7b' :: rest = c :: (plain ++ '$' :: '\x7b' :: later)) :
    opening <:+: c :: plain := by
  cases plain with
  | nil => simp at same
  | cons d plain =>
      obtain ⟨rfl, rfl, -⟩ : '$' = c ∧ '\x7b' = d ∧ rest = plain ++ '$' :: '\x7b' :: later := by
        simpa using same
      exact ⟨[], plain, rfl⟩

/-- What stands before the first mark is determined, and so is what stands behind it. -/
theorem first_opening_unique (absent : ¬opening <:+: plain) (otherAbsent : ¬opening <:+: other)
    (same : plain ++ '$' :: '\x7b' :: rest = other ++ '$' :: '\x7b' :: later) :
    plain = other ∧ rest = later := by
  induction plain generalizing other with
  | nil =>
      cases other with
      | nil => simpa using same
      | cons c other => exact absurd (opening_of_front same) otherAbsent
  | cons c plain inductionHypothesis =>
      cases other with
      | nil => exact absurd (opening_of_front same.symm) absent
      | cons d other =>
          obtain ⟨rfl, behind⟩ := List.cons.inj same
          obtain ⟨rfl, rfl⟩ := inductionHypothesis (not_opening_of_cons absent)
            (not_opening_of_cons otherAbsent) behind
          exact ⟨rfl, rfl⟩

/-- A name goes up to the first closing brace. -/
theorem takeWhile_name {name : List Char} (inside : '\x7d' ∉ name) (rest : List Char) :
    (name ++ '\x7d' :: rest).takeWhile (· != '\x7d') = name ∧
      (name ++ '\x7d' :: rest).dropWhile (· != '\x7d') = '\x7d' :: rest := by
  have before : ∀ c ∈ name, (c != '\x7d') = true := by
    intro c member
    simpa using fun equal : c = '\x7d' => inside (equal ▸ member)
  simp [List.takeWhile_append_of_pos before, List.dropWhile_append_of_pos before]

/-- A name ends at the first closing brace. -/
theorem name_unique {name otherName : List Char} (inside : '\x7d' ∉ name)
    (otherInside : '\x7d' ∉ otherName)
    (same : name ++ '\x7d' :: rest = otherName ++ '\x7d' :: later) :
    name = otherName ∧ rest = later := by
  obtain ⟨taken, left⟩ := takeWhile_name inside rest
  obtain ⟨otherTaken, otherLeft⟩ := takeWhile_name otherInside later
  rw [same, otherTaken] at taken
  rw [same, otherLeft] at left
  exact ⟨taken.symm, (List.cons.inj left).2.symm⟩

end Marks

namespace Parts

variable {parts : Parts} {references : List (List Char × String)} {last tail : List Char}

theorem text_nil : (Parts.mk [] last tail).text = last ++ tail :=
  rfl

/-- The first reference is written behind its own text, between its braces. -/
theorem text_cons (part : List Char × String) :
    (Parts.mk (part :: references) last tail).text =
      part.1 ++ '$' :: '\x7b' ::
        (part.2.toList ++ '\x7d' :: (Parts.mk references last tail).text) := by
  simp [text]

/-- The template of parts begins with the first text and the first reference. -/
theorem template_cons (part : List Char × String) :
    (Parts.mk (part :: references) last tail).template =
      part.1.map .char ++ .reference part.2 :: (Parts.mk references last tail).template := by
  simp [template]

/-- The filled text begins with the first text and the value of the first reference. -/
theorem filled_cons (part : List Char × String) (value : String -> String) :
    (Parts.mk (part :: references) last tail).filled value =
      part.1 ++ ((value part.2).toList ++ (Parts.mk references last tail).filled value) := by
  simp [filled]

/-- Proper parts stay so with a reference and a text without an opening in front. -/
theorem Proper.cons {part : List Char × String} (plain : ¬opening <:+: part.1)
    (name : '\x7d' ∉ part.2.toList) (others : (Parts.mk references last tail).Proper) :
    (Parts.mk (part :: references) last tail).Proper where
  plain := List.forall_mem_cons.2 ⟨plain, others.plain⟩
  names := List.forall_mem_cons.2 ⟨name, others.names⟩
  last := others.last
  tail := others.tail

/-- Proper parts stay so without the first. -/
theorem Proper.of_cons {part : List Char × String}
    (proper : (Parts.mk (part :: references) last tail).Proper) :
    (Parts.mk references last tail).Proper where
  plain := (List.forall_mem_cons.1 proper.plain).2
  names := (List.forall_mem_cons.1 proper.names).2
  last := proper.last
  tail := proper.tail

/-- Every text has proper parts. -/
theorem exists_proper (text : List Char) : ∃ parts : Parts, parts.Proper ∧ parts.text = text := by
  induction length : text.length using Nat.strongRecOn generalizing text with
  | ind length inductionHypothesis =>
      subst length
      by_cases stands : opening <:+: text
      · obtain ⟨plain, rest, rfl, absent⟩ := exists_first_opening stands
        by_cases closed : '\x7d' ∈ rest
        · obtain ⟨name, later, rfl, inside⟩ := List.eq_append_cons_of_mem closed
          obtain ⟨⟨references, last, tail⟩, proper, whole⟩ :=
            inductionHypothesis later.length (by simp; omega) later rfl
          exact ⟨⟨(plain, String.ofList name) :: references, last, tail⟩,
            proper.cons absent (by simpa using inside), by simp [text_cons, whole]⟩
        · exact ⟨⟨[], plain, '$' :: '\x7b' :: rest⟩,
            ⟨by simp, by simp, absent, .inr ⟨⟨rest, rfl⟩, by simpa using closed⟩⟩, rfl⟩
      · exact ⟨⟨[], text, []⟩, ⟨by simp, by simp, stands, .inl rfl⟩, by simp [Parts.text]⟩

/-- A tail does not begin before it does: behind plain texts there is one way to end a text. -/
theorem ending_unique {plain other ending : List Char} (absent : ¬opening <:+: plain)
    (otherAbsent : ¬opening <:+: other)
    (isTail : tail = [] ∨ opening <+: tail ∧ '\x7d' ∉ tail)
    (isEnding : ending = [] ∨ opening <+: ending ∧ '\x7d' ∉ ending)
    (same : plain ++ tail = other ++ ending) : plain = other ∧ tail = ending := by
  have stands {text rest : List Char} : opening <:+: text ++ '$' :: '\x7b' :: rest :=
    ⟨text, rest, by simp [opening]⟩
  rcases isTail with rfl | ⟨⟨rest, rfl⟩, -⟩
  · rcases isEnding with rfl | ⟨⟨later, rfl⟩, -⟩
    · simpa using same
    · rw [List.append_nil] at same
      exact absurd (same ▸ stands) absent
  · rcases isEnding with rfl | ⟨⟨later, rfl⟩, -⟩
    · rw [List.append_nil] at same
      exact absurd (same ▸ stands) otherAbsent
    · obtain ⟨rfl, rfl⟩ := first_opening_unique absent otherAbsent same
      exact ⟨rfl, rfl⟩

/-- The last texts of some parts are not the beginning of others with a reference. -/
theorem ending_ne_reference {plain other name later : List Char} (absent : ¬opening <:+: plain)
    (otherAbsent : ¬opening <:+: other)
    (isTail : tail = [] ∨ opening <+: tail ∧ '\x7d' ∉ tail) :
    plain ++ tail ≠ other ++ '$' :: '\x7b' :: (name ++ '\x7d' :: later) := by
  intro same
  rcases isTail with rfl | ⟨⟨rest, rfl⟩, unclosed⟩
  · rw [List.append_nil] at same
    exact absent (same ▸ ⟨other, name ++ '\x7d' :: later, by simp [opening]⟩)
  · obtain ⟨-, rfl⟩ := first_opening_unique absent otherAbsent same
    exact unclosed (by simp)

/-- Proper parts are determined by their text. -/
theorem Proper.unique {other : Parts} (proper : parts.Proper) (otherProper : other.Proper)
    (same : parts.text = other.text) : parts = other := by
  obtain ⟨references, last, tail⟩ := parts
  obtain ⟨others, ending, rest⟩ := other
  induction references generalizing others with
  | nil =>
      cases others with
      | nil =>
          obtain ⟨rfl, rfl⟩ := ending_unique proper.last otherProper.last proper.tail
            otherProper.tail same
          rfl
      | cons part others =>
          rw [text_nil, text_cons] at same
          exact absurd same (ending_ne_reference proper.last
            (List.forall_mem_cons.1 otherProper.plain).1 proper.tail)
  | cons part references inductionHypothesis =>
      have plain := (List.forall_mem_cons.1 proper.plain).1
      rw [text_cons] at same
      cases others with
      | nil =>
          rw [text_nil] at same
          exact absurd same.symm (ending_ne_reference otherProper.last plain otherProper.tail)
      | cons otherPart others =>
          rw [text_cons] at same
          obtain ⟨samePlain, behind⟩ := first_opening_unique plain
            (List.forall_mem_cons.1 otherProper.plain).1 same
          obtain ⟨sameName, later⟩ := name_unique (List.forall_mem_cons.1 proper.names).1
            (List.forall_mem_cons.1 otherProper.names).1 behind
          have whole := inductionHypothesis proper.of_cons others otherProper.of_cons later
          obtain ⟨rfl, rfl, rfl⟩ := Parts.mk.inj whole
          rw [Prod.ext samePlain (String.toList_inj.1 sameName)]

end Parts

section Reading

variable {plain rest : List Char}

/-- A character that opens no reference stands for itself. -/
theorem ofChars_cons {c : Char} {text : List Char}
    (absent : ¬(c = '$' ∧ text.head? = some '\x7b')) :
    ofChars (c :: text) = .char c :: ofChars text := by
  cases text with
  | nil =>
      rw [ofChars, ofChars]
  | cons d text =>
      rw [ofChars, if_neg (by simpa using absent)]

/-- A text without an opening stands for itself in front of a dollar sign. -/
theorem ofChars_plain (absent : ¬opening <:+: plain) (rest : List Char) :
    ofChars (plain ++ '$' :: rest) = plain.map .char ++ ofChars ('$' :: rest) := by
  induction plain with
  | nil => rfl
  | cons c plain inductionHypothesis =>
      have here : ¬(c = '$' ∧ (plain ++ '$' :: rest).head? = some '\x7b') := by
        rintro ⟨rfl, next⟩
        refine absent (opening_infix_cons.2 (.inl ⟨rfl, ?_⟩))
        cases plain with
        | nil => cases next
        | cons d plain => exact next
      rw [List.cons_append, ofChars_cons here, inductionHypothesis (not_opening_of_cons absent)]
      rfl

/-- A text without an opening stands for itself. -/
theorem ofChars_of_no_opening (absent : ¬opening <:+: plain) :
    ofChars plain = plain.map .char := by
  induction plain with
  | nil => rw [ofChars]; rfl
  | cons c plain inductionHypothesis =>
      rw [ofChars_cons fun here => absent (opening_infix_cons.2 (.inl here)),
        inductionHypothesis (not_opening_of_cons absent)]
      rfl

/-- A name between braces is a reference. -/
theorem ofChars_reference {name : List Char} (inside : '\x7d' ∉ name) (rest : List Char) :
    ofChars ('$' :: '\x7b' :: (name ++ '\x7d' :: rest)) =
      .reference (String.ofList name) :: ofChars rest := by
  obtain ⟨taken, left⟩ := takeWhile_name inside rest
  rw [ofChars, if_pos (by decide), if_pos (by simp), taken, left]
  rfl

/-- An opening that nothing closes stands for itself, with all that follows it. -/
theorem ofChars_unclosed (unclosed : '\x7d' ∉ rest) :
    ofChars ('$' :: '\x7b' :: rest) = ('$' :: '\x7b' :: rest).map .char := by
  rw [ofChars, if_pos (by decide), if_neg (by simpa using unclosed)]

end Reading

namespace Parts

variable {parts : Parts}

/-- Taking the text of proper parts apart shows the parts. -/
theorem Proper.ofChars_text (proper : parts.Proper) : ofChars parts.text = parts.template := by
  obtain ⟨references, last, tail⟩ := parts
  induction references with
  | nil =>
      have ending : ofChars (last ++ tail) = (last ++ tail).map .char := by
        rcases proper.tail with rfl | ⟨⟨rest, rfl⟩, unclosed⟩
        · rw [List.append_nil]
          exact ofChars_of_no_opening proper.last
        · simp only [opening, List.cons_append, List.nil_append, List.mem_cons,
            not_or] at unclosed ⊢
          rw [ofChars_plain proper.last, ofChars_unclosed unclosed.2.2, List.map_append]
      simpa [text, template] using ending
  | cons part references inductionHypothesis =>
      rw [text_cons, template_cons, ofChars_plain (List.forall_mem_cons.1 proper.plain).1,
        ofChars_reference (List.forall_mem_cons.1 proper.names).1, String.ofList_toList,
        inductionHypothesis proper.of_cons]

end Parts

section Filling

variable {value other : String -> Option String} {template : Template}

theorem fill_nil (value : String -> Option String) : fill value [] = .ok [] :=
  rfl

/-- Characters are copied into the filled text. -/
theorem fill_chars (value : String -> Option String) (text : List Char) (template : Template) :
    fill value (text.map .char ++ template) = (fill value template).map (text ++ ·) := by
  induction text with
  | nil =>
      rw [List.map_nil, List.nil_append]
      cases fill value template <;> rfl
  | cons c text inductionHypothesis =>
      rw [List.map_cons, List.cons_append, fill, inductionHypothesis]
      cases fill value template <;> rfl

/-- Filling looks at no other names than those that the template refers to. -/
theorem fill_congr (same : ∀ name ∈ template.references, value name = other name) :
    fill value template = fill other template := by
  induction template with
  | nil => rfl
  | cons piece template inductionHypothesis =>
      cases piece with
      | char c => rw [fill, fill, inductionHypothesis same]
      | reference name =>
          obtain ⟨here, later⟩ := List.forall_mem_cons.1 same
          rw [fill, fill, here, inductionHypothesis later]

end Filling

namespace Parts

variable {parts : Parts} {environment : String -> Option String}

/-- Where every reference has a value, filling puts the values in. -/
theorem fill_template {value : String -> String}
    (isSet : ∀ part ∈ parts.references, environment part.2 = some (value part.2)) :
    fill environment parts.template = .ok (parts.filled value) := by
  obtain ⟨references, last, tail⟩ := parts
  induction references with
  | nil =>
      have ending := fill_chars environment (last ++ tail) []
      rw [List.append_nil, fill_nil, Except.map, List.append_nil] at ending
      exact ending
  | cons part references inductionHypothesis =>
      obtain ⟨here, later⟩ := List.forall_mem_cons.1 isSet
      rw [template_cons, fill_chars, fill, here, filled_cons]
      simp [inductionHypothesis later, Except.map]

/-- Filling fails with the first reference without a value. -/
theorem fill_template_unset {before after : List (List Char × String)} {plain : List Char}
    {name : String} (written : parts.references = before ++ (plain, name) :: after)
    (isSet : ∀ part ∈ before, (environment part.2).isSome) (unset : environment name = none) :
    fill environment parts.template = .error name := by
  obtain ⟨references, last, tail⟩ := parts
  obtain rfl : references = before ++ (plain, name) :: after := written
  induction before with
  | nil =>
      rw [List.nil_append, template_cons, fill_chars, fill, unset]
      rfl
  | cons part before inductionHypothesis =>
      obtain ⟨here, later⟩ := List.forall_mem_cons.1 isSet
      obtain ⟨text, found⟩ := Option.isSome_iff_exists.1 here
      rw [List.cons_append, template_cons, fill_chars, fill, found]
      simp [inductionHypothesis later, Except.map]

end Parts

end SchemaLoom.Template
