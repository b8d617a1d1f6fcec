import Mathlib.Data.List.TakeWhile
import SchemaLoom.Text.Letters

/-!
# Blanks around text

What trimming and skipping of blanks do to text of a known shape. A text is solid
when it begins and ends with a character that is not blank, so that trimming keeps
it whatever blanks stand around it.
-/

namespace SchemaLoom.Text

/-- Whether the first character of a text, if there is one, is not blank. -/
def StartsSolid (text : List Char) : Prop :=
  ∀ c ∈ text.head?, isBlank c = false

instance (text : List Char) : Decidable (StartsSolid text) :=
  decidable_of_iff (text.head?.all fun c => !isBlank c) (by cases text <;> simp [StartsSolid])

/-- A text that does not end with a blank. -/
def EndsSolid (text : List Char) : Prop :=
  StartsSolid text.reverse

instance (text : List Char) : Decidable (EndsSolid text) :=
  inferInstanceAs (Decidable (StartsSolid text.reverse))

/-- A text that begins and ends with a character that is not blank. -/
structure Solid (text : List Char) : Prop where
  nonempty : text ≠ []
  first : StartsSolid text
  last : EndsSolid text

theorem isBlankText_nil : isBlankText [] := rfl

theorem isBlankText_space : isBlankText [' '] := rfl

/-- A text is blank if its first character and the rest are. -/
theorem isBlankText_cons {c : Char} {text : List Char} :
    isBlankText (c :: text) ↔ isBlank c ∧ isBlankText text := by
  rw [isBlankText, List.all_cons, Bool.and_eq_true, ← isBlankText]

theorem space_ne_nil : [' '] ≠ [] :=
  List.cons_ne_nil ' ' []

/-- A text does not begin with a blank if its first character is none. -/
theorem StartsSolid.cons {c : Char} (solid : isBlank c = false) (rest : List Char) :
    StartsSolid (c :: rest) := by
  intro d member
  obtain rfl : c = d := by simpa using member
  exact solid

/-- A text without blanks does not begin with one. -/
theorem StartsSolid.of_forall {text : List Char} (solid : ∀ c ∈ text, isBlank c = false) :
    StartsSolid text :=
  fun c member => solid c (List.mem_of_mem_head? member)

/-- A text without blanks is solid unless it is empty. -/
theorem Solid.of_forall {text : List Char} (nonempty : text ≠ [])
    (solid : ∀ c ∈ text, isBlank c = false) : Solid text where
  nonempty := nonempty
  first := .of_forall solid
  last := StartsSolid.of_forall fun c member => solid c (List.mem_reverse.1 member)

/-- Nothing is trimmed in front of a text that does not begin with a blank. -/
theorem trimStart_of_startsSolid {text : List Char} (solid : StartsSolid text) :
    trimStart text = text := by
  cases text with
  | nil => rfl
  | cons c text => simp [trimStart, solid c rfl]

/-- Leading blanks go, whatever follows them. -/
theorem trimStart_append {blanks : List Char} (blank : isBlankText blanks) (text : List Char) :
    trimStart (blanks ++ text) = trimStart text := by
  induction blanks with
  | nil => rfl
  | cons c blanks inductionHypothesis =>
      obtain ⟨first, others⟩ := isBlankText_cons.1 blank
      simpa [trimStart, first] using inductionHypothesis others

/-- Blanks before a text that does not begin with one are skipped exactly. -/
theorem trimStart_blanks {blanks text : List Char} (blank : isBlankText blanks)
    (solid : StartsSolid text) : trimStart (blanks ++ text) = text := by
  rw [trimStart_append blank, trimStart_of_startsSolid solid]

/-- Nothing remains at the start exactly if there are blanks only. -/
theorem trimStart_eq_nil_iff {text : List Char} : trimStart text = [] ↔ isBlankText text := by
  rw [trimStart, List.dropWhile_eq_nil_iff, isBlankText, List.all_eq_true]

/-- What was trimmed at its start does not begin with a blank. -/
theorem startsSolid_trimStart (text : List Char) : StartsSolid (trimStart text) := by
  induction text with
  | nil => simp [trimStart, StartsSolid]
  | cons c text inductionHypothesis =>
      cases blank : isBlank c with
      | true => simpa [trimStart, blank] using inductionHypothesis
      | false =>
          intro d member
          obtain rfl : c = d := by simpa [trimStart, blank] using member
          exact blank

/-- A text that is not empty decides what joined texts begin with. -/
theorem startsSolid_append {text later : List Char} (nonempty : text ≠ []) :
    StartsSolid (text ++ later) ↔ StartsSolid text := by
  cases text with
  | nil => exact absurd rfl nonempty
  | cons c text => simp [StartsSolid]

/-- The first part of a text begins like the text. -/
theorem StartsSolid.of_prefix {text part : List Char} (solid : StartsSolid text)
    (start : part <+: text) : StartsSolid part := by
  obtain ⟨rest, rfl⟩ := start
  cases part with
  | nil => simp [StartsSolid]
  | cons c part => exact fun d member => solid d (by simpa using member)

/-- The last part of a text ends like the text. -/
theorem EndsSolid.of_suffix {text part : List Char} (solid : EndsSolid text)
    (ending : part <:+ text) : EndsSolid part :=
  StartsSolid.of_prefix solid (List.reverse_prefix.2 ending)

/-- A text of one character ends with a blank only if it is one. -/
theorem EndsSolid.singleton {c : Char} (solid : isBlank c = false) : EndsSolid [c] :=
  StartsSolid.cons solid []

/-- Two texts that do not end with blanks do not when joined. -/
theorem EndsSolid.append {text later : List Char} (first : EndsSolid text)
    (second : EndsSolid later) : EndsSolid (text ++ later) := by
  rw [EndsSolid, List.reverse_append]
  by_cases empty : later.reverse = []
  · rw [empty]
    exact first
  · exact (startsSolid_append empty).2 second

/-- A text that is not empty decides what joined texts end with. -/
theorem EndsSolid.append_right {later : List Char} (nonempty : later ≠ [])
    (second : EndsSolid later) (text : List Char) : EndsSolid (text ++ later) := by
  rw [EndsSolid, List.reverse_append]
  exact (startsSolid_append (by simpa using nonempty)).2 second

/-- What follows a solid text keeps it solid unless it ends with a blank. -/
theorem Solid.append {text later : List Char} (solid : Solid text) (ending : EndsSolid later) :
    Solid (text ++ later) where
  nonempty := by simp [solid.nonempty]
  first := (startsSolid_append solid.nonempty).2 solid.first
  last := solid.last.append ending

/-- Joined blanks are blank. -/
theorem isBlankText_append {blanks later : List Char} (first : isBlankText blanks)
    (second : isBlankText later) : isBlankText (blanks ++ later) := by
  rw [isBlankText, List.all_append, Bool.and_eq_true]
  exact ⟨first, second⟩

/-- Reversed blanks are blank. -/
theorem isBlankText_reverse {blanks : List Char} (blank : isBlankText blanks) :
    isBlankText blanks.reverse := by
  simpa [isBlankText] using blank

/-- A character that is not blank does not stand among blanks. -/
theorem not_mem_of_isBlankText {c : Char} {blanks : List Char} (blank : isBlankText blanks)
    (solid : isBlank c = false) : c ∉ blanks := by
  intro member
  have blankHere : isBlank c = true := List.all_eq_true.1 blank c member
  rw [solid] at blankHere
  cases blankHere

/-- Blanks that do not begin with a blank are nothing. -/
theorem eq_nil_of_isBlankText {blanks : List Char} (solid : StartsSolid blanks)
    (blank : isBlankText blanks) : blanks = [] := by
  cases blanks with
  | nil => rfl
  | cons c blanks => exact absurd List.mem_cons_self (not_mem_of_isBlankText blank (solid c rfl))

/-- A text without blanks around it is left as it is. -/
theorem trim_of_solid {text : List Char} (solid : Solid text) : trim text = text := by
  have ending : text.reverse.dropWhile isBlank = text.reverse :=
    trimStart_of_startsSolid solid.last
  rw [trim, trimStart_of_startsSolid solid.first, trimEnd, ending, List.reverse_reverse]

/-- Trimming takes exactly the blanks around a solid text. -/
theorem trim_around {before text after : List Char} (blankBefore : isBlankText before)
    (solid : Solid text) (blankAfter : isBlankText after) :
    trim (before ++ (text ++ after)) = text := by
  have start : StartsSolid (text ++ after) := (startsSolid_append solid.nonempty).2 solid.first
  have ending : trimStart (after.reverse ++ text.reverse) = text.reverse :=
    trimStart_blanks (isBlankText_reverse blankAfter) solid.last
  rw [trim, trimStart_blanks blankBefore start, trimEnd, List.reverse_append]
  change (trimStart (after.reverse ++ text.reverse)).reverse = text
  rw [ending, List.reverse_reverse]

/-- Of blanks nothing remains. -/
theorem trim_of_isBlankText {blanks : List Char} (blank : isBlankText blanks) :
    trim blanks = [] := by
  rw [trim, trimStart_eq_nil_iff.2 blank]
  rfl

/-- Trimming at the start reaches into what follows only through blanks. -/
theorem trimStart_append_of_not_blank {text : List Char} (solid : ¬isBlankText text)
    (later : List Char) : trimStart (text ++ later) = trimStart text ++ later := by
  induction text with
  | nil => exact absurd rfl solid
  | cons c text inductionHypothesis =>
      cases blank : isBlank c with
      | true =>
          have others : ¬isBlankText text := by simpa [isBlankText, blank] using solid
          simpa [trimStart, blank] using inductionHypothesis others
      | false => simp [trimStart, blank]

/-- Blanks at the end do not matter to what remains. -/
theorem trimEnd_append_of_blank (text : List Char) {blanks : List Char}
    (blank : isBlankText blanks) : trimEnd (text ++ blanks) = trimEnd text := by
  have taken : trimStart (blanks.reverse ++ text.reverse) = trimStart text.reverse :=
    trimStart_append (isBlankText_reverse blank) text.reverse
  rw [trimEnd, List.reverse_append]
  exact congrArg List.reverse taken

/-- Blanks before a text are trimmed, whatever it holds. -/
theorem trim_blanks_append {blanks : List Char} (blank : isBlankText blanks) (text : List Char) :
    trim (blanks ++ text) = trim text := by
  rw [trim, trimStart_append blank]
  rfl

/-- Blanks behind a text are trimmed, whatever it holds. -/
theorem trim_append_blanks (text : List Char) {blanks : List Char} (blank : isBlankText blanks) :
    trim (text ++ blanks) = trim text := by
  by_cases nothing : isBlankText text
  · rw [trim_of_isBlankText nothing, trim_of_isBlankText (isBlankText_append nothing blank)]
  · rw [trim, trimStart_append_of_not_blank nothing, trimEnd_append_of_blank _ blank]
    rfl

/-- What trimming takes from the end of a text is blank. -/
theorem trimEnd_append_blanks (text : List Char) :
    ∃ blanks, isBlankText blanks ∧ text = trimEnd text ++ blanks := by
  refine ⟨(text.reverse.takeWhile isBlank).reverse, ?_, ?_⟩
  · simp [isBlankText]
  · rw [trimEnd, ← List.reverse_append, List.takeWhile_append_dropWhile, List.reverse_reverse]

/-- Trimming takes blanks from both ends of a text and nothing else. -/
theorem blanks_around_trim (text : List Char) :
    ∃ before after, isBlankText before ∧ isBlankText after ∧ text = before ++ (trim text ++ after) := by
  obtain ⟨after, blankAfter, ending⟩ := trimEnd_append_blanks (trimStart text)
  refine ⟨text.takeWhile isBlank, after, by simp [isBlankText], blankAfter, ?_⟩
  calc
    text = text.takeWhile isBlank ++ trimStart text := List.takeWhile_append_dropWhile.symm
    _ = text.takeWhile isBlank ++ (trim text ++ after) := congrArg _ ending

/-- Nothing remains exactly if there are blanks only. -/
theorem trim_eq_nil_iff {text : List Char} : trim text = [] ↔ isBlankText text := by
  constructor
  · intro nothing
    obtain ⟨before, after, blankBefore, blankAfter, whole⟩ := blanks_around_trim text
    rw [nothing, List.nil_append] at whole
    rw [whole]
    exact isBlankText_append blankBefore blankAfter
  · exact trim_of_isBlankText

/-- What was trimmed at its end does not end with a blank. -/
theorem startsSolid_reverse_trimEnd (text : List Char) : StartsSolid (trimEnd text).reverse := by
  rw [trimEnd, List.reverse_reverse]
  exact startsSolid_trimStart _

/-- What was trimmed does not begin with a blank. -/
theorem startsSolid_trim (text : List Char) : StartsSolid (trim text) := by
  by_cases empty : trim text = []
  · rw [empty]
    simp [StartsSolid]
  · obtain ⟨blanks, -, split⟩ := trimEnd_append_blanks (trimStart text)
    have start := startsSolid_trimStart text
    rw [split] at start
    exact (startsSolid_append empty).1 start

/-- What was trimmed does not end with a blank. -/
theorem endsSolid_trim (text : List Char) : EndsSolid (trim text) :=
  startsSolid_reverse_trimEnd (trimStart text)

/-- What was trimmed is solid unless it is nothing. -/
theorem solid_trim {text : List Char} (nonempty : trim text ≠ []) : Solid (trim text) :=
  ⟨nonempty, startsSolid_trim text, endsSolid_trim text⟩

/-- Trimming leaves nothing to trim. -/
theorem trim_trim (text : List Char) : trim (trim text) = trim text := by
  by_cases empty : trim text = []
  · rw [empty]
    rfl
  · exact trim_of_solid (solid_trim empty)

/-- The longer of two texts keeps at least what the shorter one keeps. -/
theorem isPrefix_trimEnd {short long : List Char} (start : short <+: long) :
    trimEnd short <+: trimEnd long := by
  obtain ⟨shortBlanks, -, shortSplit⟩ := trimEnd_append_blanks short
  obtain ⟨longBlanks, blank, longSplit⟩ := trimEnd_append_blanks long
  have kept : trimEnd short <+: short := ⟨shortBlanks, shortSplit.symm⟩
  have first : trimEnd short <+: long := kept.trans start
  have second : trimEnd long <+: long := ⟨longBlanks, longSplit.symm⟩
  rcases List.prefix_or_prefix_of_prefix first second with done | ⟨surplus, split⟩
  · exact done
  · -- What the shorter one keeps beyond the longer one would be blank at its end.
    have blanks : surplus <+: longBlanks := by
      rw [← split] at first
      have whole : trimEnd long ++ surplus <+: trimEnd long ++ longBlanks := longSplit ▸ first
      exact (List.prefix_append_right_inj _).1 whole
    have ending := startsSolid_reverse_trimEnd short
    cases reversed : surplus.reverse with
    | nil =>
        obtain rfl : surplus = [] := by simpa using reversed
        simp [← split]
    | cons c others =>
        have member : c ∈ surplus := by
          have : c ∈ surplus.reverse := by simp [reversed]
          simpa using this
        have solid : isBlank c = false := by
          rw [← split, List.reverse_append, reversed] at ending
          exact ending c rfl
        exact absurd (blanks.subset member) (not_mem_of_isBlankText blank solid)

/-- One blank or more is what separates words. -/
theorem dropBlanks?_blanks {blanks text : List Char} (blank : isBlankText blanks)
    (nonempty : blanks ≠ []) (solid : StartsSolid text) :
    dropBlanks? (blanks ++ text) = some text := by
  cases blanks with
  | nil => exact absurd rfl nonempty
  | cons c blanks =>
      obtain ⟨first, others⟩ := isBlankText_cons.1 blank
      rw [List.cons_append, dropBlanks?, if_pos first, trimStart_blanks others solid]

/-- Behind blanks in a text that does not end with one stands a solid text. -/
theorem solid_of_dropBlanks? {text rest : List Char} (solid : EndsSolid text)
    (dropped : dropBlanks? text = some rest) : Solid rest := by
  cases text with
  | nil => cases dropped
  | cons c text =>
      rw [dropBlanks?] at dropped
      split at dropped
      · rename_i blank
        obtain rfl := Option.some.inj dropped
        have nonempty : trimStart text ≠ [] := by
          intro empty
          have whole : isBlankText (c :: text).reverse :=
            isBlankText_reverse (isBlankText_cons.2 ⟨blank, trimStart_eq_nil_iff.1 empty⟩)
          have nothing := eq_nil_of_isBlankText solid whole
          simp at nothing
        have suffix := (trimStart_suffix text).trans (List.suffix_cons c text)
        exact ⟨nonempty, startsSolid_trimStart text, solid.of_suffix suffix⟩
      · cases dropped

end SchemaLoom.Text
