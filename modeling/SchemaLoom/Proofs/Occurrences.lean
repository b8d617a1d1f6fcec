import Mathlib.Algebra.BigOperators.Group.List.Basic
import Mathlib.Algebra.GroupWithZero.Nat
import Mathlib.Data.List.Infix
import SchemaLoom.Proofs.Lines

/-!
# How often a word stands in a text

A word is counted at every place where it begins. A character that the word lacks splits the count,
so a word within one line is counted line by line. A character that the word has once splits it
but for the one place where what precedes ends as the word begins and what follows goes on as the
word does.
-/

namespace SchemaLoom

namespace Text

/-- In how many places of a text a word stands. -/
def occurrences (word : List Char) : List Char -> Nat
  | [] => 0
  | c :: text => (if word <+: c :: text then 1 else 0) + occurrences word text

section Occurrences

variable {word left right before after : List Char} {c : Char}

/-- A word without a character begins a text in front of that character or not at all. -/
theorem prefix_append_cons_iff (absent : c ∉ word) (before after : List Char) :
    word <+: before ++ c :: after ↔ word <+: before := by
  constructor
  · intro begins
    rcases List.prefix_or_prefix_of_prefix begins (List.prefix_append before (c :: after)) with
      inside | ⟨rest, rfl⟩
    · exact inside
    · cases rest with
      | nil => exact ⟨[], by rw [List.append_nil, List.append_nil]⟩
      | cons other rest =>
          obtain ⟨rfl, -⟩ :=
            List.cons_prefix_cons.1 ((List.prefix_append_right_inj before).1 begins)
          exact absurd (by simp) absent
  · exact fun begins => begins.trans (List.prefix_append _ _)

/-- A word without a character does not reach across it. -/
theorem occurrences_append_cons (absent : c ∉ word) (nonempty : word ≠ []) :
    occurrences word (before ++ c :: after) =
      occurrences word before + occurrences word after := by
  induction before with
  | nil =>
      have none : ¬word <+: c :: after := fun begins =>
        nonempty (List.prefix_nil.1 ((prefix_append_cons_iff absent [] after).1 begins))
      simp [occurrences, none]
  | cons x before inductionHypothesis =>
      have begins := prefix_append_cons_iff absent (x :: before) after
      rw [List.cons_append] at begins
      simp only [List.cons_append, occurrences, begins, inductionHypothesis, Nat.add_assoc]

/-- A phrase with one character in the middle begins in front of it, or it is cut there. -/
theorem cut_prefix_append_cons_iff (absent : c ∉ left) (absentRight : c ∉ right)
    (before after : List Char) :
    left ++ c :: right <+: before ++ c :: after ↔
      left ++ c :: right <+: before ∨ left = before ∧ right <+: after := by
  constructor
  · intro begins
    rcases List.prefix_or_prefix_of_prefix begins (List.prefix_append before (c :: after)) with
      inside | ⟨rest, whole⟩
    · exact .inl inside
    · rw [← whole] at begins
      cases rest with
      | nil => exact .inl ⟨[], by rw [List.append_nil, ← whole, List.append_nil]⟩
      | cons other rest =>
          obtain ⟨rfl, further⟩ :=
            List.cons_prefix_cons.1 ((List.prefix_append_right_inj before).1 begins)
          obtain ⟨rfl, -, rfl⟩ := (List.append_cons_inj_of_notMem absent absentRight).1 whole.symm
          exact .inr ⟨rfl, further⟩
  · rintro (inside | ⟨rfl, further⟩)
    · exact inside.trans (List.prefix_append _ _)
    · exact (List.prefix_append_right_inj left).2 (List.cons_prefix_cons.2 ⟨rfl, further⟩)

/-- A word that a character cuts in two stands before it, behind it, or across it where its two
parts meet there. -/
theorem occurrences_cut (absent : c ∉ left) (absentRight : c ∉ right) :
    occurrences (left ++ c :: right) (before ++ c :: after) =
      occurrences (left ++ c :: right) before +
        (if left <:+ before ∧ right <+: after then 1 else 0) +
          occurrences (left ++ c :: right) after := by
  induction before with
  | nil =>
      have here := cut_prefix_append_cons_iff absent absentRight [] after
      simp only [List.nil_append, List.prefix_nil, List.append_eq_nil_iff, reduceCtorEq, and_false,
        false_or] at here
      simp [occurrences, here, List.suffix_nil]
  | cons x before inductionHypothesis =>
      have here := cut_prefix_append_cons_iff absent absentRight (x :: before) after
      -- Of the three ways to stand at or before the cut, no two go together at one start.
      have whole : left ++ c :: right <+: x :: before → left ≠ x :: before := by
        rintro inside rfl
        have length := inside.length_le
        simp only [List.length_append, List.length_cons] at length
        omega
      have short : left <:+ before → left ≠ x :: before := by
        rintro inside rfl
        have length := inside.length_le
        simp only [List.length_cons] at length
        omega
      rw [List.cons_append] at here
      simp only [List.cons_append, occurrences, here, inductionHypothesis, List.suffix_cons_iff]
      grind

/-- A word does not stand in a text that lacks one of its characters. -/
theorem occurrences_eq_zero (member : c ∈ word) (absent : c ∉ before) :
    occurrences word before = 0 := by
  induction before with
  | nil => rfl
  | cons x before inductionHypothesis =>
      have none : ¬word <+: x :: before := fun begins => absent (begins.subset member)
      rw [occurrences, if_neg none, inductionHypothesis fun later => absent (.tail x later)]

/-- A word within one line is counted line by line. -/
theorem occurrences_splitLines (oneLine : '\n' ∉ word) (nonempty : word ≠ []) (text : List Char) :
    occurrences word text = ((Reply.splitLines text).map (occurrences word)).sum := by
  have whole := Reply.joinLines_splitLines text
  generalize Reply.splitLines text = lines at whole
  subst whole
  induction lines with
  | nil => rfl
  | cons line lines inductionHypothesis =>
      cases lines with
      | nil => simp [Reply.joinLines]
      | cons next lines =>
          rw [Reply.joinLines_cons line (List.cons_ne_nil next lines),
            occurrences_append_cons oneLine nonempty, inductionHypothesis, ← List.sum_cons,
            ← List.map_cons]

end Occurrences

end Text

end SchemaLoom
