import SchemaLoom.Proofs.Unmarked
import SchemaLoom.Reply.Cleaning

/-!
# Code fences around a text

Fences are removed wherever they stand, so a text survives their removal only if it has
none. It then survives inside a fence as well, with or without the name of its language
behind the opening marks: what is left around it is blank. Three marks in a row make a
fence, and they may come from two sides of a seam; texts are therefore joined only where
the second one does not begin with a mark.
-/

namespace SchemaLoom.Reply

open SchemaLoom.Text

/-- A text without a code fence. -/
def Unfenced (text : List Char) : Prop :=
  contains fence text = false

instance (text : List Char) : Decidable (Unfenced text) :=
  inferInstanceAs (Decidable (_ = _))

/-- A text that brings no fence to what it is put behind: it has none, and it does not
begin with a mark of one. -/
structure Appendable (text : List Char) : Prop where
  unfenced : Unfenced text
  first : text.head? ≠ some '\x60'

section Texts

variable {c : Char} {text part later : List Char}

/-- A text is unfenced if the fence is no part of it. -/
theorem unfenced_iff : Unfenced text ↔ ¬fence <:+: text := by
  rw [Unfenced, ← contains_iff, Bool.not_eq_true]

/-- Across the end of a text without fences none begins, if no mark stands behind it. -/
theorem Unfenced.not_isPrefix (unfenced : Unfenced text) (suffix : part <:+ text)
    (nonempty : part ≠ []) (first : later.head? ≠ some '\x60') : ¬fence <+: part ++ later := by
  have next : ∀ marks : List Char, ¬('\x60' :: marks) <+: later := by
    rintro marks ⟨rest, rfl⟩
    exact first rfl
  intro begins
  cases part with
  | nil => exact nonempty rfl
  | cons a part =>
      cases part with
      | nil => exact next _ (List.cons_prefix_cons.1 begins).2
      | cons b part =>
          cases part with
          | nil => exact next _ (List.cons_prefix_cons.1 (List.cons_prefix_cons.1 begins).2).2
          | cons c part =>
              have inside : fence <+: a :: b :: c :: part :=
                List.prefix_of_prefix_length_le begins (List.prefix_append _ _) (by simp [fence])
              exact unfenced_iff.1 unfenced (inside.isInfix.trans suffix.isInfix)

/-- A character that is no mark completes no fence in front of a text. -/
theorem Unfenced.cons (unfenced : Unfenced text) (other : c ≠ '\x60') : Unfenced (c :: text) := by
  rw [unfenced_iff, List.infix_cons_iff, not_or]
  refine ⟨fun begins => ?_, unfenced_iff.1 unfenced⟩
  exact other (List.cons_prefix_cons.1 begins).1.symm

/-- The end of a text has no fence if the text has none. -/
theorem Unfenced.of_suffix (unfenced : Unfenced text) (suffix : part <:+ text) : Unfenced part :=
  unfenced_iff.2 fun found => unfenced_iff.1 unfenced (found.trans suffix.isInfix)

/-- A text without marks may stand before any other. -/
theorem Unfenced.append_left (unfenced : Unfenced later) (absent : '\x60' ∉ text) :
    Unfenced (text ++ later) := by
  induction text with
  | nil => exact unfenced
  | cons c text inductionHypothesis =>
      obtain ⟨other, others⟩ := List.ne_and_not_mem_of_not_mem_cons absent
      exact (inductionHypothesis others).cons (Ne.symm other)

/-- A text without fences has none with an appendable one behind it. -/
theorem Unfenced.append (unfenced : Unfenced text) (next : Appendable later) :
    Unfenced (text ++ later) := by
  induction text with
  | nil => exact next.unfenced
  | cons c text inductionHypothesis =>
      have inner : Unfenced text := unfenced.of_suffix (List.suffix_cons c text)
      rw [List.cons_append, unfenced_iff, List.infix_cons_iff, not_or]
      exact ⟨unfenced.not_isPrefix (List.suffix_refl _) (List.cons_ne_nil c text) next.first,
        unfenced_iff.1 (inductionHypothesis inner)⟩

namespace Appendable

theorem nil : Appendable [] :=
  ⟨by decide, by simp⟩

/-- Two texts may be appended together if each one may. -/
theorem append (first : Appendable text) (second : Appendable later) :
    Appendable (text ++ later) where
  unfenced := first.unfenced.append second
  first := by
    cases text with
    | nil => exact second.first
    | cons c text => exact first.first

/-- A text that may be appended still may with a character in front that is no mark. -/
theorem cons (next : Appendable text) (other : c ≠ '\x60') : Appendable (c :: text) where
  unfenced := next.unfenced.cons other
  first := by simpa using other

/-- A text without marks may be appended. -/
theorem of_absent (absent : '\x60' ∉ text) : Appendable text where
  unfenced := unfenced_iff.2 fun found => absent (found.subset (by decide))
  first := fun first => absent (List.mem_of_mem_head? first)

end Appendable

end Texts

section Removal

variable {mark text later before : List Char} {withBreak : Bool}

/-- What the removal of a mark goes on with: a line break right behind the mark goes
too if asked for. -/
def behindMark (withBreak : Bool) (text : List Char) : List Char :=
  if withBreak && text.head? == some '\n' then text.tail else text

/-- Removing marks only takes characters away. -/
theorem removeMarks_sublist (mark : List Char) (withBreak : Bool) (skipped : Nat)
    (text : List Char) : (removeMarks mark withBreak skipped text).Sublist text := by
  fun_induction removeMarks mark withBreak skipped text with
  | case1 skipped => exact List.Sublist.refl _
  | case2 skipped c rest inductionHypothesis => exact inductionHypothesis.cons c
  | case3 c rest none inductionHypothesis => exact inductionHypothesis.cons_cons c
  | case4 c rest after found broken inductionHypothesis => exact inductionHypothesis.cons c

/-- A character at which no mark begins is copied. -/
theorem removeMarks_copy {c : Char} (other : ¬mark <+: c :: text) :
    removeMarks mark withBreak 0 (c :: text) = c :: removeMarks mark withBreak 0 text := by
  have none : dropStart? mark (c :: text) = none := by
    rw [← startsWith_iff, startsWith] at other
    simpa using other
  rw [removeMarks, none]

/-- A text in which no mark begins is copied. -/
theorem removeMarks_append
    (none : ∀ part, part <:+ text -> part ≠ [] -> ¬mark <+: part ++ later) :
    removeMarks mark withBreak 0 (text ++ later) =
      text ++ removeMarks mark withBreak 0 later := by
  induction text with
  | nil => rfl
  | cons c text inductionHypothesis =>
      have others := inductionHypothesis fun part suffix =>
        none part (suffix.trans (List.suffix_cons c text))
      have here : ¬mark <+: c :: (text ++ later) :=
        none _ (List.suffix_refl _) (List.cons_ne_nil c text)
      rw [List.cons_append, removeMarks_copy here, others, List.cons_append]

/-- Characters that are to be skipped are left out. -/
theorem removeMarks_skip (skipped : List Char) :
    removeMarks mark withBreak skipped.length (skipped ++ later) =
      removeMarks mark withBreak 0 later := by
  induction skipped with
  | nil => rfl
  | cons c skipped inductionHypothesis =>
      rw [List.length_cons, List.cons_append, removeMarks, inductionHypothesis]

/-- What is behind a start is found again. -/
theorem dropStart?_append (start rest : List Char) :
    dropStart? start (start ++ rest) = some rest := by
  induction start with
  | nil => rfl
  | cons c start inductionHypothesis =>
      rw [List.cons_append, dropStart?, if_pos rfl, inductionHypothesis]

/-- A mark is taken away, and the removal goes on behind it. -/
theorem removeMarks_mark (nonempty : mark ≠ []) (later : List Char) :
    removeMarks mark withBreak 0 (mark ++ later) =
      removeMarks mark withBreak 0 (behindMark withBreak later) := by
  obtain ⟨c, marks, rfl⟩ := List.exists_cons_of_ne_nil nonempty
  have found := dropStart?_append (c :: marks) later
  rw [List.cons_append] at found ⊢
  rw [removeMarks, found, behindMark]
  cases broken : withBreak && later.head? == some '\n' with
  | false =>
      simp only [broken, Bool.false_eq_true, if_false, List.length_cons, Nat.add_sub_cancel]
      exact removeMarks_skip marks
  | true =>
      obtain ⟨rfl, rest, rfl⟩ : withBreak = true ∧ ∃ rest, later = '\n' :: rest := by
        simpa [List.head?_eq_some_iff] using broken
      have skipped : removeMarks (c :: marks) true (marks ++ ['\n']).length
          ((marks ++ ['\n']) ++ rest) = removeMarks (c :: marks) true 0 rest :=
        removeMarks_skip _
      simpa using skipped

/-- In a text without fences no mark that has one is found. -/
theorem removeMarks_unfenced (marks : fence <+: mark) (unfenced : Unfenced text)
    (first : later.head? ≠ some '\x60') :
    removeMarks mark withBreak 0 (text ++ later) =
      text ++ removeMarks mark withBreak 0 later :=
  removeMarks_append fun _ suffix nonempty begins =>
    unfenced.not_isPrefix suffix nonempty first (marks.trans begins)

/-- In a text without the characters of a fence no mark is found. -/
theorem removeMarks_absent (marks : fence <+: mark) (absent : '\x60' ∉ text) :
    removeMarks mark withBreak 0 (text ++ later) =
      text ++ removeMarks mark withBreak 0 later := by
  refine removeMarks_append fun part suffix nonempty begins => ?_
  obtain ⟨c, part, rfl⟩ := List.exists_cons_of_ne_nil nonempty
  obtain ⟨rfl, -⟩ := List.cons_prefix_cons.1 (marks.trans begins)
  exact absent (suffix.subset List.mem_cons_self)

/-- Marks that are not followed by the name of a language stay where fences of that
language are removed. -/
theorem removeMarks_unnamed {l : Char} {name : List Char}
    (first : later.head? ≠ some '\x60') (unnamed : later.head? ≠ some l) :
    removeMarks (fence ++ l :: name) withBreak 0 (fence ++ later) =
      fence ++ removeMarks (fence ++ l :: name) withBreak 0 later := by
  have never (next : List Char) (start : l :: name <+: next) : next.head? = some l := by
    obtain ⟨rest, rfl⟩ := start
    rfl
  have following (marks : List Char) (start : '\x60' :: marks <+: later) : False := by
    obtain ⟨rest, rfl⟩ := start
    exact first rfl
  refine removeMarks_append fun part suffix nonempty begins => ?_
  have cases : part = ['\x60', '\x60', '\x60'] ∨ part = ['\x60', '\x60'] ∨ part = ['\x60'] := by
    simpa [fence, List.suffix_cons_iff, nonempty] using suffix
  rcases cases with rfl | rfl | rfl
  · exact unnamed (never later (by simpa [fence] using begins))
  · exact following _ (by simpa [fence] using begins)
  · exact following _ (by simpa [fence] using begins)

end Removal

/-- A reply without the fences that name a language, then without all others. -/
def unfence (language : List Char) (withBreak : Bool) (reply : List Char) : List Char :=
  removeMarks fence withBreak 0 (removeMarks (fence ++ language) withBreak 0 reply)

/-- A reply loses nothing but its fences. -/
theorem unfence_sublist (language : List Char) (withBreak : Bool) (reply : List Char) :
    (unfence language withBreak reply).Sublist reply :=
  (removeMarks_sublist ..).trans (removeMarks_sublist ..)

/-- A text inside a fence. -/
def fenced (language text : String) : String :=
  "```" ++ language ++ "\n" ++ text ++ "\n```"

/-- A text as replies hold it: alone, in a fence of its language, in a fence of none. -/
def wrappings (language text : String) : List String :=
  [text, fenced language text, fenced "" text]

/-- A fenced text has a fence, the language and a line break in front, and a line break
and a fence behind. -/
theorem toList_fenced (language text : String) :
    (fenced language text).toList =
      fence ++ (language.toList ++ '\n' :: (text.toList ++ '\n' :: fence)) := by
  have marks : "```".toList = fence := by decide
  have lineBreak : "\n".toList = ['\n'] := by decide
  have closing : "\n```".toList = '\n' :: fence := by decide
  unfold fenced
  rw [String.toList_append, String.toList_append, String.toList_append, String.toList_append,
    marks, lineBreak, closing]
  simp only [List.append_assoc, List.cons_append, List.nil_append]

section Wrappings

variable {text before after : List Char} {withBreak : Bool}

/-- Blanks hold no marks. -/
theorem removeMarks_blanks {mark : List Char} (marks : fence <+: mark) (blank : isBlankText before)
    (later : List Char) : removeMarks mark withBreak 0 (before ++ later) =
      before ++ removeMarks mark withBreak 0 later :=
  removeMarks_absent marks (not_mem_of_isBlankText blank (by decide))

/-- No fence begins at a line break. -/
theorem removeMarks_lineBreak {mark : List Char} (marks : fence <+: mark) (later : List Char) :
    removeMarks mark withBreak 0 ('\n' :: later) = '\n' :: removeMarks mark withBreak 0 later :=
  removeMarks_copy fun begins => absurd (List.cons_prefix_cons.1 (marks.trans begins)).1 (by decide)

/-- Blanks have no fence. -/
theorem removeMarks_isBlankText {mark : List Char} (marks : fence <+: mark)
    (blank : isBlankText after) : removeMarks mark withBreak 0 after = after := by
  have whole : removeMarks mark withBreak 0 (after ++ []) =
      after ++ removeMarks mark withBreak 0 [] := removeMarks_blanks marks blank []
  simpa [removeMarks] using whole

/-- Blanks do not begin with a character that is no blank. -/
theorem head?_ne_of_isBlankText {c : Char} (blank : isBlankText text) (solid : isBlank c = false) :
    text.head? ≠ some c :=
  fun first => not_mem_of_isBlankText blank solid (List.mem_of_mem_head? first)

/-- What follows a mark is the end of what stood there. -/
theorem behindMark_suffix (withBreak : Bool) (text : List Char) :
    behindMark withBreak text <:+ text := by
  rw [behindMark]
  split
  · exact List.tail_suffix text
  · exact List.suffix_refl text

/-- Behind a mark blanks stay blank. -/
theorem isBlankText_behindMark (blank : isBlankText text) :
    isBlankText (behindMark withBreak text) :=
  List.all_eq_true.2 fun c member =>
    List.all_eq_true.1 blank c ((behindMark_suffix withBreak text).subset member)

/-- A line break right behind a mark is looked for in the first of joined texts, unless
that is empty. -/
theorem behindMark_append (nonempty : text ≠ []) (later : List Char) :
    behindMark withBreak (text ++ later) = behindMark withBreak text ++ later := by
  obtain ⟨c, text, rfl⟩ := List.exists_cons_of_ne_nil nonempty
  by_cases lineBreak : withBreak = true ∧ c = '\n' <;> simp [behindMark, lineBreak]

/-- A line break behind a mark makes no difference to what remains after trimming. -/
theorem trim_behindMark (withBreak : Bool) (text : List Char) :
    trim (behindMark withBreak text) = trim text := by
  rw [behindMark]
  split
  · rename_i lineBreak
    obtain ⟨-, rest, rfl⟩ : withBreak = true ∧ ∃ rest, text = '\n' :: rest := by
      simpa [List.head?_eq_some_iff] using lineBreak
    have blank : isBlankText ['\n'] := by decide
    exact (trim_blanks_append blank rest).symm
  · rfl

/-- A fence of another language behind a text stays for now. -/
theorem removeMarks_closing_unnamed {l : Char} {name : List Char} (solid : isBlank l = false)
    (unfenced : Unfenced text) (blank : isBlankText after) :
    removeMarks (fence ++ l :: name) withBreak 0 (text ++ '\n' :: (fence ++ after)) =
      text ++ '\n' :: (fence ++ after) := by
  have marks : fence <+: fence ++ l :: name := List.prefix_append ..
  rw [removeMarks_unfenced marks unfenced (by simp), removeMarks_lineBreak marks,
    removeMarks_unnamed (head?_ne_of_isBlankText blank (by decide))
      (head?_ne_of_isBlankText blank solid),
    removeMarks_isBlankText marks blank]

/-- Where all fences go, blanks are left behind a text. -/
theorem removeMarks_closing (withBreak : Bool) (unfenced : Unfenced text)
    (blank : isBlankText after) :
    ∃ closed, isBlankText closed ∧
      removeMarks fence withBreak 0 (text ++ '\n' :: (fence ++ after)) = text ++ closed := by
  have marks : fence <+: fence := List.prefix_refl _
  have left : isBlankText (behindMark withBreak after) := isBlankText_behindMark blank
  have lineBreak : isBlankText ['\n'] := by decide
  refine ⟨'\n' :: behindMark withBreak after, isBlankText_append lineBreak left, ?_⟩
  rw [removeMarks_unfenced marks unfenced (by simp), removeMarks_lineBreak marks,
    removeMarks_mark (by decide), removeMarks_isBlankText marks left]

/-- A text without fences is left between blanks. -/
theorem trim_unfence_alone (unfenced : Unfenced text) (blankBefore : isBlankText before)
    (blankAfter : isBlankText after) (language : List Char) :
    trim (unfence language withBreak (before ++ (text ++ after))) = trim text := by
  have kept {mark : List Char} (marks : fence <+: mark) :
      removeMarks mark withBreak 0 (before ++ (text ++ after)) = before ++ (text ++ after) := by
    rw [removeMarks_blanks marks blankBefore,
      removeMarks_unfenced marks unfenced (head?_ne_of_isBlankText blankAfter (by decide)),
      removeMarks_isBlankText marks blankAfter]
  rw [unfence, kept (List.prefix_append ..), kept (List.prefix_refl _),
    trim_blanks_append blankBefore, trim_append_blanks _ blankAfter]

/-- A text right behind a fence that names the language is left between blanks. -/
theorem trim_unfence_named (withBreak : Bool) {l : Char} (name : List Char)
    (solid : isBlank l = false) (unfenced : Unfenced text) (nonempty : text ≠ [])
    (blankBefore : isBlankText before) (blankAfter : isBlankText after) :
    trim (unfence (l :: name) withBreak
      (before ++ (fence ++ l :: name ++ (text ++ '\n' :: (fence ++ after))))) = trim text := by
  have marks : fence <+: fence ++ l :: name := List.prefix_append ..
  have inner : Unfenced (behindMark withBreak text) :=
    unfenced.of_suffix (behindMark_suffix withBreak text)
  obtain ⟨closed, blankClosed, closing⟩ := removeMarks_closing withBreak inner blankAfter
  rw [unfence, removeMarks_blanks marks blankBefore, removeMarks_mark (by simp [fence]),
    behindMark_append nonempty, removeMarks_closing_unnamed solid inner blankAfter,
    removeMarks_blanks (List.prefix_refl _) blankBefore, closing,
    trim_blanks_append blankBefore, trim_append_blanks _ blankClosed, trim_behindMark]

/-- A text right behind a fence that does not name the language is left between blanks. -/
theorem trim_unfence_unnamed (withBreak : Bool) {l : Char} (name : List Char)
    (solid : isBlank l = false) (appendable : Appendable text) (nonempty : text ≠ [])
    (unnamed : text.head? ≠ some l) (blankBefore : isBlankText before)
    (blankAfter : isBlankText after) :
    trim (unfence (l :: name) withBreak
      (before ++ (fence ++ (text ++ '\n' :: (fence ++ after))))) = trim text := by
  have marks : fence <+: fence ++ l :: name := List.prefix_append ..
  have first {c : Char} (other : text.head? ≠ some c) :
      (text ++ '\n' :: (fence ++ after)).head? ≠ some c := by
    obtain ⟨d, text, rfl⟩ := List.exists_cons_of_ne_nil nonempty
    exact other
  have inner : Unfenced (behindMark withBreak text) :=
    appendable.unfenced.of_suffix (behindMark_suffix withBreak text)
  obtain ⟨closed, blankClosed, closing⟩ := removeMarks_closing withBreak inner blankAfter
  rw [unfence, removeMarks_blanks marks blankBefore,
    removeMarks_unnamed (first appendable.first) (first unnamed),
    removeMarks_closing_unnamed solid appendable.unfenced blankAfter,
    removeMarks_blanks (List.prefix_refl _) blankBefore, removeMarks_mark (by decide),
    behindMark_append nonempty, closing, trim_blanks_append blankBefore,
    trim_append_blanks _ blankClosed, trim_behindMark]

end Wrappings

/-- However a reply wraps a text without fences, the text is what they leave. -/
theorem trim_unfence (withBreak : Bool) {language text before after reply : String} {l : Char}
    {name : List Char} (named : language.toList = l :: name) (solid : isBlank l = false)
    (unfenced : Unfenced text.toList) (blankBefore : isBlankText before.toList)
    (blankAfter : isBlankText after.toList) (wraps : reply ∈ wrappings language text) :
    trim (unfence language.toList withBreak (before ++ reply ++ after).toList) =
      trim text.toList := by
  have noLanguage : "".toList = [] := rfl
  have blank : isBlankText ['\n'] := by decide
  have lineBreak : trim ('\n' :: text.toList) = trim text.toList := trim_blanks_append blank _
  have unnamed : '\n' ≠ l := by
    rintro rfl
    exact absurd solid (by decide)
  have appendable : Appendable ('\n' :: text.toList) := ⟨unfenced.cons (by decide), by simp⟩
  have nonempty : '\n' :: text.toList ≠ [] := List.cons_ne_nil _ _
  rw [String.toList_append, String.toList_append, List.append_assoc]
  simp only [wrappings, List.mem_cons, List.not_mem_nil, or_false] at wraps
  rcases wraps with rfl | rfl | rfl
  · exact trim_unfence_alone unfenced blankBefore blankAfter _
  · rw [toList_fenced, named, ← lineBreak]
    have left := trim_unfence_named withBreak name solid appendable.unfenced nonempty blankBefore
      blankAfter
    simpa using left
  · rw [toList_fenced, named, noLanguage, ← lineBreak]
    have left := trim_unfence_unnamed withBreak name solid appendable nonempty
      (by simpa using unnamed) blankBefore blankAfter
    simpa using left

end SchemaLoom.Reply
