import SchemaLoom.Ddl.Definition
import SchemaLoom.Proofs.Keywords

/-!
# Whole words

Phrases are searched for as whole words. A keyword that stands in a joined text
stands in one of its parts, as long as the parts meet at a word boundary, and what
opens with a keyword opens with the whole word.
-/

namespace SchemaLoom.Text

/-- Whether a word character stands before what follows a text. The flag says whether
one stands before the text. -/
def endsInWord : Bool -> List Char -> Bool
  | afterWord, [] => afterWord
  | _, c :: rest => endsInWord (isWordChar c) rest

/-- Words do not run on from a text into what follows it. -/
def Bounded (afterWord : Bool) (text rest : List Char) : Prop :=
  endsInWord afterWord text = true -> startsInWord rest = false

/-- A text of ASCII capitals, to which only word characters fold. -/
def Capitals (text : List Char) : Prop :=
  ∀ capital ∈ text, capital.isUpper = true

instance (text : List Char) : Decidable (Capitals text) :=
  List.decidableBAll (fun capital : Char => capital.isUpper = true) text

/-- Keywords as they are searched for. -/
def IsWordKeyword (keyword : List Char) : Prop :=
  keyword ≠ [] ∧ Capitals keyword

instance (keyword : List Char) : Decidable (IsWordKeyword keyword) :=
  inferInstanceAs (Decidable (_ ∧ _))

/-- The characters of words are among the first hundred and twenty-eight. -/
theorem ascii_of_isAsciiWord {c : Char} (word : isAsciiWord c) : c.toNat < 0x80 := by
  change (decide ('A'.val ≤ c.val ∧ c.val ≤ 'Z'.val) ||
    (decide ('a'.val ≤ c.val) && decide (c.val ≤ 'z'.val)) ||
    (decide ('0'.val ≤ c.val) && decide (c.val ≤ '9'.val)) || c == '_') = true at word
  simp only [Bool.or_eq_true, Bool.and_eq_true, decide_eq_true_eq, beq_iff_eq] at word
  rcases word with ((⟨-, high⟩ | ⟨-, high⟩) | ⟨-, high⟩) | rfl
  · exact Nat.lt_of_le_of_lt (UInt32.le_iff_toNat_le.1 high) (by decide)
  · exact Nat.lt_of_le_of_lt (UInt32.le_iff_toNat_le.1 high) (by decide)
  · exact Nat.lt_of_le_of_lt (UInt32.le_iff_toNat_le.1 high) (by decide)
  · decide

/-- Word characters count as such in the search for whole words, too. -/
theorem isWordChar_of_isAsciiWord {c : Char} (word : isAsciiWord c) : isWordChar c = true := by
  rw [isWordChar, if_pos (ascii_of_isAsciiWord word), word]

/-- The code points of the blanks. -/
theorem mem_of_isBlank {c : Char} (blank : isBlank c) :
    c.toNat ∈ [9, 10, 11, 12, 13, 0x20, 0x85, 0xA0, 0x1680, 0x2000, 0x2001, 0x2002, 0x2003,
      0x2004, 0x2005, 0x2006, 0x2007, 0x2008, 0x2009, 0x200A, 0x2028, 0x2029, 0x202F, 0x205F,
      0x3000] := by
  simp only [isBlank, Bool.or_eq_true, Bool.and_eq_true, decide_eq_true_eq, beq_iff_eq] at blank
  simp only [List.mem_cons, List.not_mem_nil, or_false]
  omega

/-- Blanks are no word characters. -/
theorem isWordChar_of_isBlank {c : Char} (blank : isBlank c) : isWordChar c = false := by
  have all : ∀ code ∈ [9, 10, 11, 12, 13, 0x20, 0x85, 0xA0, 0x1680, 0x2000, 0x2001, 0x2002,
      0x2003, 0x2004, 0x2005, 0x2006, 0x2007, 0x2008, 0x2009, 0x200A, 0x2028, 0x2029, 0x202F,
      0x205F, 0x3000], isWordChar (Char.ofNat code) = false := by
    decide +kernel
  have here := all c.toNat (mem_of_isBlank blank)
  rwa [Char.ofNat_toNat] at here

/-- Word characters are no blanks. -/
theorem isBlank_of_isAsciiWord {c : Char} (word : isAsciiWord c) : isBlank c = false := by
  refine Bool.eq_false_iff.2 fun blank => ?_
  have wordChar := isWordChar_of_isAsciiWord word
  simp [isWordChar_of_isBlank blank] at wordChar

/-- Letters are word characters. -/
theorem isAsciiWord_of_isAlpha {c : Char} (letter : c.isAlpha = true) : isAsciiWord c = true := by
  simp [isAsciiWord, Char.isAlphanum, letter]

/-- Capital letters are word characters. -/
theorem isAsciiWord_of_isUpper {c : Char} (upper : c.isUpper = true) : isAsciiWord c = true :=
  isAsciiWord_of_isAlpha (Bool.or_eq_true_iff.2 (.inl upper))

/-- A character that has a capital letter is a word character. -/
theorem isAsciiWord_of_toUpper {c : Char} (upper : c.toUpper.isUpper = true) :
    isAsciiWord c = true := by
  by_cases small : 'a'.val ≤ c.val ∧ c.val ≤ 'z'.val
  · have lower : c.isLower = true :=
      Bool.and_eq_true_iff.2 ⟨decide_eq_true small.1, decide_eq_true small.2⟩
    exact isAsciiWord_of_isAlpha (Bool.or_eq_true_iff.2 (.inr lower))
  · have same : c.toUpper = c := dif_neg small
    exact isAsciiWord_of_isUpper (same ▸ upper)

/-- A capital letter is its own capital. -/
theorem toUpper_of_isUpper {c : Char} (upper : c.isUpper = true) : c.toUpper = c := by
  have letter : 'A'.val ≤ c.val ∧ c.val ≤ 'Z'.val := of_decide_eq_true upper
  refine dif_neg fun small => ?_
  have low := UInt32.le_iff_toNat_le.1 small.1
  have high := UInt32.le_iff_toNat_le.1 letter.2
  simp at low high
  omega

/-- Capitals are their own capital letters. -/
theorem asciiUpper_of_capitals {text : List Char} (capitals : Capitals text) :
    asciiUpper text = text :=
  (List.map_congr_left fun c member => toUpper_of_isUpper (capitals c member)).trans
    (List.map_id text)

/-- What folds to a capital letter is a word character. -/
theorem isWordChar_of_foldsTo {capital c : Char} (upper : capital.isUpper = true)
    (folds : foldsTo capital c) : isWordChar c = true := by
  simp only [foldsTo, Bool.or_eq_true, Bool.and_eq_true, beq_iff_eq] at folds
  rcases folds with (same | ⟨-, rfl⟩) | ⟨-, rfl⟩
  · exact isWordChar_of_isAsciiWord (isAsciiWord_of_toUpper (same ▸ upper))
  · decide +kernel
  · decide +kernel

/-- No other character reads as a letter of a keyword. -/
theorem foldsTo_eq_false {capital c : Char} (upper : capital.isUpper = true)
    (other : isWordChar c = false) : foldsTo capital c = false :=
  Bool.eq_false_iff.2 fun folds =>
    Bool.eq_false_iff.1 other (isWordChar_of_foldsTo upper folds)

/-- Letters of a keyword in whatever ASCII case. -/
theorem isAsciiWord_of_cased {keyword letters : List Char} (word : IsWordKeyword keyword)
    (cased : asciiUpper letters = keyword) : letters ≠ [] ∧ ∀ c ∈ letters, isAsciiWord c := by
  subst cased
  constructor
  · rintro rfl
    exact word.1 rfl
  · intro c member
    exact isAsciiWord_of_toUpper (word.2 c.toUpper (List.mem_map_of_mem member))

/-- Whether joined texts end in a word is settled by the later one if it is not empty. -/
theorem endsInWord_append (afterWord : Bool) (text rest : List Char) :
    endsInWord afterWord (text ++ rest) = endsInWord (endsInWord afterWord text) rest := by
  induction text generalizing afterWord with
  | nil => rfl
  | cons c text inductionHypothesis => exact inductionHypothesis (isWordChar c)

/-- Behind blanks no word goes on. -/
theorem endsInWord_blanks {blanks : List Char} (blank : isBlankText blanks) {afterWord : Bool}
    (apart : afterWord -> blanks ≠ []) : endsInWord afterWord blanks = false := by
  induction blanks generalizing afterWord with
  | nil => exact Bool.eq_false_iff.2 fun after => apart after rfl
  | cons c blanks inductionHypothesis =>
      rw [isBlankText_cons] at blank
      refine inductionHypothesis blank.2 fun after => ?_
      simp [isWordChar_of_isBlank blank.1] at after

/-- A word is bounded where no word character follows. -/
theorem Bounded.of_startsInWord {afterWord : Bool} {text rest : List Char}
    (other : startsInWord rest = false) : Bounded afterWord text rest :=
  fun _ => other

/-- A text that is not empty decides whether joined texts start in a word. -/
theorem startsInWord_append {text : List Char} (nonempty : text ≠ []) (rest : List Char) :
    startsInWord (text ++ rest) = startsInWord text := by
  cases text with
  | nil => exact absurd rfl nonempty
  | cons c text => rfl

/-- What follows a keyword that no word character continues. -/
def dropWord? (keyword text : List Char) : Option (List Char) :=
  (dropKeyword? keyword text).filter fun rest => !startsInWord rest

/-- A keyword that begins within a text and is a whole word there ends within it. -/
theorem dropWord?_append {keyword text rest : List Char} {afterWord : Bool}
    (letters : Capitals keyword)
    (begun : text ≠ [] ∨ afterWord = true) (bounded : Bounded afterWord text rest) :
    dropWord? keyword (text ++ rest) = (dropWord? keyword text).map (· ++ rest) := by
  induction keyword generalizing text afterWord with
  | nil =>
      by_cases empty : text = []
      · obtain rfl := begun.resolve_left (fun nonempty => nonempty empty)
        subst empty
        have other : startsInWord rest = false := bounded rfl
        simp [dropWord?, dropKeyword?, Option.filter, other, show startsInWord [] = false from rfl]
      · have same := startsInWord_append empty rest
        cases wordChar : startsInWord text with
        | true => simp [dropWord?, dropKeyword?, Option.filter, same, wordChar]
        | false => simp [dropWord?, dropKeyword?, Option.filter, same, wordChar]
  | cons capital keyword inductionHypothesis =>
      obtain ⟨upper, others⟩ := List.forall_mem_cons.1 letters
      cases text with
      | nil =>
          obtain rfl := begun.resolve_left (fun nonempty => nonempty rfl)
          have other : startsInWord rest = false := bounded rfl
          cases rest with
          | nil => rfl
          | cons c rest =>
              have noFold : foldsTo capital c = false := foldsTo_eq_false upper other
              simp [dropWord?, dropKeyword?, noFold]
      | cons c text =>
          by_cases folds : foldsTo capital c = true
          · have wordChar := isWordChar_of_foldsTo upper folds
            have inner : Bounded true text rest := by
              intro ends
              exact bounded (by rw [endsInWord, wordChar]; exact ends)
            have whole := inductionHypothesis others (.inr rfl) inner
            simpa [dropWord?, dropKeyword?, folds] using whole
          · simp [dropWord?, dropKeyword?, folds]

/-- No keyword begins with what is no word character. -/
theorem dropWord?_of_other {keyword rest : List Char} {c : Char} (word : IsWordKeyword keyword)
    (other : isWordChar c = false) : dropWord? keyword (c :: rest) = none := by
  obtain ⟨nonempty, letters⟩ := word
  cases keyword with
  | nil => exact absurd rfl nonempty
  | cons capital keyword =>
      have noFold : foldsTo capital c = false :=
        foldsTo_eq_false (letters capital List.mem_cons_self) other
      simp [dropWord?, dropKeyword?, noFold]

/-- ASCII letters that read as a keyword are this keyword in some case. -/
theorem asciiUpper_of_dropKeyword? {keyword text : List Char} (ascii : ∀ c ∈ text, isAsciiWord c)
    (found : dropKeyword? keyword text = some []) : asciiUpper text = keyword := by
  induction keyword generalizing text with
  | nil => simpa [dropKeyword?, asciiUpper] using found
  | cons capital keyword inductionHypothesis =>
      cases text with
      | nil => cases found
      | cons c text =>
          obtain ⟨first, others⟩ := List.forall_mem_cons.1 ascii
          rw [dropKeyword?] at found
          split at found
          · rename_i folds
            have noSign : c ≠ '\u212A' ∧ c ≠ '\u017F' := by
              constructor <;> rintro rfl <;> exact absurd first (by decide)
            have same : c.toUpper = capital := by simpa [foldsTo, noSign] using folds
            rw [asciiUpper, List.map_cons, same]
            exact congrArg _ (inductionHypothesis others found)
          · cases found

/-- Before blanks stands a keyword only if the whole text in front of them is one. -/
theorem keywordAndBlanks_whole {keyword text rest : List Char}
    (letters : Capitals keyword)
    (solid : ∀ c ∈ text, isBlank c = false) (blank : ∀ c ∈ rest.head?, isBlank c = true) :
    (dropKeyword? keyword (text ++ rest)).bind dropBlanks? =
      if dropKeyword? keyword text = some [] then dropBlanks? rest else none := by
  induction keyword generalizing text with
  | nil =>
      cases text with
      | nil => rfl
      | cons c text => simp [dropKeyword?, dropBlanks?, solid c List.mem_cons_self]
  | cons capital keyword inductionHypothesis =>
      obtain ⟨upper, others⟩ := List.forall_mem_cons.1 letters
      cases text with
      | nil =>
          cases rest with
          | nil => rfl
          | cons c rest =>
              have noFold : foldsTo capital c = false :=
                foldsTo_eq_false upper (isWordChar_of_isBlank (blank c rfl))
              simp [dropKeyword?, noFold]
      | cons c text =>
          by_cases folds : foldsTo capital c = true
          · have whole := inductionHypothesis others fun d member =>
              solid d (List.mem_cons_of_mem c member)
            simpa [dropKeyword?, folds] using whole
          · simp [dropKeyword?, folds]

/-- A keyword with blanks after it is a whole word. -/
theorem keywordAndBlanks_of_dropWord? {keyword text : List Char}
    (absent : dropWord? keyword text = none) :
    (dropKeyword? keyword text).bind dropBlanks? = none := by
  rw [dropWord?] at absent
  cases found : dropKeyword? keyword text with
  | none => rfl
  | some rest =>
      rw [found, Option.filter] at absent
      cases rest with
      | nil => rfl
      | cons c rest =>
          have wordChar : isWordChar c = true := by simpa [startsInWord] using absent
          have solid : isBlank c = false := by
            refine Bool.eq_false_iff.2 fun blank => ?_
            simp [isWordChar_of_isBlank blank] at wordChar
          simp [dropBlanks?, solid]

end SchemaLoom.Text

namespace SchemaLoom.Ddl

open SchemaLoom.Text

namespace Phrase

variable {keyword : List Char} {others : Phrase}

/-- Words of a phrase are read one after the other, with blanks between them. -/
theorem drop?_cons_cons (keyword second : List Char) (others : Phrase) (text : List Char) :
    drop? (keyword :: second :: others) text =
      ((dropKeyword? keyword text).bind dropBlanks?).bind (drop? (second :: others)) := by
  rw [drop?]
  · cases (dropKeyword? keyword text).bind dropBlanks? <;> rfl
  · simp

/-- Whether a keyword stands as a whole word in a text. The flag says whether a word
character stands before the text. -/
def stands (keyword : List Char) : Bool -> List Char -> Bool
  | _, [] => false
  | afterWord, c :: rest =>
      (!afterWord && (dropWord? keyword (c :: rest)).isSome) || stands keyword (isWordChar c) rest

/-- A keyword stands in a joined text if it stands in one of the parts. -/
theorem stands_append (word : IsWordKeyword keyword) {afterWord : Bool} {text rest : List Char}
    (bounded : Bounded afterWord text rest) :
    stands keyword afterWord (text ++ rest) =
      (stands keyword afterWord text || stands keyword (endsInWord afterWord text) rest) := by
  induction text generalizing afterWord with
  | nil => rfl
  | cons c text inductionHypothesis =>
      have whole : dropWord? keyword (c :: text ++ rest) =
          (dropWord? keyword (c :: text)).map (· ++ rest) :=
        dropWord?_append word.2 (.inl (List.cons_ne_nil c text)) bounded
      rw [List.cons_append] at whole ⊢
      rw [stands, stands, endsInWord, whole, Option.isSome_map, inductionHypothesis bounded,
        Bool.or_assoc]

/-- No keyword stands at a character that is not one of words. -/
theorem stands_cons_other (word : IsWordKeyword keyword) {afterWord : Bool} {c : Char}
    {rest : List Char} (other : isWordChar c = false) :
    stands keyword afterWord (c :: rest) = stands keyword false rest := by
  rw [stands, dropWord?_of_other word other, other]
  cases afterWord <;> rfl

/-- A phrase opens with its first keyword as a whole word. -/
theorem dropWord?_of_dropWhole? {text rest : List Char}
    (found : dropWhole? (keyword :: others) text = some rest) :
    (dropWord? keyword text).isSome = true := by
  cases others with
  | nil =>
      have same : dropWord? keyword text = some rest := found
      rw [same]
      rfl
  | cons second others =>
      obtain ⟨dropped, -⟩ := Option.filter_eq_some_iff.1 found
      cases absent : dropWord? keyword text with
      | some after => rfl
      | none => simp [drop?, keywordAndBlanks_of_dropWord? absent] at dropped

/-- A phrase is not read where its first word is not. -/
theorem dropWhole?_of_dropWord? {text : List Char} (absent : dropWord? keyword text = none) :
    dropWhole? (keyword :: others) text = none := by
  cases found : dropWhole? (keyword :: others) text with
  | none => rfl
  | some rest => simpa [absent] using dropWord?_of_dropWhole? found

/-- Where its first keyword does not stand, a phrase does not occur. -/
theorem occurrences_of_not_stands {afterWord : Bool} {text : List Char}
    (absent : stands keyword afterWord text = false) :
    occurrences (keyword :: others) afterWord text = [] := by
  induction text generalizing afterWord with
  | nil => rfl
  | cons c text inductionHypothesis =>
      simp only [stands, Bool.or_eq_false_iff] at absent
      have notHere :
          (!afterWord && (dropWhole? (keyword :: others) (c :: text)).isSome) = false := by
        cases afterWord with
        | true => rfl
        | false =>
            have noWord : dropWord? keyword (c :: text) = none := by simpa using absent.1
            rw [dropWhole?_of_dropWord? noWord]
            rfl
      rw [occurrences, if_neg (by simp [notHere])]
      exact inductionHypothesis absent.2

/-- A phrase that occurs at the end of a text occurs in the text. -/
theorem occursIn_append {phrase : Phrase} {afterWord : Bool} (text : List Char) {rest : List Char}
    (occurs : phrase.occurrences (endsInWord afterWord text) rest ≠ []) :
    phrase.occurrences afterWord (text ++ rest) ≠ [] := by
  induction text generalizing afterWord with
  | nil => exact occurs
  | cons c text inductionHypothesis =>
      have later : phrase.occurrences (isWordChar c) (text ++ rest) ≠ [] :=
        inductionHypothesis occurs
      rw [List.cons_append, occurrences]
      split
      · simp
      · exact later

/-- A phrase that stands at the start of a text occurs in it. -/
theorem occurrences_of_dropWhole? {phrase : Phrase} {text : List Char} (nonempty : text ≠ [])
    (found : (phrase.dropWhole? text).isSome = true) : phrase.occurrences false text ≠ [] := by
  cases text with
  | nil => exact absurd rfl nonempty
  | cons c text =>
      rw [occurrences, if_pos (by simp [found])]
      exact List.cons_ne_nil _ _

/-- Inside a word no keyword stands. -/
theorem stands_inside {word : List Char} (wordChars : ∀ c ∈ word, isWordChar c) :
    stands keyword true word = false := by
  induction word with
  | nil => rfl
  | cons c word inductionHypothesis =>
      obtain ⟨first, others⟩ := List.forall_mem_cons.1 wordChars
      rw [stands, first, inductionHypothesis others]
      rfl

/-- A keyword that stands in a single word is this word. -/
theorem dropKeyword?_of_stands {word : List Char} (wordChars : ∀ c ∈ word, isWordChar c)
    (found : stands keyword false word = true) : dropKeyword? keyword word = some [] := by
  cases word with
  | nil => cases found
  | cons c word =>
      obtain ⟨first, others⟩ := List.forall_mem_cons.1 wordChars
      have here : (dropWord? keyword (c :: word)).isSome = true := by
        simpa [stands, first, stands_inside others] using found
      obtain ⟨rest, dropped⟩ := Option.isSome_iff_exists.1 here
      obtain ⟨isPrefix, boundary⟩ := Option.filter_eq_some_iff.1 dropped
      have suffix := (dropKeyword?_suffix isPrefix).1
      cases rest with
      | nil => exact isPrefix
      | cons d rest =>
          have wordChar : isWordChar d = true := wordChars d (suffix.subset List.mem_cons_self)
          simp [startsInWord, wordChar] at boundary

/-- A keyword that stands in an ASCII text is one of its runs of letters, digits and
underscores. -/
theorem mem_runs_of_stands (keyword : List Char) {text : List Char} (word : IsWordKeyword keyword)
    (ascii : ∀ c ∈ text, c.toNat < 0x80) (found : stands keyword false text = true) :
    ∃ run ∈ text.splitOnP fun c => !isAsciiWord c, asciiUpper run = keyword := by
  induction length : text.length using Nat.strongRecOn generalizing text with
  | ind length inductionHypothesis =>
      subst length
      have runChars : ∀ c ∈ text.takeWhile isAsciiWord, isAsciiWord c = true :=
        List.all_eq_true.1 List.all_takeWhile
      have isRun (stood : stands keyword false (text.takeWhile isAsciiWord) = true) :
          asciiUpper (text.takeWhile isAsciiWord) = keyword :=
        asciiUpper_of_dropKeyword? runChars (dropKeyword?_of_stands
          (fun c member => isWordChar_of_isAsciiWord (runChars c member)) stood)
      have inRun : ∀ c ∈ text.takeWhile isAsciiWord, (!isAsciiWord c) = false :=
        fun c member => by simp [runChars c member]
      have whole := List.takeWhile_append_dropWhile (p := isAsciiWord) (l := text)
      cases dropped : text.dropWhile isAsciiWord with
      | nil =>
          rw [dropped, List.append_nil] at whole
          rw [whole] at isRun inRun
          exact ⟨text, by simp [List.splitOnP_eq_singleton inRun], isRun found⟩
      | cons c rest =>
          have other : isAsciiWord c = false := by
            simpa [dropped] using List.head?_dropWhile_not isAsciiWord text
          have ordinary : isWordChar c = false := by
            have member : c ∈ text := by rw [← whole, dropped]; simp
            rw [isWordChar, if_pos (ascii c member), other]
          rw [dropped] at whole
          rw [← whole, stands_append word (.of_startsInWord (by simp [startsInWord, ordinary])),
            stands_cons_other word ordinary, Bool.or_eq_true] at found
          rw [← whole, List.splitOnP_append_cons_of_forall_mem inRun c (by simp [other])]
          rcases found with inFirst | inRest
          · exact ⟨_, List.mem_cons_self, isRun inFirst⟩
          · have shorter : rest.length < text.length := by
              have lengths := congrArg List.length whole
              simp only [List.length_append, List.length_cons] at lengths
              omega
            have asciiRest : ∀ d ∈ rest, d.toNat < 0x80 :=
              fun d member => ascii d (by rw [← whole]; simp [member])
            obtain ⟨run, member, same⟩ := inductionHypothesis _ shorter asciiRest inRest rfl
            exact ⟨run, List.mem_cons_of_mem _ member, same⟩

end Phrase

/-- A text in which a keyword does not stand. -/
def Lacks (keyword text : List Char) : Prop :=
  Phrase.stands keyword false text = false

namespace Lacks

variable {keyword text rest : List Char}

/-- A keyword that does not stand in a text does not stand behind a word either. -/
theorem afterWord (lacks : Lacks keyword text) (afterWord : Bool) :
    Phrase.stands keyword afterWord text = false := by
  cases afterWord with
  | false => exact lacks
  | true =>
      cases text with
      | nil => rfl
      | cons c text =>
          rw [Lacks, Phrase.stands, Bool.or_eq_false_iff] at lacks
          rw [Phrase.stands, lacks.2]
          rfl

/-- A keyword that two texts lack does not arise where they are joined and no word goes on. -/
theorem append (word : IsWordKeyword keyword) (first : Lacks keyword text)
    (second : Lacks keyword rest) (bounded : Bounded false text rest) :
    Lacks keyword (text ++ rest) := by
  rw [Lacks, Phrase.stands_append word bounded, first, second.afterWord]
  rfl

/-- A keyword that a text lacks does not arise behind what is no word character. -/
theorem cons (word : IsWordKeyword keyword) {c : Char} (other : isWordChar c = false)
    (lacks : Lacks keyword rest) : Lacks keyword (c :: rest) := by
  rw [Lacks, Phrase.stands_cons_other word other]
  exact lacks

/-- A keyword that a text lacks does not arise behind blanks. -/
theorem blanks (word : IsWordKeyword keyword) {blanks : List Char} (blank : isBlankText blanks)
    (lacks : Lacks keyword rest) : Lacks keyword (blanks ++ rest) := by
  induction blanks with
  | nil => exact lacks
  | cons c blanks inductionHypothesis =>
      rw [isBlankText_cons] at blank
      exact cons word (isWordChar_of_isBlank blank.1) (inductionHypothesis blank.2)

end Lacks

/-- A reference opens with its keyword. -/
theorem reference?_of_dropWord? {text : List Char}
    (absent : dropWord? "REFERENCES".toList text = none) : reference? text = none := by
  rw [reference?, keywordAndBlanks_of_dropWord? absent]

/-- A reference is looked for behind a text in which the keyword does not stand. -/
theorem findReference?_append {afterWord : Bool} {text rest : List Char}
    (absent : Phrase.stands "REFERENCES".toList afterWord text = false)
    (bounded : Bounded afterWord text rest) :
    findReference? afterWord (text ++ rest) = findReference? (endsInWord afterWord text) rest := by
  induction text generalizing afterWord with
  | nil => rfl
  | cons c text inductionHypothesis =>
      have whole : dropWord? "REFERENCES".toList (c :: text ++ rest) =
          (dropWord? "REFERENCES".toList (c :: text)).map (· ++ rest) :=
        dropWord?_append (by decide) (.inl (List.cons_ne_nil c text)) bounded
      simp only [Phrase.stands, Bool.or_eq_false_iff] at absent
      have notHere : (if afterWord then none else reference? (c :: (text ++ rest))) = none := by
        cases afterWord with
        | true => rfl
        | false =>
            have noWord : dropWord? "REFERENCES".toList (c :: text) = none := by
              simpa using absent.1
            refine reference?_of_dropWord? ?_
            rw [← List.cons_append, whole, noWord]
            rfl
      rw [List.cons_append, findReference?, notHere]
      exact inductionHypothesis absent.2 bounded

end SchemaLoom.Ddl
