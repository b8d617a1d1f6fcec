import Mathlib.Data.List.Basic
import Mathlib.Data.List.TakeWhile
import SchemaLoom.Database.Token
import SchemaLoom.Proofs.Identifiers

/-!
# Texts that fall into tokens

A lexeme is a token apart from its place: its kind and its spelling. A text that is
composed of spellings and gaps falls into the lexemes that it is composed of, if each
spelling is one token in front of what follows it. Between blanks, commas and
parentheses every name of the database is one token, and so is every run of letters,
digits and underscores, be it a name or not.
-/

namespace SchemaLoom.Database

/-- A token apart from its place. -/
abbrev Lexeme :=
  TokenKind × String

/-- The lexeme of a token. -/
def Token.lexed (token : Token) : Lexeme :=
  (token.kind, token.source)

/-- The name that a lexeme is. -/
def Lexeme.name? (lexeme : Lexeme) : Option String :=
  ({ kind := lexeme.1, before := "", source := lexeme.2, offset := 0 } : Token).name?

/-- Whether a token can start with a character right behind blanks. -/
def opensToken (c : Char) : Bool :=
  !Value.isSpace c && c != '\uFEFF' && c != '-' && c != '/' && c != '\x00'

/-- A text that is composed of the spellings of lexemes. -/
inductive Lexes : List Char -> List Lexeme -> Prop where
  | nil : Lexes [] []
  | gap {c : Char} {text : List Char} {lexemes : List Lexeme} (blank : c = ' ' ∨ c = '\n')
      (others : Lexes text lexemes) : Lexes (c :: text) lexemes
  | token {first : Char} {rest later : List Char} {kind : TokenKind} {lexemes : List Lexeme}
      (opens : opensToken first = true)
      (lexed : lexeme first (rest ++ later) = (kind, rest.length)) (others : Lexes later lexemes) :
      Lexes (first :: (rest ++ later)) ((kind, String.ofList (first :: rest)) :: lexemes)

section Tokens

variable {text gap rest : List Char}

/-- A text with nothing behind its first gap has no token. -/
theorem tokensFrom_of_end (ending : splitGap .start text = (gap, [])) (offset : Nat) :
    tokensFrom offset text = [] := by
  rw [tokensFrom]
  split
  · rfl
  · simp_all

/-- The tokens end where the text does, at a null character between them. -/
theorem tokensFrom_of_null (ending : splitGap .start text = (gap, '\x00' :: rest)) (offset : Nat) :
    tokensFrom offset text = [] := by
  rw [tokensFrom]
  split
  · rfl
  · rename_i found
    rw [ending] at found
    cases found
    exact if_pos rfl

/-- The first token of a text stands behind its first gap, and the others are those of
what follows it. -/
theorem tokensFrom_of_split {first : Char} {kind : TokenKind} {length : Nat}
    (split : splitGap .start text = (gap, first :: rest)) (goesOn : first ≠ '\x00')
    (lexed : lexeme first rest = (kind, length)) (offset : Nat) :
    ∃ before start later, tokensFrom offset text =
      { kind, before, source := String.ofList (first :: rest.take length), offset := start } ::
        tokensFrom later (rest.drop length) := by
  rw [tokensFrom]
  split
  · simp_all
  · rename_i found
    rw [split] at found
    cases found
    rw [if_neg (by simpa using goesOn), lexed]
    exact ⟨_, _, _, rfl⟩

/-- Only the places of tokens depend on where a text starts. -/
theorem map_lexed_tokensFrom (offset other : Nat) (text : List Char) :
    (tokensFrom offset text).map Token.lexed = (tokensFrom other text).map Token.lexed := by
  induction length : text.length using Nat.strongRecOn generalizing text offset other with
  | _ bound inductionHypothesis =>
      subst length
      obtain ⟨gap, after⟩ : ∃ parts, splitGap .start text = parts := ⟨_, rfl⟩
      have whole := splitGap_append .start text
      rw [after] at whole
      rcases gap with ⟨gap, _ | ⟨first, rest⟩⟩
      · rw [tokensFrom_of_end after, tokensFrom_of_end after]
      · by_cases goesOn : first = '\x00'
        · subst goesOn
          rw [tokensFrom_of_null after, tokensFrom_of_null after]
        · obtain ⟨kind, lexed⟩ : ∃ lexed, lexeme first rest = lexed := ⟨_, rfl⟩
          obtain ⟨before, start, later, equal⟩ := tokensFrom_of_split after goesOn lexed offset
          obtain ⟨otherBefore, otherStart, otherLater, otherEqual⟩ :=
            tokensFrom_of_split after goesOn lexed other
          rw [equal, otherEqual, List.map_cons, List.map_cons,
            inductionHypothesis _ ?_ later otherLater _ rfl]
          · rfl
          · rw [← whole]
            simp
            omega

end Tokens

/-- Neither blanks nor comments begin with what can start a token. -/
theorem splitGap_of_opensToken {first : Char} (opens : opensToken first = true) (rest : List Char)
    (gap : Gap) (between : gap = .start ∨ gap = .blank) :
    splitGap gap (first :: rest) = ([], first :: rest) := by
  simp only [opensToken, Bool.and_eq_true, Bool.not_eq_true', bne_iff_ne] at opens
  obtain ⟨⟨⟨⟨solid, noMark⟩, noDash⟩, noSlash⟩, -⟩ := opens
  rcases between with rfl | rfl <;> simp [splitGap, *]

/-- A token starts with something, not with the end of the text. -/
theorem ne_null_of_opensToken {first : Char} (opens : opensToken first = true) :
    first ≠ '\x00' := by
  simp only [opensToken, Bool.and_eq_true, bne_iff_ne] at opens
  exact opens.2

namespace Lexes

variable {text : List Char} {lexemes : List Lexeme}

/-- A text of lexemes begins with the same gap right behind a blank as at the start. -/
theorem splitGap_blank (lexes : Lexes text lexemes) :
    splitGap .blank text = splitGap .start text := by
  cases lexes with
  | nil => rfl
  | gap blank others => rcases blank with rfl | rfl <;> rfl
  | token opens lexed others =>
      rw [splitGap_of_opensToken opens _ .blank (.inr rfl),
        splitGap_of_opensToken opens _ .start (.inl rfl)]

/-- The tokens of a text are those that it is composed of. -/
theorem tokensFrom (lexes : Lexes text lexemes) (offset : Nat) :
    (Database.tokensFrom offset text).map Token.lexed = lexemes := by
  induction lexes generalizing offset with
  | nil => rw [tokensFrom_of_end rfl, List.map_nil]
  | gap blank others inductionHypothesis =>
      rename_i c text lexemes
      have after : splitGap .start (c :: text) =
          (c :: (splitGap .start text).1, (splitGap .start text).2) := by
        rw [← others.splitGap_blank]
        rcases blank with rfl | rfl <;> rfl
      rw [← inductionHypothesis offset]
      obtain ⟨gap, parts⟩ : ∃ parts, splitGap .start text = parts := ⟨_, rfl⟩
      rw [parts] at after
      rcases gap with ⟨gap, _ | ⟨first, rest⟩⟩
      · rw [tokensFrom_of_end after, tokensFrom_of_end parts]
      · by_cases goesOn : first = '\x00'
        · subst goesOn
          rw [tokensFrom_of_null after, tokensFrom_of_null parts]
        · obtain ⟨kind, lexed⟩ : ∃ lexed, lexeme first rest = lexed := ⟨_, rfl⟩
          obtain ⟨before, start, later, equal⟩ := tokensFrom_of_split after goesOn lexed offset
          obtain ⟨otherBefore, otherStart, otherLater, otherEqual⟩ :=
            tokensFrom_of_split parts goesOn lexed offset
          rw [equal, otherEqual, List.map_cons, List.map_cons,
            map_lexed_tokensFrom later otherLater]
          rfl
  | token opens lexed others inductionHypothesis =>
      rename_i first rest later kind lexemes
      obtain ⟨before, start, place, equal⟩ := tokensFrom_of_split
        (splitGap_of_opensToken opens (rest ++ later) .start (.inl rfl))
        (ne_null_of_opensToken opens) lexed offset
      rw [equal, List.map_cons, List.take_left, List.drop_left, inductionHypothesis]
      rfl

end Lexes

/-- A text that begins like what stands behind a token, if with anything. -/
def Delimited (later : List Char) : Prop :=
  ∀ c ∈ later.head?, c ∈ [' ', '\n', '(', ')', ',']

/-- A text that falls into lexemes wherever a blank, a comma or a parenthesis follows. -/
def Composed (text : List Char) (lexemes : List Lexeme) : Prop :=
  ∀ ⦃later : List Char⦄ ⦃others : List Lexeme⦄, Delimited later -> Lexes later others ->
    Lexes (text ++ later) (lexemes ++ others)

/-- A text that is one token of a kind. -/
def IsToken (kind : TokenKind) (text : String) : Prop :=
  Composed text.toList [(kind, text)]

section Delimiters

variable {first : Char} {rest later : List Char} {kind : TokenKind}

/-- A spelling is a token if it is read as one in front of all that may stand behind it. -/
theorem IsToken.of_lexeme {text : String} (spelled : text.toList = first :: rest)
    (opens : opensToken first = true)
    (lexed : ∀ later, Delimited later -> lexeme first (rest ++ later) = (kind, rest.length)) :
    IsToken kind text := by
  intro later lexemes delimited others
  have whole := Lexes.token opens (lexed later delimited) others
  rwa [← spelled, String.ofList_toList, ← List.cons_append, ← spelled] at whole

/-- No word goes on with what may stand behind a token. -/
theorem Delimited.isWordPart {c : Char} (delimited : Delimited later)
    (head : c ∈ later.head?) : isWordPart c = false := by
  have delimiters : ∀ d ∈ [' ', '\n', '(', ')', ','], Database.isWordPart d = false :=
    List.forall_iff_forall_mem.1 (by decide)
  exact delimiters c (delimited c head)

/-- A run of word characters ends where it did if something else may stand behind it. -/
theorem takeWhile_isWordPart {run : List Char} (inside : ∀ c ∈ run, isWordPart c)
    (delimited : Delimited later) : (run ++ later).takeWhile isWordPart = run :=
  (Ddl.takeWhile_append_of_ends inside fun _ => delimited.isWordPart).1

/-- The first character of a word is one that words go on with. -/
theorem isWordPart_of_startsWord (starts : startsWord first = true) : isWordPart first = true := by
  simp only [startsWord, isWordPart, Char.isAlphanum, Bool.or_eq_true] at starts ⊢
  rcases starts with (letter | mark) | high
  · exact .inl (.inl (.inl (.inl letter)))
  · exact .inl (.inl (.inr mark))
  · exact .inr high

/-- A word is read up to its end, wherever a blank, a comma or a parenthesis follows. -/
theorem lexeme_word (starts : startsWord first = true) (inside : ∀ c ∈ rest, isWordPart c)
    (delimited : Delimited later) : lexeme first (rest ++ later) = (.word, rest.length) := by
  have others : ∀ c ∈ ['\x27', '\x22', '\x60', '['], first ≠ c := by
    have marks : ∀ c ∈ ['\x27', '\x22', '\x60', '['], startsWord c = false :=
      List.forall_iff_forall_mem.1 (by decide)
    rintro c isMark rfl
    rw [marks first isMark] at starts
    cases starts
  have noBlob : ((rest ++ later).head? == some '\x27') = false := by
    rw [beq_eq_false_iff_ne]
    intro head
    cases rest with
    | nil => exact absurd (delimited _ head) (by decide)
    | cons c rest =>
        obtain rfl := Option.some.inj head
        exact absurd (inside _ List.mem_cons_self) (by decide)
  have word := takeWhile_isWordPart inside delimited
  simp only [List.mem_cons, List.not_mem_nil, or_false, forall_eq_or_imp, forall_eq] at others
  unfold lexeme
  rw [noBlob]
  simp [others, starts, word]

/-- Words go on with digits. -/
theorem isWordPart_of_isDigit {c : Char} (digit : c.isDigit = true) : isWordPart c = true := by
  simp [isWordPart, Char.isAlphanum, digit]

/-- The digits that a run begins with are not more with something else behind the run. -/
theorem takeWhile_digits (run : List Char) (delimited : Delimited later) :
    (run ++ later).takeWhile Char.isDigit = run.takeWhile Char.isDigit := by
  have stops : later.takeWhile Char.isDigit = [] := by
    cases later with
    | nil => rfl
    | cons c later =>
        refine List.takeWhile_cons_of_neg fun digit => ?_
        have part := delimited.isWordPart (c := c) rfl
        rw [isWordPart_of_isDigit digit] at part
        cases part
  rw [List.takeWhile_append, stops]
  split
  · rename_i all
    rw [List.append_nil]
    exact ((List.takeWhile_prefix _).eq_of_length all).symm
  · rfl

/-- An exponent is found within a run of word characters as it is without what follows. -/
theorem exponentLength_append {run : List Char} (inside : ∀ c ∈ run, isWordPart c)
    (delimited : Delimited later) :
    exponentLength (run ++ later) = exponentLength run ∧ exponentLength run ≤ run.length := by
  -- A sign never stands in a run of word characters, nor right behind it.
  have noSign : ∀ {c : Char}, isWordPart c = true ∨ c ∈ [' ', '\n', '(', ')', ','] ->
      (c == '+' || c == '-') = false := by
    intro c either
    have signs : ∀ d ∈ ['+', '-'], isWordPart d = false ∧ d ∉ [' ', '\n', '(', ')', ','] :=
      List.forall_iff_forall_mem.1 (by decide)
    rw [Bool.eq_false_iff]
    intro sign
    have isSign : c ∈ ['+', '-'] := by simpa using sign
    rcases either with part | delimiter
    · rw [(signs c isSign).1] at part
      cases part
    · exact (signs c isSign).2 delimiter
  match run with
  | [] =>
      match later with
      | [] => exact ⟨rfl, Nat.le_refl _⟩
      | [c] => exact ⟨rfl, Nat.le_refl _⟩
      | c :: sign :: later =>
          have delimiter := delimited c rfl
          have noMark : (c == 'e' || c == 'E') = false := by
            have marks : ∀ d ∈ [' ', '\n', '(', ')', ','], (d == 'e' || d == 'E') = false :=
              List.forall_iff_forall_mem.1 (by decide)
            exact marks c delimiter
          simp [exponentLength, noMark]
  | [mark] =>
      match later with
      | [] => exact ⟨rfl, Nat.zero_le _⟩
      | c :: later =>
          have delimiter := delimited c rfl
          have noDigit : c.isDigit = false := by
            have digits : ∀ d ∈ [' ', '\n', '(', ')', ','], d.isDigit = false :=
              List.forall_iff_forall_mem.1 (by decide)
            exact digits c delimiter
          have noSign := noSign (.inr delimiter)
          simp [exponentLength, noDigit, noSign]
  | mark :: sign :: rest =>
      have digits := takeWhile_digits (sign :: rest) delimited
      rw [List.cons_append] at digits
      have noSign := noSign (.inl (inside sign (by simp)))
      have count := (List.takeWhile_prefix Char.isDigit (l := sign :: rest)).length_le
      rw [List.cons_append, List.cons_append, exponentLength, exponentLength, digits, noSign]
      simp only [List.length_cons] at count ⊢
      refine ⟨rfl, ?_⟩
      split
      · split
        · omega
        · simp
      · omega

/-- No fraction begins in a run of word characters or right behind it. -/
theorem fractionLength_append {run : List Char} (inside : ∀ c ∈ run, isWordPart c)
    (delimited : Delimited later) : fractionLength (run ++ later) = 0 := by
  rw [fractionLength.eq_def]
  split
  · rename_i rest point
    have head : (run ++ later).head? = some '.' := by rw [point]; rfl
    cases run with
    | nil => exact absurd (delimited _ head) (by decide)
    | cons c run =>
        obtain rfl := Option.some.inj head
        exact absurd (inside _ List.mem_cons_self) (by decide)
  · rfl

/-- A number with what hangs on to it is a run of word characters. The same three
stretches are found in it whatever follows. -/
theorem exists_numberLexeme {run : List Char} (inside : ∀ c ∈ run, isWordPart c) :
    ∃ kind, (kind = .number ∨ kind = .illegal) ∧
      ∀ later, Delimited later -> numberLexeme (run ++ later) = (kind, run.length) := by
  have whole := (List.takeWhile_prefix Char.isDigit (l := run)).length_le
  have tail : ∀ c ∈ run.drop (run.takeWhile Char.isDigit).length, isWordPart c :=
    fun c member => inside c (List.mem_of_mem_drop member)
  refine ⟨if run.length - ((run.takeWhile Char.isDigit).length +
    exponentLength (run.drop (run.takeWhile Char.isDigit).length)) == 0 then .number else .illegal,
    by split <;> simp, fun later delimited => ?_⟩
  obtain ⟨exponent, short⟩ := exponentLength_append tail delimited
  unfold numberLexeme
  dsimp only
  rw [takeWhile_digits run delimited, List.drop_append_of_le_length whole,
    fractionLength_append tail delimited, Nat.add_zero, List.drop_append_of_le_length whole, exponent]
  generalize exponentLength (run.drop (run.takeWhile Char.isDigit).length) = digits at short ⊢
  generalize (run.takeWhile Char.isDigit).length = start at whole short ⊢
  rw [List.length_drop] at short
  have inRun : start + digits ≤ run.length := by omega
  have attachedInside : ∀ c ∈ run.drop (start + digits), isWordPart c = true :=
    fun c member => inside c (List.mem_of_mem_drop member)
  have attached := takeWhile_isWordPart attachedInside delimited
  rw [List.drop_append_of_le_length inRun, attached, List.length_drop]
  refine Prod.ext rfl ?_
  simp
  omega

/-- A quoted run ends where it ended before, unless its quote is doubled behind it. -/
theorem closing?_append {quote : Char} {length : Nat} (other : quote ∉ later.head?)
    (closed : closing? quote rest = some length) :
    length ≤ rest.length ∧ closing? quote (rest ++ later) = some length := by
  fun_induction closing? quote rest generalizing length with
  | case1 => cases closed
  | case2 c isQuote =>
      obtain rfl := Option.some.inj closed
      refine ⟨Nat.le_refl _, ?_⟩
      cases later with
      | nil => rw [List.append_nil, closing?, if_pos isQuote]
      | cons d later =>
          have single : (d == quote) = false := by
            rw [beq_eq_false_iff_ne]
            rintro rfl
            exact other rfl
          rw [List.singleton_append, closing?, if_pos isQuote, single]
          rfl
  | case3 => cases closed
  | case4 c d rest isQuote doubled inductionHypothesis =>
      obtain ⟨inner, isInner, rfl⟩ := Option.map_eq_some_iff.1 closed
      obtain ⟨short, again⟩ := inductionHypothesis isInner
      refine ⟨by simpa using short, ?_⟩
      rw [List.cons_append, List.cons_append, closing?, if_pos isQuote, if_pos doubled, again]
      rfl
  | case5 c d rest isQuote single =>
      obtain rfl := Option.some.inj closed
      refine ⟨by simp, ?_⟩
      rw [List.cons_append, List.cons_append, closing?, if_pos isQuote, if_neg single]
  | case6 c d rest isOther inductionHypothesis =>
      obtain ⟨inner, isInner, rfl⟩ := Option.map_eq_some_iff.1 closed
      obtain ⟨short, again⟩ := inductionHypothesis isInner
      refine ⟨by simpa using short, ?_⟩
      rw [List.cons_append] at again
      rw [List.cons_append, List.cons_append, closing?, if_neg isOther, again]
      rfl

/-- Whether a token of a kind can be a name. -/
def TokenKind.isNaming : TokenKind -> Bool
  | word | quoted | text => true
  | _ => false

/-- A blob is no name. -/
theorem blobLexeme_not_naming (rest : List Char) : (blobLexeme rest).1.isNaming = false := by
  unfold blobLexeme
  dsimp only
  split <;> rfl

/-- A number is no name. -/
theorem numberLexeme_not_naming (text : List Char) : (numberLexeme text).1.isNaming = false := by
  unfold numberLexeme
  dsimp only
  split <;> rfl

/-- Only a quote, a bracket or the first character of a word starts a token that can be
a name. -/
theorem starts_of_isNaming {length : Nat} (lexed : lexeme first rest = (kind, length))
    (naming : kind.isNaming = true) :
    first ∈ ['\x27', '\x22', '\x60', '['] ∨
      startsWord first = true ∧ kind = .word ∧ length = (rest.takeWhile isWordPart).length := by
  by_cases quotes : first ∈ ['\x27', '\x22', '\x60', '[']
  · exact .inl quotes
  · simp only [List.mem_cons, List.not_mem_nil, or_false, not_or] at quotes
    obtain ⟨single, double, back, bracket⟩ := quotes
    have other {found : TokenKind × Nat} (same : found = (kind, length))
        (noName : found.1.isNaming = false) : False := by
      rw [same, naming] at noName
      cases noName
    unfold lexeme at lexed
    simp only [beq_iff_eq, single, double, back, bracket, Bool.or_eq_true, or_self, if_false] at lexed
    split at lexed
    · exact (other lexed (blobLexeme_not_naming rest)).elim
    split at lexed
    · rename_i starts
      obtain ⟨rfl, rfl⟩ := Prod.mk.inj lexed
      exact .inr ⟨starts, rfl, rfl⟩
    split at lexed
    · exact (other lexed (numberLexeme_not_naming (first :: rest))).elim
    split at lexed
    · exact (other lexed rfl).elim
    split at lexed
    · refine (other lexed ?_).elim
      split <;> rfl
    split at lexed
    · exact (other lexed rfl).elim
    split at lexed
    · exact (other lexed rfl).elim
    · exact (other lexed rfl).elim

/-- A single quote starts a text, which is closed by the next quote that is not doubled. -/
theorem lexeme_single (rest : List Char) : lexeme '\x27' rest =
    (closing? '\x27' rest).elim (.illegal, rest.length) fun length =>
      (enclosedKind .text (rest.take length), length) := by
  unfold lexeme
  rw [if_pos (by decide)]
  cases closing? '\x27' rest <;> rfl

/-- Quotes of the other two forms start a name, closed in the same way. -/
theorem lexeme_double {quote : Char} (isQuote : quote = '\x22' ∨ quote = '\x60')
    (rest : List Char) : lexeme quote rest =
      (closing? quote rest).elim (.illegal, rest.length) fun length =>
        (enclosedKind .quoted (rest.take length), length) := by
  have notSingle : (quote == '\x27') = false := by rcases isQuote with rfl | rfl <;> decide
  have double : (quote == '\x22' || quote == '\x60') = true := by
    rcases isQuote with rfl | rfl <;> decide
  unfold lexeme
  rw [notSingle, if_neg Bool.false_ne_true, if_pos double]
  cases closing? quote rest <;> rfl

/-- A name in brackets goes up to the first closing one, without any doubling. -/
theorem lexeme_bracket (rest : List Char) : lexeme '[' rest =
    if rest.contains ']' then
      (enclosedKind .quoted (rest.take ((rest.takeWhile (· != ']')).length + 1)),
        (rest.takeWhile (· != ']')).length + 1)
    else (.illegal, rest.length) := by
  unfold lexeme
  rw [if_neg (by decide), if_neg (by decide), if_pos (by decide)]
  split <;> rfl

/-- A quoted run is the same token in front of what does not begin with its quote. -/
theorem lexeme_enclosed {enclosed : TokenKind} (other : first ∉ later.head?)
    (form : ∀ rest, lexeme first rest =
      (closing? first rest).elim (.illegal, rest.length) fun length =>
        (enclosedKind enclosed (rest.take length), length))
    (closed : closing? first rest = some rest.length) :
    lexeme first (rest ++ later) = (enclosedKind enclosed rest, rest.length) := by
  rw [form, (closing?_append other closed).2]
  dsimp only [Option.elim]
  rw [List.take_left]

/-- A name in brackets ends at the first closing one. -/
theorem lexeme_bracketed (closed : ']' ∈ rest)
    (ending : (rest.takeWhile (· != ']')).length + 1 = rest.length) (later : List Char) :
    lexeme '[' (rest ++ later) = (enclosedKind .quoted rest, rest.length) := by
  have again : (rest ++ later).takeWhile (· != ']') = rest.takeWhile (· != ']') := by
    rw [List.takeWhile_append, if_neg (by omega)]
  rw [lexeme_bracket, if_pos (by simp [closed]), again, ending, List.take_left]

/-- A token between quotes that can be a name ends where its quote does. -/
theorem closing?_of_isNaming {length : Nat} {enclosed : TokenKind}
    (form : ∀ rest, lexeme first rest =
      (closing? first rest).elim (.illegal, rest.length) fun length =>
        (enclosedKind enclosed (rest.take length), length))
    (lexed : lexeme first rest = (kind, length)) (whole : rest.length ≤ length)
    (naming : kind.isNaming = true) :
    closing? first rest = some rest.length ∧ enclosedKind enclosed rest = kind := by
  rw [form] at lexed
  cases closed : closing? first rest with
  | none =>
      rw [closed] at lexed
      cases lexed
      cases naming
  | some found =>
      have nothing : first ∉ ([] : List Char).head? := by simp
      obtain rfl : found = length := by
        rw [closed] at lexed
        exact congrArg Prod.snd lexed
      obtain rfl := Nat.le_antisymm (closing?_append nothing closed).1 whole
      rw [closed] at lexed
      dsimp only [Option.elim] at lexed
      rw [List.take_length] at lexed
      exact ⟨rfl, congrArg Prod.fst lexed⟩

/-- A token between brackets that can be a name ends at the first closing one. -/
theorem bracket_of_isNaming {length : Nat} (lexed : lexeme '[' rest = (kind, length))
    (whole : rest.length ≤ length) (naming : kind.isNaming = true) :
    ']' ∈ rest ∧ (rest.takeWhile (· != ']')).length + 1 = rest.length ∧
      enclosedKind .quoted rest = kind := by
  rw [lexeme_bracket] at lexed
  split at lexed
  · rename_i closed
    rw [List.contains_iff_mem] at closed
    have inside : rest.takeWhile (· != ']') ≠ rest := by
      intro all
      have none := List.takeWhile_eq_self_iff.1 all ']' closed
      cases none
    have shorter : (rest.takeWhile (· != ']')).length < rest.length :=
      Nat.lt_of_le_of_ne (List.takeWhile_prefix _).length_le fun same =>
        inside ((List.takeWhile_prefix _).eq_of_length same)
    obtain ⟨isKind, rfl⟩ := Prod.mk.inj lexed
    have ending : (rest.takeWhile (· != ']')).length + 1 = rest.length :=
      Nat.le_antisymm shorter whole
    rw [ending, List.take_length] at isKind
    exact ⟨closed, ending, isKind⟩
  · cases lexed
    cases naming

/-- A token that can be a name is the same token in front of a blank, a comma or a
parenthesis. -/
theorem lexeme_append {length : Nat} (lexed : lexeme first rest = (kind, length))
    (whole : rest.length ≤ length) (naming : kind.isNaming = true) (delimited : Delimited later) :
    lexeme first (rest ++ later) = (kind, rest.length) := by
  rcases starts_of_isNaming lexed naming with quotes | ⟨starts, rfl, rfl⟩
  · have other : first ∉ later.head? := by
      intro head
      have apart : ∀ quote ∈ ['\x27', '\x22', '\x60', '['], quote ∉ [' ', '\n', '(', ')', ','] :=
        List.forall_iff_forall_mem.1 (by decide)
      exact apart first quotes (delimited first head)
    have quoted {enclosed : TokenKind} (form : ∀ rest, lexeme first rest =
        (closing? first rest).elim (.illegal, rest.length) fun length =>
          (enclosedKind enclosed (rest.take length), length)) :
        lexeme first (rest ++ later) = (kind, rest.length) := by
      obtain ⟨closed, rfl⟩ := closing?_of_isNaming form lexed whole naming
      exact lexeme_enclosed other form closed
    simp only [List.mem_cons, List.not_mem_nil, or_false] at quotes
    rcases quotes with rfl | rfl | rfl | rfl
    · exact quoted lexeme_single
    · exact quoted (lexeme_double (.inl rfl))
    · exact quoted (lexeme_double (.inr rfl))
    · obtain ⟨closed, ending, rfl⟩ := bracket_of_isNaming lexed whole naming
      exact lexeme_bracketed closed ending later
  · have all := (List.takeWhile_prefix isWordPart).eq_of_length_le whole
    exact lexeme_word starts (List.takeWhile_eq_self_iff.1 all) delimited

/-- Words start at capital letters in the order of characters, or behind them. -/
theorem toNat_of_startsWord (starts : startsWord first = true) : 65 ≤ first.toNat := by
  simp only [startsWord, Bool.or_eq_true, decide_eq_true_eq, beq_iff_eq] at starts
  rcases starts with (letter | rfl) | high
  · rcases Bool.or_eq_true_iff.1 letter with upper | lower
    · exact UInt32.le_iff_toNat_le.1 (of_decide_eq_true upper).1
    · exact Nat.le_trans (by decide)
        (UInt32.le_iff_toNat_le.1 (of_decide_eq_true (Bool.and_eq_true_iff.1 lower).1))
  · decide
  · exact Nat.le_trans (by decide) high

/-- From the digits on, only the mark of byte order starts no token. -/
theorem opensToken_of_toNat (high : 48 ≤ first.toNat) (unmarked : first ≠ '\uFEFF') :
    opensToken first = true := by
  have apart {c : Char} (low : c.toNat < 48) : first ≠ c := by
    rintro rfl
    omega
  have solid : Value.isSpace first = false := by
    simp [Value.isSpace, apart (c := ' ') (by decide)]
    omega
  simp [opensToken, solid, unmarked, apart (c := '-') (by decide), apart (c := '/') (by decide),
    apart (c := '\x00') (by decide)]

/-- What starts a token that can be a name, but for the mark of byte order, starts a token
right behind blanks, too. -/
theorem opensToken_of_isNaming {length : Nat} (lexed : lexeme first rest = (kind, length))
    (naming : kind.isNaming = true) (unmarked : first ≠ '\uFEFF') : opensToken first = true := by
  rcases starts_of_isNaming lexed naming with quotes | ⟨starts, -, -⟩
  · have opening : ∀ quote ∈ ['\x27', '\x22', '\x60', '['], opensToken quote = true :=
      List.forall_iff_forall_mem.1 (by decide)
    exact opening first quotes
  · exact opensToken_of_toNat (Nat.le_trans (by decide) (toNat_of_startsWord starts)) unmarked

/-- The digits are the characters from 48 to 57. -/
theorem toNat_of_isDigit (digit : first.isDigit = true) :
    48 ≤ first.toNat ∧ first.toNat ≤ 57 := by
  simpa [Char.isDigit, UInt32.le_iff_toNat_le] using digit

/-- A digit starts a number. -/
theorem lexeme_digit (digit : first.isDigit = true) (rest : List Char) :
    lexeme first rest = ((numberLexeme (first :: rest)).1, (numberLexeme (first :: rest)).2 - 1) := by
  obtain ⟨low, high⟩ := toNat_of_isDigit digit
  have apart {c : Char} (outside : c.toNat < 48 ∨ 57 < c.toNat) : (first == c) = false := by
    rw [beq_eq_false_iff_ne]
    rintro rfl
    omega
  have noWord : startsWord first = false := by
    rw [Bool.eq_false_iff]
    intro starts
    have := toNat_of_startsWord starts
    omega
  unfold lexeme
  dsimp only
  rw [apart (.inl (by decide)), apart (.inl (by decide)), apart (.inr (by decide)),
    apart (.inr (by decide)), apart (.inr (by decide)), apart (.inr (by decide)), noWord, digit]
  rfl

end Delimiters

/-- The name that a text is by itself: one token, which is a name. -/
def nameIn? (text : String) : Option String :=
  match tokens text with
  | [token] => if token.source == text then token.name? else none
  | _ => none

/-- A text that is a name by itself is all of its first token. -/
theorem lexeme_of_nameIn? {text name : String} (found : nameIn? text = some name) :
    ∃ kind first rest length, text.toList = first :: rest ∧ first ≠ '\uFEFF' ∧
      lexeme first rest = (kind, length) ∧ rest.length ≤ length ∧
        Lexeme.name? (kind, text) = some name := by
  unfold nameIn? at found
  split at found
  · rename_i token single
    split at found
    · rename_i same
      rw [beq_iff_eq] at same
      rw [tokens] at single
      obtain ⟨parts, after⟩ : ∃ parts, splitGap .start text.toList = parts := ⟨_, rfl⟩
      have whole := splitGap_append .start text.toList
      rw [after] at whole
      rcases parts with ⟨gap, _ | ⟨first, rest⟩⟩
      · rw [tokensFrom_of_end after] at single
        cases single
      · have goesOn : first ≠ '\x00' := by
          rintro rfl
          rw [tokensFrom_of_null after] at single
          cases single
        obtain ⟨⟨kind, length⟩, lexed⟩ : ∃ lexed, lexeme first rest = lexed := ⟨_, rfl⟩
        obtain ⟨before, start, later, equal⟩ := tokensFrom_of_split after goesOn lexed 0
        rw [equal] at single
        obtain ⟨rfl, -⟩ := List.cons.inj single
        have spelled : first :: rest.take length = text.toList := by
          rw [← same, String.toList_ofList]
        -- The token is as long as the text, so that neither a gap nor a rest is left.
        have lengths := congrArg List.length (spelled.trans whole.symm)
        simp only [List.length_cons, List.length_append, List.length_take] at lengths
        obtain rfl : gap = [] := List.length_eq_zero_iff.1 (by omega)
        have unmarked : first ≠ '\uFEFF' := by
          rintro rfl
          rw [← whole] at after
          simp [splitGap] at after
        refine ⟨kind, first, rest, length, whole.symm, unmarked, lexed, by omega, ?_⟩
        rw [← found, ← same]
        rfl
    · cases found
  · cases found

/-- Only words, quoted names and texts have a name. -/
theorem isNaming_of_name? {kind : TokenKind} {text name : String}
    (found : Lexeme.name? (kind, text) = some name) : kind.isNaming = true := by
  cases kind <;> first | rfl | cases found

/-- A name is one token between blanks, commas and parentheses. -/
theorem isToken_of_nameIn? {text name : String} (found : nameIn? text = some name) :
    ∃ kind, IsToken kind text ∧ Lexeme.name? (kind, text) = some name := by
  obtain ⟨kind, first, rest, length, spelled, unmarked, lexed, enough, named⟩ :=
    lexeme_of_nameIn? found
  have naming := isNaming_of_name? named
  exact ⟨kind, IsToken.of_lexeme spelled (opensToken_of_isNaming lexed naming unmarked)
    fun later delimited => lexeme_append lexed enough naming delimited, named⟩

/-- A token by itself is what it is between others. -/
theorem nameIn?_of_isToken {kind : TokenKind} {text : String} (isToken : IsToken kind text) :
    nameIn? text = Lexeme.name? (kind, text) := by
  have nothing : Delimited [] := fun c member => by cases member
  have whole := (isToken nothing .nil).tokensFrom 0
  rw [List.append_nil, ← tokens] at whole
  obtain ⟨token, rest, equal, lexed, none⟩ := List.map_eq_cons_iff.1 whole
  obtain rfl := List.map_eq_nil_iff.1 none
  have source : token.source = text := congrArg Prod.snd lexed
  unfold nameIn?
  rw [equal]
  dsimp only
  rw [source, if_pos (beq_self_eq_true text), ← lexed]
  rfl

/-- A run of letters, digits and underscores. -/
def IsRun (text : String) : Prop :=
  text ≠ "" ∧ text.toList.all fun c => c.isAlphanum || c == '_'

instance (text : String) : Decidable (IsRun text) :=
  inferInstanceAs (Decidable (text ≠ "" ∧ (text.toList.all fun c => c.isAlphanum || c == '_') = true))

/-- A run has letters, digits and underscores only. -/
theorem IsRun.letter {text : String} (run : IsRun text) {c : Char} (member : c ∈ text.toList) :
    (c.isAlphanum || c == '_') = true :=
  List.all_eq_true.1 run.2 c member

/-- Words go on with every character of a run. -/
theorem IsRun.isWordPart {text : String} (run : IsRun text) {c : Char} (member : c ∈ text.toList) :
    isWordPart c = true := by
  have letter := run.letter member
  simp only [Database.isWordPart, Bool.or_eq_true] at letter ⊢
  rcases letter with letter | mark
  · exact .inl (.inl (.inl letter))
  · exact .inl (.inl (.inr mark))

/-- A run of letters, digits and underscores is one token, which names nothing or itself. -/
theorem isToken_of_isRun {text : String} (run : IsRun text) :
    ∃ kind, IsToken kind text ∧
      (Lexeme.name? (kind, text) = none ∨ Lexeme.name? (kind, text) = some text) := by
  obtain ⟨first, rest, spelled⟩ : ∃ first rest, text.toList = first :: rest :=
    List.exists_cons_of_ne_nil fun empty => run.1 (String.toList_eq_nil_iff.1 empty)
  have inside : ∀ c ∈ text.toList, isWordPart c = true := fun c => run.isWordPart
  have starting := run.letter (spelled ▸ List.mem_cons_self)
  rw [spelled] at inside
  obtain ⟨firstInside, restInside⟩ := List.forall_mem_cons.1 inside
  have unmarked : first ≠ '\uFEFF' := by
    rintro rfl
    exact absurd starting (by decide)
  cases digit : first.isDigit with
  | true =>
      obtain ⟨kind, kinds, lexed⟩ := exists_numberLexeme inside
      refine ⟨kind, IsToken.of_lexeme spelled
        (opensToken_of_toNat (toNat_of_isDigit digit).1 unmarked) fun later delimited => ?_, .inl ?_⟩
      · have whole := lexed later delimited
        rw [List.cons_append] at whole
        rw [lexeme_digit digit, whole, List.length_cons, Nat.add_sub_cancel]
      · rcases kinds with rfl | rfl <;> rfl
  | false =>
      have starts : startsWord first = true := by
        simp only [Char.isAlphanum, digit, Bool.or_false, Bool.or_eq_true] at starting
        simp only [startsWord, Bool.or_eq_true]
        exact .inl starting
      refine ⟨.word, IsToken.of_lexeme spelled (opensToken_of_toNat
        (Nat.le_trans (by decide) (toNat_of_startsWord starts)) unmarked)
        fun later delimited => lexeme_word starts restInside delimited, ?_⟩
      rw [Lexeme.name?, Token.name?]
      dsimp only
      split
      · exact .inl rfl
      · exact .inr rfl

/-- A word of capital letters is one token. -/
theorem isToken_word {word : String} (letters : word.toList.all Char.isUpper = true)
    (nonempty : word ≠ "") : IsToken .word word := by
  obtain ⟨first, rest, spelled⟩ : ∃ first rest, word.toList = first :: rest :=
    List.exists_cons_of_ne_nil fun empty => nonempty (String.toList_eq_nil_iff.1 empty)
  have alpha : ∀ c ∈ word.toList, c.isAlpha = true := fun c member =>
    Bool.or_eq_true_iff.2 (.inl (List.all_eq_true.1 letters c member))
  rw [spelled] at alpha
  obtain ⟨firstAlpha, restAlpha⟩ := List.forall_mem_cons.1 alpha
  have starts : startsWord first = true := by simp [startsWord, firstAlpha]
  have unmarked : first ≠ '\uFEFF' := by
    rintro rfl
    exact absurd firstAlpha (by decide)
  exact IsToken.of_lexeme spelled
    (opensToken_of_toNat (Nat.le_trans (by decide) (toNat_of_startsWord starts)) unmarked)
    fun later delimited => lexeme_word starts
      (fun c member => by simp [isWordPart, Char.isAlphanum, restAlpha c member]) delimited

namespace Composed

variable {text later : List Char} {lexemes others : List Lexeme}

/-- A composed text falls into its lexemes with nothing behind it. -/
theorem lexes (composed : Composed text lexemes) : Lexes text lexemes := by
  have nothing : Delimited [] := fun c member => by cases member
  have whole := composed nothing .nil
  rwa [List.append_nil, List.append_nil] at whole

theorem nil : Composed [] [] :=
  fun _ _ _ others => others

/-- Composed texts may be joined where the second one begins like something behind a token. -/
theorem append (delimited : Delimited later) (first : Composed text lexemes)
    (second : Composed later others) : Composed (text ++ later) (lexemes ++ others) := by
  intro rest following restDelimited restLexes
  have behind : Delimited (later ++ rest) := by
    cases later with
    | nil => exact restDelimited
    | cons c later => exact delimited
  rw [List.append_assoc, List.append_assoc]
  exact first behind (second restDelimited restLexes)

/-- A blank in front adds no lexeme. -/
theorem gap {c : Char} (blank : c = ' ' ∨ c = '\n') (composed : Composed text lexemes) :
    Composed (c :: text) lexemes :=
  fun _ _ delimited others => .gap blank (composed delimited others)

/-- A parenthesis or a comma is a token in front of anything. -/
theorem mark {c : Char} {symbol : String} (spelled : symbol.toList = [c])
    (isMark : c ∈ ['(', ')', ',']) (composed : Composed text lexemes) :
    Composed (c :: text) ((.symbol, symbol) :: lexemes) := by
  intro later others delimited following
  have inner := composed delimited following
  have opens : ∀ d ∈ ['(', ')', ','], opensToken d = true :=
    List.forall_iff_forall_mem.1 (by decide)
  have single : lexeme c ([] ++ (text ++ later)) = (.symbol, ([] : List Char).length) := by
    simp only [List.mem_cons, List.not_mem_nil, or_false] at isMark
    rcases isMark with rfl | rfl | rfl <;> rfl
  have whole := Lexes.token (opens c isMark) single inner
  rwa [← spelled, String.ofList_toList, List.nil_append] at whole

/-- Two texts with a blank between them. -/
theorem spaced {c : Char} (blank : c = ' ' ∨ c = '\n') (first : Composed text lexemes)
    (second : Composed later others) : Composed (text ++ c :: later) (lexemes ++ others) := by
  refine append (fun d member => ?_) first (second.gap blank)
  obtain rfl := Option.some.inj member
  rcases blank with rfl | rfl <;> decide

/-- A composed text between parentheses has the two as lexemes of their own. -/
theorem parentheses (composed : Composed text lexemes) :
    Composed ('(' :: text ++ [')']) ((.symbol, "(") :: lexemes ++ [(.symbol, ")")]) := by
  refine mark rfl (by decide) (append ?_ composed (mark rfl (by decide) nil))
  intro c member
  obtain rfl := Option.some.inj member
  decide

end Composed

end SchemaLoom.Database
