import SchemaLoom.Proofs.Cutting

/-!
# Bodies of tables

A body is what stands between the parenthesis of a table and the one that matches it. Its
parentheses pair up outside its quoted runs, every quoted run of it has an end, and no
semicolon stands outside of them. Reading finds such a body exactly where there is one, and
otherwise it stops behind the first semicolon outside quoted runs, or at the end. The count
of open parentheses that it keeps, the table's own among them, is never lowered below zero.
-/

namespace SchemaLoom.Ddl

open SchemaLoom.Text

/-- A text whose parentheses pair up outside its quoted runs. The quoted runs have ends, and
outside of them there is no semicolon. -/
inductive Balanced : List Char -> Prop where
  | nil : Balanced []
  | ordinary {c : Char} {text : List Char} (unquoted : quoteClose? c = none)
      (plain : c ∉ ['(', ')', ';']) (others : Balanced text) : Balanced (c :: text)
  | quoted {opening close : Char} {content text : List Char}
      (quotes : quoteClose? opening = some close) (inside : close ∉ content)
      (others : Balanced text) : Balanced (opening :: content ++ close :: text)
  | parentheses {inner text : List Char} (inside : Balanced inner) (others : Balanced text) :
      Balanced ('(' :: inner ++ ')' :: text)

/-- A text that closes a number of parentheses, with balanced texts around them. -/
def Closes : Nat -> List Char -> Prop
  | 0, text => Balanced text
  | count + 1, text =>
      ∃ inner rest, text = inner ++ ')' :: rest ∧ Balanced inner ∧ Closes count rest

/-- A text with no semicolon outside quoted runs, given the scope that it starts in. -/
def SemicolonFree (scope : Scope) (text : List Char) : Prop :=
  ∀ start, start ++ [';'] <+: text → (start.foldl Scope.past scope).quote ≠ none

section Counting

variable {text : List Char}

/-- What opens a quoted run is neither a parenthesis nor a semicolon. -/
theorem quoteClose?_ne {opening close : Char} (quotes : quoteClose? opening = some close) :
    opening ≠ '(' ∧ opening ≠ ')' ∧ opening ≠ ';' := by
  refine ⟨?_, ?_, ?_⟩ <;> rintro rfl <;> cases quotes

/-- The scan of a body crosses a balanced text. -/
theorem Balanced.crossed (balanced : Balanced text) :
    depthAcross? stopsBody none 0 text = some 0 := by
  have deeper {inner : List Char} (crossed : depthAcross? stopsBody none 0 inner = some 0) :
      depthAcross? stopsBody none 1 inner = some 1 :=
    depthAcross?_deeper 1 (fun _ _ stop => stop) crossed
  induction balanced with
  | nil => rfl
  | @ordinary c text unquoted plain _ inductionHypothesis =>
      simp only [List.mem_cons, List.not_mem_nil, or_false, not_or] at plain
      rw [depthAcross?, if_neg (by simp [stopsBody, plain]), openAfter, unquoted,
        depthAfter_of_ne plain.1 plain.2.1]
      exact inductionHypothesis
  | @quoted opening close content text quotes inside _ inductionHypothesis =>
      have other := quoteClose?_ne quotes
      have run : depthAcross? stopsBody none 0 (opening :: content ++ [close]) = some 0 :=
        depthAcross?_quoted quotes inside (by simp [stopsBody, other]) other.2.1 other.1
      have whole := (depthAcross?_append run).trans inductionHypothesis
      simpa using whole
  | @parentheses inner text _ _ innerHypothesis inductionHypothesis =>
      have pair : depthAcross? stopsBody none 0 ('(' :: inner ++ [')']) = some 0 :=
        depthAcross?_parentheses (deeper innerHypothesis) rfl rfl
      have whole := (depthAcross?_append pair).trans inductionHypothesis
      simpa using whole

/-- What stands in front of a balanced text may stand in front of closing parentheses. -/
theorem Closes.prepend {start : List Char} {count : Nat}
    (balanced : ∀ text, Balanced text → Balanced (start ++ text)) (closes : Closes count text) :
    Closes count (start ++ text) := by
  cases count with
  | zero => exact balanced text closes
  | succ count =>
      obtain ⟨inner, rest, rfl, isBalanced, others⟩ := closes
      exact ⟨start ++ inner, rest, by simp, balanced inner isBalanced, others⟩

/-- A quoted run that a scan leaves has an end. -/
theorem exists_quoteEnd {stops : Nat -> Char -> Bool} {close : Char} {depth ending : Nat}
    (crossed : depthAcross? stops (some close) depth text = some ending) :
    ∃ content rest, text = content ++ close :: rest ∧ close ∉ content ∧
      depthAcross? stops none depth rest = some ending := by
  induction text with
  | nil => cases crossed
  | cons c text inductionHypothesis =>
      rw [depthAcross?] at crossed
      by_cases here : c = close
      · subst here
        simp only [stillOpen, beq_self_eq_true, if_true] at crossed
        exact ⟨[], text, rfl, by simp, crossed⟩
      · simp only [stillOpen, beq_iff_eq, here, if_false] at crossed
        obtain ⟨content, rest, rfl, inside, others⟩ := inductionHypothesis crossed
        exact ⟨c :: content, rest, rfl, by simp [Ne.symm here, inside], others⟩

/-- A scan that comes down to no open parenthesis has closed those that it started with. -/
theorem closes_of_crossed {depth : Nat}
    (crossed : depthAcross? stopsBody none depth text = some 0) : Closes depth text := by
  induction length : text.length using Nat.strongRecOn generalizing text depth with
  | ind length inductionHypothesis =>
      subst length
      cases text with
      | nil =>
          obtain rfl := Option.some.inj crossed
          exact .nil
      | cons c text =>
          rw [depthAcross?] at crossed
          split at crossed
          · cases crossed
          rename_i goesOn
          simp only [stopsBody, Bool.or_eq_true, beq_iff_eq, Bool.and_eq_true, not_or,
            not_and] at goesOn
          obtain ⟨noSemicolon, notLast⟩ := goesOn
          cases quotes : quoteClose? c with
          | some close =>
              have other := quoteClose?_ne quotes
              rw [openAfter, quotes, depthAfter_of_ne other.1 other.2.1] at crossed
              obtain ⟨content, rest, rfl, inside, others⟩ := exists_quoteEnd crossed
              have later := inductionHypothesis rest.length (by simp; omega) others rfl
              have run (text : List Char) (balanced : Balanced text) :
                  Balanced (c :: content ++ [close] ++ text) := by
                simpa using Balanced.quoted quotes inside balanced
              simpa using later.prepend run
          | none =>
              rw [openAfter, quotes] at crossed
              have later := inductionHypothesis text.length (by simp) crossed rfl
              by_cases opening : c = '('
              · subst opening
                obtain ⟨inner, rest, rfl, isBalanced, others⟩ := later
                have pair (text : List Char) (balanced : Balanced text) :
                    Balanced ('(' :: inner ++ [')'] ++ text) := by
                  simpa using isBalanced.parentheses balanced
                simpa using others.prepend pair
              by_cases closing : c = ')'
              · subst closing
                obtain ⟨count, rfl⟩ := Nat.exists_eq_succ_of_ne_zero (notLast rfl)
                exact ⟨[], text, rfl, .nil, later⟩
              · have character (text : List Char) (balanced : Balanced text) :
                    Balanced ([c] ++ text) :=
                  .ordinary quotes (by simp [opening, closing, noSemicolon]) balanced
                rw [depthAfter_of_ne opening closing] at later
                exact later.prepend character

/-- A text is balanced exactly if a scan comes through it with nothing left open. -/
theorem balanced_iff : Balanced text ↔ depthAcross? stopsBody none 0 text = some 0 :=
  ⟨Balanced.crossed, closes_of_crossed⟩

end Counting

namespace Body

variable {text body rest : List Char} {quote : Option Char} {inner : Nat}

/-- A closed body with a character in front is one whose text begins with it. -/
theorem cons_eq_closed_iff {c : Char} {found : Body} :
    found.cons c = .closed body rest ↔ ∃ later, found = .closed later rest ∧ body = c :: later := by
  cases found with
  | closed later following =>
      rw [cons, closed.injEq]
      constructor
      · rintro ⟨rfl, rfl⟩
        exact ⟨later, rfl, rfl⟩
      · rintro ⟨other, equal, rfl⟩
        cases equal
        exact ⟨rfl, rfl⟩
  | unclosed following => simp [cons]

/-- A character in front closes no body. -/
theorem cons_eq_unclosed_iff {c : Char} {found : Body} :
    found.cons c = .unclosed rest ↔ found = .unclosed rest := by
  cases found <;> simp [cons]

/-- What a body that is read says about the text. -/
theorem crossed_of_read (found : read quote inner text = .closed body rest) :
    text = body ++ ')' :: rest ∧ depthAcross? stopsBody quote inner body = some 0 := by
  fun_induction read quote inner text generalizing body with
  | case1 => cases found
  | case2 close inner c text inductionHypothesis =>
      obtain ⟨later, others, rfl⟩ := cons_eq_closed_iff.1 found
      obtain ⟨rfl, crossed⟩ := inductionHypothesis others
      exact ⟨rfl, crossed⟩
  | case3 => cases found
  | case4 inner c text noSemicolon here =>
      obtain ⟨rfl, rfl⟩ : c = ')' ∧ inner = 0 := by simpa using here
      cases found
      exact ⟨rfl, rfl⟩
  | case5 inner c text noSemicolon notHere inductionHypothesis =>
      obtain ⟨later, others, rfl⟩ := cons_eq_closed_iff.1 found
      obtain ⟨rfl, crossed⟩ := inductionHypothesis others
      refine ⟨rfl, ?_⟩
      rw [depthAcross?, if_neg (by simp_all [stopsBody])]
      exact crossed

/-- Reading finds a body exactly if the text goes on with a balanced one and a parenthesis. -/
theorem read_eq_closed_iff :
    read none 0 text = .closed body rest ↔ text = body ++ ')' :: rest ∧ Balanced body := by
  constructor
  · intro found
    obtain ⟨whole, crossed⟩ := crossed_of_read found
    exact ⟨whole, balanced_iff.2 crossed⟩
  · rintro ⟨rfl, balanced⟩
    exact read_closed balanced.crossed rest

end Body

theorem SemicolonFree.nil (scope : Scope) : SemicolonFree scope [] := by
  intro start stands
  simp at stands

/-- A text stays without free semicolons with a character in front, if that is none or quoted. -/
theorem SemicolonFree.cons {scope : Scope} {c : Char} {text : List Char}
    (here : c = ';' → scope.quote ≠ none) (others : SemicolonFree (scope.past c) text) :
    SemicolonFree scope (c :: text) := by
  intro start stands
  cases start with
  | nil =>
      obtain ⟨rest, equal⟩ := stands
      exact here (List.cons.inj equal).1.symm
  | cons d start =>
      obtain ⟨rfl, later⟩ := List.cons_prefix_cons.1 stands
      exact others start later

/-- Where reading stops if it finds no body: behind a semicolon outside quoted runs, before
which there is no other, or at the end. -/
def StopsAt (scope : Scope) (text rest : List Char) : Prop :=
  (∃ before, text = before ++ ';' :: rest ∧ (before.foldl Scope.past scope).quote = none ∧
      SemicolonFree scope before) ∨
    rest = [] ∧ SemicolonFree scope text

/-- Reading stops where it did with a character in front that is no free semicolon. -/
theorem StopsAt.cons {scope : Scope} {c : Char} {text rest : List Char}
    (here : c = ';' → scope.quote ≠ none) (stops : StopsAt (scope.past c) text rest) :
    StopsAt scope (c :: text) rest := by
  rcases stops with ⟨before, rfl, unquoted, free⟩ | ⟨rfl, free⟩
  · exact .inl ⟨c :: before, rfl, unquoted, free.cons here⟩
  · exact .inr ⟨rfl, free.cons here⟩

namespace Body

/-- Reading that finds no body stops at the first semicolon outside of quotes, or at the end. -/
theorem stopsAt_of_read {quote : Option Char} {inner : Nat} {text rest : List Char}
    (broken : read quote inner text = .unclosed rest) :
    StopsAt { quote, depth := inner } text rest := by
  fun_induction read quote inner text with
  | case1 =>
      cases broken
      exact .inr ⟨rfl, .nil _⟩
  | case2 close inner c text inductionHypothesis =>
      exact (inductionHypothesis (cons_eq_unclosed_iff.1 broken)).cons fun _ => by simp
  | case3 inner c text semicolon =>
      obtain rfl : c = ';' := by simpa using semicolon
      cases broken
      exact .inl ⟨[], rfl, rfl, .nil _⟩
  | case4 => cases broken
  | case5 inner c text noSemicolon notHere inductionHypothesis =>
      refine (inductionHypothesis (cons_eq_unclosed_iff.1 broken)).cons fun semicolon => ?_
      exact absurd semicolon (by simpa using noSemicolon)

/-- Reads a body with a count of the open parentheses, its own among them. There is no
result where a count of zero would be lowered. -/
def readCounted : Option Char -> Nat -> List Char -> Option Body
  | _, _, [] => some (unclosed [])
  | some close, count, c :: rest => (readCounted (stillOpen close c) count rest).map (cons c)
  | none, count, c :: rest =>
      if c == ';' then some (unclosed rest)
      else if c == ')' && count == 0 then none
      else if c == ')' && count == 1 then some (closed [] rest)
      else (readCounted (openAfter c) (depthAfter count c) rest).map (cons c)

/-- The count is one more than that of the parentheses inside, so it comes down to zero only
where the body ends. -/
theorem readCounted_eq (quote : Option Char) (inner : Nat) (text : List Char) :
    readCounted quote (inner + 1) text = some (read quote inner text) := by
  induction text generalizing quote inner with
  | nil => cases quote <;> rfl
  | cons c text inductionHypothesis =>
      cases quote with
      | some close => rw [readCounted, read, inductionHypothesis, Option.map_some]
      | none =>
          rw [readCounted, read]
          by_cases semicolon : c = ';'
          · simp [semicolon]
          by_cases last : c = ')' ∧ inner = 0
          · simp [last]
          have counted : depthAfter (inner + 1) c = depthAfter inner c + 1 := by
            rw [depthAfter, depthAfter]
            split
            · rfl
            · split
              · rename_i closing
                have positive : inner ≠ 0 := fun zero => last ⟨by simpa using closing, zero⟩
                omega
              · rfl
          have goesOn : (c == ')' && inner == 0) = false := by simpa using last
          simp [semicolon, goesOn, counted, inductionHypothesis]

end Body

end SchemaLoom.Ddl
