import SchemaLoom.Ddl.Word
import SchemaLoom.Proofs.Blanks
import SchemaLoom.Proofs.Comments

/-!
# Scans across nested text

Words, bodies and fragments are read by three scans that keep the same count of open
parentheses and pass over quoted runs in the same way; they differ in where they
stop. A text that a scan crosses without stopping is copied as a whole, and the scan
goes on behind it at the depth that the text has left.
-/

namespace SchemaLoom.Ddl

open SchemaLoom.Text

/-- The depth behind a text that a scan crosses, given the quoted run and the depth it
starts in. There is none where the scan stops within the text, where a parenthesis
closes that none opened, or where a quoted run has no end. -/
def depthAcross? (stops : Nat -> Char -> Bool) : Option Char -> Nat -> List Char -> Option Nat
  | none, depth, [] => some depth
  | some _, _, [] => none
  | some close, depth, c :: rest => depthAcross? stops (stillOpen close c) depth rest
  | none, depth, c :: rest =>
      if stops depth c || (c == ')' && depth == 0) then none
      else depthAcross? stops (openAfter c) (depthAfter depth c) rest

/-- Where a word ends. -/
def stopsWord (depth : Nat) (c : Char) : Bool :=
  isBlank c && depth == 0

/-- Where a body breaks off. -/
def stopsBody (_depth : Nat) (c : Char) : Bool :=
  c == ';'

/-- Where a fragment ends. -/
def stopsFragment (separator : Char) (depth : Nat) (c : Char) : Bool :=
  c == separator && depth == 0

/-- Where a definition could be cut: at a semicolon, or at a comma between definitions. -/
def stopsDefinition (depth : Nat) (c : Char) : Bool :=
  c == ';' || (c == ',' && depth == 0)

/-- Where one of the three scans stops. -/
def stopsAny (depth : Nat) (c : Char) : Bool :=
  stopsDefinition depth c || stopsWord depth c

section Crossing

variable {stops fewer : Nat -> Char -> Bool} {quote : Option Char} {depth ending : Nat}
  {text later : List Char}

/-- A scan goes on behind a text that it has crossed. -/
theorem depthAcross?_append (crossed : depthAcross? stops quote depth text = some ending) :
    depthAcross? stops quote depth (text ++ later) = depthAcross? stops none ending later := by
  fun_induction depthAcross? stops quote depth text with
  | case1 depth =>
      obtain rfl := Option.some.inj crossed
      rfl
  | case2 => cases crossed
  | case3 close depth c rest inductionHypothesis => exact inductionHypothesis crossed
  | case4 => cases crossed
  | case5 depth c rest goesOn inductionHypothesis =>
      rw [List.cons_append, depthAcross?, if_neg goesOn]
      exact inductionHypothesis crossed

/-- Further inside, a scan crosses what it crosses outside, if it does not stop there
more often. -/
theorem depthAcross?_deeper (inner : Nat)
    (fewerStops : ∀ depth c, fewer (depth + inner) c → stops depth c)
    (crossed : depthAcross? stops quote depth text = some ending) :
    depthAcross? fewer quote (depth + inner) text = some (ending + inner) := by
  fun_induction depthAcross? stops quote depth text with
  | case1 depth =>
      obtain rfl := Option.some.inj crossed
      rfl
  | case2 => cases crossed
  | case3 close depth c rest inductionHypothesis => exact inductionHypothesis crossed
  | case4 => cases crossed
  | case5 depth c rest goesOn inductionHypothesis =>
      obtain ⟨noStop, noClose⟩ : stops depth c = false ∧ (c == ')' && depth == 0) = false := by
        simpa using goesOn
      have stillGoesOn : (fewer (depth + inner) c || (c == ')' && depth + inner == 0)) = false := by
        rw [Bool.or_eq_false_iff]
        constructor
        · cases stop : fewer (depth + inner) c with
          | false => rfl
          | true => exact absurd (fewerStops depth c stop) (by simp [noStop])
        · simp only [Bool.and_eq_false_iff, beq_eq_false_iff_ne] at noClose ⊢
          rcases noClose with other | deep
          · exact .inl other
          · exact .inr (by omega)
      have same : depthAfter (depth + inner) c = depthAfter depth c + inner := by
        simp only [Bool.and_eq_false_iff, beq_eq_false_iff_ne] at noClose
        unfold depthAfter
        split
        · omega
        · split
          · simp_all
            omega
          · rfl
      rw [depthAcross?, if_neg (by simp [stillGoesOn]), same]
      exact inductionHypothesis crossed

/-- A scan with fewer stops crosses what one with more does. -/
theorem depthAcross?_fewer (fewerStops : ∀ depth c, fewer depth c → stops depth c)
    (crossed : depthAcross? stops quote depth text = some ending) :
    depthAcross? fewer quote depth text = some ending :=
  depthAcross?_deeper 0 fewerStops crossed

/-- What is no parenthesis leaves the depth as it is. -/
theorem depthAfter_of_ne {c : Char} (noOpening : c ≠ '(') (noClosing : c ≠ ')') (depth : Nat) :
    depthAfter depth c = depth := by
  simp [depthAfter, noOpening, noClosing]

/-- Characters that neither open nor close anything are crossed at their depth. -/
theorem depthAcross?_ordinary (unquoted : QuoteFree text) (noOpening : '(' ∉ text)
    (noClosing : ')' ∉ text) (noStop : ∀ c ∈ text, stops depth c = false) :
    depthAcross? stops none depth text = some depth := by
  induction text with
  | nil => rfl
  | cons c text inductionHypothesis =>
      simp only [List.mem_cons, not_or] at noOpening noClosing
      obtain ⟨here, others⟩ := List.forall_mem_cons.1 noStop
      have opened : openAfter c = none := unquoted c List.mem_cons_self
      rw [depthAcross?, if_neg (by simp [here, Ne.symm noClosing.1]), opened,
        depthAfter_of_ne (Ne.symm noOpening.1) (Ne.symm noClosing.1)]
      exact inductionHypothesis (unquoted.of_suffix (List.suffix_cons c text)) noOpening.2
        noClosing.2 others

/-- Only four characters open quotes. -/
theorem quoteClose?_eq_none {c : Char} (other : c ∉ ['\x27', '\x22', '\x60', '[']) :
    quoteClose? c = none := by
  simp only [List.mem_cons, List.not_mem_nil, or_false, not_or] at other
  simp [quoteClose?, identifierClose?, other]

/-- A blank differs from what is none. -/
theorem ne_of_isBlank {c d : Char} (blank : isBlank c) (other : isBlank d = false) : c ≠ d := by
  rintro rfl
  simp [other] at blank

/-- Blanks neither open a quoted run nor count as parentheses. -/
theorem ordinary_of_isBlank {c : Char} (blank : isBlank c) :
    quoteClose? c = none ∧ c ≠ '(' ∧ c ≠ ')' := by
  refine ⟨quoteClose?_eq_none fun member => ?_, ne_of_isBlank blank (by decide),
    ne_of_isBlank blank (by decide)⟩
  simp only [List.mem_cons, List.not_mem_nil, or_false] at member
  rcases member with rfl | rfl | rfl | rfl <;> exact absurd blank (by decide)

/-- A quoted run is crossed up to its closing quote, whatever stands in it. -/
theorem depthAcross?_inside (close : Char) {content : List Char} (inside : close ∉ content) :
    depthAcross? stops (some close) depth (content ++ [close]) = some depth := by
  induction content with
  | nil => simp [depthAcross?, stillOpen]
  | cons c content inductionHypothesis =>
      simp only [List.mem_cons, not_or] at inside
      simpa [depthAcross?, stillOpen, Ne.symm inside.1] using inductionHypothesis inside.2

/-- A quoted run is crossed whatever it holds. -/
theorem depthAcross?_quoted {opening close : Char} {content : List Char}
    (quotes : quoteClose? opening = some close) (inside : close ∉ content)
    (noStop : stops depth opening = false) (notClosing : opening ≠ ')')
    (notOpening : opening ≠ '(') :
    depthAcross? stops none depth (opening :: content ++ [close]) = some depth := by
  have opened : openAfter opening = some close := quotes
  rw [List.cons_append, depthAcross?, if_neg (by simp [noStop, notClosing]), opened,
    depthAfter_of_ne notOpening notClosing]
  exact depthAcross?_inside close inside

/-- Parentheses around a text that is crossed are crossed. -/
theorem depthAcross?_parentheses
    (crossed : depthAcross? stops none (depth + 1) text = some (depth + 1))
    (noStop : stops depth '(' = false) (noEnd : stops (depth + 1) ')' = false) :
    depthAcross? stops none depth ('(' :: text ++ [')']) = some depth := by
  have opened : openAfter '(' = none := rfl
  have closed : openAfter ')' = none := rfl
  rw [List.cons_append, depthAcross?, if_neg (by simp [noStop]), opened]
  rw [show depthAfter depth '(' = depth + 1 from rfl, depthAcross?_append crossed, depthAcross?,
    if_neg (by simp [noEnd]), closed]
  rfl

end Crossing

/-- A text that stays in one definition: its parentheses and quotes are balanced, and
it has no semicolon and no comma outside of them. -/
def Undivided (text : List Char) : Prop :=
  depthAcross? stopsDefinition none 0 text = some 0

instance (text : List Char) : Decidable (Undivided text) :=
  inferInstanceAs (Decidable (_ = _))

namespace Undivided

variable {text later : List Char}

/-- Two undivided texts make an undivided one. -/
theorem append (first : Undivided text) (second : Undivided later) : Undivided (text ++ later) :=
  (depthAcross?_append first).trans second

/-- Blanks are undivided. -/
theorem of_blanks {blanks : List Char} (blank : isBlankText blanks) : Undivided blanks := by
  rw [isBlankText, List.all_eq_true] at blank
  refine depthAcross?_ordinary (fun c member => (ordinary_of_isBlank (blank c member)).1)
    (fun member => (ordinary_of_isBlank (blank _ member)).2.1 rfl)
    (fun member => (ordinary_of_isBlank (blank _ member)).2.2 rfl) fun c member => ?_
  have noSemicolon : c ≠ ';' := ne_of_isBlank (blank c member) (by decide)
  have noComma : c ≠ ',' := ne_of_isBlank (blank c member) (by decide)
  simp [stopsDefinition, noSemicolon, noComma]

/-- An undivided text is crossed within parentheses, where commas do not stop the scan. -/
theorem inside (undivided : Undivided text) :
    depthAcross? stopsDefinition none 1 text = some 1 := by
  refine depthAcross?_deeper 1 (fun depth c stop => ?_) undivided
  simp only [stopsDefinition, Bool.or_eq_true, Bool.and_eq_true, beq_iff_eq] at stop ⊢
  rcases stop with semicolon | ⟨-, deep⟩
  · exact .inl semicolon
  · omega

/-- Parentheses hold an undivided text together. -/
theorem parentheses (undivided : Undivided text) : Undivided ('(' :: text ++ [')']) :=
  depthAcross?_parentheses undivided.inside rfl rfl

/-- An undivided text may be part of a body. -/
theorem body (undivided : Undivided text) : depthAcross? stopsBody none 0 text = some 0 :=
  depthAcross?_fewer (fun depth c stop => by simp_all [stopsBody, stopsDefinition]) undivided

/-- An undivided text may be part of a fragment. -/
theorem fragment (undivided : Undivided text) :
    depthAcross? (stopsFragment ',') none 0 text = some 0 :=
  depthAcross?_fewer (fun depth c stop => by simp_all [stopsFragment, stopsDefinition]) undivided

end Undivided

/-- A word goes on behind a text that its scan crosses. -/
theorem splitWord_append {quote : Option Char} {depth ending : Nat} {text : List Char}
    (crossed : depthAcross? stopsWord quote depth text = some ending) (later : List Char) :
    splitWord quote depth (text ++ later) =
      (text ++ (splitWord none ending later).1, (splitWord none ending later).2) := by
  fun_induction depthAcross? stopsWord quote depth text with
  | case1 depth =>
      obtain rfl := Option.some.inj crossed
      rfl
  | case2 => cases crossed
  | case3 close depth c rest inductionHypothesis =>
      simp only [List.cons_append, splitWord, inductionHypothesis crossed]
  | case4 => cases crossed
  | case5 depth c rest goesOn inductionHypothesis =>
      obtain ⟨noStop, -⟩ : stopsWord depth c = false ∧ (c == ')' && depth == 0) = false := by
        simpa using goesOn
      simp only [List.cons_append, splitWord, inductionHypothesis crossed]
      rw [if_neg (by simpa [stopsWord] using noStop)]

/-- Puts a text in front of a body. -/
def Body.prepend (text : List Char) (body : Body) : Body :=
  text.foldr Body.cons body

/-- What stands in front of a closed body belongs to it. -/
@[simp] theorem Body.prepend_closed (text body rest : List Char) :
    Body.prepend text (.closed body rest) = .closed (text ++ body) rest := by
  induction text with
  | nil => rfl
  | cons c text inductionHypothesis =>
      rw [prepend, List.foldr_cons]
      rw [prepend] at inductionHypothesis
      rw [inductionHypothesis]
      rfl

/-- A body goes on behind a text that its scan crosses. -/
theorem Body.read_append {quote : Option Char} {depth ending : Nat} {text : List Char}
    (crossed : depthAcross? stopsBody quote depth text = some ending) (later : List Char) :
    read quote depth (text ++ later) = prepend text (read none ending later) := by
  fun_induction depthAcross? stopsBody quote depth text with
  | case1 depth =>
      obtain rfl := Option.some.inj crossed
      rfl
  | case2 => cases crossed
  | case3 close depth c rest inductionHypothesis =>
      simp only [List.cons_append, read, inductionHypothesis crossed, prepend, List.foldr_cons]
  | case4 => cases crossed
  | case5 depth c rest goesOn inductionHypothesis =>
      obtain ⟨noStop, noClose⟩ : stopsBody depth c = false ∧ (c == ')' && depth == 0) = false := by
        simpa using goesOn
      rw [List.cons_append, read, if_neg (by simpa [stopsBody] using noStop),
        if_neg (by simp [noClose]), inductionHypothesis crossed]
      rfl

/-- A body that its scan crosses ends at the parenthesis behind it. -/
theorem Body.read_closed {body : List Char}
    (crossed : depthAcross? stopsBody none 0 body = some 0) (rest : List Char) :
    read none 0 (body ++ ')' :: rest) = .closed body rest := by
  have parenthesis : read none 0 (')' :: rest) = .closed [] rest := by simp [read]
  rw [read_append crossed, parenthesis, prepend_closed, List.append_nil]

/-- How reading a body from the given depth divides a text. -/
inductive Body.Divides (inner : Nat) : List Char -> Body -> Prop where
  | closed (body rest : List Char)
      (crossed : depthAcross? stopsBody none inner body = some 0) :
      Divides inner (body ++ ')' :: rest) (.closed body rest)
  | cutOff (taken rest : List Char)
      (crossed : (depthAcross? stopsBody none inner taken).isSome = true) :
      Divides inner (taken ++ ';' :: rest) (.unclosed rest)
  | ended (taken : List Char)
      (crossed : (depthAcross? stopsBody none inner taken).isSome = true) :
      Divides inner taken (.unclosed [])

/-- A character at which the scan goes on is in front of what the rest is divided into. -/
theorem Body.Divides.cons {inner : Nat} {c : Char} {text : List Char} {body : Body}
    (goesOn : ∀ text, depthAcross? stopsBody none inner (c :: text) =
      depthAcross? stopsBody none (depthAfter inner c) text)
    (divides : Divides (depthAfter inner c) text body) :
    Divides inner (c :: text) (body.cons c) := by
  cases divides with
  | closed body rest crossed => exact .closed (c :: body) rest ((goesOn body).trans crossed)
  | cutOff taken rest crossed => exact .cutOff (c :: taken) rest (by rw [goesOn]; exact crossed)
  | ended taken crossed => exact .ended (c :: text) (by rw [goesOn]; exact crossed)

/-- A text without quotes is divided by its parentheses and semicolons. -/
theorem Body.divides_read {text : List Char} (quoteFree : QuoteFree text) (inner : Nat) :
    Divides inner text (read none inner text) := by
  induction text generalizing inner with
  | nil => exact .ended [] rfl
  | cons c text inductionHypothesis =>
      have unquoted : openAfter c = none := quoteFree c List.mem_cons_self
      have others := inductionHypothesis (quoteFree.of_suffix (List.suffix_cons c text))
      rw [read, unquoted]
      by_cases semicolon : c = ';'
      · subst semicolon
        exact .cutOff [] text rfl
      rw [if_neg (by simpa using semicolon)]
      by_cases closing : c = ')' ∧ inner = 0
      · obtain ⟨rfl, rfl⟩ := closing
        exact .closed [] text rfl
      have ordinary : (c == ')' && inner == 0) = false := by
        simpa using closing
      rw [if_neg (by simp [ordinary])]
      refine .cons (fun text => ?_) (others (depthAfter inner c))
      rw [depthAcross?, unquoted, if_neg (by simp [stopsBody, semicolon, ordinary])]

/-- A scan that crosses a text without quotes crosses every beginning of it. -/
theorem depthAcross?_of_prefix {stops : Nat -> Char -> Bool} {depth : Nat}
    {text later : List Char} (quoteFree : QuoteFree text)
    (crossed : (depthAcross? stops none depth (text ++ later)).isSome = true) :
    (depthAcross? stops none depth text).isSome = true := by
  induction text generalizing depth with
  | nil => rfl
  | cons c text inductionHypothesis =>
      have unquoted : openAfter c = none := quoteFree c List.mem_cons_self
      rw [List.cons_append, depthAcross?, unquoted] at crossed
      rw [depthAcross?, unquoted]
      split at crossed
      · cases crossed
      · rename_i goesOn
        rw [if_neg goesOn]
        exact inductionHypothesis (quoteFree.of_suffix (List.suffix_cons c text)) crossed

end SchemaLoom.Ddl
