import SchemaLoom.Database.Token
import SchemaLoom.Proofs.Bodies
import SchemaLoom.Proofs.Locality

/-!
# Positions in a source

A document is read in passes. Each looks for a statement head from a position in bytes on,
reads the body behind the head, and leaves the position behind what it has read to the next
one. A position must not lie within a character or beyond the end, since the source cannot be
cut there. Every position that the passes come to is one at which it can, each lies behind
the one before, and the passes end.

A head is a word of its own only if no word character stands before it. Behind a body stands a
parenthesis, and behind one that breaks off a semicolon or nothing at all, so that a pass may
take the text in front of it for the whole text.
-/

namespace SchemaLoom.Ddl

open SchemaLoom.Text
open SchemaLoom.Database (byteLength)

/-- Cuts a text at a position in bytes. There is no result beyond the end of the text or
within a character. -/
def splitAt? : Nat -> List Char -> Option (List Char × List Char)
  | 0, text => some ([], text)
  | _ + 1, [] => none
  | position + 1, c :: text =>
      if c.utf8Size ≤ position + 1 then
        (splitAt? (position + 1 - c.utf8Size) text).map fun (before, rest) => (c :: before, rest)
      else none

/-- What has been read of a text of which the given end is left. -/
def consumed (text rest : List Char) : List Char :=
  text.take (text.length - rest.length)

/-- What one pass over a source gives. -/
inductive Pass where
  /-- The source cannot be cut at the position of the pass. -/
  | astray
  /-- No head follows, and these blocks are left. -/
  | last (found : List Block)
  /-- The blocks up to the next position. -/
  | onward (found : List Block) (next : Nat)
  deriving DecidableEq, Repr

/-- The position behind the body of a head that was found in the text in front of a position. -/
def Head.resume (head : Head) (position : Nat) (text : List Char) : Nat :=
  position + byteLength (consumed text head.body) +
    byteLength (consumed head.body (Body.read none 0 head.body).rest)

/-- The pass over a source from a position on. What stands before the position decides whether
a head may begin there. -/
def Pass.from (source : List Char) (position : Nat) : Pass :=
  match splitAt? position source with
  | none => .astray
  | some (before, text) =>
      match findHead? (before.getLast?.any isWordChar) text with
      | none => .last (unrecognizedHeads text)
      | some head =>
          .onward (unrecognizedHeads head.skipped ++ [head.block (Body.read none 0 head.body)])
            (head.resume position text)

/-- The positions that the passes over a source come to. -/
inductive Visits (source : List Char) : Nat -> Prop where
  | start : Visits source 0
  | next {position next : Nat} {found : List Block} (visited : Visits source position)
      (passed : Pass.from source position = .onward found next) : Visits source next

/-- The passes over a source from a position on end, with all of their blocks. -/
inductive Runs (source : List Char) : Nat -> List Block -> Prop where
  | last {position : Nat} {found : List Block}
      (passed : Pass.from source position = .last found) : Runs source position found
  | onward {position next : Nat} {found later : List Block}
      (passed : Pass.from source position = .onward found next)
      (others : Runs source next later) : Runs source position (found ++ later)

section Bytes

variable {text rest : List Char}

@[simp] theorem byteLength_nil : byteLength [] = 0 :=
  rfl

/-- Joined texts take the bytes of both. -/
theorem byteLength_append (text rest : List Char) :
    byteLength (text ++ rest) = byteLength text + byteLength rest := by
  rw [byteLength, String.ofList_append, String.utf8ByteSize_append]
  rfl

/-- The first character takes the bytes of its encoding. -/
theorem byteLength_cons (c : Char) (text : List Char) :
    byteLength (c :: text) = c.utf8Size + byteLength text := by
  rw [← List.singleton_append, byteLength_append]
  simp [byteLength]

/-- Every text but the empty one takes bytes. -/
theorem byteLength_pos (nonempty : text ≠ []) : 0 < byteLength text := by
  cases text with
  | nil => exact absurd rfl nonempty
  | cons c text =>
      rw [byteLength_cons]
      exact Nat.add_pos_left c.utf8Size_pos _

/-- A text is cut behind the bytes of its first part. -/
theorem splitAt?_byteLength (before rest : List Char) :
    splitAt? (byteLength before) (before ++ rest) = some (before, rest) := by
  induction before with
  | nil => rw [byteLength_nil, List.nil_append, splitAt?]
  | cons c before inductionHypothesis =>
      obtain ⟨position, length⟩ :=
        Nat.exists_eq_add_one.2 (byteLength_pos (List.cons_ne_nil c before))
      have size := byteLength_cons c before
      rw [length] at size
      rw [length, List.cons_append, splitAt?, if_pos (by omega),
        show position + 1 - c.utf8Size = byteLength before by omega, inductionHypothesis]
      rfl

/-- What has been read of joined texts up to the second one is the first. -/
theorem consumed_append (text rest : List Char) : consumed (text ++ rest) rest = text := by
  simp [consumed]

/-- What has been read and what is left make up the text. -/
theorem exists_consumed (left : rest <:+ text) :
    text = consumed text rest ++ rest := by
  obtain ⟨before, rfl⟩ := left
  rw [consumed_append]

end Bytes

/-- A position of a source and the text in front of it, to which no word reaches over. -/
structure Resumes (source : List Char) (position : Nat) (text : List Char) : Prop where
  cut : ∃ before, source = before ++ text ∧ byteLength before = position ∧
    (text ≠ [] → before.getLast?.any isWordChar = false)

/-- What is read of a body ends in a mark that is in no word, unless it is all of the text. -/
theorem Body.consumed_read {text : List Char} (more : (read none 0 text).rest ≠ []) :
    ∃ taken mark, consumed text (read none 0 text).rest = taken ++ [mark] ∧
      isWordChar mark = false := by
  have behind (taken : List Char) (mark : Char) (rest : List Char) :
      consumed (taken ++ mark :: rest) rest = taken ++ [mark] := by
    simpa using consumed_append (taken ++ [mark]) rest
  cases found : read none 0 text with
  | closed body rest =>
      obtain ⟨rfl, -⟩ := read_eq_closed_iff.1 found
      exact ⟨body, ')', behind body ')' rest, by decide⟩
  | unclosed rest =>
      rw [found] at more
      rcases stopsAt_of_read found with ⟨before, rfl, -⟩ | ⟨rfl, -⟩
      · exact ⟨before, ';', behind before ';' rest, by decide⟩
      · exact absurd rfl more

section Passing

variable {source text : List Char} {position next : Nat}

/-- Reading starts at the first byte, where no word has begun. -/
theorem Resumes.start (source : List Char) : Resumes source 0 source :=
  ⟨[], rfl, rfl, fun _ => rfl⟩

/-- A pass from a position where no word goes on finds what reading the text in front of it
finds, and what is left of the text is that of a later position. -/
theorem Resumes.pass (resumes : Resumes source position text) :
    (findHead? false text = none ∧
        Pass.from source position = .last (unrecognizedHeads text)) ∨
      ∃ head, findHead? false text = some head ∧
        Pass.from source position =
          .onward (unrecognizedHeads head.skipped ++ [head.block (Body.read none 0 head.body)])
            (head.resume position text) ∧
        position < head.resume position text ∧
        Resumes source (head.resume position text) (Body.read none 0 head.body).rest := by
  obtain ⟨before, rfl, rfl, apart⟩ := resumes.cut
  have cut := splitAt?_byteLength before text
  have flag : findHead? (before.getLast?.any isWordChar) text = findHead? false text := by
    cases text with
    | nil => rfl
    | cons c text => rw [apart (List.cons_ne_nil c text)]
  cases found : findHead? false text with
  | none => exact .inl ⟨rfl, by simp only [Pass.from, cut, flag, found]⟩
  | some head =>
      have whole := exists_consumed (findHead?_body_suffix found)
      have inside := exists_consumed (Body.read_rest_suffix none 0 head.body)
      refine .inr ⟨head, rfl, by simp only [Pass.from, cut, flag, found], ?_, ?_⟩
      · have shorter := findHead?_body_length found
        have read : consumed text head.body ≠ [] := by
          intro nothing
          rw [nothing, List.nil_append] at whole
          exact absurd (congrArg List.length whole) (by omega)
        have positive := byteLength_pos read
        rw [Head.resume]
        omega
      · refine ⟨before ++ consumed text head.body ++
          consumed head.body (Body.read none 0 head.body).rest, ?_, ?_, fun more => ?_⟩
        · rw [List.append_assoc, ← inside, List.append_assoc, ← whole]
        · rw [byteLength_append, byteLength_append, Head.resume]
        · obtain ⟨taken, mark, last, apart⟩ := Body.consumed_read more
          simp [last, apart]

/-- Every position that the passes come to is one where reading may go on. -/
theorem Visits.resumes (visited : Visits source position) :
    ∃ text, Resumes source position text := by
  induction visited with
  | start => exact ⟨source, .start source⟩
  | next _ passed inductionHypothesis =>
      obtain ⟨text, resumes⟩ := inductionHypothesis
      rcases resumes.pass with ⟨-, ends⟩ | ⟨head, -, goesOn, -, others⟩
      · rw [ends] at passed
        cases passed
      · rw [goesOn] at passed
        cases passed
        exact ⟨_, others⟩

/-- The passes from a position on give the blocks of the text in front of it. -/
theorem Resumes.runs (resumes : Resumes source position text) :
    Runs source position (blocks text) := by
  induction length : text.length using Nat.strongRecOn generalizing text position with
  | ind length inductionHypothesis =>
      subst length
      rcases resumes.pass with ⟨absent, passed⟩ | ⟨head, found, passed, -, others⟩
      · rw [blocks_of_no_head absent]
        exact .last passed
      · have shorter := Nat.lt_of_le_of_lt
          (Body.read_rest_suffix none 0 head.body).length_le (findHead?_body_length found)
        rw [blocks_of_head found, ← List.singleton_append, ← List.append_assoc]
        exact .onward passed (inductionHypothesis _ shorter others rfl)

end Passing

/-- Reading takes exactly a body. It finds one exactly if the text goes on with a balanced
text and a parenthesis. There is only one such beginning, what it leaves is what stands behind
the parenthesis, and it takes the bytes of the body and one more. Otherwise reading stops
behind the first semicolon outside quoted runs, or at the end. The count of open parentheses
that it keeps is never lowered below zero.

The passes over a document therefore end, with the blocks that its report is made of. Each
position that they come to lies at the boundary of a character and not beyond the end of the
document without its comments, and each is followed by a greater one. -/
theorem read_exactly_and_positions_increase :
    (∀ text body rest : List Char,
        Body.read none 0 text = .closed body rest ↔ text = body ++ ')' :: rest ∧ Balanced body) ∧
      (∀ body rest other later : List Char, Balanced body → Balanced other →
        body ++ ')' :: rest = other ++ ')' :: later → body = other ∧ rest = later) ∧
      (∀ body rest : List Char, Balanced body →
        let left := (Body.read none 0 (body ++ ')' :: rest)).rest
        trim left = trim rest ∧
          byteLength (consumed (body ++ ')' :: rest) left) = byteLength body + 1) ∧
      (∀ text : List Char, (¬∃ body rest, text = body ++ ')' :: rest ∧ Balanced body) →
        ∃ rest, Body.read none 0 text = .unclosed rest ∧ StopsAt .outermost text rest) ∧
      (∀ text : List Char, Body.readCounted none 1 text = some (Body.read none 0 text)) ∧
      ∀ document : String,
        let source := stripComments document.toList
        (∃ found, Runs source 0 found ∧ Report.ofDocument document = .ofBlocks found) ∧
          ∀ position, Visits source position →
            (∃ before text, source = before ++ text ∧ position = byteLength before) ∧
              Pass.from source position ≠ .astray ∧
              ∀ found next, Pass.from source position = .onward found next → position < next := by
  refine ⟨fun text body rest => Body.read_eq_closed_iff, ?_, ?_, ?_,
    fun text => Body.readCounted_eq none 0 text, ?_⟩
  · intro body rest other later balanced otherBalanced equal
    have first : Body.read none 0 (body ++ ')' :: rest) = .closed body rest :=
      Body.read_eq_closed_iff.2 ⟨rfl, balanced⟩
    have second := Body.read_eq_closed_iff.2 ⟨equal, otherBalanced⟩
    rw [first] at second
    exact Body.closed.inj second
  · intro body rest balanced left
    have left_eq : left = rest := by
      simp only [left, Body.read_eq_closed_iff.2 ⟨rfl, balanced⟩, Body.rest]
    have taken := consumed_append (body ++ [')']) rest
    rw [List.append_assoc, List.singleton_append] at taken
    refine ⟨by rw [left_eq], ?_⟩
    rw [left_eq, taken, byteLength_append]
    rfl
  · intro text absent
    cases found : Body.read none 0 text with
    | closed body rest => exact absurd ⟨body, rest, Body.read_eq_closed_iff.1 found⟩ absent
    | unclosed rest => exact ⟨rest, rfl, Body.stopsAt_of_read found⟩
  · intro document source
    refine ⟨⟨blocks source, (Resumes.start source).runs, rfl⟩, fun position visited => ?_⟩
    obtain ⟨text, resumes⟩ := visited.resumes
    obtain ⟨before, whole, length, -⟩ := resumes.cut
    refine ⟨⟨before, text, whole, length.symm⟩, ?_⟩
    rcases resumes.pass with ⟨-, ends⟩ | ⟨head, -, goesOn, increases, -⟩
    · simp [ends]
    · rw [goesOn]
      refine ⟨by simp, fun found next same => ?_⟩
      cases same
      exact increases

/-- A body with a letter of two bytes and marks within quotes, one that a semicolon breaks off,
and a document of two such tables, of which a comment with a letter of two bytes is gone. -/
theorem read_exactly_and_positions_increase_quoted :
    let body := "x 'é;)' (y)".toList
    let left := (Body.read none 0 (body ++ ')' :: " ; z".toList)).rest
    let broken := "[;] (y; z)".toList
    let source := stripComments "CREATE TABLE \x22ß\x22 (x 'é;)') CREATE TABLE b (y; -- ü".toList
    Balanced body ∧ trim left = "; z".toList ∧
      byteLength (consumed (body ++ ')' :: " ; z".toList) left) = byteLength body + 1 ∧
      (¬∃ inner rest, broken = inner ++ ')' :: rest ∧ Balanced inner) ∧
      (∃ rest, Body.read none 0 broken = .unclosed rest ∧ StopsAt .outermost broken rest) ∧
      Visits source 28 ∧ Pass.from source 28 = .onward [.unrecognized "CREATE TABLE b (y;"] 47 ∧
      (∃ before text, source = before ++ text ∧ 28 = byteLength before) ∧ 28 < 47 := by
  intro body left broken source
  obtain ⟨finds, -, takes, otherwise, -, passes⟩ := read_exactly_and_positions_increase
  have balanced : Balanced body := balanced_iff.2 (by decide)
  have absent : ¬∃ inner rest, broken = inner ++ ')' :: rest ∧ Balanced inner := by
    rintro ⟨inner, rest, parts⟩
    have read := (finds broken inner rest).2 parts
    have stops : Body.read none 0 broken = .unclosed " z)".toList := by decide
    rw [stops] at read
    cases read
  obtain ⟨trimmed, bytes⟩ := takes body " ; z".toList balanced
  have first : Pass.from source 0 = .onward [.table "ß" "x 'é;)'".toList] 28 := by
    decide +kernel
  have second : Pass.from source 28 = .onward [.unrecognized "CREATE TABLE b (y;"] 47 := by
    decide +kernel
  have visited : Visits source 28 := .next .start first
  obtain ⟨boundary, -, increases⟩ := (passes _).2 28 visited
  exact ⟨balanced, trimmed, bytes, absent, otherwise broken absent, visited, second, boundary,
    increases _ _ second⟩

end SchemaLoom.Ddl
