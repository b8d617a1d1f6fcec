import SchemaLoom.Proofs.Cutting
import SchemaLoom.Proofs.Statements

/-!
# Definitions and what stands around them

A definition of a table is read on its own. What stands around it in its table, and
around the table in its document, only decides where its column, its relationship or its
gap appears in the report. Two documents that differ in one definition therefore have the
same report as soon as both definitions are read alike.
-/

namespace SchemaLoom.Ddl

open SchemaLoom.Text

/-- What stands before another text in a text without comments has none either. -/
theorem Uncommented.of_start {quote : Option Char} {text later : List Char}
    (uncommented : Uncommented quote (text ++ later)) : Uncommented quote text := by
  induction text generalizing quote with
  | nil => exact .nil quote
  | cons c text inductionHypothesis =>
      cases quote with
      | some close =>
          have others := inductionHypothesis uncommented.of_quoted_cons
          rw [Uncommented, Mode.ofQuote, replaceComments, Mode.afterQuoted_eq]
          exact congrArg (c :: ·) others
      | none =>
          obtain ⟨ordinary, inside⟩ := uncommented.of_plain_cons
          have noComment : opensComment c text = false := by
            cases text with
            | nil => simp [opensComment]
            | cons d text => exact ordinary
          rw [Uncommented, Mode.ofQuote, replaceComments_plain_cons noComment, Mode.afterPlain_eq]
          exact congrArg (c :: ·) (inductionHypothesis inside)

/-- Separated pieces of a text without comments have none either. -/
theorem Uncommented.of_mem_separated {separator : Char} {pieces : List (List Char)}
    (unquoted : openAfter separator = none)
    (crossed : ∀ piece ∈ pieces, depthAcross? (stopsFragment separator) none 0 piece = some 0)
    (uncommented : Uncommented none (separated separator pieces)) :
    ∀ piece ∈ pieces, Uncommented none piece := by
  induction pieces with
  | nil => simp
  | cons piece pieces inductionHypothesis =>
      obtain ⟨first, others⟩ := List.forall_mem_cons.1 crossed
      cases pieces with
      | nil => exact List.forall_mem_singleton.2 uncommented
      | cons next pieces =>
          rw [separated_cons_cons] at uncommented
          have later := (uncommented.of_append first).of_plain_cons.2
          rw [unquoted] at later
          exact List.forall_mem_cons.2 ⟨uncommented.of_start, inductionHypothesis others later⟩

/-- A scan that goes on at every character. -/
def stopsNever (_depth : Nat) (_c : Char) : Bool :=
  false

/-- A scan that crosses a text does so without stops, however deep it begins. -/
theorem depthAcross?_never {stops : Nat -> Char -> Bool} {depth ending : Nat} {text : List Char}
    (inner : Nat) (crossed : depthAcross? stops none depth text = some ending) :
    depthAcross? stopsNever none (depth + inner) text = some (ending + inner) :=
  depthAcross?_deeper inner (fun _ _ stop => by cases stop) crossed

/-- A text behind which the body of a table begins: reading finds the given blocks before
the table, and the parenthesis of the table is the only one that is open. -/
structure OpensBody (start : List Char) (table : String) (earlier : List Block) : Prop where
  crossed : depthAcross? stopsNever none 0 start = some 1
  blocks_eq : ∀ body rest, depthAcross? stopsBody none 0 body = some 0 ->
    blocks (start ++ (body ++ ')' :: rest)) = earlier ++ .table table body :: blocks rest

/-- Before its last character, the parenthesis, a head is undivided. -/
theorem HeadText.exists_inner {head name : List Char} (written : HeadText head name) :
    ∃ inner, head = inner ++ ['('] ∧ Undivided inner := by
  cases written with
  | @unconditional words space text last _ blanks paired blankSpace _ qualifies blank _ =>
      exact ⟨words ++ (space ++ (text ++ blanks)), by simp, paired.undivided.append
        ((Undivided.of_blanks blankSpace).append (qualifies.undivided.append (.of_blanks blank)))⟩
  | @conditional words space condition first others second text last _ blanks paired blankSpace _
      cased blankFirst _ pairedOthers blankSecond _ qualifies blank =>
      refine ⟨words ++ (space ++ (condition ++ (first ++ (others ++ (second ++ (text ++ blanks)))))),
        by simp, paired.undivided.append ((Undivided.of_blanks blankSpace).append ?_)⟩
      have name : Undivided (second ++ (text ++ blanks)) :=
        (Undivided.of_blanks blankSecond).append (qualifies.undivided.append (.of_blanks blank))
      exact (Spells.of_cased (by decide) cased).undivided.append
        ((Undivided.of_blanks blankFirst).append (pairedOthers.undivided.append name))

/-- A head opens one parenthesis. -/
theorem HeadText.crossed {head name : List Char} (written : HeadText head name) :
    depthAcross? stopsNever none 0 head = some 1 := by
  obtain ⟨inner, rfl, undivided⟩ := written.exists_inner
  exact depthAcross?_append (depthAcross?_never 0 undivided)

/-- What separates statements opens no parenthesis. -/
theorem Separates.crossed {separator : List Char} (separates : Separates separator) :
    depthAcross? stopsNever none 0 separator = some 0 := by
  have other : ∀ c ∈ separator, quoteClose? c = none ∧ c ≠ '(' ∧ c ≠ ')' := by
    intro c member
    rcases separates c member with blank | rfl
    · exact ordinary_of_isBlank blank
    · decide
  exact depthAcross?_ordinary (fun c member => (other c member).1)
    (fun member => (other _ member).2.1 rfl) (fun member => (other _ member).2.2 rfl)
    fun _ _ => rfl

namespace OpensBody

variable {start : List Char} {table : String} {earlier : List Block}

/-- The head of a statement opens its table. -/
theorem of_head {separator head name : List Char} (separates : Separates separator)
    (written : HeadText head name) :
    OpensBody (separator ++ head) (String.ofList name) [] where
  crossed := (depthAcross?_append separates.crossed).trans written.crossed
  blocks_eq body rest crossed := by
    rw [List.append_assoc, blocks_of_table separates written crossed]
    rfl

/-- A table may be opened behind the end of another one. -/
theorem next {body later : List Char} {following : String} {between : List Block}
    (opens : OpensBody start table earlier)
    (crossed : depthAcross? stopsBody none 0 body = some 0)
    (others : OpensBody later following between) :
    OpensBody (start ++ (body ++ ')' :: later)) following
      (earlier ++ .table table body :: between) where
  crossed := by
    have inside : depthAcross? stopsNever none 1 body = some 1 := depthAcross?_never 1 crossed
    rw [depthAcross?_append opens.crossed, depthAcross?_append inside]
    exact others.crossed
  blocks_eq inner rest crossedInner := by
    have text : start ++ (body ++ ')' :: later) ++ (inner ++ ')' :: rest) =
        start ++ (body ++ ')' :: (later ++ (inner ++ ')' :: rest))) := by
      simp
    rw [text, opens.blocks_eq _ _ crossed, others.blocks_eq _ _ crossedInner, List.append_assoc]
    rfl

end OpensBody

/-- What stands around a definition: the document up to the body of its table, the other
definitions of the table, blanks, and the document behind the table. -/
structure Surroundings where
  start : List Char
  table : String
  earlier : List Block
  opens : OpensBody start table earlier
  before : List (List Char)
  undividedBefore : ∀ piece ∈ before, Undivided piece
  left : List Char
  blankLeft : isBlankText left
  right : List Char
  blankRight : isBlankText right
  after : List (List Char)
  undividedAfter : ∀ piece ∈ after, Undivided piece
  rest : List Char

namespace Surroundings

/-- The definitions that pieces between commas are read as. -/
def reading (table : String) (pieces : List (List Char)) : List Definition :=
  ((pieces.map trim).filter fun piece => !piece.isEmpty).map (Definition.read table)

variable (around : Surroundings)

/-- The pieces between the commas of a table with the given definition. -/
def pieces (definition : List Char) : List (List Char) :=
  around.before ++ (around.left ++ (definition ++ around.right)) :: around.after

/-- The body of a table with the given definition. -/
def body (definition : List Char) : List Char :=
  separated ',' (around.pieces definition)

/-- A document with the given definition. -/
def text (definition : List Char) : List Char :=
  around.start ++ (around.body definition ++ ')' :: around.rest)

/-- The definitions before the place. -/
def itemsBefore : List Definition :=
  reading around.table around.before

/-- The definitions behind the place. -/
def itemsAfter : List Definition :=
  reading around.table around.after

/-- The definitions of the table with those in the place. -/
def items (here : List Definition) : List Definition :=
  around.itemsBefore ++ here ++ around.itemsAfter

/-- The entity of the table. -/
def entity (here : List Definition) : Entity :=
  entityOf around.table (around.items here)

/-- The report of a document in which the given definitions stand in the place. -/
def report (here : List Definition) : Report :=
  { schema :=
      { entities := around.earlier.filterMap Block.entity? ++
          around.entity here :: (blocks around.rest).filterMap Block.entity?
        relationships := around.earlier.flatMap Block.relationships ++
          ((around.items here).filterMap Definition.relationship? ++
            (blocks around.rest).flatMap Block.relationships) }
    gaps := around.earlier.flatMap Block.gaps ++
      ((around.items here).filterMap (Definition.gap? around.table) ++
        (blocks around.rest).flatMap Block.gaps) }

/-- The gaps in front of those that the place leaves. -/
def gapsBefore : List Gap :=
  around.earlier.flatMap Block.gaps ++
    around.itemsBefore.filterMap (Definition.gap? around.table)

/-- The gaps behind those that the place leaves. -/
def gapsAfter : List Gap :=
  around.itemsAfter.filterMap (Definition.gap? around.table) ++
    (blocks around.rest).flatMap Block.gaps

/-- The gaps of a report stand in the order of the document. -/
theorem report_gaps (here : List Definition) :
    (around.report here).gaps = around.gapsBefore ++
      (here.filterMap (Definition.gap? around.table) ++ around.gapsAfter) := by
  simp [report, items, gapsBefore, gapsAfter, List.filterMap_append]

/-- A definition that states nothing leaves the schema as it is without the definition. -/
theorem report_schema_of_silent {definition : Definition} (noColumn : definition.attribute? = none)
    (noKey : definition.key? = none) (noReference : definition.relationship? = none) :
    (around.report [definition]).schema = (around.report []).schema := by
  simp [report, entity, entityOf, items, List.filterMap_append, noColumn, noKey, noReference]

section Reading

variable {around} {definition : List Char}

/-- All pieces of the body are undivided if the definition is. -/
theorem undivided_pieces (undivided : Undivided definition) :
    ∀ piece ∈ around.pieces definition, Undivided piece := by
  intro piece member
  rcases List.mem_append.1 member with inBefore | later
  · exact around.undividedBefore piece inBefore
  · rcases List.mem_cons.1 later with rfl | inAfter
    · exact (Undivided.of_blanks around.blankLeft).append
        (undivided.append (.of_blanks around.blankRight))
    · exact around.undividedAfter piece inAfter

/-- The body is crossed up to its closing parenthesis if the definition is undivided. -/
theorem body_crossed (undivided : Undivided definition) :
    depthAcross? stopsBody none 0 (around.body definition) = some 0 :=
  Undivided.separated_body (undivided_pieces undivided)

/-- The body of a table in a document without comments has none. -/
theorem uncommented_body {document : List Char}
    (stripped : stripComments document = around.text definition) :
    Uncommented none (around.body definition) := by
  have whole : Uncommented none (around.text definition) := by
    rw [← stripped]
    exact stripComments_stripComments document
  exact (Uncommented.of_append around.opens.crossed whole).of_start

/-- A definition in a document without comments has none. -/
theorem uncommented_definition {document : List Char} (undivided : Undivided definition)
    (stripped : stripComments document = around.text definition) : Uncommented none definition := by
  have pieces : ∀ piece ∈ around.pieces definition, Uncommented none piece :=
    Uncommented.of_mem_separated rfl
      (fun piece member => (undivided_pieces undivided piece member).fragment)
      (uncommented_body stripped)
  have here : around.left ++ (definition ++ around.right) ∈ around.pieces definition :=
    List.mem_append_right _ List.mem_cons_self
  exact ((pieces _ here).of_append (Undivided.of_blanks around.blankLeft)).of_start

/-- A definition is read on its own. -/
theorem definitions_body (solid : Solid definition) (undivided : Undivided definition)
    (uncommented : Uncommented none (around.body definition)) :
    definitions around.table (around.body definition) =
      around.items [Definition.read around.table definition] := by
  have here : trim (around.left ++ (definition ++ around.right)) = definition :=
    trim_around around.blankLeft solid around.blankRight
  have cut : fragments ',' (around.body definition) =
      ((around.pieces definition).map trim).filter fun piece => !piece.isEmpty :=
    fragments_separated rfl
      (fun piece member => (undivided_pieces undivided piece member).fragment) uncommented
  rw [definitions, cut, pieces, List.map_append, List.map_cons, here, List.filter_append,
    List.filter_cons_of_pos (by simp [solid.nonempty])]
  simp [items, itemsBefore, itemsAfter, reading]

end Reading

end Surroundings

/-- A definition adds to the report of its document what it is read as. -/
theorem Report.ofDocument_surrounded {around : Surroundings} {definition : List Char}
    {document : String} (solid : Solid definition) (undivided : Undivided definition)
    (stripped : stripComments document.toList = around.text definition) :
    ofDocument document = around.report [Definition.read around.table definition] := by
  have read := Surroundings.definitions_body solid undivided
    (Surroundings.uncommented_body stripped)
  have found : blocks (stripComments document.toList) =
      around.earlier ++ .table around.table (around.body definition) :: blocks around.rest := by
    rw [stripped]
    exact around.opens.blocks_eq _ _ (Surroundings.body_crossed undivided)
  simp only [ofDocument, ofBlocks, found, List.filterMap_append, List.flatMap_append,
    List.filterMap_cons, List.flatMap_cons, Block.entity?, Block.relationships, Block.gaps,
    Block.definitions, read]
  rfl

/-- The head of a table `t`. -/
theorem headText_single : HeadText "CREATE TABLE t (".toList ['t'] := by
  have written : HeadText ("CREATE TABLE".toList ++ ([' '] ++ (['t'] ++ ([' '] ++ ['('])))) ['t'] :=
    .unconditional (PairText.spaced (by decide) (by decide)) rfl (by simp)
      (.last (.of_word (by simp) (List.all_eq_true.1 rfl))) rfl
      fun _ => dropWord?_of_not_stands (by decide) (by simp) (by decide) (.of_startsInWord rfl)
  exact written

/-- The place behind a column `a` in a table `t`. -/
def Surroundings.behindColumn : Surroundings where
  start := "CREATE TABLE t (".toList
  table := "t"
  earlier := []
  opens := @OpensBody.of_head [] _ _ (by decide) headText_single
  before := ["a INTEGER".toList]
  undividedBefore := by decide
  left := [' ']
  blankLeft := isBlankText_space
  right := []
  blankRight := isBlankText_nil
  after := []
  undividedAfter := by decide
  rest := []

example : Surroundings.behindColumn.text "b TEXT".toList =
    "CREATE TABLE t (a INTEGER, b TEXT)".toList := by
  decide

end SchemaLoom.Ddl
