import SchemaLoom.Proofs.Keys
import SchemaLoom.Proofs.Surroundings

/-!
# Constraints anywhere in a table

A constraint on the whole table may stand before, between or behind the columns, and may
be stated more than once. It adds nothing to a report but a key, and keys are applied to
all columns of their table after all of them are known: which keys there are matters, not
where they stand.
-/

namespace SchemaLoom.Ddl

open SchemaLoom.Text

/-- Lists that differ only in where their free items stand and how often. -/
inductive Rearranged {α : Type} (free : α -> Prop) : List α -> List α -> Prop where
  | refl (items : List α) : Rearranged free items items
  | moved {item : α} (isFree : free item) (before between after : List α) :
      Rearranged free (before ++ item :: (between ++ after)) (before ++ (between ++ item :: after))
  | exchanged {first second : α} (firstFree : free first) (secondFree : free second)
      (before between after : List α) :
      Rearranged free (before ++ first :: (between ++ second :: after))
        (before ++ second :: (between ++ first :: after))
  | repeated {item : α} (isFree : free item) (before between after : List α) :
      Rearranged free (before ++ item :: (between ++ after))
        (before ++ item :: (between ++ item :: after))
  | symm {items others : List α} (rearranged : Rearranged free items others) :
      Rearranged free others items
  | trans {items others more : List α} (first : Rearranged free items others)
      (second : Rearranged free others more) : Rearranged free items more

namespace Rearranged

variable {α β : Type} {free : α -> Prop} {items others : List α}

/-- What is rearranged has the same members, however often each is repeated. -/
theorem mem_iff (rearranged : Rearranged free items others) (item : α) :
    item ∈ items ↔ item ∈ others := by
  induction rearranged with
  | refl => rfl
  | moved _ before between after =>
      simp only [List.mem_append, List.mem_cons]
      tauto
  | exchanged _ _ before between after =>
      simp only [List.mem_append, List.mem_cons]
      tauto
  | repeated _ before between after =>
      simp only [List.mem_append, List.mem_cons]
      tauto
  | symm _ inductionHypothesis => exact inductionHypothesis.symm
  | trans _ _ first second => exact first.trans second

/-- What is said by items that are not free is said in the same order. -/
theorem filterMap_eq {said : α -> Option β} (silent : ∀ item, free item → said item = none)
    (rearranged : Rearranged free items others) : items.filterMap said = others.filterMap said := by
  induction rearranged with
  | refl => rfl
  | moved isFree before between after => simp [List.filterMap_append, silent _ isFree]
  | exchanged firstFree secondFree before between after =>
      simp [List.filterMap_append, silent _ firstFree, silent _ secondFree]
  | repeated isFree before between after => simp [List.filterMap_append, silent _ isFree]
  | symm _ inductionHypothesis => exact inductionHypothesis.symm
  | trans _ _ first second => exact first.trans second

end Rearranged

/-- A text that can stand as a definition between commas: it is not blank, stays in one
definition and has no comment. -/
structure StandsAlone (piece : List Char) : Prop where
  nonblank : ¬isBlankText piece
  undivided : Undivided piece
  uncommented : Uncommented none piece

instance (piece : List Char) : Decidable (StandsAlone piece) :=
  decidable_of_iff (¬isBlankText piece ∧ Undivided piece ∧ replaceComments .plain piece = piece)
    ⟨fun all => ⟨all.1, all.2.1, all.2.2⟩,
      fun alone => ⟨alone.nonblank, alone.undivided, alone.uncommented⟩⟩

/-- Whether a definition of a table states a constraint on the whole table. -/
def StatesConstraint (table : String) (piece : List Char) : Prop :=
  ∃ clause, Definition.read table (trim piece) = .key clause

/-- What the definitions of a table say, one by one. -/
def readings (table : String) (pieces : List (List Char)) : List Definition :=
  pieces.map fun piece => Definition.read table (trim piece)

section Documents

variable {text : List Char} {mark : Char}

/-- Behind a text without comments that a scan crosses, a mark keeps comments apart. -/
theorem Uncommented.strips_mark {stops : Nat -> Char -> Bool} {depth ending : Nat}
    (crossed : depthAcross? stops none depth text = some ending)
    (uncommented : Uncommented none text) (ordinary : Ordinary [mark]) (other : mark ≠ '*') :
    Strips (text ++ [mark]) (text ++ [mark]) := by
  obtain ⟨unquoted, noDash, noSlash⟩ := ordinary mark List.mem_cons_self
  intro later
  have behind : Mode.after .plain text = .plain := (Uncommented.settled crossed uncommented).1
  have kept : replaceComments .plain text = text := uncommented
  rw [List.append_assoc, List.singleton_append,
    replaceComments_append_mark (by simp [noDash, noSlash, other]), behind, kept,
    replaceComments_plain_cons (by simp [opensComment, noDash, noSlash]), Mode.afterPlain, unquoted,
    List.append_assoc]
  rfl

/-- No comment begins in a body whose pieces each stand alone. -/
theorem strips_body {pieces : List (List Char)} (alone : ∀ piece ∈ pieces, StandsAlone piece) :
    Strips (separated ',' pieces ++ [')']) (separated ',' pieces ++ [')']) := by
  have marked (piece : List Char) (alone : StandsAlone piece) (mark : Char)
      (ordinary : Ordinary [mark]) (other : mark ≠ '*') :
      Strips (piece ++ [mark]) (piece ++ [mark]) :=
    alone.uncommented.strips_mark alone.undivided ordinary other
  induction pieces with
  | nil => exact .of_ordinary (by decide)
  | cons piece pieces inductionHypothesis =>
      obtain ⟨first, others⟩ := List.forall_mem_cons.1 alone
      cases pieces with
      | nil => exact marked piece first ')' (by decide) (by decide)
      | cons next pieces =>
          have whole := (marked piece first ',' (by decide) (by decide)).append
            (inductionHypothesis others)
          simpa [separated_cons_cons] using whole

/-- A head without comments strips to itself. -/
theorem HeadText.strips {head name : List Char} (written : HeadText head name)
    (uncommented : Uncommented none head) : Strips head head := by
  obtain ⟨inner, rfl, undivided⟩ := written.exists_inner
  exact uncommented.of_start.strips_mark undivided (by decide) (by decide)

/-- Definitions that can stand between commas are read one by one. -/
theorem definitions_separated {pieces : List (List Char)}
    (alone : ∀ piece ∈ pieces, StandsAlone piece) (table : String) :
    definitions table (separated ',' pieces) = readings table pieces := by
  have crossed : ∀ piece ∈ pieces, depthAcross? (stopsFragment ',') none 0 piece = some 0 :=
    fun piece member => (alone piece member).undivided.fragment
  have nonblank : (pieces.map trim).filter (fun piece => !piece.isEmpty) = pieces.map trim := by
    refine List.filter_eq_self.2 fun trimmed member => ?_
    obtain ⟨piece, isPiece, rfl⟩ := List.mem_map.1 member
    simpa [trim_eq_nil_iff] using (alone piece isPiece).nonblank
  rw [definitions, fragments_separated rfl crossed (strips_body alone).uncommented.of_start,
    nonblank, List.map_map]
  rfl

/-- The document of a table statement and what follows it. -/
def documentOf (head : List Char) (pieces : List (List Char)) (rest : List Char) : String :=
  String.ofList (head ++ (separated ',' pieces ++ ')' :: rest))

/-- A document that begins with a table is read as that table and the blocks behind it. -/
theorem Report.ofDocument_documentOf {head name : List Char} {pieces : List (List Char)}
    (written : HeadText head name) (uncommented : Uncommented none head)
    (alone : ∀ piece ∈ pieces, StandsAlone piece) (rest : List Char) :
    ofDocument (documentOf head pieces rest) =
      .ofBlocks (.table (String.ofList name) (separated ',' pieces) ::
        blocks (stripComments rest)) := by
  have stripped : stripComments (head ++ (separated ',' pieces ++ ')' :: rest)) =
      head ++ (separated ',' pieces ++ ')' :: stripComments rest) := by
    have whole := (written.strips uncommented).append (strips_body alone) rest
    simpa [stripComments] using whole
  have crossed := Undivided.separated_body fun piece member => (alone piece member).undivided
  have found := @blocks_of_table [] _ _ _ (by decide) written crossed (stripComments rest)
  rw [ofDocument, documentOf, String.toList_ofList, stripped]
  exact congrArg ofBlocks found

end Documents

section Reports

variable {table : String} {pieces others : List (List Char)}

/-- Constraints say nothing of their own, wherever they stand. -/
theorem filterMap_readings_eq {α : Type} (said : Definition -> Option α)
    (silent : ∀ clause, said (.key clause) = none)
    (rearranged : Rearranged (StatesConstraint table) pieces others) :
    (readings table pieces).filterMap said = (readings table others).filterMap said := by
  simp only [readings, List.filterMap_map]
  refine rearranged.filterMap_eq fun piece states => ?_
  obtain ⟨clause, read⟩ := states
  rw [Function.comp_apply, read, silent]

/-- Rearranged definitions make the same entity. -/
theorem entityOf_rearranged (rearranged : Rearranged (StatesConstraint table) pieces others) :
    entityOf table (readings table pieces) = entityOf table (readings table others) := by
  have columns := filterMap_readings_eq Definition.attribute? (fun _ => rfl) rearranged
  have keys (key : TableKey) :
      key ∈ (readings table pieces).filterMap Definition.key? ↔
        key ∈ (readings table others).filterMap Definition.key? := by
    simp only [readings, List.filterMap_map, List.mem_filterMap, rearranged.mem_iff]
  rw [entityOf_eq, entityOf_eq, columns]
  refine congrArg (Entity.mk table) (List.map_congr_left fun declared _ => ?_)
  exact flagged_congr keys declared

end Reports

/-- A constraint may be moved, exchanged with another one and repeated: the report stays
as it is. -/
theorem Report.ofDocument_rearranged {head name : List Char} {pieces others : List (List Char)}
    (written : HeadText head name) (uncommented : Uncommented none head)
    (alone : ∀ piece ∈ pieces, StandsAlone piece)
    (rearranged : Rearranged (StatesConstraint (String.ofList name)) pieces others)
    (rest : List Char) :
    ofDocument (documentOf head pieces rest) = ofDocument (documentOf head others rest) := by
  have othersAlone : ∀ piece ∈ others, StandsAlone piece :=
    fun piece member => alone piece ((rearranged.mem_iff piece).2 member)
  rw [ofDocument_documentOf written uncommented alone,
    ofDocument_documentOf written uncommented othersAlone]
  simp only [ofBlocks, List.filterMap_cons, List.flatMap_cons, Block.entity?, Block.relationships,
    Block.gaps, Block.definitions, definitions_separated alone, definitions_separated othersAlone,
    entityOf_rearranged rearranged,
    filterMap_readings_eq Definition.relationship? (fun _ => rfl) rearranged,
    filterMap_readings_eq (Definition.gap? (String.ofList name)) (fun _ => rfl) rearranged]

/-- A unique key before all columns and a primary key between them change places; then the
unique key is moved behind the last column and stated twice. -/
theorem ofDocument_rearranged_single :
    let head := "CREATE TABLE t (".toList
    let pieces := ["UNIQUE (A)".toList, " a INTEGER".toList, " PRIMARY KEY (b, a)".toList,
      " b TEXT".toList]
    let others := [" PRIMARY KEY (b, a)".toList, " a INTEGER".toList, " b TEXT".toList,
      "UNIQUE (A)".toList, "UNIQUE (A)".toList]
    HeadText head ['t'] ∧ Uncommented none head ∧ (∀ piece ∈ pieces, StandsAlone piece) ∧
      Rearranged (StatesConstraint "t") pieces others ∧
      Report.ofDocument (documentOf head pieces ";".toList) =
        Report.ofDocument
          "CREATE TABLE t ( PRIMARY KEY (b, a), a INTEGER, b TEXT,UNIQUE (A),UNIQUE (A));" := by
  intro head pieces others
  have uncommented : Uncommented none head := rfl
  have alone : ∀ piece ∈ pieces, StandsAlone piece := by decide
  have unique : StatesConstraint "t" "UNIQUE (A)".toList := ⟨.unique ["A"], by decide⟩
  have primary : StatesConstraint "t" " PRIMARY KEY (b, a)".toList :=
    ⟨.primary ["b", "a"], by decide⟩
  have exchanged := Rearranged.exchanged unique primary [] [" a INTEGER".toList] [" b TEXT".toList]
  have moved := Rearranged.moved unique [" PRIMARY KEY (b, a)".toList, " a INTEGER".toList]
    [" b TEXT".toList] []
  have repeated := Rearranged.repeated unique
    [" PRIMARY KEY (b, a)".toList, " a INTEGER".toList, " b TEXT".toList] [] []
  have rearranged : Rearranged (StatesConstraint "t") pieces others :=
    exchanged.trans (moved.trans repeated)
  exact ⟨headText_single, uncommented, alone, rearranged,
    Report.ofDocument_rearranged headText_single uncommented alone rearranged ";".toList⟩

end SchemaLoom.Ddl
