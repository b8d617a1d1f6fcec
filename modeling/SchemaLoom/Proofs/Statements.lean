import SchemaLoom.Proofs.Definitions
import SchemaLoom.Proofs.Locality

/-!
# Reading statements

Blanks and semicolons between statements are passed over. A statement head is read
with or without its condition, and the body behind it up to its closing parenthesis;
then reading starts afresh.
-/

namespace SchemaLoom.Ddl

open SchemaLoom.Text

/-- The ways to write the head of a table statement up to its opening parenthesis. -/
inductive HeadText : List Char -> List Char -> Prop where
  | unconditional {words space text last name blanks : List Char}
      (paired : PairText "CREATE" "TABLE" words) (blankSpace : isBlankText space)
      (nonempty : space ≠ []) (qualifies : Qualifies text last name)
      (blank : isBlankText blanks)
      (noCondition : ∀ rest, dropWord? "IF".toList (text ++ (blanks ++ '(' :: rest)) = none) :
      HeadText (words ++ (space ++ (text ++ (blanks ++ ['('])))) name
  | conditional {words space condition first others second text last name blanks : List Char}
      (paired : PairText "CREATE" "TABLE" words) (blankSpace : isBlankText space)
      (nonempty : space ≠ []) (cased : asciiUpper condition = "IF".toList)
      (blankFirst : isBlankText first) (firstNonempty : first ≠ [])
      (pairedOthers : PairText "NOT" "EXISTS" others) (blankSecond : isBlankText second)
      (secondNonempty : second ≠ []) (qualifies : Qualifies text last name)
      (blank : isBlankText blanks) :
      HeadText (words ++ (space ++ (condition ++ (first ++ (others ++ (second ++
        (text ++ (blanks ++ ['(']))))))))  name

/-- A qualified name in front of a parenthesis is the name of a table. -/
theorem nameAndBody?_eq {text last name blanks : List Char} (qualifies : Qualifies text last name)
    (blank : isBlankText blanks) (rest : List Char) :
    nameAndBody? (text ++ (blanks ++ '(' :: rest)) = some (last, rest) := by
  have opening : StartsSolid ('(' :: rest) := .cons (by decide) _
  rw [nameAndBody?, qualifies.qualified?_eq blank]
  simp only [trimStart_blanks blank opening]

/-- Two keywords do not begin with a blank. -/
theorem PairText.startsSolid {first second : String} {text : List Char}
    (paired : PairText first second text) (rest : List Char) : StartsSolid (text ++ rest) := by
  obtain ⟨word, -, cased, -, -, -⟩ := paired
  obtain ⟨nonempty, ascii⟩ := isAsciiWord_of_cased word cased
  rw [List.append_assoc]
  exact (startsSolid_append nonempty).2 (Spells.of_word nonempty ascii).solid.first

/-- The condition is the word `IF` and two more words behind blanks. -/
theorem ifNotExists_drop? (text : List Char) :
    ifNotExists.drop? text = ((dropKeyword? "IF".toList text).bind dropBlanks?).bind
      (Phrase.ofWords ["NOT", "EXISTS"]).drop? :=
  Phrase.drop?_cons_cons ..

/-- A statement head is read up to its opening parenthesis. -/
theorem HeadText.tableHead?_eq {text name : List Char} (head : HeadText text name)
    (rest : List Char) :
    ∃ written, tableHead? (text ++ rest) = some (written, rest) ∧
      nameOf written = String.ofList name := by
  cases head with
  | @unconditional words space text last _ blanks paired blankSpace nonempty qualifies blank
      noCondition =>
      have words := paired.drop?_eq (space ++ (text ++ (blanks ++ '(' :: rest)))
      have spaces := dropBlanks?_blanks blankSpace nonempty
        (qualifies.startsSolid (blanks ++ '(' :: rest))
      have condition : ifNotExists.drop? (text ++ (blanks ++ '(' :: rest)) = none := by
        rw [ifNotExists_drop?, keywordAndBlanks_of_dropWord? (noCondition rest)]
        rfl
      refine ⟨last, ?_, qualifies.spells.nameOf_eq⟩
      simp only [List.append_assoc, List.cons_append, List.nil_append]
      rw [tableHead?, createTable, words, Option.bind_some, spaces]
      simp only [condition, Option.bind_none, nameAndBody?_eq qualifies blank]
  | @conditional words space condition first others second text last _ blanks paired blankSpace
      nonempty cased blankFirst firstNonempty pairedOthers blankSecond secondNonempty qualifies
      blank =>
      have name := nameAndBody?_eq qualifies blank rest
      have words := paired.drop?_eq (space ++ (condition ++ (first ++ (others ++
        (second ++ (text ++ (blanks ++ '(' :: rest)))))))
      have conditionSolid : StartsSolid (condition ++ (first ++ (others ++
          (second ++ (text ++ (blanks ++ '(' :: rest)))))) := by
        obtain ⟨letters, ascii⟩ := isAsciiWord_of_cased (by decide) cased
        exact (startsSolid_append letters).2 (Spells.of_word letters ascii).solid.first
      have spaces := dropBlanks?_blanks blankSpace nonempty conditionSolid
      have opening := keywordAndBlanks_append cased blankFirst firstNonempty
        (pairedOthers.startsSolid (second ++ (text ++ (blanks ++ '(' :: rest))))
      have tail := pairedOthers.drop?_eq (second ++ (text ++ (blanks ++ '(' :: rest)))
      have spacesAfter := dropBlanks?_blanks blankSecond secondNonempty
        (qualifies.startsSolid (blanks ++ '(' :: rest))
      have read : (ifNotExists.drop? (condition ++ (first ++ (others ++
          (second ++ (text ++ (blanks ++ '(' :: rest))))))).bind dropBlanks? =
            some (text ++ (blanks ++ '(' :: rest)) := by
        rw [ifNotExists_drop?, opening, Option.bind_some, tail, Option.bind_some, spacesAfter]
      refine ⟨last, ?_, qualifies.spells.nameOf_eq⟩
      simp only [List.append_assoc, List.cons_append, List.nil_append]
      rw [tableHead?, createTable, words, Option.bind_some, spaces]
      simp only [read, Option.bind_some, name]

/-- Blanks and semicolons, which separate statements. -/
def Separates (text : List Char) : Prop :=
  ∀ c ∈ text, isBlank c = true ∨ c = ';'

instance (text : List Char) : Decidable (Separates text) :=
  List.decidableBAll (fun c => isBlank c = true ∨ c = ';') text

/-- What separates statements is part of no word. -/
theorem Separates.other {c : Char} (separates : isBlank c = true ∨ c = ';') :
    isWordChar c = false := by
  rcases separates with blank | rfl
  · exact isWordChar_of_isBlank blank
  · decide

/-- No head begins with what is no word character. -/
theorem tableHead?_of_other {c : Char} {rest : List Char} (other : isWordChar c = false) :
    tableHead? (c :: rest) = none := by
  have absent : dropWord? "CREATE".toList (c :: rest) = none :=
    dropWord?_of_other (by decide) other
  have noPhrase : createTable.drop? (c :: rest) = none := by
    rw [createTable, Phrase.ofWords, List.map_cons, List.map_cons, Phrase.drop?_cons_cons,
      keywordAndBlanks_of_dropWord? absent]
    rfl
  rw [tableHead?, noPhrase]
  rfl

/-- A text that begins with a head is not empty. -/
theorem HeadText.nonempty {text name : List Char} (head : HeadText text name) (rest : List Char) :
    text ++ rest ≠ [] := by
  cases head <;> simp

/-- A statement head is found behind what separates it from the statement before. -/
theorem findHead?_eq {separator head name : List Char} (separates : Separates separator)
    (written : HeadText head name) (rest : List Char) :
    ∃ found, findHead? false (separator ++ (head ++ rest)) = some found ∧
      found.skipped = separator ∧ found.body = rest ∧ nameOf found.name = String.ofList name := by
  induction separator with
  | nil =>
      obtain ⟨last, read, named⟩ := written.tableHead?_eq rest
      rw [List.nil_append]
      cases whole : head ++ rest with
      | nil => exact absurd whole (written.nonempty rest)
      | cons c later =>
          rw [whole] at read
          refine ⟨{ skipped := [], start := c :: later, name := last, body := rest }, ?_, rfl, rfl,
            named⟩
          simp [findHead?, read]
  | cons c separator inductionHypothesis =>
      obtain ⟨first, others⟩ := List.forall_mem_cons.1 separates
      obtain ⟨found, search, skipped, body, named⟩ := inductionHypothesis others
      refine ⟨{ found with skipped := c :: found.skipped }, ?_, by rw [skipped], body, named⟩
      rw [List.cons_append, findHead?]
      simp [tableHead?_of_other (Separates.other first), Separates.other first, search]

/-- Between statements there is no head. -/
theorem unrecognizedHeads_eq_nil {separator : List Char} (separates : Separates separator) :
    unrecognizedHeads separator = [] := by
  have absent : Phrase.stands "CREATE".toList false separator = false := by
    induction separator with
    | nil => rfl
    | cons c separator inductionHypothesis =>
        obtain ⟨first, others⟩ := List.forall_mem_cons.1 separates
        rw [Phrase.stands_cons_other (by decide) (Separates.other first)]
        exact inductionHypothesis others
  rw [unrecognizedHeads, createTable, Phrase.ofWords, List.map_cons,
    Phrase.occurrences_of_not_stands absent, List.map_nil]

/-- Between statements there are no blocks. -/
theorem blocks_of_separates {separator : List Char} (separates : Separates separator) :
    blocks separator = [] := by
  have absent : findHead? false separator = none := by
    induction separator with
    | nil => rfl
    | cons c separator inductionHypothesis =>
        obtain ⟨first, others⟩ := List.forall_mem_cons.1 separates
        rw [findHead?]
        simp [tableHead?_of_other (Separates.other first), Separates.other first,
          inductionHypothesis others]
  rw [blocks_of_no_head absent, unrecognizedHeads_eq_nil separates]

/-- A statement gives the block of its table. -/
theorem blocks_of_table {separator head name body : List Char} (separates : Separates separator)
    (written : HeadText head name)
    (crossed : depthAcross? stopsBody none 0 body = some 0) (rest : List Char) :
    blocks (separator ++ (head ++ (body ++ ')' :: rest))) =
      .table (String.ofList name) body :: blocks rest := by
  obtain ⟨found, search, skipped, after, named⟩ :=
    findHead?_eq separates written (body ++ ')' :: rest)
  rw [blocks_of_head search, skipped, after, Body.read_closed crossed,
    unrecognizedHeads_eq_nil separates, List.nil_append, Head.block, named, Body.rest]

/-- What a block gives to the report of its document. -/
structure Block.Gives (block : Block) (entity : Entity) (relationships : List Relationship) :
    Prop where
  entity : block.entity? = some entity
  relationships : block.relationships = relationships
  gaps : block.gaps = []

/-- A table gives what its definitions say, if none of them leaves a gap. -/
theorem Block.gives_of_definitions {name : String} {body : List Char} {items : List Definition}
    (read : Ddl.definitions name body = items)
    (noGap : ∀ item ∈ items, item.gap? name = none) :
    (Block.table name body).Gives (entityOf name items)
      (items.filterMap Definition.relationship?) where
  entity := by rw [Block.entity?, Block.definitions, read]
  relationships := by rw [Block.relationships, Block.definitions, read]
  gaps := by
    rw [Block.gaps, Block.definitions, read, List.filterMap_eq_nil_iff]
    exact noGap

/-- The report of blocks that each give a table. -/
theorem Report.ofBlocks_map {α : Type} {items : List α} {block : α -> Block}
    {entity : α -> Entity} {relationships : α -> List Relationship}
    (gives : ∀ item ∈ items, (block item).Gives (entity item) (relationships item)) :
    ofBlocks (items.map block) =
      { schema := { entities := items.map entity, relationships := items.flatMap relationships }
        gaps := [] } := by
  have entities : (items.map block).filterMap Block.entity? = items.map entity := by
    rw [List.filterMap_map, ← List.filterMap_eq_map]
    exact List.filterMap_congr fun item member => (gives item member).entity
  have found : (items.map block).flatMap Block.relationships = items.flatMap relationships := by
    rw [List.flatMap_map]
    exact List.flatMap_congr fun item member => (gives item member).relationships
  have gaps : (items.map block).flatMap Block.gaps = [] := by
    rw [List.flatMap_map, List.flatMap_eq_nil_iff]
    exact fun item member => (gives item member).gaps
  rw [ofBlocks, entities, found, gaps]

end SchemaLoom.Ddl
