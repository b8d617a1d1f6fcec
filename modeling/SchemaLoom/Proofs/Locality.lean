import Mathlib.Data.List.Forall2
import SchemaLoom.Proofs.Keywords
import SchemaLoom.Proofs.Semicolons

/-!
# Statements are read locally

A semicolon after a text without quotes cuts a document in two: both parts give the
tables, relationships and gaps that they give alone, however broken the first part
is. Only the snippet of a head without a body may show more of the text after the
semicolon.
-/

namespace SchemaLoom.Ddl

open SchemaLoom.Text

/-- What reading a body gives in a text that goes on behind a semicolon. The
semicolon itself ends a body that the text before it leaves open. -/
inductive Body.ReadOn (later : List Char) : Body -> Body -> Prop where
  | closed (body rest : List Char) :
      ReadOn later (.closed body rest) (.closed body (rest ++ ';' :: later))
  | unclosed (rest : List Char) :
      ReadOn later (.unclosed rest) (.unclosed (rest ++ ';' :: later))
  | ended : ReadOn later (.unclosed []) (.unclosed later)

/-- A character in front of a body is in front of it in both readings. -/
theorem Body.ReadOn.cons {later : List Char} {alone joined : Body}
    (same : ReadOn later alone joined) (c : Char) :
    ReadOn later (alone.cons c) (joined.cons c) := by
  cases same with
  | closed body rest => exact .closed (c :: body) rest
  | unclosed rest => exact .unclosed rest
  | ended => exact .ended

/-- A body without quotes is read alike in front of a semicolon, which ends it at the latest. -/
theorem Body.read_append_semicolon (later : List Char) {text : List Char}
    (quoteFree : QuoteFree text) (inner : Nat) :
    ReadOn later (read none inner text) (read none inner (text ++ ';' :: later)) := by
  induction text generalizing inner with
  | nil => exact .ended
  | cons c text inductionHypothesis =>
      have unquoted : openAfter c = none := quoteFree c List.mem_cons_self
      have others := inductionHypothesis (quoteFree.of_suffix (List.suffix_cons c text))
      simp only [List.cons_append, read, unquoted]
      split
      · exact .unclosed text
      · split
        · exact .closed [] text
        · exact (others (depthAfter inner c)).cons c

/-- The first line of a text is a prefix of it. -/
theorem isPrefix_firstLine (text : List Char) : firstLine text <+: text := by
  have line : text.takeWhile (· ≠ '\n') <+: text := List.takeWhile_prefix _
  rw [firstLine]
  split
  · exact (List.dropLast_prefix _).trans line
  · exact line

/-- A text without line breaks is its own first line. -/
theorem firstLine_of_no_break {text : List Char} (oneLine : '\n' ∉ text) :
    firstLine text = text := by
  have line : text.takeWhile (· ≠ '\n') = text := by
    have all : ∀ c ∈ text, decide (c ≠ '\n') = true := by
      intro c member
      simpa using fun same : c = '\n' => oneLine (same ▸ member)
    have whole : (text ++ []).takeWhile (· ≠ '\n') = text ++ [].takeWhile (· ≠ '\n') :=
      List.takeWhile_append_of_pos all
    simpa using whole
  rw [firstLine, line]
  simp

/-- The first line goes up to the line break, without a carriage return in front of it. -/
theorem firstLine_of_break {line : List Char} (oneLine : '\n' ∉ line) (rest : List Char) :
    firstLine (line ++ '\n' :: rest) =
      if line.getLast? == some '\r' then line.dropLast else line := by
  have taken : (line ++ '\n' :: rest).takeWhile (· ≠ '\n') = line := by
    have all : ∀ c ∈ line, decide (c ≠ '\n') = true := by
      intro c member
      simpa using fun same : c = '\n' => oneLine (same ▸ member)
    rw [List.takeWhile_append_of_pos all]
    simp
  rw [firstLine, taken]
  simp

/-- The first line only grows when a text goes on behind a semicolon. -/
theorem firstLine_append_semicolon (text later : List Char) :
    firstLine text <+: firstLine (text ++ ';' :: later) := by
  by_cases broken : '\n' ∈ text
  · obtain ⟨line, rest, rfl, oneLine⟩ := List.eq_append_cons_of_mem broken
    have same : firstLine (line ++ '\n' :: rest ++ ';' :: later) =
        firstLine (line ++ '\n' :: rest) := by
      rw [List.append_assoc, List.cons_append, firstLine_of_break oneLine,
        firstLine_of_break oneLine]
    exact same ▸ List.prefix_refl _
  · rw [firstLine_of_no_break broken]
    by_cases brokenLater : '\n' ∈ later
    · obtain ⟨line, rest, rfl, oneLine⟩ := List.eq_append_cons_of_mem brokenLater
      have whole : '\n' ∉ text ++ ';' :: line := by simp [broken, oneLine]
      have regroup : text ++ ';' :: (line ++ '\n' :: rest) =
          (text ++ ';' :: line) ++ '\n' :: rest := by simp
      rw [regroup, firstLine_of_break whole]
      split
      · rw [List.dropLast_append_of_ne_nil (by simp)]
        exact List.prefix_append ..
      · exact List.prefix_append ..
    · rw [firstLine_of_no_break (by simp [broken, brokenLater])]
      exact List.prefix_append ..

/-- The text of a snippet begins where the text does when that is not blank. -/
theorem snippet_of_startsSolid {text : List Char} (solid : StartsSolid text) :
    (snippet text).toList = trimEnd ((firstLine text).take 80) := by
  have start : StartsSolid ((firstLine text).take 80) :=
    solid.of_prefix ((List.take_prefix 80 _).trans (isPrefix_firstLine text))
  rw [snippet, String.toList_ofList, trim, trimStart_of_startsSolid start]

/-- A snippet only grows when its text goes on behind a semicolon. -/
theorem snippet_append_semicolon {text : List Char} (nonempty : text ≠ [])
    (solid : StartsSolid text) (later : List Char) :
    (snippet text).toList <+: (snippet (text ++ ';' :: later)).toList := by
  rw [snippet_of_startsSolid solid, snippet_of_startsSolid ((startsSolid_append nonempty).2 solid)]
  obtain ⟨rest, whole⟩ := firstLine_append_semicolon text later
  rw [← whole, List.take_append]
  exact isPrefix_trimEnd (List.prefix_append ..)

/-- A gap beside what it becomes when more text follows: the same, or the snippet of
a head without a body, which may show more of that text. -/
inductive Gap.Continues (later : List Char) : Gap -> Gap -> Prop where
  | same (gap : Gap) : Continues later gap gap
  | longer (start more : List Char) (follows : ';' :: more <+: ';' :: later)
      (shown : (snippet start).toList <+: (snippet (start ++ ';' :: more)).toList) :
      Continues later (.unrecognizedBlock (snippet start))
        (.unrecognizedBlock (snippet (start ++ ';' :: more)))

/-- A block beside what it becomes when more text follows. -/
structure Block.Continues (later : List Char) (alone joined : Block) : Prop where
  entity : joined.entity? = alone.entity?
  relationships : joined.relationships = alone.relationships
  gaps : List.Forall₂ (Gap.Continues later) alone.gaps joined.gaps

namespace Block.Continues

variable {later : List Char}

theorem refl (block : Block) : Continues later block block where
  entity := rfl
  relationships := rfl
  gaps := List.forall₂_same.2 fun gap _ => .same gap

/-- A head without a body whose text goes on. -/
theorem unrecognized {start more : List Char} (nonempty : start ≠ [])
    (solid : StartsSolid start) (follows : ';' :: more <+: ';' :: later) :
    Continues later (.unrecognized (snippet start))
      (.unrecognized (snippet (start ++ ';' :: more))) where
  entity := rfl
  relationships := rfl
  gaps := .cons (.longer start more follows (snippet_append_semicolon nonempty solid more)) .nil

end Block.Continues

/-- Lists of blocks beside what they become when more text follows. -/
abbrev Continued (later : List Char) : List Block -> List Block -> Prop :=
  List.Forall₂ (Block.Continues later)

/-- Lists of blocks that go on may be joined. -/
theorem Continued.append {later : List Char} {first second firstJoined secondJoined : List Block}
    (left : Continued later first firstJoined) (right : Continued later second secondJoined) :
    Continued later (first ++ second) (firstJoined ++ secondJoined) :=
  List.rel_append left right

/-- The head of a table begins with a keyword, not with a blank. -/
theorem startsSolid_of_tableHead? {text : List Char} {parts : List Char × List Char}
    (found : tableHead? text = some parts) : text ≠ [] ∧ StartsSolid text := by
  rw [tableHead?] at found
  split at found
  · cases found
  · rename_i rest before
    obtain ⟨middle, words, -⟩ := Option.bind_eq_some_iff.1 before
    exact Phrase.startsSolid_of_drop? rfl (by decide) words

/-- A head that is found begins with a keyword, not with a blank. -/
theorem startsSolid_of_findHead? {afterWord : Bool} {text : List Char} {head : Head}
    (found : findHead? afterWord text = some head) : head.start ≠ [] ∧ StartsSolid head.start := by
  induction text generalizing afterWord head with
  | nil => cases found
  | cons c text inductionHypothesis =>
      rw [findHead?] at found
      split at found
      · rename_i name body here
        cases found
        split at here
        · cases here
        · exact startsSolid_of_tableHead? here
      · obtain ⟨later, inner, rfl⟩ := Option.map_eq_some_iff.1 found
        have result := inductionHypothesis inner
        exact result

/-- An occurrence of the two keywords begins with the first of them. -/
theorem startsSolid_of_mem_occurrences {afterWord : Bool} {text start : List Char}
    (member : start ∈ createTable.occurrences afterWord text) :
    start ≠ [] ∧ StartsSolid start := by
  obtain ⟨rest, found⟩ := Option.isSome_iff_exists.1 (Phrase.of_mem_occurrences member).2
  exact Phrase.startsSolid_of_drop? rfl (by decide) (Option.filter_eq_some_iff.1 found).1

/-- The heads without a statement around a semicolon are those of both parts. -/
theorem unrecognizedHeads_append_semicolon {later more : List Char}
    (follows : ';' :: more <+: ';' :: later) (text : List Char) :
    ∃ joined, unrecognizedHeads (text ++ ';' :: more) = joined ++ unrecognizedHeads more ∧
      Continued later (unrecognizedHeads text) joined := by
  have absent : createTable.dropWhole? (';' :: more) = none := rfl
  refine ⟨(createTable.occurrences false text).map fun start =>
    .unrecognized (snippet (start ++ ';' :: more)), ?_, ?_⟩
  · rw [unrecognizedHeads, Phrase.occurrences_append_mark solid_semicolon other_semicolon
      createTable_lettered absent, List.map_append, List.map_map]
    rfl
  · rw [unrecognizedHeads, Continued, List.forall₂_map_left_iff, List.forall₂_map_right_iff]
    refine List.forall₂_same.2 fun start member => ?_
    obtain ⟨nonempty, solid⟩ := startsSolid_of_mem_occurrences member
    exact .unrecognized nonempty solid follows

/-- The block of a head whose text goes on. -/
theorem Head.block_extend {later : List Char} {head : Head} (nonempty : head.start ≠ [])
    (solid : StartsSolid head.start) {alone joined : Body} (same : Body.ReadOn later alone joined) :
    Block.Continues later (head.block alone) ((head.extend later).block joined) := by
  cases same with
  | closed body rest => exact .refl _
  | unclosed rest => exact .unrecognized nonempty solid (List.prefix_refl _)
  | ended => exact .unrecognized nonempty solid (List.prefix_refl _)

/-- What is skipped in front of a head is the beginning of the text. -/
theorem findHead?_isPrefix_skipped {afterWord : Bool} {text : List Char} {head : Head}
    (found : findHead? afterWord text = some head) : head.skipped <+: text := by
  induction text generalizing afterWord head with
  | nil => cases found
  | cons c text inductionHypothesis =>
      rw [findHead?] at found
      split at found
      · cases found
        exact List.nil_prefix
      · obtain ⟨later, inner, rfl⟩ := Option.map_eq_some_iff.1 found
        exact List.cons_prefix_cons.2 ⟨rfl, inductionHypothesis inner⟩

/-- The body that follows a head is the end of the text. -/
theorem findHead?_body_suffix {afterWord : Bool} {text : List Char} {head : Head}
    (found : findHead? afterWord text = some head) : head.body <:+ text := by
  induction text generalizing afterWord head with
  | nil => cases found
  | cons c text inductionHypothesis =>
      rw [findHead?] at found
      split at found
      · rename_i name body here
        cases found
        split at here
        · cases here
        · exact (tableHead?_suffix here).1
      · obtain ⟨later, inner, rfl⟩ := Option.map_eq_some_iff.1 found
        exact (inductionHypothesis inner).trans (List.suffix_cons c text)

/-- The blocks of a text are the heads that were skipped, the block of the first head with
a body, and those of the rest. -/
theorem blocks_of_head {text : List Char} {head : Head} (found : findHead? false text = some head) :
    blocks text = unrecognizedHeads head.skipped ++
      head.block (Body.read none 0 head.body) :: blocks (Body.read none 0 head.body).rest := by
  rw [blocks]
  split
  · simp_all
  · simp_all

/-- Without a head that has a body there are only heads that are not recognized. -/
theorem blocks_of_no_head {text : List Char} (absent : findHead? false text = none) :
    blocks text = unrecognizedHeads text := by
  rw [blocks]
  split
  · rfl
  · simp_all

/-- A semicolon cuts the blocks of a text without heads off those after it. -/
theorem blocks_append_semicolon_of_no_head (later : List Char) {text : List Char}
    (quoteFree : QuoteFree text) (absent : findHead? false text = none) :
    ∃ joined, blocks (text ++ ';' :: later) = joined ++ blocks later ∧
      Continued later (blocks text) joined := by
  have search := findHead?_append_semicolon later quoteFree false
  rw [absent] at search
  rw [blocks_of_no_head absent]
  cases found : findHead? false later with
  | none =>
      rw [found] at search
      obtain ⟨joined, heads, continued⟩ :=
        unrecognizedHeads_append_semicolon (List.prefix_refl (';' :: later)) text
      exact ⟨joined, by rw [blocks_of_no_head search, heads, blocks_of_no_head found], continued⟩
  | some head =>
      rw [found] at search
      obtain ⟨joined, heads, continued⟩ := unrecognizedHeads_append_semicolon
        (List.cons_prefix_cons.2 ⟨rfl, findHead?_isPrefix_skipped found⟩) text
      refine ⟨joined, ?_, continued⟩
      have skipped : text ++ [';'] ++ head.skipped = text ++ ';' :: head.skipped := by simp
      rw [blocks_of_head search, blocks_of_head found]
      simp only [Head.behind, skipped, heads, List.append_assoc]
      rfl

/-- The blocks after a body are those of what the body leaves before the semicolon,
and those after it. -/
theorem Body.ReadOn.blocks_rest {later : List Char} {alone joined : Body}
    (same : ReadOn later alone joined)
    (tail : ∃ found, blocks (alone.rest ++ ';' :: later) = found ++ blocks later ∧
      Continued later (blocks alone.rest) found) :
    ∃ found, blocks joined.rest = found ++ blocks later ∧
      Continued later (blocks alone.rest) found := by
  cases same with
  | closed body rest => exact tail
  | unclosed rest => exact tail
  | ended =>
      refine ⟨[], rfl, ?_⟩
      rw [Body.rest, blocks_of_no_head rfl]
      exact .nil

/-- A semicolon cuts the blocks of a text in two. -/
theorem blocks_append_semicolon (later : List Char) {text : List Char}
    (quoteFree : QuoteFree text) :
    ∃ joined, blocks (text ++ ';' :: later) = joined ++ blocks later ∧
      Continued later (blocks text) joined := by
  induction length : text.length using Nat.strongRecOn generalizing text with
  | ind length inductionHypothesis =>
      subst length
      cases found : findHead? false text with
      | none => exact blocks_append_semicolon_of_no_head later quoteFree found
      | some head =>
          have search := findHead?_append_semicolon later quoteFree false
          rw [found] at search
          obtain ⟨nonempty, solid⟩ := startsSolid_of_findHead? found
          have bodySuffix := findHead?_body_suffix found
          have same := Body.read_append_semicolon later (quoteFree.of_suffix bodySuffix) 0
          have shorter : (Body.read none 0 head.body).rest.length < text.length :=
            Nat.lt_of_le_of_lt (Body.read_rest_suffix none 0 head.body).length_le
              (findHead?_body_length found)
          have restFree := quoteFree.of_suffix
            ((Body.read_rest_suffix none 0 head.body).trans bodySuffix)
          obtain ⟨joined, tail, continued⟩ :=
            same.blocks_rest (inductionHypothesis _ shorter restFree rfl)
          refine ⟨unrecognizedHeads head.skipped ++
            (head.extend later).block (Body.read none 0 (head.body ++ ';' :: later)) :: joined,
          ?_, ?_⟩
          · rw [blocks_of_head search]
            simp only [Head.extend, tail, List.append_assoc, List.cons_append]
          · rw [blocks_of_head found]
            exact Continued.append (List.forall₂_same.2 fun block _ => .refl block)
              (.cons (head.block_extend nonempty solid same) continued)

namespace Continued

variable {later : List Char} {alone joined : List Block}

/-- The text that follows changes no entity. -/
theorem entities (continued : Continued later alone joined) :
    joined.filterMap Block.entity? = alone.filterMap Block.entity? := by
  induction continued with
  | nil => rfl
  | cons same _ inductionHypothesis =>
      simp only [List.filterMap_cons, same.entity, inductionHypothesis]

/-- The text that follows changes no relationship. -/
theorem relationships (continued : Continued later alone joined) :
    joined.flatMap Block.relationships = alone.flatMap Block.relationships := by
  induction continued with
  | nil => rfl
  | cons same _ inductionHypothesis =>
      simp only [List.flatMap_cons, same.relationships, inductionHypothesis]

/-- Gaps go on like their blocks. -/
theorem gaps (continued : Continued later alone joined) :
    List.Forall₂ (Gap.Continues later) (alone.flatMap Block.gaps) (joined.flatMap Block.gaps) := by
  induction continued with
  | nil => exact .nil
  | cons same _ inductionHypothesis =>
      simp only [List.flatMap_cons]
      exact List.rel_append same.gaps inductionHypothesis

end Continued

/-- A document is read statement by statement. Where a first part has no quotes
outside its comments and ends in none of these, it and whatever follows its final
semicolon give the entities and relationships that they give alone, and their gaps
in order; of the gaps of the first part only the snippets may show more. -/
theorem Report.ofDocument_append_semicolon (first second : String)
    (quoteFree : QuoteFree (stripComments first.toList))
    (closed : (Mode.after .plain first.toList).inComment = false) :
    (ofDocument (first ++ ";" ++ second)).schema =
        (ofDocument first).schema.append (ofDocument second).schema ∧
      ∃ continued, (ofDocument (first ++ ";" ++ second)).gaps =
          continued ++ (ofDocument second).gaps ∧
        List.Forall₂ (Gap.Continues (stripComments second.toList)) (ofDocument first).gaps
          continued := by
  have text : (first ++ ";" ++ second).toList = first.toList ++ ';' :: second.toList := by simp
  obtain ⟨joined, split, continued⟩ :=
    blocks_append_semicolon (stripComments second.toList) quoteFree
  have whole : blocks (stripComments (first ++ ";" ++ second).toList) =
      joined ++ blocks (stripComments second.toList) := by
    rw [text, stripComments_append_semicolon quoteFree closed, split]
  constructor
  · simp only [ofDocument, ofBlocks, Schema.append, whole, List.filterMap_append,
      List.flatMap_append, continued.entities, continued.relationships]
  · refine ⟨joined.flatMap Block.gaps, ?_, continued.gaps⟩
    simp only [ofDocument, ofBlocks, whole, List.flatMap_append]

/-- A table that is never closed, with a quote in its comment, before a table that
is and a quote that is not. -/
theorem Report.ofDocument_append_semicolon_unclosed :
    QuoteFree (stripComments "CREATE TABLE a (id INTEGER -- don't\n".toList) ∧
      (Mode.after .plain "CREATE TABLE a (id INTEGER -- don't\n".toList).inComment = false ∧
      (ofDocument ("CREATE TABLE a (id INTEGER -- don't\n" ++ ";" ++
        "CREATE TABLE b (id DATE); '")).schema =
        (ofDocument "CREATE TABLE a (id INTEGER -- don't\n").schema.append
          (ofDocument "CREATE TABLE b (id DATE); '").schema :=
  ⟨by decide, by decide, (ofDocument_append_semicolon _ _ (by decide) (by decide)).1⟩

end SchemaLoom.Ddl
