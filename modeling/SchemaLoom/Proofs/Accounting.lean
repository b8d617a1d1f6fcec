import Mathlib.Data.List.Perm.Subperm
import SchemaLoom.Proofs.Heads
import SchemaLoom.Proofs.Unmarked

/-!
# No table is lost silently

In a text without quotes and comments the entities and the gaps of unrecognized
blocks account for the heads of tables one to one and in order. What a head opens
holds the heads that stand inside its parentheses: inside those of a table they are
text of its definitions and accounted for with it. Nothing is said here of the heads
behind a parenthesis that is never closed, up to the next semicolon.
-/

namespace SchemaLoom.Ddl

open SchemaLoom.Text

/-- A head that opens a table: its parenthesis is closed before any semicolon. -/
def OpensTable (start name body : List Char) : Prop :=
  ∃ rest, tableHead? start = some (name, body ++ ')' :: rest) ∧
    depthAcross? stopsBody none 0 body = some 0

/-- A text that stays inside the parentheses before it: it holds no semicolon, and closes
only those that it has opened. -/
def StaysInside (text : List Char) : Prop :=
  (depthAcross? stopsBody none 0 text).isSome = true

instance (text : List Char) : Decidable (StaysInside text) :=
  inferInstanceAs (Decidable (_ = _))

/-- A head inside the parentheses that another one opens: between them stands neither
a semicolon nor the closing parenthesis. -/
def Encloses (opener head : List Char) : Prop :=
  ∃ name between, tableHead? opener = some (name, between ++ head) ∧ StaysInside between

/-- What stands before a head inside another one is the part of the body up to it. -/
theorem encloses_iff {opener head name inside : List Char}
    (read : tableHead? opener = some (name, inside)) :
    Encloses opener head ↔
      head <:+ inside ∧ StaysInside (inside.take (inside.length - head.length)) := by
  constructor
  · rintro ⟨other, between, same, crossed⟩
    obtain rfl : inside = between ++ head := by
      rw [read] at same
      exact (Prod.mk.inj (Option.some.inj same)).2
    exact ⟨List.suffix_append .., by simpa using crossed⟩
  · rintro ⟨⟨between, rfl⟩, crossed⟩
    exact ⟨name, between, read, by simpa using crossed⟩

instance (opener head : List Char) : Decidable (Encloses opener head) :=
  match read : tableHead? opener with
  | none => isFalse fun encloses => by
      obtain ⟨name, between, found, -⟩ := encloses
      rw [read] at found
      cases found
  | some (_, _) => decidable_of_iff' _ (encloses_iff read)

/-- What accounts for a head: its table, or a snippet that begins with it where it
opens none. -/
inductive Accounts : List Char -> Block -> Prop where
  | table {start name body : List Char} (opens : OpensTable start name body) :
      Accounts start (.table (nameOf name) body)
  | unrecognized {start shown : List Char} (unreadable : ∀ name body, ¬OpensTable start name body)
      (begins : shown <+: start) (words : (createTable.dropWhole? shown).isSome = true) :
      Accounts start (.unrecognized (snippet shown))

/-- The heads of a text that the blocks of its report account for. -/
structure Accounting (text : List Char) (accounted : List (List Char)) : Prop where
  /-- They are heads of the text, each at most once and in order. -/
  inOrder : accounted.Sublist (heads text)
  /-- Each has its own block. -/
  reported : List.Forall₂ Accounts accounted (blocks text)
  /-- Any other head stands inside the parentheses of one of them. -/
  covered : ∀ head ∈ heads text, head ∈ accounted ∨ ∃ opener ∈ accounted, Encloses opener head
  /-- None stands inside a table. -/
  apart : ∀ opener ∈ accounted, ∀ name body, OpensTable opener name body →
    ∀ head ∈ accounted, ¬Encloses opener head

/-- What opens a table has a head that can be read. -/
theorem tableHead?_isSome_of_opens {start name body : List Char}
    (opens : OpensTable start name body) : (tableHead? start).isSome = true := by
  obtain ⟨rest, read, -⟩ := opens
  rw [read]
  rfl

/-- A head that stands behind another opener is shorter than all that the opener begins. -/
theorem Encloses.length_lt {opener head : List Char} (encloses : Encloses opener head) :
    head.length < opener.length := by
  obtain ⟨name, between, read, -⟩ := encloses
  have shorter := (tableHead?_suffix read).2
  rw [List.length_append] at shorter
  omega

/-- A mark between two texts belongs to no head. -/
theorem heads_append_mark {mark : Char} (other : isWordChar mark = false)
    (solid : isBlank mark = false) (text rest : List Char) :
    heads (text ++ mark :: rest) = (heads text).map (· ++ mark :: rest) ++ heads rest := by
  have bounded : Bounded false text (mark :: rest) := .of_startsInWord other
  rw [heads, createTable_eq, Phrase.occurrences_append (by decide) (by decide) bounded
    (.cons solid rest) (dropWord?_of_other (by decide) other)]
  exact congrArg _ (createTable_cons_other other rest)

/-- The heads behind an opening parenthesis: those inside it, and those that reading
goes on with. -/
theorem Body.Divides.heads {text : List Char} {body : Body} (divides : Divides 0 text body)
    (quoteFree : QuoteFree text) :
    ∃ inside, Ddl.heads text = inside ++ Ddl.heads body.rest ∧
      ∀ head ∈ inside, ∃ between, text = between ++ head ∧ StaysInside between := by
  -- Inside a text that is crossed, whatever stands before a head is crossed too.
  have before (taken later : List Char) (free : QuoteFree taken) (stays : StaysInside taken) :
      ∀ head ∈ (Ddl.heads taken).map (· ++ later),
        ∃ between, taken ++ later = between ++ head ∧ StaysInside between := by
    intro head member
    obtain ⟨start, inTaken, rfl⟩ := List.mem_map.1 member
    obtain ⟨⟨between, rfl⟩, -⟩ := Phrase.of_mem_occurrences inTaken
    refine ⟨between, List.append_assoc .., depthAcross?_of_prefix (fun c inBetween => ?_) stays⟩
    exact free c (List.mem_append_left _ inBetween)
  cases divides with
  | closed body rest crossed =>
      exact ⟨_, heads_append_mark (by decide) (by decide) body rest, before body _
        (fun c member => quoteFree c (List.mem_append_left _ member))
        (by rw [StaysInside, crossed]; rfl)⟩
  | cutOff taken rest crossed =>
      exact ⟨_, heads_append_mark (by decide) (by decide) taken rest, before taken _
        (fun c member => quoteFree c (List.mem_append_left _ member)) crossed⟩
  | ended taken crossed =>
      refine ⟨Ddl.heads text, (List.append_nil _).symm, ?_⟩
      simpa using before text [] quoteFree crossed

/-- A table's own parenthesis ends what stands between it and a head it encloses. -/
theorem Encloses.length_rest_lt {opener head name body rest : List Char}
    (encloses : Encloses opener head) (read : tableHead? opener = some (name, body ++ ')' :: rest))
    (crossed : depthAcross? stopsBody none 0 body = some 0) : rest.length < head.length := by
  obtain ⟨other, between, same, across⟩ := encloses
  have split : body ++ ')' :: rest = between ++ head := by
    rw [read] at same
    exact (Prod.mk.inj (Option.some.inj same)).2
  rcases List.append_eq_append_iff.1 split with ⟨more, rfl, tail⟩ | ⟨more, rfl, rfl⟩
  · cases more with
    | nil =>
        rw [List.nil_append] at tail
        simp [← tail]
    | cons c more =>
        obtain ⟨rfl, -⟩ := List.cons.inj tail
        rw [StaysInside, depthAcross?_append crossed, depthAcross?] at across
        simp at across
  · rw [List.length_append, List.length_cons]
    omega

variable {text : List Char}

/-- Where no head can be read, each leaves a gap. -/
theorem Accounting.of_no_head (absent : findHead? false text = none) :
    Accounting text (heads text) where
  inOrder := List.Sublist.refl _
  reported := by
    rw [blocks_of_no_head absent, unrecognizedHeads, List.forall₂_map_right_iff]
    refine List.forall₂_same.2 fun start member => ?_
    have unread := findHead?_none absent start member
    refine .unrecognized (fun name body opens => ?_) (List.prefix_refl start)
      (Phrase.of_mem_occurrences member).2
    simpa [unread] using tableHead?_isSome_of_opens opens
  covered := fun head member => .inl member
  apart := by
    intro opener member name body opens
    simpa [findHead?_none absent opener member] using tableHead?_isSome_of_opens opens

/-- The block at a head that is read accounts for the head. -/
theorem Head.accounts {head : Head} (read : tableHead? head.start = some (head.name, head.body))
    (quoteFree : QuoteFree head.start) :
    Accounts head.start (head.block (Body.read none 0 head.body)) := by
  have divides := Body.divides_read (quoteFree.of_suffix (tableHead?_suffix read).1) 0
  cases ending : Body.read none 0 head.body with
  | closed body rest =>
      rw [ending] at divides
      generalize inside : head.body = text at read divides
      cases divides with
      | closed _ _ crossed => exact .table ⟨rest, read, crossed⟩
  | unclosed rest =>
      refine .unrecognized (fun name body opens => ?_) (List.prefix_refl _) ?_
      · obtain ⟨later, other, crossed⟩ := opens
        have same : head.body = body ++ ')' :: later := by
          rw [read] at other
          exact (Prod.mk.inj (Option.some.inj other)).2
        rw [same, Body.read_closed crossed] at ending
        cases ending
      · have member : head.start ∈ heads head.start := by
          rw [heads_of_tableHead? quoteFree read]
          exact List.mem_cons_self
        exact (Phrase.of_mem_occurrences member).2

/-- The heads before one that is read leave gaps. -/
theorem Head.Found.skipped_accounted {head : Head} (found : head.Found false text) :
    List.Forall₂ Accounts ((heads head.skipped).map (· ++ head.start))
      (unrecognizedHeads head.skipped) := by
  rw [unrecognizedHeads, List.forall₂_map_left_iff, List.forall₂_map_right_iff]
  refine List.forall₂_same.2 fun start member => ?_
  refine .unrecognized (fun name body opens => ?_) (List.prefix_append ..)
    (Phrase.of_mem_occurrences member).2
  simpa [found.unread start member] using tableHead?_isSome_of_opens opens

/-- A head that is read accounts for itself, and the heads skipped before it for
themselves; then accounting goes on behind its body. -/
theorem Accounting.of_head {head : Head} {later : List (List Char)} (quoteFree : QuoteFree text)
    (found : findHead? false text = some head)
    (accounting : Accounting (Body.read none 0 head.body).rest later) :
    Accounting text ((heads head.skipped).map (· ++ head.start) ++ head.start :: later) := by
  have place := findHead?_found found
  have startFree : QuoteFree head.start := quoteFree.of_suffix ⟨head.skipped, place.text.symm⟩
  have bodySuffix := tableHead?_suffix place.read
  have restSuffix := Body.read_rest_suffix none 0 head.body
  obtain ⟨inside, bodyHeads, enclosed⟩ :=
    (Body.divides_read (startFree.of_suffix bodySuffix.1) 0).heads
      (startFree.of_suffix bodySuffix.1)
  have whole := place.heads_eq quoteFree
  rw [bodyHeads] at whole
  -- Heads are told apart by their length: those of the rest are shorter than the body,
  -- and those up to this head longer.
  have short {start : List Char} (member : start ∈ later) :
      start.length ≤ (Body.read none 0 head.body).rest.length :=
    (Phrase.of_mem_occurrences (accounting.inOrder.subset member)).1.length_le
  have isLater {start : List Char} (lower : start.length < head.start.length)
      (member : start ∈ (heads head.skipped).map (· ++ head.start) ++ head.start :: later) :
      start ∈ later := by
    rcases List.mem_append.1 member with skipped | others
    · obtain ⟨before, -, rfl⟩ := List.mem_map.1 skipped
      rw [List.length_append] at lower
      omega
    · rcases List.mem_cons.1 others with rfl | after
      · exact absurd lower (Nat.lt_irrefl _)
      · exact after
  have restShorter : (Body.read none 0 head.body).rest.length < head.start.length :=
    Nat.lt_of_le_of_lt restSuffix.length_le bodySuffix.2
  constructor
  case inOrder =>
    rw [whole]
    exact (List.Sublist.refl _).append
      ((accounting.inOrder.trans (List.sublist_append_right ..)).cons_cons _)
  case reported =>
    rw [blocks_of_head found]
    exact List.rel_append place.skipped_accounted
      (.cons (head.accounts place.read startFree) accounting.reported)
  case covered =>
    intro start member
    rw [whole] at member
    rcases List.mem_append.1 member with skipped | others
    · exact .inl (List.mem_append_left _ skipped)
    · rcases List.mem_cons.1 others with rfl | after
      · exact .inl (List.mem_append_right _ List.mem_cons_self)
      · rcases List.mem_append.1 after with inBody | behind
        · obtain ⟨between, split, crossed⟩ := enclosed start inBody
          exact .inr ⟨head.start, List.mem_append_right _ List.mem_cons_self, head.name, between,
            split ▸ place.read, crossed⟩
        · rcases accounting.covered start behind with accounted | ⟨opener, known, encloses⟩
          · exact .inl (List.mem_append_right _ (List.mem_cons_of_mem _ accounted))
          · exact .inr ⟨opener, List.mem_append_right _ (List.mem_cons_of_mem _ known), encloses⟩
  case apart =>
    intro opener openerMember name body opens start startMember encloses
    have lower := encloses.length_lt
    rcases List.mem_append.1 openerMember with skipped | others
    · obtain ⟨before, member, rfl⟩ := List.mem_map.1 skipped
      simpa [place.unread before member] using tableHead?_isSome_of_opens opens
    · rcases List.mem_cons.1 others with rfl | after
      · obtain ⟨rest, read, crossed⟩ := opens
        have same : head.body = body ++ ')' :: rest := by
          rw [place.read] at read
          exact (Prod.mk.inj (Option.some.inj read)).2
        have bound := short (isLater lower startMember)
        rw [same, Body.read_closed crossed, Body.rest] at bound
        exact absurd (encloses.length_rest_lt read crossed) (by omega)
      · have openerShort := short after
        exact accounting.apart opener after name body opens start
          (isLater (by omega) startMember) encloses

/-- The heads of a text without quotes are accounted for. -/
theorem exists_accounting (quoteFree : QuoteFree text) :
    ∃ accounted, Accounting text accounted := by
  induction length : text.length using Nat.strongRecOn generalizing text with
  | ind length inductionHypothesis =>
      subst length
      cases found : findHead? false text with
      | none => exact ⟨heads text, .of_no_head found⟩
      | some head =>
          have suffix := Body.read_rest_suffix none 0 head.body
          have shorter : (Body.read none 0 head.body).rest.length < text.length :=
            Nat.lt_of_le_of_lt suffix.length_le (findHead?_body_length found)
          obtain ⟨later, accounting⟩ := inductionHypothesis _ shorter
            (quoteFree.of_suffix (suffix.trans (findHead?_body_suffix found))) rfl
          exact ⟨_, .of_head quoteFree found accounting⟩

/-- Whether a gap stands for a head that opens no table. -/
def Gap.isUnrecognized : Gap -> Bool
  | unrecognizedBlock _ => true
  | malformedForeignKey .. | missingColumnType .. => false

/-- The gaps of definitions stand for no head. -/
theorem Definition.gap?_not_unrecognized {table : String} {item : Definition} {gap : Gap}
    (left : item.gap? table = some gap) : gap.isUnrecognized = false := by
  cases item with
  | malformedForeignKey text =>
      cases left
      rfl
  | untypedColumn text =>
      cases left
      rfl
  | column | foreignKey | key | blank => cases left

/-- Each block gives one entity or one gap of an unrecognized block. -/
theorem Report.count_ofBlocks (found : List Block) :
    (ofBlocks found).schema.entities.length + (ofBlocks found).gaps.countP Gap.isUnrecognized =
      found.length := by
  induction found with
  | nil => rfl
  | cons block found inductionHypothesis =>
      simp only [ofBlocks] at inductionHypothesis ⊢
      rw [List.flatMap_cons, List.countP_append, List.length_cons, ← inductionHypothesis]
      cases block with
      | table name body =>
          have none : (Block.table name body).gaps.countP Gap.isUnrecognized = 0 := by
            rw [List.countP_eq_zero]
            intro gap member
            obtain ⟨item, -, left⟩ := List.mem_filterMap.1 member
            simp [Definition.gap?_not_unrecognized left]
          have entity : (Block.table name body).entity? =
            some (entityOf name (Ddl.definitions name body)) := rfl
          rw [none, List.filterMap_cons_some entity, List.length_cons]
          omega
      | unrecognized snippet =>
          have one : (Block.unrecognized snippet).gaps.countP Gap.isUnrecognized = 1 := rfl
          rw [one, List.filterMap_cons_none rfl]
          omega

/-- No two heads of a text are the same: each goes on to the end of the text. -/
theorem heads_nodup (text : List Char) : (heads text).Nodup := by
  rw [heads]
  generalize false = afterWord
  induction text generalizing afterWord with
  | nil => exact List.nodup_nil
  | cons c text inductionHypothesis =>
      rw [Phrase.occurrences]
      split
      · refine List.nodup_cons.2 ⟨fun member => ?_, inductionHypothesis (isWordChar c)⟩
        have length := (Phrase.of_mem_occurrences member).1.length_le
        rw [List.length_cons] at length
        omega
      · exact inductionHypothesis (isWordChar c)

/-- In a document without quotes and comments every head of a table is accounted for
once, by an entity or by the gap of an unrecognized block, in order; the only other
heads stand inside the parentheses of one of these. Where no head stands inside another
one there are as many heads as entities and such gaps. -/
theorem Report.ofDocument_accounts (document : String) (unmarked : Unmarked document.toList) :
    ofDocument document = ofBlocks (blocks document.toList) ∧
      (∃ accounted, Accounting document.toList accounted ∧
        accounted.length = (ofDocument document).schema.entities.length +
          (ofDocument document).gaps.countP Gap.isUnrecognized) ∧
      ((∀ opener ∈ heads document.toList, ∀ head ∈ heads document.toList,
          ¬Encloses opener head) ->
        (heads document.toList).length = (ofDocument document).schema.entities.length +
          (ofDocument document).gaps.countP Gap.isUnrecognized) := by
  have report : ofDocument document = ofBlocks (blocks document.toList) := by
    rw [ofDocument, unmarked.stripComments_eq]
  obtain ⟨accounted, accounting⟩ := exists_accounting unmarked.quoteFree
  have count : accounted.length = (ofDocument document).schema.entities.length +
      (ofDocument document).gaps.countP Gap.isUnrecognized := by
    rw [accounting.reported.length_eq, report, count_ofBlocks]
  refine ⟨report, ⟨accounted, accounting, count⟩, fun apart => ?_⟩
  have all : heads document.toList ⊆ accounted := by
    intro head member
    rcases accounting.covered head member with known | ⟨opener, known, encloses⟩
    · exact known
    · exact absurd encloses (apart opener (accounting.inOrder.subset known) head member)
  have same : accounted = heads document.toList :=
    accounting.inOrder.eq_of_length_le ((heads_nodup _).subperm all).length_le
  rw [← same, count]

/-- A block without its parenthesis, a head without a body and a table. -/
theorem Report.ofDocument_accounts_broken :
    Unmarked "CREATE TABLE a (b; CREATE TABLE c; CREATE TABLE d (e DATE);".toList ∧
      (heads "CREATE TABLE a (b; CREATE TABLE c; CREATE TABLE d (e DATE);".toList).length =
        (ofDocument
          "CREATE TABLE a (b; CREATE TABLE c; CREATE TABLE d (e DATE);").schema.entities.length +
        (ofDocument
          "CREATE TABLE a (b; CREATE TABLE c; CREATE TABLE d (e DATE);").gaps.countP
            Gap.isUnrecognized :=
  ⟨by decide, (ofDocument_accounts _ (by decide)).2.2 (by decide +kernel)⟩

/-- There can be more heads than entities and gaps: inside a table the words
`create table` are a column `create` of type `table`. -/
theorem Report.not_forall_heads_reported :
    ¬∀ document : String, Unmarked document.toList ->
      (heads document.toList).length = (ofDocument document).schema.entities.length +
        (ofDocument document).gaps.countP Gap.isUnrecognized := by
  intro all
  have column := all "CREATE TABLE a (create table);" (by decide)
  revert column
  decide +kernel

end SchemaLoom.Ddl
