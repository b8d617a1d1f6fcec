import Mathlib.Data.List.Forall2
import SchemaLoom.Proofs.Definitions
import SchemaLoom.Proofs.Keys
import SchemaLoom.Proofs.Words

/-!
# Shares of definitions

Each definition of a table adds one thing to what is reported of the table: a column and
what it refers to, a foreign key, a gap, or a constraint on the whole table. Nothing else
is reported, and no definition is passed over, since each has a word behind the name of its
constraint. What they add stands in the report in the order of the definitions; only the
keys among the constraints reach over to other definitions, of whose columns they set flags.
-/

namespace SchemaLoom.Ddl

open SchemaLoom.Text

/-- What one definition adds to the report of its table. -/
structure Share where
  columns : List Attribute := []
  relationships : List Relationship := []
  gaps : List Gap := []
  constraints : List TableKey := []

namespace Share

/-- The relationships that come without a column. -/
def foreignKeys (share : Share) : List Relationship :=
  if share.columns.isEmpty then share.relationships else []

/-- The number of things in a share. A relationship that a column declares is part of the
column. -/
def size (share : Share) : Nat :=
  share.columns.length + share.gaps.length + share.foreignKeys.length + share.constraints.length

end Share

/-- The ways in which a definition, its constraint name taken off, adds to the report of a
table. -/
inductive Adds (table : String) (definition : List Char) : Share -> Prop where
  | column {name afterName type clauses : List Char} {declared : Attribute}
      {reference : Option Relationship}
      (noForeignKey : foreignKeyPhrase.dropWhole? definition = none)
      (noConstraint : tableKey? definition = none)
      (named : readWord? definition = some (name, afterName))
      (typed : readType? afterName = some (type, clauses))
      (ordinary : isClauseKeyword type = false)
      (described : columnDefinition table (nameOf name) type (trim clauses) =
        .column declared reference) :
      Adds table definition { columns := [declared], relationships := reference.toList }
  | untypedColumn {name afterName : List Char}
      (noForeignKey : foreignKeyPhrase.dropWhole? definition = none)
      (noConstraint : tableKey? definition = none)
      (named : readWord? definition = some (name, afterName))
      (untyped : ∀ type clauses, readType? afterName = some (type, clauses) →
        isClauseKeyword type = true) :
      Adds table definition { gaps := [.missingColumnType table (String.ofList definition)] }
  | foreignKey {rest : List Char} {relationship : Relationship}
      (opens : foreignKeyPhrase.dropWhole? definition = some rest)
      (wellFormed : foreignKey? table rest = some relationship) :
      Adds table definition { relationships := [relationship] }
  | malformedForeignKey {rest : List Char}
      (opens : foreignKeyPhrase.dropWhole? definition = some rest)
      (malformed : foreignKey? table rest = none) :
      Adds table definition { gaps := [.malformedForeignKey table (String.ofList definition)] }
  | constraint {clause : TableKey}
      (noForeignKey : foreignKeyPhrase.dropWhole? definition = none)
      (states : tableKey? definition = some clause) :
      Adds table definition { constraints := [clause] }

/-- What a definition that was read adds to the report of its table. -/
def Definition.share (table : String) (item : Definition) : Share where
  columns := item.attribute?.toList
  relationships := item.relationship?.toList
  gaps := (item.gap? table).toList
  constraints := item.key?.toList

section Sharing

variable {table : String} {written definition : List Char} {share : Share}

/-- Whatever a definition adds is one thing. -/
theorem Adds.size_eq (adds : Adds table definition share) : share.size = 1 := by
  cases adds <;> rfl

/-- A definition that is written as a foreign key, `FOREIGN KEY (c) REFERENCES t(d)` with
blanks and quotes where they may stand, is well-formed and adds its relationship. -/
theorem Adds.of_foreignKeyText {column : List Char} {target : List Char × List Char}
    (foreign : ForeignKeyText definition column target) (table : String) :
    Adds table definition
      { relationships :=
          [{ fromTable := table
             fromColumn := String.ofList column
             toTable := String.ofList target.1
             toColumn := String.ofList target.2 }] } := by
  obtain ⟨paired, blankOutside, blankBefore, spells, blankAfter, blankSpace, refers⟩ := foreign
  rename_i words outside before written after space reference
  have wellFormed := foreignKey?_written blankOutside blankBefore spells blankAfter blankSpace
    refers table []
  rw [List.append_nil] at wellFormed
  exact .foreignKey (paired.dropWhole?_eq (startsInWord_mark blankOutside (by decide) _)) wellFormed

/-- A definition adds nothing but what it is read as. -/
theorem Adds.eq_share (adds : Adds table (withoutConstraintName written) share) :
    share = (Definition.read table written).share table := by
  cases adds with
  | @column name afterName type clauses declared reference noForeignKey noConstraint named typed
      ordinary described =>
      have read : Definition.read table written = .column declared reference := by
        simp only [Definition.read, noForeignKey, noConstraint, readColumn, named, typed, ordinary,
          Bool.false_eq_true, if_false, described]
      rw [read]
      rfl
  | untypedColumn noForeignKey noConstraint named untyped =>
      have read : Definition.read table written =
          .untypedColumn (String.ofList (withoutConstraintName written)) := by
        simp only [Definition.read, noForeignKey, noConstraint, readColumn, named]
        split
        · rfl
        · rename_i type clauses typed
          rw [if_pos (untyped type clauses typed)]
      rw [read]
      rfl
  | foreignKey opens wellFormed =>
      simp only [Definition.read, opens, wellFormed]
      rfl
  | malformedForeignKey opens malformed =>
      simp only [Definition.read, opens, malformed]
      rfl
  | constraint noForeignKey states =>
      simp only [Definition.read, noForeignKey, states]
      rfl

/-- Every definition adds something. -/
theorem exists_adds (table : String) (solid : Solid definition) :
    ∃ share, Adds table definition share := by
  cases opens : foreignKeyPhrase.dropWhole? definition with
  | some rest =>
      cases read : foreignKey? table rest with
      | some relationship => exact ⟨_, .foreignKey opens read⟩
      | none => exact ⟨_, .malformedForeignKey opens read⟩
  | none =>
      cases states : tableKey? definition with
      | some clause => exact ⟨_, .constraint opens states⟩
      | none =>
          obtain ⟨⟨name, afterName⟩, named⟩ := Option.isSome_iff_exists.1 (readWord?_isSome solid)
          by_cases untyped : ∀ type clauses, readType? afterName = some (type, clauses) →
              isClauseKeyword type = true
          · exact ⟨_, .untypedColumn opens states named untyped⟩
          · simp only [not_forall] at untyped
            obtain ⟨type, clauses, typed, ordinary⟩ := untyped
            exact ⟨_, .column opens states named typed (Bool.eq_false_iff.2 ordinary) rfl⟩

/-- A definition adds its share and nothing else. -/
theorem adds_iff (solid : Solid written) :
    Adds table (withoutConstraintName written) share ↔
      share = (Definition.read table written).share table := by
  constructor
  · exact Adds.eq_share
  · rintro rfl
    obtain ⟨share, adds⟩ := exists_adds table (withoutConstraintName_solid solid)
    rw [← adds.eq_share]
    exact adds

/-- The share of a definition is one thing. -/
theorem Definition.size_share (table : String) (solid : Solid written) :
    ((read table written).share table).size = 1 :=
  Adds.size_eq ((adds_iff solid).2 rfl)

/-- A definition has a word, whatever is taken off it. -/
theorem Definition.read_ne_blank (table : String) (solid : Solid written) :
    read table written ≠ .blank := by
  intro blank
  have size := size_share table solid
  rw [blank] at size
  cases size

end Sharing

/-- The report of a table is shared out among its definitions. -/
structure SharedOut (table : String) (body : List Char) (entity : Entity) (shares : List Share) :
    Prop where
  /-- Each definition has its share, and that is all it adds. -/
  each : List.Forall₂
    (fun written share => ∀ other, Adds table (withoutConstraintName written) other ↔ other = share)
    (fragments ',' body) shares
  /-- It adds one thing: a column, a gap, a foreign key or a constraint. -/
  single : ∀ share ∈ shares, share.size = 1
  isEntity : (Block.table table body).entity? = some entity
  name : entity.name = table
  attributes : entity.attributes =
    (shares.flatMap Share.columns).map (flagged (shares.flatMap Share.constraints))
  relationships : (Block.table table body).relationships = shares.flatMap Share.relationships
  gaps : (Block.table table body).gaps = shares.flatMap Share.gaps
  /-- No share is counted twice and none is left out. -/
  counted : (fragments ',' body).length =
    entity.attributes.length + (Block.table table body).gaps.length +
      (shares.flatMap Share.foreignKeys).length + (shares.flatMap Share.constraints).length
  worded : .blank ∉ definitions table body

section Parts

variable {α : Type} {table : String} {part : Share -> List α} {said : Definition -> Option α}

/-- Shares put together give, part by part, what the definitions say in their order. -/
theorem flatMap_share (same : ∀ item, part (Definition.share table item) = (said item).toList)
    {items : List Definition} :
    (items.map (Definition.share table)).flatMap part = items.filterMap said := by
  rw [List.flatMap_map, List.filterMap_eq_flatMap_toList]
  exact List.flatMap_congr fun item _ => same item

/-- The columns of the shares are those of the definitions. -/
theorem columns_share (table : String) (items : List Definition) :
    (items.map (Definition.share table)).flatMap Share.columns =
      items.filterMap Definition.attribute? :=
  flatMap_share fun _ => rfl

/-- The gaps of the shares are those of the definitions. -/
theorem gaps_share (table : String) (items : List Definition) :
    (items.map (Definition.share table)).flatMap Share.gaps =
      items.filterMap (Definition.gap? table) :=
  flatMap_share fun _ => rfl

/-- The constraints of the shares are those of the definitions. -/
theorem constraints_share (table : String) (items : List Definition) :
    (items.map (Definition.share table)).flatMap Share.constraints =
      items.filterMap Definition.key? :=
  flatMap_share fun _ => rfl

end Parts

/-- Shares of one thing each are counted by what is in them. -/
theorem length_eq_of_size {shares : List Share} (single : ∀ share ∈ shares, share.size = 1) :
    shares.length =
      (shares.flatMap Share.columns).length + (shares.flatMap Share.gaps).length +
        (shares.flatMap Share.foreignKeys).length + (shares.flatMap Share.constraints).length := by
  induction shares with
  | nil => rfl
  | cons share shares inductionHypothesis =>
      obtain ⟨first, others⟩ := List.forall_mem_cons.1 single
      rw [Share.size] at first
      simp only [List.length_cons, List.flatMap_cons, List.length_append]
      have later := inductionHypothesis others
      omega

/-- Every definition of a table is accounted for exactly once. -/
theorem exists_sharedOut (table : String) (body : List Char) :
    ∃ entity shares, SharedOut table body entity shares := by
  have each : List.Forall₂ (fun written share => ∀ other,
      Adds table (withoutConstraintName written) other ↔ other = share)
      (fragments ',' body) ((definitions table body).map (Definition.share table)) := by
    rw [definitions, List.map_map, List.forall₂_map_right_iff]
    exact List.forall₂_same.2 fun written member other => adds_iff (solid_of_mem_fragments member)
  have single : ∀ share ∈ (definitions table body).map (Definition.share table),
      share.size = 1 := by
    intro share member
    obtain ⟨item, inBody, rfl⟩ := List.mem_map.1 member
    obtain ⟨written, isFragment, rfl⟩ := List.mem_map.1 inBody
    exact Definition.size_share table (solid_of_mem_fragments isFragment)
  refine ⟨entityOf table (definitions table body), _, each, single, rfl, rfl, ?_, ?_, ?_, ?_, ?_⟩
  · rw [columns_share, constraints_share, entityOf_eq]
  · exact (flatMap_share fun _ => rfl).symm
  · exact (gaps_share table _).symm
  · rw [each.length_eq, length_eq_of_size single, columns_share, gaps_share, entityOf_eq,
      List.length_map]
    rfl
  · intro blank
    obtain ⟨written, isFragment, read⟩ := List.mem_map.1 blank
    exact Definition.read_ne_blank table (solid_of_mem_fragments isFragment) read

end SchemaLoom.Ddl
