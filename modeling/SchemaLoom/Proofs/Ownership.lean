import Mathlib.Data.List.Forall2
import SchemaLoom.Proofs.ColumnTypes
import SchemaLoom.Proofs.Issues
import SchemaLoom.Proofs.Words

/-!
# What every document reads as

A document may be any text. Its relationships still come table by table, and each of them
leaves the table in whose body it stands, so that only the table that it leads to can be
missing. Every column has a type that is written like one: a text without blanks around it
that opens no clause of a column.
-/

namespace SchemaLoom

/-- A type that can stand in the definition of a column as it is spelled. -/
structure ColumnType.IsDeclarable (type : ColumnType) : Prop where
  nonempty : type.spelling ≠ ""
  trimmed : Text.trim type.spelling.toList = type.spelling.toList
  normal : ofSpelling type.spelling = type
  opensNoClause : ∀ keyword ∈ ["PRIMARY", "NOT", "NULL", "UNIQUE", "REFERENCES", "DEFAULT",
    "CHECK", "CONSTRAINT"], Text.sameIgnoringCase type.spelling.toList keyword.toList = false

/-- What holds of a schema whose relationships stand in the bodies of its tables. -/
structure Schema.Owned (schema : Schema) : Prop where
  /-- The relationships are those of the tables, one table after the other. -/
  parts : ∃ parts : List (List Relationship), schema.relationships = parts.flatten ∧
    List.Forall₂
      (fun entity part => ∀ relationship ∈ part,
        relationship.fromTable = entity.name ∧ relationship.label = none)
      schema.entities parts
  owners : ∀ relationship ∈ schema.relationships,
    ∃ entity ∈ schema.entities, entity.name = relationship.fromTable
  /-- A table that is missing is one that a relationship leads to. -/
  missing : ∀ fromTable fromColumn table,
    .missingTable fromTable fromColumn table ∈ schema.issues →
      ∃ relationship ∈ schema.relationships,
        fromTable = relationship.fromTable ∧ fromColumn = relationship.fromColumn ∧
          table = relationship.toTable ∧ ∀ entity ∈ schema.entities, entity.name ≠ table
  types : ∀ entity ∈ schema.entities, ∀ column ∈ entity.attributes,
    column.columnType.IsDeclarable

namespace Ddl

open Text

section Types

variable {definition : List Char} {table : String} {declared : Attribute}

/-- A type that is spelled by a solid word is spelled so again, or is one of those with a
name of their own. -/
theorem isDeclarable_ofSpelling {type : List Char} (solid : Solid type)
    (ordinary : isClauseKeyword type = false) :
    (ColumnType.ofSpelling (String.ofList type)).IsDeclarable := by
  have normal := ColumnType.ofSpelling_isNormal (String.ofList type)
  have cases : ColumnType.ofSpelling (String.ofList type) ∈
      [.integer, .text, .date, .declared (String.ofList type)] := by
    simp only [ColumnType.ofSpelling, String.toList_ofList, trim_of_solid solid]
    repeat' split
    all_goals simp
  generalize ColumnType.ofSpelling (String.ofList type) = denoted at cases normal
  simp only [List.mem_cons, List.not_mem_nil, or_false] at cases
  rcases cases with rfl | rfl | rfl | rfl
  · exact ⟨by decide, by decide, normal, by decide⟩
  · exact ⟨by decide, by decide, normal, by decide⟩
  · exact ⟨by decide, by decide, normal, by decide⟩
  · constructor
    · intro empty
      apply solid.nonempty
      simpa [ColumnType.spelling] using empty
    · rw [ColumnType.spelling, String.toList_ofList, trim_of_solid solid]
    · exact normal
    · rw [ColumnType.spelling, String.toList_ofList]
      intro keyword member
      apply Bool.eq_false_iff.2
      intro same
      have opens : isClauseKeyword type = true := List.any_eq_true.2 ⟨keyword, member, same⟩
      rw [ordinary] at opens
      cases opens

/-- The type of a column that is read can be declared. -/
theorem readColumn_isDeclarable (solid : EndsSolid definition)
    (found : (readColumn table definition).attribute? = some declared) :
    declared.columnType.IsDeclarable := by
  rw [readColumn] at found
  split at found
  · cases found
  · rename_i name afterName word
    split at found
    · cases found
    · rename_i type rest typed
      split at found
      · cases found
      · rename_i ordinary
        obtain rfl := Option.some.inj found
        have isSolid : Solid type :=
          readType?_solid (solid.of_suffix (readWord?_suffix word)) typed
        dsimp only [Attribute.declared]
        exact isDeclarable_ofSpelling isSolid (Bool.eq_false_iff.2 ordinary)

/-- The column of a definition has a type that was declared there. -/
theorem Definition.read_isDeclarable (solid : Solid definition)
    (found : (read table definition).attribute? = some declared) :
    declared.columnType.IsDeclarable := by
  have inner := withoutConstraintName_solid solid
  rw [read] at found
  split at found
  · split at found <;> cases found
  · split at found
    · cases found
    · exact readColumn_isDeclarable inner.last found

/-- All types of a schema that is read can be declared. -/
theorem schemaOf_types {document : String} {entity : Entity} {column : Attribute}
    (member : entity ∈ (schemaOf document).entities) (inEntity : column ∈ entity.attributes) :
    column.columnType.IsDeclarable := by
  obtain ⟨table, body, written, declared, isFragment, isColumn, sameType⟩ :=
    exists_definition_of_mem member inEntity
  rw [sameType]
  exact Definition.read_isDeclarable (solid_of_mem_fragments isFragment) isColumn

end Types

section Relationships

variable {relationship : Relationship}

/-- A definition of a table gives relationships that leave the table, without labels. -/
theorem Definition.read_leaves {table : String} {written : List Char}
    (found : (read table written).relationship? = some relationship) :
    relationship.fromTable = table ∧ relationship.label = none := by
  rw [read] at found
  split at found
  · rename_i rest _
    cases key : foreignKey? table rest with
    | none =>
        rw [key] at found
        cases found
    | some leading =>
        rw [key] at found
        obtain rfl := Option.some.inj found
        rw [foreignKey?] at key
        split at key
        · cases key
        · obtain ⟨target, -, rfl⟩ := Option.map_eq_some_iff.1 key
          exact ⟨rfl, rfl⟩
  · split at found
    · cases found
    · rw [readColumn] at found
      split at found
      · cases found
      · split at found
        · cases found
        · split at found
          · cases found
          · obtain ⟨target, -, rfl⟩ := Option.map_eq_some_iff.1 found
            exact ⟨rfl, rfl⟩

/-- A block with relationships is a table that they leave. -/
theorem Block.relationships_leave {block : Block} (member : relationship ∈ block.relationships) :
    ∃ entity, block.entity? = some entity ∧ relationship.fromTable = entity.name ∧
      relationship.label = none := by
  obtain ⟨item, inBody, found⟩ := List.mem_filterMap.1 member
  cases block with
  | unrecognized snippet => cases inBody
  | table name body =>
      obtain ⟨written, -, rfl⟩ := List.mem_map.1 inBody
      exact ⟨_, rfl, Definition.read_leaves found⟩

/-- Blocks give relationships table by table. Those that cannot be read give none. -/
theorem exists_parts (found : List Block) :
    ∃ parts : List (List Relationship), found.flatMap Block.relationships = parts.flatten ∧
      List.Forall₂
        (fun entity part => ∀ relationship ∈ part,
          relationship.fromTable = entity.name ∧ relationship.label = none)
        (found.filterMap Block.entity?) parts := by
  induction found with
  | nil => exact ⟨[], rfl, .nil⟩
  | cons block found inductionHypothesis =>
      obtain ⟨parts, joined, leave⟩ := inductionHypothesis
      cases isTable : block.entity? with
      | none =>
          have nothing : block.relationships = [] := by
            apply List.eq_nil_iff_forall_not_mem.2
            intro relationship member
            obtain ⟨entity, isEntity, -⟩ := Block.relationships_leave member
            rw [isTable] at isEntity
            cases isEntity
          refine ⟨parts, ?_, ?_⟩
          · rw [List.flatMap_cons, nothing, List.nil_append, joined]
          · rwa [List.filterMap_cons_none isTable]
      | some entity =>
          refine ⟨block.relationships :: parts, ?_, ?_⟩
          · rw [List.flatMap_cons, List.flatten_cons, joined]
          · rw [List.filterMap_cons_some isTable]
            refine .cons ?_ leave
            intro relationship member
            obtain ⟨owner, isOwner, leaves⟩ := Block.relationships_leave member
            obtain rfl := Option.some.inj (isTable.symm.trans isOwner)
            exact leaves

/-- Every relationship of a schema that is read leaves one of its entities. -/
theorem exists_owner {document : String}
    (member : relationship ∈ (schemaOf document).relationships) :
    ∃ entity ∈ (schemaOf document).entities, entity.name = relationship.fromTable := by
  obtain ⟨block, isBlock, inBlock⟩ := List.mem_flatMap.1 member
  obtain ⟨entity, isEntity, leaves, -⟩ := Block.relationships_leave inBlock
  exact ⟨entity, List.mem_filterMap.2 ⟨block, isBlock, isEntity⟩, leaves.symm⟩

/-- A document reads as tables that own their relationships, whatever its text. -/
theorem schemaOf_owned (document : String) : (schemaOf document).Owned where
  parts := exists_parts _
  owners := fun _ member => exists_owner member
  missing := by
    intro fromTable fromColumn table member
    obtain ⟨relationship, isRelationship, sameTable, sameColumn, ends, absent⟩ :=
      Schema.missingTable_mem_issues.1 member
    have noEntity : ∀ entity ∈ (schemaOf document).entities, entity.name ≠ table := by
      intro entity isEntity same
      have found := Schema.entity?_isSome.2 ⟨entity, isEntity, same⟩
      rw [absent] at found
      cases found
    refine ⟨relationship, isRelationship, sameTable, sameColumn, ?_, noEntity⟩
    rcases ends with leaves | leads
    · obtain ⟨entity, isEntity, named⟩ := exists_owner isRelationship
      exact absurd (named.trans leaves.symm) (noEntity entity isEntity)
    · exact leads
  types := fun _ member _ inEntity => schemaOf_types member inEntity

end Relationships

end Ddl

end SchemaLoom
