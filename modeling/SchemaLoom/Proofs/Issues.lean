import Mathlib.Data.List.Nodup
import SchemaLoom.Schema.Validation

/-!
# What issues say about a schema

A schema without issues has entities of different names, each with columns, and
relationships whose two ends resolve. A missing table is always that of one end of a
relationship, and there is no entity of its name.
-/

namespace SchemaLoom

namespace Schema

variable {schema : Schema}

/-- Entities without issues have columns, and names that differ. -/
theorem entities_of_issues {index : Nat} {seen : List String} {entities : List Entity}
    (clean : entityIssues index seen entities = []) :
    (∀ entity ∈ entities, entity.name ∉ seen ∧ entity.attributes ≠ []) ∧
      (entities.map Entity.name).Nodup := by
  induction entities generalizing index seen with
  | nil => exact ⟨by simp, List.nodup_nil⟩
  | cons entity entities inductionHypothesis =>
      simp only [entityIssues, List.append_eq_nil_iff] at clean
      obtain ⟨⟨⟨named, columns⟩, -⟩, others⟩ := clean
      have solid : isBlankName entity.name = false := by
        cases blank : isBlankName entity.name with
        | false => rfl
        | true => simp [blank] at named
      have new : entity.name ∉ seen := by
        intro member
        simp [solid, member] at named
      have nonempty : entity.attributes ≠ [] := by
        intro empty
        simp [empty] at columns
      rw [solid] at others
      obtain ⟨each, distinct⟩ := inductionHypothesis others
      refine ⟨List.forall_mem_cons.2 ⟨⟨new, nonempty⟩, fun later member => ?_⟩, ?_⟩
      · exact ⟨fun isSeen => (each later member).1 (List.mem_cons_of_mem _ isSeen),
          (each later member).2⟩
      · refine List.nodup_cons.2 ⟨fun member => ?_, distinct⟩
        obtain ⟨later, isLater, same⟩ := List.mem_map.1 member
        exact (each later isLater).1 (same ▸ List.mem_cons_self ..)

/-- An end of a relationship without an issue is a column of an entity. -/
theorem exists_of_endIssue? {relationship : Relationship} {table column : String}
    (clean : schema.endIssue? relationship table column = none) :
    ∃ entity ∈ schema.entities, entity.name = table ∧
      ∃ found ∈ entity.attributes, found.name = column := by
  rw [endIssue?] at clean
  split at clean
  · cases clean
  · rename_i entity isEntity
    split at clean
    · cases clean
    · rename_i found isFound
      exact ⟨entity, List.mem_of_find?_eq_some isEntity, by simpa using List.find?_some isEntity,
        found, List.mem_of_find?_eq_some isFound, by simpa using List.find?_some isFound⟩

/-- Both ends of the relationships of a schema without issues are columns of entities. -/
theorem ends_of_issues (clean : schema.issues = []) {relationship : Relationship}
    (member : relationship ∈ schema.relationships) :
    (∃ entity ∈ schema.entities, entity.name = relationship.fromTable ∧
        ∃ column ∈ entity.attributes, column.name = relationship.fromColumn) ∧
      ∃ entity ∈ schema.entities, entity.name = relationship.toTable ∧
        ∃ column ∈ entity.attributes, column.name = relationship.toColumn := by
  rw [issues, List.append_eq_nil_iff, List.flatMap_eq_nil_iff] at clean
  have both := clean.2 relationship member
  rw [relationshipIssues, List.append_eq_nil_iff, Option.toList_eq_nil_iff,
    Option.toList_eq_nil_iff] at both
  exact ⟨exists_of_endIssue? both.1, exists_of_endIssue? both.2⟩

/-- A relationship that leaves an entity of a schema without issues leaves a column of it. -/
theorem leaving_of_issues (clean : schema.issues = []) {entity : Entity}
    (member : entity ∈ schema.entities) :
    ∀ relationship ∈ schema.relationshipsFrom entity.name,
      ∃ column ∈ entity.attributes, column.name = relationship.fromColumn := by
  intro relationship isLeaving
  obtain ⟨isRelationship, leaves⟩ := List.mem_filter.1 isLeaving
  obtain ⟨⟨source, isSource, sameName, column⟩, -⟩ := ends_of_issues clean isRelationship
  rw [issues, List.append_eq_nil_iff] at clean
  have distinct := (entities_of_issues clean.1).2
  have same : source = entity :=
    List.inj_on_of_nodup_map distinct isSource member (sameName.trans (beq_iff_eq.1 leaves))
  exact same ▸ column

/-- An entity is found exactly for the names that entities have. -/
theorem entity?_isSome {name : String} :
    (schema.entity? name).isSome = true ↔ ∃ entity ∈ schema.entities, entity.name = name := by
  rw [entity?, List.find?_isSome]
  constructor
  · rintro ⟨entity, member, same⟩
    exact ⟨entity, member, beq_iff_eq.1 same⟩
  · rintro ⟨entity, member, same⟩
    exact ⟨entity, member, beq_iff_eq.2 same⟩

/-- Attributes of an entity give no issue of a table. -/
theorem missingTable_not_mem_attributeIssues {entity fromTable fromColumn table : String}
    {seen : List String} {columns : List Attribute} :
    .missingTable fromTable fromColumn table ∉ attributeIssues entity seen columns := by
  induction columns generalizing seen with
  | nil => simp [attributeIssues]
  | cons column columns inductionHypothesis =>
      rw [attributeIssues]
      split
      · simpa using inductionHypothesis
      · split
        · simpa using inductionHypothesis
        · exact inductionHypothesis

/-- Entities by themselves miss no table. -/
theorem missingTable_not_mem_entityIssues {fromTable fromColumn table : String} {index : Nat}
    {seen : List String} {entities : List Entity} :
    .missingTable fromTable fromColumn table ∉ entityIssues index seen entities := by
  induction entities generalizing index seen with
  | nil => simp [entityIssues]
  | cons entity entities inductionHypothesis =>
      intro member
      simp only [entityIssues, List.mem_append] at member
      rcases member with ((name | columns) | attributes) | later
      · split at name
        · simp at name
        · split at name <;> simp at name
      · split at columns <;> simp at columns
      · exact missingTable_not_mem_attributeIssues attributes
      · exact inductionHypothesis later

/-- A missing table is reported of an end exactly if there is no entity of its name. -/
theorem missingTable_mem_endIssue? {relationship : Relationship}
    {fromTable fromColumn table asked column : String} :
    .missingTable fromTable fromColumn table ∈
        (schema.endIssue? relationship asked column).toList ↔
      fromTable = relationship.fromTable ∧ fromColumn = relationship.fromColumn ∧
        table = asked ∧ schema.entity? asked = none := by
  rw [endIssue?]
  split
  · rename_i absent
    simp [absent]
  · rename_i entity found
    split <;> simp [found]

/-- A table is missing exactly where an end of a relationship names no entity. -/
theorem missingTable_mem_issues {fromTable fromColumn table : String} :
    .missingTable fromTable fromColumn table ∈ schema.issues ↔
      ∃ relationship ∈ schema.relationships,
        fromTable = relationship.fromTable ∧ fromColumn = relationship.fromColumn ∧
          (table = relationship.fromTable ∨ table = relationship.toTable) ∧
            schema.entity? table = none := by
  rw [issues, List.mem_append, List.mem_flatMap]
  constructor
  · rintro (ofEntities | ⟨relationship, member, here⟩)
    · exact absurd ofEntities missingTable_not_mem_entityIssues
    · rw [relationshipIssues, List.mem_append, missingTable_mem_endIssue?,
        missingTable_mem_endIssue?] at here
      rcases here with ⟨table, column, rfl, absent⟩ | ⟨table, column, rfl, absent⟩
      · exact ⟨relationship, member, table, column, .inl rfl, absent⟩
      · exact ⟨relationship, member, table, column, .inr rfl, absent⟩
  · rintro ⟨relationship, member, table, column, ends, absent⟩
    refine .inr ⟨relationship, member, ?_⟩
    rw [relationshipIssues, List.mem_append, missingTable_mem_endIssue?,
      missingTable_mem_endIssue?]
    rcases ends with rfl | rfl
    · exact .inl ⟨table, column, rfl, absent⟩
    · exact .inr ⟨table, column, rfl, absent⟩

end Schema

end SchemaLoom
