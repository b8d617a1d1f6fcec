import SchemaLoom.Proofs.Issues

/-!
# How often issues are reported

The search for issues is exact. What is reported of an entity depends on it and on the names
before it: each name that is blank once, each other name as often as it is a repetition. An end of a
relationship is looked up in the first entity of its name, and gives one issue or none. A schema
is well formed exactly if nothing at all is reported.
-/

namespace SchemaLoom

namespace Schema

/-- A schema whose names are there and differ, and whose relationships join columns. -/
structure WellFormed (schema : Schema) : Prop where
  entityNames : ∀ entity ∈ schema.entities, isBlankName entity.name = false
  attributeNames : ∀ entity ∈ schema.entities, ∀ column ∈ entity.attributes,
    isBlankName column.name = false
  distinctEntities : (schema.entities.map Entity.name).Nodup
  attributes : ∀ entity ∈ schema.entities, entity.attributes ≠ []
  distinctAttributes : ∀ entity ∈ schema.entities, (entity.attributes.map Attribute.name).Nodup
  sources : ∀ relationship ∈ schema.relationships, ∃ entity ∈ schema.entities,
    entity.name = relationship.fromTable ∧
      ∃ column ∈ entity.attributes, column.name = relationship.fromColumn
  targets : ∀ relationship ∈ schema.relationships, ∃ entity ∈ schema.entities,
    entity.name = relationship.toTable ∧
      ∃ column ∈ entity.attributes, column.name = relationship.toColumn

/-- How often an issue is reported of an entity that stands behind others. -/
def issueCount (earlier : List Entity) (entity : Entity) : SchemaIssue -> Nat
  | .emptyEntityName index =>
      if index = earlier.length ∧ isBlankName entity.name = true then 1 else 0
  | .duplicateEntity name =>
      if name = entity.name ∧ isBlankName name = false ∧ name ∈ earlier.map Entity.name then 1
      else 0
  | .noAttributes name => if name = entity.name ∧ entity.attributes = [] then 1 else 0
  | .emptyAttributeName name =>
      if name = entity.name then entity.attributes.countP fun column => isBlankName column.name
      else 0
  | .duplicateAttribute name column =>
      if name = entity.name ∧ isBlankName column = false then
        (entity.attributes.map Attribute.name).count column - 1
      else 0
  | .missingTable _ _ _ => 0
  | .missingColumn _ _ => 0

/-- What is reported of an end of a relationship: the table if no entity has its name, the column if
the first entity of the name lacks it, and nothing otherwise. -/
inductive EndIssue (schema : Schema) (relationship : Relationship) (table column : String) :
    Option SchemaIssue -> Prop where
  | missingTable (absent : ∀ entity ∈ schema.entities, entity.name ≠ table) :
      EndIssue schema relationship table column
        (some (.missingTable relationship.fromTable relationship.fromColumn table))
  | missingColumn {earlier later : List Entity} {entity : Entity}
      (entities : schema.entities = earlier ++ entity :: later)
      (first : ∀ other ∈ earlier, other.name ≠ table) (named : entity.name = table)
      (absent : ∀ other ∈ entity.attributes, other.name ≠ column) :
      EndIssue schema relationship table column (some (.missingColumn table column))
  | resolved {earlier later : List Entity} {entity : Entity} {found : Attribute}
      (entities : schema.entities = earlier ++ entity :: later)
      (first : ∀ other ∈ earlier, other.name ≠ table) (named : entity.name = table)
      (member : found ∈ entity.attributes) (called : found.name = column) :
      EndIssue schema relationship table column none

/-- The issue of an end is found as it is defined: by the first entity of the name, and by
its columns. -/
theorem endIssue_endIssue? (schema : Schema) (relationship : Relationship)
    (table column : String) :
    EndIssue schema relationship table column (schema.endIssue? relationship table column) := by
  rw [endIssue?]
  cases looked : schema.entity? table with
  | none =>
      exact .missingTable fun entity member => by
        simpa using List.find?_eq_none.1 looked entity member
  | some entity =>
      obtain ⟨named, earlier, later, entities, first⟩ := List.find?_eq_some_iff_append.1 looked
      have others : ∀ other ∈ earlier, other.name ≠ table := fun other member => by
        simpa using first other member
      cases asked : entity.attribute? column with
      | none =>
          simp only [asked]
          exact .missingColumn entities others (beq_iff_eq.1 named) fun other member => by
            simpa using List.find?_eq_none.1 asked other member
      | some found =>
          simp only [asked]
          exact .resolved entities others (beq_iff_eq.1 named) (List.mem_of_find?_eq_some asked)
            (by simpa using List.find?_some asked)

/-- The issues of one entity, given its position and the names seen before. -/
def issuesAt (index : Nat) (seen : List String) (entity : Entity) : List SchemaIssue :=
  (if isBlankName entity.name then [.emptyEntityName index]
    else if seen.contains entity.name then [.duplicateEntity entity.name] else []) ++
  (if entity.attributes.isEmpty then [.noAttributes entity.name] else []) ++
  attributeIssues entity.name [] entity.attributes

/-- The issues of the first entity come first. -/
theorem entityIssues_cons (index : Nat) (seen : List String) (entity : Entity)
    (entities : List Entity) :
    entityIssues index seen (entity :: entities) =
      issuesAt index seen entity ++ entityIssues (index + 1)
        (if isBlankName entity.name then seen else entity.name :: seen) entities :=
  rfl

/-- How often an issue is reported of attribute names behind those seen. -/
def attributeCount (entity : String) (seen : List String) (columns : List Attribute) :
    SchemaIssue -> Nat
  | .emptyAttributeName name =>
      if name = entity then columns.countP fun column => isBlankName column.name else 0
  | .duplicateAttribute name column =>
      if name = entity ∧ isBlankName column = false then
        (columns.map Attribute.name).count column + (if column ∈ seen then 1 else 0) - 1
      else 0
  | _ => 0

/-- Among the attributes of an entity each issue is reported as often as it is counted. -/
theorem count_attributeIssues (entity : String) (seen : List String) (columns : List Attribute)
    (issue : SchemaIssue) :
    (attributeIssues entity seen columns).count issue =
      attributeCount entity seen columns issue := by
  induction columns generalizing seen with
  | nil =>
      rw [attributeIssues, List.count_nil]
      cases issue <;> grind [attributeCount]
  | cons column columns inductionHypothesis =>
      rw [attributeIssues]
      cases issue <;> grind [attributeCount]

/-- The names seen behind entities are theirs, apart from blank ones. -/
def Seen (earlier : List Entity) (seen : List String) : Prop :=
  ∀ name, isBlankName name = false → (name ∈ seen ↔ name ∈ earlier.map Entity.name)

theorem Seen.nil : Seen [] [] :=
  fun _ _ => Iff.rfl

/-- Behind an entity its name is seen, unless it is blank. -/
theorem Seen.behind {earlier : List Entity} {seen : List String} (known : Seen earlier seen)
    (entity : Entity) :
    Seen (earlier ++ [entity])
      (if isBlankName entity.name then seen else entity.name :: seen) := by
  intro name solid
  have before := known name solid
  grind

/-- Of one entity each issue is reported as often as it is counted. -/
theorem count_issuesAt {earlier : List Entity} {seen : List String} (known : Seen earlier seen)
    (entity : Entity) (issue : SchemaIssue) :
    (issuesAt earlier.length seen entity).count issue = issueCount earlier entity issue := by
  have named := known entity.name
  rw [issuesAt, List.count_append, List.count_append, count_attributeIssues]
  cases issue <;> grind [issueCount, attributeCount]

/-- The issues of entities come in parts, one for each entity in order. -/
theorem entityIssues_parts {earlier : List Entity} {seen : List String}
    (known : Seen earlier seen) (entities : List Entity) :
    ∃ parts : List (List SchemaIssue), parts.length = entities.length ∧
      entityIssues earlier.length seen entities = parts.flatten ∧
      ∀ before entity after, entities = before ++ entity :: after →
        ∃ part, parts[before.length]? = some part ∧
          ∀ issue, part.count issue = issueCount (earlier ++ before) entity issue := by
  -- Each step moves one entity to the earlier ones, whose names are those seen.
  induction entities generalizing earlier seen with
  | nil => exact ⟨[], rfl, rfl, fun before entity after empty => by simp at empty⟩
  | cons entity entities inductionHypothesis =>
      obtain ⟨parts, length, issues, counts⟩ := inductionHypothesis (known.behind entity)
      refine ⟨issuesAt earlier.length seen entity :: parts, by simp [length], ?_, ?_⟩
      · rw [entityIssues_cons, List.flatten_cons, ← issues, List.length_append,
          List.length_singleton]
      · intro before other after split
        cases before with
        | nil =>
            obtain ⟨rfl, rfl⟩ := List.cons.inj split
            exact ⟨_, rfl, by simpa using count_issuesAt known entity⟩
        | cons first before =>
            obtain ⟨rfl, rfl⟩ := List.cons.inj split
            obtain ⟨part, found, count⟩ := counts before other after rfl
            exact ⟨part, found, by simpa using count⟩

/-- A name is reported as often as it is repeated. -/
theorem count_duplicateEntity {earlier : List Entity} {seen : List String}
    (known : Seen earlier seen) (entities : List Entity) (name : String) :
    (entityIssues earlier.length seen entities).count (.duplicateEntity name) =
      if isBlankName name then 0
      else (entities.map Entity.name).count name + (if name ∈ seen then 1 else 0) - 1 := by
  induction entities generalizing earlier seen with
  | nil =>
      rw [entityIssues, List.count_nil]
      grind
  | cons entity entities inductionHypothesis =>
      have later := inductionHypothesis (known.behind entity)
      rw [List.length_append, List.length_singleton] at later
      have before := known name
      rw [entityIssues_cons, List.count_append, count_issuesAt known, later]
      grind [issueCount]

/-- A blank name is reported once, by its position. -/
theorem count_emptyEntityName {earlier : List Entity} {seen : List String}
    (known : Seen earlier seen) (entities : List Entity) (place : Nat) :
    (entityIssues earlier.length seen entities).count (.emptyEntityName place) =
      if earlier.length ≤ place ∧
        (entities[place - earlier.length]?.any fun entity => isBlankName entity.name) = true
      then 1 else 0 := by
  induction entities generalizing earlier seen with
  | nil => simp [entityIssues]
  | cons entity entities inductionHypothesis =>
      have later := inductionHypothesis (known.behind entity)
      rw [List.length_append, List.length_singleton] at later
      rw [entityIssues_cons, List.count_append, count_issuesAt known, later, issueCount]
      rcases Nat.lt_trichotomy place earlier.length with before | rfl | behind
      · grind
      · grind
      · obtain ⟨further, rfl⟩ := Nat.exists_eq_add_of_lt behind
        grind

/-- What is reported of an end is that something is missing. -/
theorem EndIssue.isMissing {schema : Schema} {relationship : Relationship} {table column : String}
    {issue : SchemaIssue} (ofEnd : EndIssue schema relationship table column (some issue)) :
    (∃ fromTable fromColumn, issue = .missingTable fromTable fromColumn table) ∨
      issue = .missingColumn table column := by
  cases ofEnd with
  | missingTable => exact .inl ⟨_, _, rfl⟩
  | missingColumn => exact .inr rfl

variable {schema : Schema}

/-- Relationships give no other issues than their ends do. -/
theorem count_relationshipIssues {issue : SchemaIssue}
    (noTable : ∀ fromTable fromColumn table, issue ≠ .missingTable fromTable fromColumn table)
    (noColumn : ∀ table column, issue ≠ .missingColumn table column) :
    (schema.relationships.flatMap schema.relationshipIssues).count issue = 0 := by
  refine List.count_eq_zero.2 fun member => ?_
  obtain ⟨relationship, -, here⟩ := List.mem_flatMap.1 member
  have ofEnd {table column : String}
      (found : schema.endIssue? relationship table column = some issue) : False := by
    have missing := endIssue_endIssue? schema relationship table column
    rw [found] at missing
    rcases missing.isMissing with ⟨_, _, isTable⟩ | isColumn
    · exact noTable _ _ _ isTable
    · exact noColumn _ _ isColumn
  rw [relationshipIssues, List.mem_append, Option.mem_toList, Option.mem_toList] at here
  exact here.elim ofEnd ofEnd

/-- A name of entities is reported once for each time it is repeated. -/
theorem count_duplicateEntity_issues (schema : Schema) (name : String) :
    schema.issues.count (.duplicateEntity name) =
      if isBlankName name then 0 else (schema.entities.map Entity.name).count name - 1 := by
  have ofEntities := count_duplicateEntity .nil schema.entities name
  rw [issues, List.count_append, count_relationshipIssues (by simp) (by simp), Nat.add_zero]
  simpa using ofEntities

/-- A blank name of an entity is reported once, by the position of the entity. -/
theorem count_emptyEntityName_issues (schema : Schema) (index : Nat) :
    schema.issues.count (.emptyEntityName index) =
      if schema.entities[index]?.any fun entity => isBlankName entity.name then 1 else 0 := by
  have ofEntities := count_emptyEntityName .nil schema.entities index
  rw [issues, List.count_append, count_relationshipIssues (by simp) (by simp), Nat.add_zero]
  simpa using ofEntities

/-- The issues of a schema by what they are reported of: a part for each entity, and a part for each
relationship with those of its two ends. -/
structure Reported (schema : Schema) (ofEntities ofRelationships : List (List SchemaIssue)) :
    Prop where
  all : schema.issues = ofEntities.flatten ++ ofRelationships.flatten
  length : ofEntities.length = schema.entities.length
  entities : ∀ earlier entity later, schema.entities = earlier ++ entity :: later →
    ∃ part, ofEntities[earlier.length]? = some part ∧
      ∀ issue, part.count issue = issueCount earlier entity issue
  relationships : List.Forall₂ (fun relationship part => ∃ source target,
    EndIssue schema relationship relationship.fromTable relationship.fromColumn source ∧
      EndIssue schema relationship relationship.toTable relationship.toColumn target ∧
        part = source.toList ++ target.toList) schema.relationships ofRelationships

/-- The issues of every schema fall into parts, one for each entity and each relationship. -/
theorem exists_reported (schema : Schema) :
    ∃ ofEntities ofRelationships, schema.Reported ofEntities ofRelationships := by
  obtain ⟨parts, length, issues, counts⟩ :=
    entityIssues_parts .nil schema.entities
  refine ⟨parts, schema.relationships.map schema.relationshipIssues, ?_, length, counts, ?_⟩
  · rw [Schema.issues, ← List.flatMap_def, ← issues]
    rfl
  · refine List.forall₂_map_right_iff.2 (List.forall₂_same.2 fun relationship _ => ?_)
    exact ⟨_, _, endIssue_endIssue? .., endIssue_endIssue? .., rfl⟩

/-- Names of which none is blank differ if no other name is reported as repeated. -/
theorem count_le_one {names : List String} {name : String}
    (solid : ∀ name ∈ names, isBlankName name = false)
    (single : isBlankName name = false → names.count name - 1 = 0) : names.count name ≤ 1 := by
  by_cases member : name ∈ names
  · exact Nat.le_of_sub_eq_zero (single (solid name member))
  · rw [List.count_eq_zero.2 member]
    exact Nat.zero_le 1

namespace Reported

variable {ofEntities ofRelationships : List (List SchemaIssue)}

/-- Where nothing is reported, nothing is reported of an entity. -/
theorem issueCount_eq_zero (reported : schema.Reported ofEntities ofRelationships)
    (clean : schema.issues = []) {earlier later : List Entity} {entity : Entity}
    (split : schema.entities = earlier ++ entity :: later) (issue : SchemaIssue) :
    issueCount earlier entity issue = 0 := by
  obtain ⟨part, found, count⟩ := reported.entities earlier entity later split
  rw [reported.all, List.append_eq_nil_iff, List.flatten_eq_nil_iff] at clean
  rw [← count, clean.1 part (List.mem_of_getElem? found), List.count_nil]

/-- A schema of which nothing is reported is well-formed. -/
theorem wellFormed (reported : schema.Reported ofEntities ofRelationships)
    (clean : schema.issues = []) : schema.WellFormed := by
  have none {entity : Entity} (member : entity ∈ schema.entities) :
      ∃ earlier, ∀ issue, issueCount earlier entity issue = 0 := by
    obtain ⟨earlier, later, split⟩ := List.append_of_mem member
    exact ⟨earlier, reported.issueCount_eq_zero clean split⟩
  have entityNames : ∀ entity ∈ schema.entities, isBlankName entity.name = false := by
    intro entity member
    obtain ⟨earlier, zero⟩ := none member
    simpa [issueCount] using zero (.emptyEntityName earlier.length)
  have attributeNames : ∀ entity ∈ schema.entities, ∀ column ∈ entity.attributes,
      isBlankName column.name = false := by
    intro entity member
    obtain ⟨earlier, zero⟩ := none member
    simpa [issueCount] using zero (.emptyAttributeName entity.name)
  refine ⟨entityNames, attributeNames, ?_, ?_, ?_, ?_, ?_⟩
  · refine List.nodup_iff_count_le_one.2 fun name => ?_
    have zero := count_duplicateEntity_issues schema name
    rw [clean, List.count_nil] at zero
    exact count_le_one (List.forall_mem_map.2 entityNames) fun solid => by simp_all
  · intro entity member
    obtain ⟨earlier, zero⟩ := none member
    simpa [issueCount] using zero (.noAttributes entity.name)
  · intro entity member
    obtain ⟨earlier, zero⟩ := none member
    refine List.nodup_iff_count_le_one.2 fun name => ?_
    have zero := zero (.duplicateAttribute entity.name name)
    exact count_le_one (List.forall_mem_map.2 (attributeNames entity member)) fun solid => by
      simp_all [issueCount]
  · exact fun relationship member => (ends_of_issues clean member).1
  · exact fun relationship member => (ends_of_issues clean member).2

end Reported

/-- Nothing is reported of an entity of a well-formed schema. -/
theorem WellFormed.issueCount_eq_zero (formed : schema.WellFormed) {earlier later : List Entity}
    {entity : Entity} (split : schema.entities = earlier ++ entity :: later)
    (issue : SchemaIssue) : issueCount earlier entity issue = 0 := by
  have member : entity ∈ schema.entities := by simp [split]
  have entityName := formed.entityNames entity member
  have attributeNames := formed.attributeNames entity member
  have attributes := formed.attributes entity member
  have single := List.nodup_iff_count_le_one.1 (formed.distinctAttributes entity member)
  have first : entity.name ∉ earlier.map Entity.name := by
    have distinct := formed.distinctEntities
    rw [split, List.map_append, List.map_cons] at distinct
    exact fun again => (List.nodup_append.1 distinct).2.2 _ again _ List.mem_cons_self rfl
  cases issue <;> simp_all [issueCount]

/-- An end of a relationship of a well-formed schema resolves. -/
theorem WellFormed.endIssue_eq_none (formed : schema.WellFormed) {relationship : Relationship}
    {table column : String} {issue : Option SchemaIssue}
    (known : ∃ entity ∈ schema.entities, entity.name = table ∧
      ∃ found ∈ entity.attributes, found.name = column)
    (ofEnd : EndIssue schema relationship table column issue) : issue = none := by
  obtain ⟨entity, member, named, found, isColumn, called⟩ := known
  cases ofEnd with
  | missingTable absent => exact absurd named (absent entity member)
  | @missingColumn earlier later other entities first otherNamed absent =>
      have isOther : other ∈ schema.entities := by simp [entities]
      have same : entity = other := List.inj_on_of_nodup_map formed.distinctEntities member isOther
        (named.trans otherNamed.symm)
      exact absurd called (absent found (same ▸ isColumn))
  | resolved => rfl

/-- Nothing is reported of a well-formed schema. -/
theorem WellFormed.issues_eq_nil (formed : schema.WellFormed)
    {ofEntities ofRelationships : List (List SchemaIssue)}
    (reported : schema.Reported ofEntities ofRelationships) : schema.issues = [] := by
  have entities : ∀ part ∈ ofEntities, part = [] := by
    intro part member
    obtain ⟨place, inside, rfl⟩ := List.mem_iff_getElem.1 member
    have isPlace : place < schema.entities.length := reported.length ▸ inside
    have split : schema.entities = schema.entities.take place ++
        schema.entities[place] :: schema.entities.drop (place + 1) := by
      rw [← List.drop_eq_getElem_cons isPlace, List.take_append_drop]
    obtain ⟨part, found, count⟩ := reported.entities _ _ _ split
    rw [List.length_take, Nat.min_eq_left (Nat.le_of_lt isPlace),
      List.getElem?_eq_getElem inside, Option.some.injEq] at found
    refine List.eq_nil_iff_forall_not_mem.2 fun issue => List.count_eq_zero.1 ?_
    rw [found, count, formed.issueCount_eq_zero split]
  have relationships : ∀ part ∈ ofRelationships, part = [] := by
    have ends := (List.forall₂_and_left _ _).2 ⟨fun relationship member =>
      And.intro (formed.sources relationship member) (formed.targets relationship member),
      reported.relationships⟩
    refine ((List.forall₂_and_left (p := (· = [])) ofRelationships schema.relationships).1
      (ends.flip.imp fun part relationship found => And.intro ?_ found)).1
    obtain ⟨⟨source, target⟩, _, _, ofSource, ofTarget, rfl⟩ := found
    rw [formed.endIssue_eq_none source ofSource, formed.endIssue_eq_none target ofTarget]
    rfl
  rw [reported.all, List.flatten_eq_nil_iff.2 entities, List.flatten_eq_nil_iff.2 relationships,
    List.nil_append]

/-- Nothing is reported of a schema exactly if it is well formed. What is reported otherwise is told
exactly: a name of entities as often as it repeats, a blank one by its position, and in order a part
for each entity and for each relationship. -/
theorem issues_exact (schema : Schema) :
    (schema.issues = [] ↔ schema.WellFormed) ∧
      (∀ name, schema.issues.count (.duplicateEntity name) =
        if isBlankName name then 0 else (schema.entities.map Entity.name).count name - 1) ∧
      (∀ index, schema.issues.count (.emptyEntityName index) =
        if schema.entities[index]?.any fun entity => isBlankName entity.name then 1 else 0) ∧
      ∃ ofEntities ofRelationships, schema.Reported ofEntities ofRelationships := by
  obtain ⟨ofEntities, ofRelationships, reported⟩ := exists_reported schema
  exact ⟨⟨reported.wellFormed, fun formed => formed.issues_eq_nil reported⟩,
    count_duplicateEntity_issues schema, count_emptyEntityName_issues schema, ofEntities,
    ofRelationships, reported⟩

/-- A name three times, another one blank, and an end that is looked up in the first entity of its
name. -/
theorem issues_exact_repeated :
    let column (name : String) := Attribute.inferred name
    let schema : Schema :=
      { entities :=
          [{ name := "A", attributes := [column "x", column " ", column "x"] },
            { name := "\t", attributes := [] }, { name := "A", attributes := [column "y"] },
            { name := "A", attributes := [column "y"] }]
        relationships :=
          [{ fromTable := "A", fromColumn := "y", toTable := "A", toColumn := "x" }] }
    schema.issues =
        [.emptyAttributeName "A", .duplicateAttribute "A" "x", .emptyEntityName 1,
          .noAttributes "\t", .duplicateEntity "A", .duplicateEntity "A",
          .missingColumn "A" "y"] ∧
      ¬schema.WellFormed ∧ schema.issues.count (.duplicateEntity "A") = 2 ∧
        ∃ ofEntities ofRelationships, schema.Reported ofEntities ofRelationships := by
  intro column schema
  obtain ⟨wellFormed, repeated, -, parts⟩ := issues_exact schema
  exact ⟨by decide, fun formed => absurd (wellFormed.2 formed) (by decide),
    (repeated "A").trans (by decide), parts⟩

end Schema

end SchemaLoom
