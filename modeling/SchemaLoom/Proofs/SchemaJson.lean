import SchemaLoom.Proofs.ColumnTypes
import SchemaLoom.Proofs.JsonText
import SchemaLoom.Schema.Json

/-!
# Schemas survive their JSON text

A schema is written strictly and read leniently: every attribute is read as an item
that could have left fields out, inferred from its name, and then overruled by all
fields that are given. Since writing gives them all, a schema with normal types is
read back as it was.
-/

namespace SchemaLoom

open Json

/-- The member of an object with a string value, as it is read. -/
def Json.Tree.textMember (name value : String) : Quoted × Tree :=
  (Quoted.whole name, .string (Quoted.whole value))

/-- The tree of an attribute. -/
def Attribute.tree (column : Attribute) : Tree :=
  .object
    [Tree.textMember "name" column.name, Tree.textMember "type" column.columnType.spelling,
      (Quoted.whole "primaryKey", .bool column.primaryKey),
      (Quoted.whole "unique", .bool column.unique),
      (Quoted.whole "notNull", .bool column.notNull)] none

/-- The tree of an entity. -/
def Entity.tree (entity : Entity) : Tree :=
  .object
    [Tree.textMember "name" entity.name,
      (Quoted.whole "attributes", .array (entity.attributes.map Attribute.tree) none)] none

/-- The tree of a relationship. -/
def Relationship.tree (relationship : Relationship) : Tree :=
  .object
    ([Tree.textMember "fromTable" relationship.fromTable,
      Tree.textMember "fromColumn" relationship.fromColumn,
      Tree.textMember "toTable" relationship.toTable,
      Tree.textMember "toColumn" relationship.toColumn] ++
        relationship.label.toList.map (Tree.textMember "label")) none

/-- The tree of a schema. -/
def Schema.tree (schema : Schema) : Tree :=
  .object
    [(Quoted.whole "entities", .array (schema.entities.map Entity.tree) none),
      (Quoted.whole "relationships", .array (schema.relationships.map Relationship.tree) none)]
    none

/-- Values that each have a tree have one as a list. -/
theorem Json.itemTrees?_map {α : Type} {toJson : α -> Json} {toTree : α -> Tree}
    (each : ∀ value, tree? (toJson value) = some (toTree value)) (values : List α) :
    itemTrees? (values.map toJson) = some (values.map toTree) := by
  induction values with
  | nil => rfl
  | cons value values inductionHypothesis =>
      rw [List.map_cons, itemTrees?, each, inductionHypothesis]
      rfl

/-- The tree of an attribute is what its JSON is read as. -/
theorem Attribute.tree?_toJson (column : Attribute) : tree? column.toJson = some column.tree :=
  rfl

/-- The tree of an entity is what its JSON is read as. -/
theorem Entity.tree?_toJson (entity : Entity) : tree? entity.toJson = some entity.tree := by
  simp [toJson, tree?, memberTrees?, itemTrees?_map Attribute.tree?_toJson, tree, Tree.textMember]

/-- The tree of a relationship is what its JSON is read as. -/
theorem Relationship.tree?_toJson (relationship : Relationship) :
    tree? relationship.toJson = some relationship.tree := by
  obtain ⟨fromTable, fromColumn, toTable, toColumn, label⟩ := relationship
  cases label <;> rfl

/-- The tree of a schema is what its JSON is read as. -/
theorem Schema.tree?_toJson (schema : Schema) : tree? schema.toJson = some schema.tree := by
  simp [toJson, tree?, memberTrees?, itemTrees?_map Entity.tree?_toJson,
    itemTrees?_map Relationship.tree?_toJson, tree]

/-- An array of trees that all decode gives their values in order. -/
theorem Json.Tree.decodeArray_map {α β : Type} {decode : Tree -> Decoded β} {toTree : α -> Tree}
    {result : α -> β} {values : List α}
    (each : ∀ value ∈ values, decode (toTree value) = .ok (result value)) :
    (Tree.array (values.map toTree) none).decodeArray decode = .ok (values.map result) := by
  rw [decodeArray]
  induction values with
  | nil => rfl
  | cons value values inductionHypothesis =>
      obtain ⟨here, others⟩ := List.forall_mem_cons.1 each
      rw [List.map_cons, decodeItems, here, inductionHypothesis others]
      rfl

/-- The item that the tree of an attribute is read as: every field is given. -/
def Attribute.item (column : Attribute) : AttributeItem :=
  .described column.name (some column.columnType) (some column.primaryKey) (some column.unique)
    (some column.notNull)

/-- An attribute with a normal type is decoded as an item that gives all of it. -/
theorem Attribute.decode_tree {column : Attribute} (normal : column.columnType.IsNormal) :
    AttributeItem.decode column.tree = .ok column.item := by
  have sound : column.tree.check AttributeItem.depthLimit = .ok () := by
    simp [tree, Tree.textMember, Tree.check, Tree.checkMembers, AttributeItem.depthLimit,
      Except.bind, Except.map, stopAt]
  have item : AttributeItem.ofTree? column.tree = some column.item := by
    have type : ColumnType.ofSpelling column.columnType.spelling = column.columnType := normal
    simp [tree, Tree.textMember, AttributeItem.ofTree?, AttributeItem.Fields.readAll?,
      AttributeItem.Fields.read?, AttributeItem.Fields.item?, AttributeItem.optional?,
      AttributeItem.columnType?, AttributeItem.bool?, Tree.string?, Except.toOption, type,
      Attribute.item]
  rw [AttributeItem.decode, sound]
  simp [Decoded.ofText, Except.bind, item]

/-- Items that give every field overrule whatever their names suggest. -/
theorem Entity.ofItems_item (name : String) (attributes : List Attribute) :
    ofItems name (attributes.map Attribute.item) = { name, attributes } := by
  have overrule : ∀ (columns : List Attribute) (flags : List Bool),
      flags.length = columns.length →
      List.zipWith (AttributeItem.resolve true) (columns.map Attribute.item)
        (List.zipWith (fun attributeName primaryKey =>
          { Attribute.inferred attributeName with primaryKey })
          ((columns.map Attribute.item).map AttributeItem.name) flags) = columns := by
    intro columns
    induction columns with
    | nil => exact fun flags _ => rfl
    | cons column columns inductionHypothesis =>
        intro flags length
        cases flags with
        | nil => cases length
        | cons flag flags =>
            simp only [List.map_cons, List.zipWith_cons_cons,
              inductionHypothesis flags (Nat.succ.inj length)]
            rfl
  cases attributes with
  | nil => rfl
  | cons column columns =>
      have given : ((column :: columns).map Attribute.item).any AttributeItem.givesKey = true := rfl
      have length := Inference.length_primaryKeyFlags
        (((column :: columns).map Attribute.item).map AttributeItem.name)
      rw [ofItems, given]
      simp only [ofNames]
      rw [overrule (column :: columns) _ (by simpa using length)]

/-- An entity with normal types is decoded as itself. -/
theorem Entity.decode_tree {entity : Entity} (normal : entity.TypesNormal) :
    Entity.decode entity.tree = .ok entity := by
  have items := Tree.decodeArray_map fun column member =>
    Attribute.decode_tree (normal column member)
  simp [tree, Tree.textMember, decode, decodeMembers, Tree.decodeString, Decoded.ofText, stopAt,
    items, bind, Except.bind, ofItems_item]

/-- A relationship is decoded as itself. -/
theorem Relationship.decode_tree (relationship : Relationship) :
    Relationship.decode relationship.tree = .ok relationship := by
  obtain ⟨fromTable, fromColumn, toTable, toColumn, label⟩ := relationship
  cases label <;>
    simp [tree, Tree.textMember, decode, decodeMembers, Fields.read, Fields.relationship, required,
      Tree.decodeString, Tree.decodeStringOrNull, Decoded.ofText, stopAt, bind, Except.bind,
      Except.map]

/-- A schema with normal types is decoded as itself. -/
theorem Schema.decode_tree {schema : Schema} (normal : schema.TypesNormal) :
    Schema.decode schema.tree = .ok schema := by
  have entities := Tree.decodeArray_map fun entity member =>
    Entity.decode_tree (normal entity member)
  have each : ∀ relationship ∈ schema.relationships,
      Relationship.decode relationship.tree = .ok relationship :=
    fun relationship _ => relationship.decode_tree
  have relationships := Tree.decodeArray_map each
  simp [tree, decode, decodeMembers, Decoded.ofText, stopAt, entities, relationships, bind,
    Except.bind]

/-- The JSON text of a schema with normal types decodes to the schema, in either layout,
whatever its names and labels hold; and only schemas made by hand can have other types. -/
theorem Schema.jsonText_roundTrip :
    (∀ schema : Schema, schema.TypesNormal → ∀ layout : Layout,
      ofJsonText (schema.jsonText layout) = .ok schema) ∧
    (∀ document : String, (Ddl.schemaOf document).TypesNormal) ∧
    (∀ (text : String) (schema : Schema), ofJsonText text = .ok schema → schema.TypesNormal) ∧
    (∀ (name : String) (names : List String), (Entity.ofNames name names).TypesNormal) := by
  refine ⟨?_, Ddl.schemaOf_typesNormal, ?_, Entity.ofNames_typesNormal⟩
  · intro schema normal layout
    rw [ofJsonText, jsonText, Document.read_write (tree?_toJson schema), decode_tree normal]
    rfl
  · intro text schema found
    exact ofJsonText_typesNormal found

/-- Quotes, backslashes and control characters in names, types and labels. -/
theorem Schema.jsonText_roundTrip_escapes :
    let schema : Schema :=
      { entities :=
          [{ name := "\x22a\\\x01"
             attributes :=
               [{ name := "\tid\n", columnType := .declared "ENUM('\x22', '\x1f')",
                  primaryKey := false, unique := true, notNull := false },
                 { name := "", columnType := .date, primaryKey := true, unique := false,
                   notNull := true }] }]
        relationships :=
          [{ fromTable := "\x22a\\\x01", fromColumn := "\tid\n", toTable := "\u212a",
             toColumn := "/", label := some "\\u0041\x08" }] }
    schema.TypesNormal ∧ ofJsonText (schema.jsonText .pretty) = .ok schema ∧
      ofJsonText (schema.jsonText .compact) = .ok schema :=
  ⟨by decide, jsonText_roundTrip.1 _ (by decide) .pretty,
    jsonText_roundTrip.1 _ (by decide) .compact⟩

end SchemaLoom
