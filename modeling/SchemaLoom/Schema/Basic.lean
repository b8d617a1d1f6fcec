import SchemaLoom.Schema.Inference

/-!
# Schemas

A schema lists entities with their attributes and, apart from them, the
relationships between columns. Relationships name their ends; nothing forces the
names to resolve, which `Schema.Validation` reports.
-/

namespace SchemaLoom

/-- A column of an entity. -/
structure Attribute where
  name : String
  columnType : ColumnType
  primaryKey : Bool
  unique : Bool
  notNull : Bool
  deriving DecidableEq, Repr, Inhabited

namespace Attribute

/-- The attribute that a name suggests; it does not hold the primary key. -/
def inferred (name : String) : Attribute :=
  let inference := Inference.ofName name
  { name
    columnType := inference.columnType
    primaryKey := false
    unique := inference.unique
    notNull := inference.notNull }

/-- An unconstrained attribute of a declared type. -/
def declared (name spelling : String) : Attribute :=
  { name
    columnType := .ofSpelling spelling
    primaryKey := false
    unique := false
    notNull := false }

end Attribute

/-- A table: a name and its columns in order. -/
structure Entity where
  name : String
  attributes : List Attribute
  deriving DecidableEq, Repr, Inhabited

namespace Entity

/-- The entity whose attributes are inferred from their names. The first
identifier holds the primary key. -/
def ofNames (name : String) (names : List String) : Entity :=
  { name
    attributes := List.zipWith (fun attributeName primaryKey =>
      { Attribute.inferred attributeName with primaryKey })
      names (Inference.primaryKeyFlags names) }

/-- The first attribute of a given name. -/
def attribute? (entity : Entity) (name : String) : Option Attribute :=
  entity.attributes.find? fun column => column.name == name

/-- The first attribute that holds a primary key. -/
def primaryKey? (entity : Entity) : Option Attribute :=
  entity.attributes.find? fun column => column.primaryKey

end Entity

/-- A foreign key of one column, given by the names of its two ends. -/
structure Relationship where
  fromTable : String
  fromColumn : String
  toTable : String
  toColumn : String
  label : Option String := none
  deriving DecidableEq, Repr, Inhabited

namespace Relationship

/-- The four names of the ends, the referring end first. -/
def endpoints (relationship : Relationship) : List String :=
  [relationship.fromTable, relationship.fromColumn, relationship.toTable, relationship.toColumn]

/-- The same relationship under a label. -/
def withLabel (relationship : Relationship) (label : String) : Relationship :=
  { relationship with label := some label }

end Relationship

/-- Entities and the relationships between them. -/
structure Schema where
  entities : List Entity
  relationships : List Relationship
  deriving DecidableEq, Repr, Inhabited

namespace Schema

/-- The schema without entities and relationships. -/
def empty : Schema :=
  { entities := [], relationships := [] }

/-- Whether a schema has no entities. -/
def isEmpty (schema : Schema) : Bool :=
  schema.entities.isEmpty

/-- The first entity of a given name. -/
def entity? (schema : Schema) (name : String) : Option Entity :=
  schema.entities.find? fun entity => entity.name == name

/-- The relationships that leave a table, in order. -/
def relationshipsFrom (schema : Schema) (table : String) : List Relationship :=
  schema.relationships.filter fun relationship => relationship.fromTable == table

/-- The entities and relationships of two schemas, those of the first before those
of the second. -/
def append (first second : Schema) : Schema :=
  { entities := first.entities ++ second.entities
    relationships := first.relationships ++ second.relationships }

end Schema

end SchemaLoom
