import SchemaLoom.Json.Basic
import SchemaLoom.Schema.Basic

/-!
# Schemas as JSON values

Every field is written, in declaration order, except that a relationship without a
label has no label field.
-/

namespace SchemaLoom

/-- A type as JSON: its spelling. -/
def ColumnType.toJson (type : ColumnType) : Json :=
  .string type.spelling

/-- An attribute as JSON. -/
def Attribute.toJson (column : Attribute) : Json :=
  .object
    [("name", .string column.name), ("type", column.columnType.toJson),
      ("primaryKey", .bool column.primaryKey), ("unique", .bool column.unique),
      ("notNull", .bool column.notNull)]

/-- An entity as JSON. -/
def Entity.toJson (entity : Entity) : Json :=
  .object
    [("name", .string entity.name), ("attributes", .array (entity.attributes.map Attribute.toJson))]

/-- A relationship as JSON. -/
def Relationship.toJson (relationship : Relationship) : Json :=
  .object <|
    [("fromTable", .string relationship.fromTable), ("fromColumn", .string relationship.fromColumn),
      ("toTable", .string relationship.toTable), ("toColumn", .string relationship.toColumn)] ++
    (match relationship.label with
      | some label => [("label", .string label)]
      | none => [])

/-- A schema as JSON. -/
def Schema.toJson (schema : Schema) : Json :=
  .object
    [("entities", .array (schema.entities.map Entity.toJson)),
      ("relationships", .array (schema.relationships.map Relationship.toJson))]

/-- The JSON text of a schema. -/
def Schema.jsonText (schema : Schema) (layout : Json.Layout) : String :=
  schema.toJson.render layout

end SchemaLoom
