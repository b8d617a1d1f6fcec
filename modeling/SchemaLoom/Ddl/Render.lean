import SchemaLoom.Schema.Basic

/-!
# Schemas as table statements

Each entity becomes one statement. Types and constraints come from the names alone,
so two schemas with the same names have the same text. Names are written as they
are, without quotes.
-/

namespace SchemaLoom.Ddl

/-- The table of an entity is its name with an `s`. -/
def pluralize (name : String) : String :=
  name ++ "s"

/-- The line of a column. -/
def columnLine (name : String) (primaryKey : Bool) : String :=
  let inference := Inference.ofName name
  "  " ++ name ++ " " ++ inference.columnType.spelling ++
    String.join ((inference.constraints primaryKey).map fun constraint =>
      " " ++ constraint.keywords)

/-- The line of a foreign key. -/
def foreignKeyLine (relationship : Relationship) : String :=
  "  FOREIGN KEY (" ++ relationship.fromColumn ++ ") REFERENCES " ++
    pluralize relationship.toTable ++ "(" ++ relationship.toColumn ++ ")"

/-- The lines of a table body: the columns, then the foreign keys. -/
def bodyLines (entity : Entity) (relationships : List Relationship) : List String :=
  let names := entity.attributes.map Attribute.name
  List.zipWith columnLine names (Inference.primaryKeyFlags names) ++
    relationships.map foreignKeyLine

/-- The statement of one entity. -/
def renderEntity (entity : Entity) (relationships : List Relationship) : String :=
  let lines := bodyLines entity relationships
  "CREATE TABLE IF NOT EXISTS " ++ pluralize entity.name ++ " (\n" ++
    (if lines.isEmpty then "" else Text.join ",\n" lines ++ "\n") ++ ");"

/-- The statements of a schema, one blank line between neighbours. -/
def render (schema : Schema) : String :=
  Text.join "\n\n" (schema.entities.map fun entity =>
    renderEntity entity (schema.relationshipsFrom entity.name))

/-- The statement that drops a table if there is one. -/
def dropStatement (table : String) : String :=
  "DROP TABLE IF EXISTS " ++ table ++ ";"

/-- A script that drops tables, which is a remark if there are none. -/
def dropScript (tables : List String) : String :=
  if tables.isEmpty then "-- No tables to drop"
  else Text.join "\n" (tables.map dropStatement)

end SchemaLoom.Ddl
