import SchemaLoom.Json.Basic
import SchemaLoom.Schema.Diagram

/-!
# Diagrams as JSON values
-/

namespace SchemaLoom.Diagram

/-- A column as JSON. -/
def Column.toJson (column : Column) : Json :=
  .object
    [("name", .string column.name), ("type", .string column.type),
      ("isPk", .bool column.isPrimaryKey), ("isFk", .bool column.isForeignKey)]

/-- A node as JSON. -/
def Node.toJson (node : Node) : Json :=
  .object [("id", .string node.id), ("columns", .array (node.columns.map Column.toJson))]

/-- An edge as JSON; one without a label has no label field. -/
def Edge.toJson (edge : Edge) : Json :=
  .object <|
    [("from", .string edge.source), ("to", .string edge.target), ("column", .string edge.column)] ++
    (match edge.label with
      | some label => [("label", .string label)]
      | none => [])

/-- A diagram as JSON. -/
def toJson (diagram : Diagram) : Json :=
  .object
    [("nodes", .array (diagram.nodes.map Node.toJson)),
      ("edges", .array (diagram.edges.map Edge.toJson))]

end SchemaLoom.Diagram
