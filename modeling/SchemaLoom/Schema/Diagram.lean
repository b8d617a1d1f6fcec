import SchemaLoom.Schema.Basic

/-!
# Diagrams

A diagram is the view of a schema that a renderer draws: one node an entity and
one edge a relationship whose two tables are both present. The level of detail
selects the columns of the nodes and nothing else.
-/

namespace SchemaLoom

/-- How much of each entity a diagram shows. -/
inductive DetailLevel where
  | tables
  | primaryKeys
  | keys
  | all
  deriving DecidableEq, Repr

/-- The level of a given name. -/
def DetailLevel.ofName? : String -> Option DetailLevel
  | "tables" => some tables
  | "pk" => some primaryKeys
  | "pk_fk" => some keys
  | "all" => some all
  | _ => none

namespace Diagram

/-- A column as drawn in its node. -/
structure Column where
  name : String
  type : String
  isPrimaryKey : Bool
  isForeignKey : Bool
  deriving DecidableEq, Repr

/-- An entity as drawn. -/
structure Node where
  id : String
  columns : List Column
  deriving DecidableEq, Repr

/-- A relationship as drawn, from the referring table. -/
structure Edge where
  source : String
  target : String
  column : String
  label : Option String
  deriving DecidableEq, Repr

end Diagram

/-- Nodes and the edges between them. -/
structure Diagram where
  nodes : List Diagram.Node
  edges : List Diagram.Edge
  deriving DecidableEq, Repr

namespace Diagram

/-- Whether a level shows a column. -/
def Column.shownAt (column : Column) : DetailLevel -> Bool
  | .tables => false
  | .primaryKeys => column.isPrimaryKey
  | .keys => column.isPrimaryKey || column.isForeignKey
  | .all => true

/-- An attribute of a table as a column. It is a foreign key when some relationship
leaves the table from it. -/
def column (schema : Schema) (table : String) (source : Attribute) : Column :=
  { name := source.name
    type := source.columnType.spelling
    isPrimaryKey := source.primaryKey
    isForeignKey := (schema.relationshipsFrom table).any fun relationship =>
      relationship.fromColumn == source.name }

/-- An entity as a node at a level of detail. -/
def node (schema : Schema) (level : DetailLevel) (entity : Entity) : Node :=
  { id := entity.name
    columns := (entity.attributes.map (column schema entity.name)).filter fun column =>
      column.shownAt level }

/-- A relationship as an edge. -/
def edge (relationship : Relationship) : Edge :=
  { source := relationship.fromTable
    target := relationship.toTable
    column := relationship.fromColumn
    label := relationship.label }

/-- The diagram of a schema at a level of detail. -/
def ofSchema (schema : Schema) (level : DetailLevel) : Diagram :=
  let known (table : String) : Bool := (schema.entity? table).isSome
  { nodes := schema.entities.map (node schema level)
    edges := (schema.relationships.filter fun relationship =>
      known relationship.fromTable && known relationship.toTable).map edge }

end Diagram

end SchemaLoom
