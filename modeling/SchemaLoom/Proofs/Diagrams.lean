import Mathlib.Data.List.Forall2
import SchemaLoom.Proofs.Issues
import SchemaLoom.Schema.Diagram

/-!
# Views of one diagram

Levels of detail are ordered by what they show. The diagram at a level is the diagram at
any higher one without some of its columns: the nodes, the edges and what is said of a
column that is shown are the same at both. Edges lead from node to node, so a relationship
to a table that is not there is not drawn. In a schema without issues there is none, and
the column that an edge leaves from is shown wherever keys are.
-/

namespace SchemaLoom

/-- The place of a level among all levels, the one that shows least first. -/
def DetailLevel.rank : DetailLevel -> Nat
  | tables => 0
  | primaryKeys => 1
  | keys => 2
  | all => 3

instance : LE DetailLevel where
  le lower upper := lower.rank ≤ upper.rank

instance (lower upper : DetailLevel) : Decidable (lower ≤ upper) :=
  inferInstanceAs (Decidable (lower.rank ≤ upper.rank))

namespace Diagram

variable {schema : Schema} {lower upper level : DetailLevel}

/-- A node with those of its columns that are chosen. -/
def Node.restrict (chosen : Column -> Bool) (node : Node) : Node :=
  { node with columns := node.columns.filter chosen }

/-- How an attribute of a table is shown. -/
structure Shows (schema : Schema) (table : String) (source : Attribute) (column : Column) :
    Prop where
  name : column.name = source.name
  type : column.type = source.columnType.spelling
  isPrimaryKey : column.isPrimaryKey = source.primaryKey
  isForeignKey : column.isForeignKey = true ↔ ∃ relationship ∈ schema.relationships,
    relationship.fromTable = table ∧ relationship.fromColumn = source.name

/-- How a relationship is drawn. -/
structure Draws (relationship : Relationship) (edge : Edge) : Prop where
  source : edge.source = relationship.fromTable
  target : edge.target = relationship.toTable
  column : edge.column = relationship.fromColumn
  label : edge.label = relationship.label

/-- What the diagrams of a schema at all levels have in common. -/
structure Nested (schema : Schema) (diagramAt : DetailLevel -> Diagram) : Prop where
  ids : ∀ level, (diagramAt level).nodes.map Node.id = schema.entities.map Entity.name
  tables : ∀ level, (diagramAt .tables).nodes =
    (diagramAt level).nodes.map (Node.restrict fun _ => false)
  primaryKeys : ∀ level, .primaryKeys ≤ level → (diagramAt .primaryKeys).nodes =
    (diagramAt level).nodes.map (Node.restrict Column.isPrimaryKey)
  keys : ∀ level, .keys ≤ level → (diagramAt .keys).nodes =
    (diagramAt level).nodes.map
      (Node.restrict fun column => column.isPrimaryKey || column.isForeignKey)
  all : List.Forall₂
    (fun entity node =>
      List.Forall₂ (Shows schema entity.name) entity.attributes node.columns)
    schema.entities (diagramAt .all).nodes
  edges : ∀ level other, (diagramAt level).edges = (diagramAt other).edges
  ends : ∀ level, ∀ edge ∈ (diagramAt level).edges,
    (∃ node ∈ (diagramAt level).nodes, node.id = edge.source) ∧
      ∃ node ∈ (diagramAt level).nodes, node.id = edge.target

/-- What diagrams show beyond that of a schema whose relationships all resolve: each of
them is drawn, and where keys are shown its column is. -/
structure Faithful (schema : Schema) (diagramAt : DetailLevel -> Diagram) : Prop where
  edges : ∀ level, List.Forall₂ Draws schema.relationships (diagramAt level).edges
  columns : ∀ level, .keys ≤ level → ∀ edge ∈ (diagramAt level).edges,
    ∀ node ∈ (diagramAt level).nodes, node.id = edge.source →
      ∃ column ∈ node.columns, column.name = edge.column ∧ column.isForeignKey = true

/-- A column that is shown at a level is shown at every higher one. -/
theorem Column.shownAt_of_le {column : Column} (below : lower ≤ upper)
    (shown : column.shownAt lower = true) : column.shownAt upper = true := by
  change lower.rank ≤ upper.rank at below
  cases lower with
  | tables => cases shown
  | primaryKeys =>
      change column.isPrimaryKey = true at shown
      cases upper with
      | tables => exact absurd below (by decide)
      | primaryKeys => exact shown
      | keys => simp [shownAt, shown]
      | all => rfl
  | keys =>
      cases upper with
      | tables | primaryKeys => exact absurd below (by decide)
      | keys => exact shown
      | all => rfl
  | all =>
      cases upper with
      | tables | primaryKeys | keys => exact absurd below (by decide)
      | all => rfl

/-- A column of a diagram shows the attribute that it comes from. -/
theorem column_shows (schema : Schema) (table : String) (source : Attribute) :
    Shows schema table source (column schema table source) where
  name := rfl
  type := rfl
  isPrimaryKey := rfl
  isForeignKey := by
    simp only [column, Schema.relationshipsFrom, List.any_eq_true, List.mem_filter, beq_iff_eq]
    constructor
    · rintro ⟨relationship, ⟨member, leaves⟩, isColumn⟩
      exact ⟨relationship, member, leaves, isColumn⟩
    · rintro ⟨relationship, member, leaves, isColumn⟩
      exact ⟨relationship, ⟨member, leaves⟩, isColumn⟩

/-- The node of an entity at a level, from that at a higher one. -/
theorem node_of_le (below : lower ≤ upper) (entity : Entity) :
    node schema lower entity = (node schema upper entity).restrict (Column.shownAt · lower) := by
  simp only [node, Node.restrict, List.filter_filter]
  congr 1
  apply List.filter_congr
  intro column _
  cases shown : column.shownAt lower with
  | false => rfl
  | true => rw [Column.shownAt_of_le below shown]; rfl

/-- The nodes of a level are those of a higher one with fewer columns. -/
theorem nodes_of_le (below : lower ≤ upper) :
    (ofSchema schema lower).nodes =
      (ofSchema schema upper).nodes.map (Node.restrict (Column.shownAt · lower)) := by
  simp only [ofSchema, List.map_map]
  apply List.map_congr_left
  intro entity _
  exact node_of_le below entity

/-- The nodes are those of the entities. -/
theorem mem_nodes {shown : Node} :
    shown ∈ (ofSchema schema level).nodes ↔
      ∃ entity ∈ schema.entities, node schema level entity = shown :=
  List.mem_map

/-- Edges are the relationships whose two tables are both present. -/
theorem mem_edges {drawn : Edge} :
    drawn ∈ (ofSchema schema level).edges ↔
      ∃ relationship ∈ schema.relationships, edge relationship = drawn ∧
        (∃ entity ∈ schema.entities, entity.name = relationship.fromTable) ∧
          ∃ entity ∈ schema.entities, entity.name = relationship.toTable := by
  simp only [ofSchema, List.mem_map, List.mem_filter, Bool.and_eq_true, Schema.entity?_isSome]
  constructor
  · rintro ⟨relationship, ⟨member, ends⟩, drawn⟩
    exact ⟨relationship, member, drawn, ends⟩
  · rintro ⟨relationship, member, drawn, ends⟩
    exact ⟨relationship, ⟨member, ends⟩, drawn⟩

/-- Each entity has a node at every level. -/
theorem exists_node {table : String} (level : DetailLevel)
    (found : ∃ entity ∈ schema.entities, entity.name = table) :
    ∃ shown ∈ (ofSchema schema level).nodes, shown.id = table := by
  obtain ⟨entity, member, named⟩ := found
  exact ⟨node schema level entity, mem_nodes.2 ⟨entity, member, rfl⟩, named⟩

/-- The diagrams of a schema are nested. -/
theorem ofSchema_nested (schema : Schema) : Nested schema (ofSchema schema) where
  ids := by
    intro level
    simp only [ofSchema, List.map_map]
    rfl
  tables := fun level => nodes_of_le (Nat.zero_le level.rank)
  primaryKeys := fun _ below => nodes_of_le below
  keys := fun _ below => nodes_of_le below
  all := by
    rw [ofSchema, List.forall₂_map_right_iff, List.forall₂_same]
    intro entity _
    have everything : (node schema .all entity).columns =
        entity.attributes.map (column schema entity.name) := by
      rw [node, List.filter_eq_self]
      intro column _
      rfl
    rw [everything, List.forall₂_map_right_iff, List.forall₂_same]
    intro source _
    exact column_shows schema entity.name source
  edges := fun _ _ => rfl
  ends := by
    intro level drawn member
    obtain ⟨relationship, -, rfl, source, target⟩ := mem_edges.1 member
    exact ⟨exists_node level source, exists_node level target⟩

/-- Where all relationships resolve, none is left out. -/
theorem edges_of_issues (clean : schema.issues = []) (level : DetailLevel) :
    (ofSchema schema level).edges = schema.relationships.map edge := by
  simp only [ofSchema]
  congr 1
  apply List.filter_eq_self.2
  intro relationship member
  obtain ⟨⟨source, isSource, fromTable, -⟩, target, isTarget, toTable, -⟩ :=
    Schema.ends_of_issues clean member
  rw [Bool.and_eq_true, Schema.entity?_isSome, Schema.entity?_isSome]
  exact ⟨⟨source, isSource, fromTable⟩, target, isTarget, toTable⟩

/-- The diagrams of a schema without issues are faithful. -/
theorem ofSchema_faithful (clean : schema.issues = []) : Faithful schema (ofSchema schema) where
  edges := by
    intro level
    rw [edges_of_issues clean, List.forall₂_map_right_iff, List.forall₂_same]
    intro relationship _
    exact ⟨rfl, rfl, rfl, rfl⟩
  columns := by
    intro level withKeys drawn isEdge shown isNode leaves
    obtain ⟨relationship, member, rfl, -⟩ := mem_edges.1 isEdge
    obtain ⟨entity, isEntity, rfl⟩ := mem_nodes.1 isNode
    have isLeaving : relationship ∈ schema.relationshipsFrom entity.name :=
      List.mem_filter.2 ⟨member, beq_iff_eq.2 leaves.symm⟩
    obtain ⟨source, isAttribute, named⟩ :=
      Schema.leaving_of_issues clean isEntity relationship isLeaving
    have foreign : (column schema entity.name source).isForeignKey = true :=
      (column_shows schema entity.name source).isForeignKey.2
        ⟨relationship, member, leaves.symm, named.symm⟩
    have shownWithKeys : (column schema entity.name source).shownAt .keys = true := by
      rw [Column.shownAt, foreign, Bool.or_true]
    refine ⟨column schema entity.name source, ?_, named, foreign⟩
    apply List.mem_filter.2
    exact ⟨List.mem_map_of_mem isAttribute, Column.shownAt_of_le withKeys shownWithKeys⟩

/-- The diagrams of a schema are nested views of one graph, and show every relationship
of a schema without issues. -/
theorem ofSchema_nested_and_faithful (schema : Schema) :
    Nested schema (ofSchema schema) ∧
      (schema.issues = [] → Faithful schema (ofSchema schema)) :=
  ⟨ofSchema_nested schema, ofSchema_faithful⟩

/-- Books and loans of them, whose primary key is not named like an identifier. -/
def lendingSchema : Schema :=
  { entities :=
      [.ofNames "Book" ["ISBN_id", "Title"],
        { name := "Loan"
          attributes := [.inferred "Due_Date", .inferred "book",
            { Attribute.inferred "number" with primaryKey := true }] }]
    relationships :=
      [{ fromTable := "Loan", fromColumn := "book", toTable := "Book", toColumn := "ISBN_id",
          label := some "lends" }] }

/-- The foreign column is left out where only primary keys are shown, and its edge is not. -/
theorem ofSchema_nested_and_faithful_lending :
    lendingSchema.issues = [] ∧ Faithful lendingSchema (ofSchema lendingSchema) ∧
      ((ofSchema lendingSchema .primaryKeys).nodes.map fun node =>
        node.columns.map Column.name) = [["ISBN_id"], ["number"]] ∧
      ((ofSchema lendingSchema .keys).nodes.map fun node =>
        node.columns.map Column.name) = [["ISBN_id"], ["book", "number"]] := by
  have clean : lendingSchema.issues = [] := by decide
  obtain ⟨-, faithful⟩ := ofSchema_nested_and_faithful lendingSchema
  exact ⟨clean, faithful clean, by decide, by decide⟩

end Diagram

end SchemaLoom
