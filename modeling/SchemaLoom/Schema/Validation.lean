import SchemaLoom.Schema.Basic

/-!
# Structural issues of a schema

Issues are reported and never stop any other operation. Entities are visited in
order, then the two ends of each relationship. A blank name is reported as such
and takes no part in the search for duplicates.
-/

namespace SchemaLoom

/-- Something in a schema that a careful author would mend. -/
inductive SchemaIssue where
  | emptyEntityName (index : Nat)
  | emptyAttributeName (entity : String)
  | duplicateEntity (entity : String)
  | duplicateAttribute (entity column : String)
  | noAttributes (entity : String)
  | missingTable (fromTable fromColumn table : String)
  | missingColumn (table column : String)
  deriving DecidableEq, Repr

namespace SchemaIssue

/-- The wording of an issue. -/
def message : SchemaIssue -> String
  | emptyEntityName index => "entity #" ++ toString index ++ " has an empty name"
  | emptyAttributeName entity => "entity " ++ entity ++ " has an attribute with an empty name"
  | duplicateEntity entity => "entity " ++ entity ++ " is declared more than once"
  | duplicateAttribute entity column =>
      "entity " ++ entity ++ " declares attribute " ++ column ++ " more than once"
  | noAttributes entity => "entity " ++ entity ++ " has no attributes"
  | missingTable fromTable fromColumn table =>
      "relationship " ++ fromTable ++ "." ++ fromColumn ++ " refers to missing table " ++ table
  | missingColumn table column =>
      "relationship refers to missing column " ++ table ++ "." ++ column

end SchemaIssue

namespace Schema

/-- Whether a name holds nothing but blanks. -/
def isBlankName (name : String) : Bool :=
  Text.isBlankText name.toList

/-- The issues of attribute names, given the names seen before. -/
def attributeIssues (entity : String) : List String -> List Attribute -> List SchemaIssue
  | _, [] => []
  | seen, column :: columns =>
      if isBlankName column.name then
        .emptyAttributeName entity :: attributeIssues entity seen columns
      else if seen.contains column.name then
        .duplicateAttribute entity column.name :: attributeIssues entity seen columns
      else attributeIssues entity (column.name :: seen) columns

/-- The issues of entities, given the position of the first and the names seen before. -/
def entityIssues : Nat -> List String -> List Entity -> List SchemaIssue
  | _, _, [] => []
  | index, seen, entity :: entities =>
      (if isBlankName entity.name then [.emptyEntityName index]
        else if seen.contains entity.name then [.duplicateEntity entity.name] else []) ++
      (if entity.attributes.isEmpty then [.noAttributes entity.name] else []) ++
      attributeIssues entity.name [] entity.attributes ++
      entityIssues (index + 1)
        (if isBlankName entity.name then seen else entity.name :: seen) entities

/-- The issue of one end of a relationship, if it does not resolve. -/
def endIssue? (schema : Schema) (relationship : Relationship) (table column : String) :
    Option SchemaIssue :=
  match schema.entity? table with
  | none => some (.missingTable relationship.fromTable relationship.fromColumn table)
  | some entity =>
      match entity.attribute? column with
      | none => some (.missingColumn table column)
      | some _ => none

/-- The issues of a relationship, the referring end first. -/
def relationshipIssues (schema : Schema) (relationship : Relationship) : List SchemaIssue :=
  (schema.endIssue? relationship relationship.fromTable relationship.fromColumn).toList ++
    (schema.endIssue? relationship relationship.toTable relationship.toColumn).toList

/-- All issues of a schema. -/
def issues (schema : Schema) : List SchemaIssue :=
  entityIssues 0 [] schema.entities ++ schema.relationships.flatMap schema.relationshipIssues

end Schema

end SchemaLoom
