import SchemaLoom.Json.Reading
import SchemaLoom.Schema.Basic

/-!
# Schemas from JSON text

Decoding is lenient about shape. An attribute may be a bare name, and whatever it
does not say is inferred from its name. Three fields have a second name. Every
record may also be an array of its fields in order, and unknown members are skipped.
-/

namespace SchemaLoom

open Json

/-- An attribute as given: a bare name, or a name and what is said beyond it. -/
inductive AttributeItem where
  | bare (name : String)
  | described (name : String) (columnType : Option ColumnType)
      (primaryKey unique notNull : Option Bool)
  deriving DecidableEq, Repr

namespace AttributeItem

/-- The name of an item. -/
def name : AttributeItem -> String
  | bare name => name
  | described name _ _ _ _ => name

/-- Whether an item says if it holds the primary key. -/
def givesKey : AttributeItem -> Bool
  | bare _ => false
  | described _ _ primaryKey _ _ => primaryKey.isSome

/-- The attribute that an item stands for. A bare name is as inferred. Where some
item of the entity says whether it holds the primary key, a described one that does
not say so holds none. -/
def resolve (keyGiven : Bool) (item : AttributeItem) (inferred : Attribute) : Attribute :=
  match item with
  | bare _ => inferred
  | described _ columnType primaryKey unique notNull =>
      { name := inferred.name
        columnType := columnType.getD inferred.columnType
        primaryKey := if keyGiven then primaryKey.getD false else inferred.primaryKey
        unique := unique.getD inferred.unique
        notNull := notNull.getD inferred.notNull }

end AttributeItem

/-- The entity of a name and its items. -/
def Entity.ofItems (name : String) (items : List AttributeItem) : Entity :=
  let inferred := Entity.ofNames name (items.map AttributeItem.name)
  let keyGiven := items.any AttributeItem.givesKey
  { name
    attributes := List.zipWith (AttributeItem.resolve keyGiven) items inferred.attributes }

namespace AttributeItem

/-- A field that may be null. The outer option tells whether the value is of the
right shape. -/
def optional? {α : Type} (read? : Tree -> Option α) : Tree -> Option (Option α)
  | .null => some none
  | value => (read? value).map some

/-- A Boolean value. -/
def bool? : Tree -> Option Bool
  | .bool value => some value
  | _ => none

/-- A type given by its spelling. -/
def columnType? (value : Tree) : Option ColumnType :=
  value.string?.map ColumnType.ofSpelling

/-- The fields of an item read so far. -/
structure Fields where
  name : Option String := none
  columnType : Option (Option ColumnType) := none
  primaryKey : Option (Option Bool) := none
  unique : Option (Option Bool) := none
  notNull : Option (Option Bool) := none

/-- Reads one member. A field given twice is refused. -/
def Fields.read? (fields : Fields) (name : String) (value : Tree) : Option Fields :=
  match name with
  | "name" =>
      if fields.name.isSome then none
      else value.string?.map fun text => { fields with name := some text }
  | "type" =>
      if fields.columnType.isSome then none
      else (optional? columnType? value).map fun type => { fields with columnType := some type }
  | "primaryKey" =>
      if fields.primaryKey.isSome then none
      else (optional? bool? value).map fun flag => { fields with primaryKey := some flag }
  | "unique" =>
      if fields.unique.isSome then none
      else (optional? bool? value).map fun flag => { fields with unique := some flag }
  | "notNull" =>
      if fields.notNull.isSome then none
      else (optional? bool? value).map fun flag => { fields with notNull := some flag }
  | _ => some fields

/-- Reads members one after another. -/
def Fields.readAll? (fields : Fields) : List (Quoted × Tree) -> Option Fields
  | [] => some fields
  | (name, value) :: members =>
      match name.text with
      | .error _ => none
      | .ok text =>
          match fields.read? text value with
          | none => none
          | some later => later.readAll? members

/-- The item of all fields. Only the name is required. -/
def Fields.item? (fields : Fields) : Option AttributeItem :=
  fields.name.map fun name =>
    .described name (fields.columnType.getD none) (fields.primaryKey.getD none)
      (fields.unique.getD none) (fields.notNull.getD none)

/-- The names of the fields in order. -/
def fieldNames : List String :=
  ["name", "type", "primaryKey", "unique", "notNull"]

/-- Reads an array of fields in order. -/
def Fields.readInOrder? (fields : Fields) : List String -> List Tree -> Option Fields
  | _, [] => some fields
  | [], _ :: _ => none
  | name :: names, value :: values =>
      match fields.read? name value with
      | none => none
      | some later => later.readInOrder? names values

/-- The item that a value stands for. -/
def ofTree? : Tree -> Option AttributeItem
  | .string written => written.text.toOption.map AttributeItem.bare
  | .object members _ => (({} : Fields).readAll? members).bind Fields.item?
  | .array items _ => (({} : Fields).readInOrder? fieldNames items).bind Fields.item?
  | _ => none

/-- How many arrays and objects may nest in an attribute: what is left of 127 below
the schema, its entities, the entity and its attributes. -/
def depthLimit : Nat :=
  123

/-- Decodes an attribute. It is read whole before its shape is judged. -/
def decode (value : Tree) : Decoded AttributeItem :=
  (Decoded.ofText (value.check depthLimit)).bind fun _ =>
    match ofTree? value with
    | some item => .ok item
    | none => .error (.noVariant "RawAttribute")

end AttributeItem

namespace Entity

/-- How messages name an entity. -/
def shapeName : String :=
  "struct RawEntity"

/-- Reads the members of an entity, given its name and items read so far. -/
def decodeMembers (stop : Option Fault) (name : Option String)
    (items : Option (List AttributeItem)) : List (Quoted × Tree) -> Decoded Entity
  | [] => do
      Decoded.ofText (stopAt stop)
      match name with
      | none => .error (.missingField "name")
      | some name => .ok (Entity.ofItems name (items.getD []))
  | (key, value) :: members => do
      let field ← Decoded.ofText key.text
      if field == "name" then
        if name.isSome then .error (.duplicateField "name")
        else decodeMembers stop (some (← value.decodeString)) items members
      else if field == "attributes" || field == "columns" then
        if items.isSome then .error (.duplicateField "attributes")
        else
          decodeMembers stop name (some (← value.decodeArray AttributeItem.decode)) members
      else
        Decoded.ofText value.skip
        decodeMembers stop name items members

/-- Reads an entity given as an array of its fields. -/
def decodeFields (stop : Option Fault) (fields : List Tree) : Decoded Entity := do
  match ← Tree.nextItem fields stop with
  | none => .error (.wrongLength 0 (shapeName ++ " with 2 elements"))
  | some first =>
      let name ← first.decodeString
      match ← Tree.nextItem (fields.drop 1) stop with
      | none => .ok (Entity.ofItems name [])
      | some second =>
          let items ← second.decodeArray AttributeItem.decode
          Tree.endItems (fields.drop 2) stop
          .ok (Entity.ofItems name items)

/-- Decodes an entity. -/
def decode : Tree -> Decoded Entity
  | .object members stop => decodeMembers stop none none members
  | .array fields stop => decodeFields stop fields
  | other => .error (other.mismatch shapeName)

end Entity

namespace Relationship

/-- How messages name a relationship. -/
def shapeName : String :=
  "struct Relationship"

/-- The fields of a relationship read so far. -/
structure Fields where
  fromTable : Option String := none
  fromColumn : Option String := none
  toTable : Option String := none
  toColumn : Option String := none
  label : Option (Option String) := none

/-- A required field. -/
def required (name : String) : Option String -> Decoded String
  | none => .error (.missingField name)
  | some value => .ok value

/-- The relationship of all fields. -/
def Fields.relationship (fields : Fields) : Decoded Relationship := do
  let fromTable ← required "fromTable" fields.fromTable
  let fromColumn ← required "fromColumn" fields.fromColumn
  let toTable ← required "toTable" fields.toTable
  let toColumn ← required "toColumn" fields.toColumn
  .ok { fromTable, fromColumn, toTable, toColumn, label := fields.label.getD none }

/-- Reads one member. -/
def Fields.read (fields : Fields) (field : String) (value : Tree) : Decoded Fields :=
  match field with
  | "fromTable" =>
      if fields.fromTable.isSome then .error (.duplicateField "fromTable")
      else value.decodeString.map fun name => { fields with fromTable := some name }
  | "fromColumn" =>
      if fields.fromColumn.isSome then .error (.duplicateField "fromColumn")
      else value.decodeString.map fun name => { fields with fromColumn := some name }
  | "toTable" =>
      if fields.toTable.isSome then .error (.duplicateField "toTable")
      else value.decodeString.map fun name => { fields with toTable := some name }
  | "toColumn" =>
      if fields.toColumn.isSome then .error (.duplicateField "toColumn")
      else value.decodeString.map fun name => { fields with toColumn := some name }
  | "label" | "relationshipName" =>
      if fields.label.isSome then .error (.duplicateField "label")
      else value.decodeStringOrNull.map fun label => { fields with label := some label }
  | _ => (Decoded.ofText value.skip).map fun _ => fields

/-- Reads the members of a relationship. -/
def decodeMembers (stop : Option Fault) (fields : Fields) :
    List (Quoted × Tree) -> Decoded Relationship
  | [] => (Decoded.ofText (stopAt stop)).bind fun _ => fields.relationship
  | (key, value) :: members =>
      (Decoded.ofText key.text).bind fun field =>
        (fields.read field value).bind fun later => decodeMembers stop later members

/-- The names of the required fields in order. -/
def fieldNames : List String :=
  ["fromTable", "fromColumn", "toTable", "toColumn"]

/-- Reads a relationship given as an array of its fields, given how many have been
read and the names of the next ones. -/
def decodeFields (stop : Option Fault) (fields : Fields) (count : Nat) :
    List String -> List Tree -> Decoded Relationship
  | [], values => do
      match ← Tree.nextItem values stop with
      | none => fields.relationship
      | some label =>
          let later ← fields.read "label" label
          Tree.endItems (values.drop 1) stop
          later.relationship
  | field :: names, values => do
      match ← Tree.nextItem values stop with
      | none => .error (.wrongLength count (shapeName ++ " with 5 elements"))
      | some value => decodeFields stop (← fields.read field value) (count + 1) names (values.drop 1)

/-- Decodes a relationship. -/
def decode : Tree -> Decoded Relationship
  | .object members stop => decodeMembers stop {} members
  | .array values stop => decodeFields stop {} 0 fieldNames values
  | other => .error (other.mismatch shapeName)

end Relationship

namespace Schema

/-- How messages name a schema. -/
def shapeName : String :=
  "struct Schema"

/-- Reads the members of a schema, given what has been read so far. -/
def decodeMembers (stop : Option Fault) (entities : Option (List Entity))
    (relationships : Option (List Relationship)) : List (Quoted × Tree) -> Decoded Schema
  | [] => do
      Decoded.ofText (stopAt stop)
      .ok { entities := entities.getD [], relationships := relationships.getD [] }
  | (key, value) :: members => do
      let field ← Decoded.ofText key.text
      if field == "entities" || field == "tables" then
        if entities.isSome then .error (.duplicateField "entities")
        else
          decodeMembers stop (some (← value.decodeArray Entity.decode)) relationships members
      else if field == "relationships" then
        if relationships.isSome then .error (.duplicateField "relationships")
        else
          decodeMembers stop entities (some (← value.decodeArray Relationship.decode)) members
      else
        Decoded.ofText value.skip
        decodeMembers stop entities relationships members

/-- Reads a schema given as an array of its fields. -/
def decodeFields (stop : Option Fault) (fields : List Tree) : Decoded Schema := do
  match ← Tree.nextItem fields stop with
  | none => .ok Schema.empty
  | some first =>
      let entities ← first.decodeArray Entity.decode
      match ← Tree.nextItem (fields.drop 1) stop with
      | none => .ok { entities, relationships := [] }
      | some second =>
          let relationships ← second.decodeArray Relationship.decode
          Tree.endItems (fields.drop 2) stop
          .ok { entities, relationships }

/-- Decodes a schema. -/
def decode : Tree -> Decoded Schema
  | .object members stop => decodeMembers stop none none members
  | .array fields stop => decodeFields stop fields
  | other => .error (other.mismatch shapeName)

/-- Reads a schema from JSON text, with nothing but blanks after it. -/
def ofJsonText (text : String) : Decoded Schema :=
  let document := Document.read text.toList
  (decode document.root).bind fun schema =>
    if document.trailing then .error (.text .malformed) else .ok schema

end Schema

end SchemaLoom
