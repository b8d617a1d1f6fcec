import SchemaLoom.Proofs.Blanks
import SchemaLoom.Proofs.Keys
import SchemaLoom.Proofs.Successes
import SchemaLoom.Schema.Decode

/-!
# Normal column types

A column type is normal when its spelling denotes it again. Every way of building a
schema other than by hand gives normal types: inference from names, reading a
document and decoding JSON.
-/

namespace SchemaLoom

open Json

/-- Whether the spelling of a type denotes the type. -/
def ColumnType.IsNormal (type : ColumnType) : Prop :=
  ofSpelling type.spelling = type

instance (type : ColumnType) : Decidable type.IsNormal :=
  inferInstanceAs (Decidable (_ = _))

/-- Whether all types of an entity are normal. -/
def Entity.TypesNormal (entity : Entity) : Prop :=
  ∀ column ∈ entity.attributes, column.columnType.IsNormal

instance (entity : Entity) : Decidable entity.TypesNormal :=
  inferInstanceAs (Decidable (∀ column ∈ entity.attributes, column.columnType.IsNormal))

/-- Whether all types of a schema are normal. -/
def Schema.TypesNormal (schema : Schema) : Prop :=
  ∀ entity ∈ schema.entities, entity.TypesNormal

instance (schema : Schema) : Decidable schema.TypesNormal :=
  inferInstanceAs (Decidable (∀ entity ∈ schema.entities, entity.TypesNormal))

/-- A type denoted by some spelling is denoted by its own. -/
theorem ColumnType.ofSpelling_isNormal (spelling : String) : (ofSpelling spelling).IsNormal := by
  simp only [ofSpelling]
  split
  · decide
  · split
    · decide
    · split
      · decide
      · simp_all [IsNormal, ofSpelling, ColumnType.spelling, Text.trim_trim]

/-- The type that a name suggests is kept in its normal form. -/
theorem Inference.ofName_isNormal (name : String) : (ofName name).columnType.IsNormal := by
  simp only [ofName]
  repeat' split
  all_goals decide

/-- Each name has its flag. -/
theorem Inference.length_primaryKeyFlags (names : List String) :
    (primaryKeyFlags names).length = names.length := by
  induction names with
  | nil => rfl
  | cons name names inductionHypothesis =>
      rw [primaryKeyFlags]
      split <;> simp [inductionHypothesis]

/-- The flag of a name is set at the place of the primary key alone. -/
theorem Inference.getElem?_primaryKeyFlags {names : List String} {position : Nat}
    (inside : position < names.length) :
    (primaryKeyFlags names)[position]? = some (primaryKeyIndex? names == some position) := by
  induction names generalizing position with
  | nil => exact absurd inside (Nat.not_lt_zero position)
  | cons name names inductionHypothesis =>
      rw [primaryKeyFlags, primaryKeyIndex?, List.findIdx?_cons]
      cases position with
      | zero =>
          split
          · rfl
          · cases names.findIdx? isIdLike <;> rfl
      | succ position =>
          have later := Nat.lt_of_succ_lt_succ inside
          split
          · simp [later]
          · rw [List.getElem?_cons_succ, inductionHypothesis later, primaryKeyIndex?]
            cases names.findIdx? isIdLike <;> simp

/-- What two lists give together comes from a member of each. -/
theorem exists_of_mem_zipWith {α β γ : Type} {combine : α → β → γ} {left : List α}
    {right : List β} {item : γ} (member : item ∈ List.zipWith combine left right) :
    ∃ first ∈ left, ∃ second ∈ right, combine first second = item := by
  induction left generalizing right with
  | nil => simp at member
  | cons first left inductionHypothesis =>
      cases right with
      | nil => simp at member
      | cons second right =>
          rw [List.zipWith_cons_cons] at member
          rcases List.mem_cons.1 member with rfl | later
          · exact ⟨first, List.mem_cons_self, second, List.mem_cons_self, rfl⟩
          · obtain ⟨a, inLeft, b, inRight, same⟩ := inductionHypothesis later
            exact ⟨a, List.mem_cons_of_mem _ inLeft, b, List.mem_cons_of_mem _ inRight, same⟩

/-- Inferring an entity from names gives normal types. -/
theorem Entity.ofNames_typesNormal (name : String) (names : List String) :
    (ofNames name names).TypesNormal := by
  intro column member
  obtain ⟨attributeName, -, primaryKey, -, rfl⟩ := exists_of_mem_zipWith member
  exact Inference.ofName_isNormal attributeName

namespace Ddl

/-- The column of a definition has the type that some spelling denotes. -/
theorem Definition.read_columnType {table : String} {written : List Char}
    {declared : Attribute} (column : (Definition.read table written).attribute? = some declared) :
    declared.columnType.IsNormal := by
  simp only [Definition.read, readColumn] at column
  repeat' split at column
  all_goals first
    | (simp [attribute?] at column; done)
    | (obtain rfl := Option.some.inj column
       exact ColumnType.ofSpelling_isNormal _)

/-- A column of a document has the type of one of the definitions of its table. -/
theorem exists_definition_of_mem {document : String} {entity : Entity} {column : Attribute}
    (member : entity ∈ (schemaOf document).entities) (inEntity : column ∈ entity.attributes) :
    ∃ table body written declared, written ∈ fragments ',' body ∧
      (Definition.read table written).attribute? = some declared ∧
        column.columnType = declared.columnType := by
  obtain ⟨block, -, found⟩ := List.mem_filterMap.1 member
  cases block with
  | unrecognized snippet => cases found
  | table name body =>
      obtain rfl := Option.some.inj found
      obtain ⟨declared, isDeclared, rfl⟩ := List.mem_map.1 inEntity
      obtain ⟨definition, inBody, isColumn⟩ := List.mem_filterMap.1 isDeclared
      obtain ⟨written, isFragment, rfl⟩ := List.mem_map.1 inBody
      exact ⟨name, body, written, declared, isFragment, isColumn,
        by rw [foldl_applyTo_eq]; rfl⟩

/-- Reading a document gives normal types. -/
theorem schemaOf_typesNormal (document : String) : (schemaOf document).TypesNormal := by
  intro entity member column inEntity
  obtain ⟨table, body, written, declared, -, isColumn, sameType⟩ :=
    exists_definition_of_mem member inEntity
  rw [sameType]
  exact Definition.read_columnType isColumn

end Ddl

/-- Whatever holds of every item that decodes holds of the items of an array. -/
theorem Json.Tree.forall_of_decodeArray {α : Type} {decode : Tree -> Decoded α}
    {property : α -> Prop} (each : ∀ value result, decode value = .ok result → property result)
    {tree : Tree} {items : List α} (found : tree.decodeArray decode = .ok items) :
    ∀ item ∈ items, property item := by
  have walk : ∀ (values : List Tree) (stop : Option Fault) (results : List α),
      decodeItems decode stop values = .ok results → ∀ item ∈ results, property item := by
    intro values stop
    induction values with
    | nil =>
        intro results decoded
        obtain ⟨-, -, rfl⟩ := exists_of_map_eq_ok decoded
        simp
    | cons value values inductionHypothesis =>
        intro results decoded
        obtain ⟨first, here, others⟩ := exists_of_bind_eq_ok decoded
        obtain ⟨later, there, rfl⟩ := exists_of_map_eq_ok others
        exact List.forall_mem_cons.2 ⟨each value first here, inductionHypothesis later there⟩
  cases tree with
  | array values stop => exact walk values stop items found
  | _ => cases found

namespace AttributeItem

/-- Whether the type that an item gives, if it gives one, is normal. -/
def TypeNormal : AttributeItem -> Prop
  | bare _ => True
  | described _ columnType _ _ _ => ∀ type ∈ columnType, type.IsNormal

/-- Whether the type read so far, if there is one, is normal. -/
def Fields.TypeNormal (fields : Fields) : Prop :=
  ∀ type ∈ fields.columnType.getD none, type.IsNormal

/-- A type that is read from JSON is in its normal form. -/
theorem optional?_columnType?_isNormal {value : Tree} {given : Option ColumnType}
    (found : optional? columnType? value = some given) : ∀ type ∈ given, type.IsNormal := by
  intro type member
  unfold optional? at found
  split at found
  · cases found
    cases member
  · obtain ⟨denoted, read, rfl⟩ := Option.map_eq_some_iff.1 found
    obtain ⟨spelling, -, rfl⟩ := Option.map_eq_some_iff.1 read
    obtain rfl := Option.some.inj member
    exact ColumnType.ofSpelling_isNormal spelling

/-- Reading a field keeps the type in its normal form. -/
theorem Fields.read?_typeNormal {fields later : Fields} {name : String} {value : Tree}
    (normal : fields.TypeNormal) (found : fields.read? name value = some later) :
    later.TypeNormal := by
  unfold read? at found
  split at found
  case h_2 =>
    split at found
    · cases found
    · obtain ⟨given, read, rfl⟩ := Option.map_eq_some_iff.1 found
      exact optional?_columnType?_isNormal read
  case h_6 =>
    obtain rfl := Option.some.inj found
    exact normal
  all_goals
    split at found
    · cases found
    · obtain ⟨given, -, rfl⟩ := Option.map_eq_some_iff.1 found
      exact normal

/-- Reading all fields of an object keeps the type in its normal form. -/
theorem Fields.readAll?_typeNormal {fields later : Fields} {members : List (Quoted × Tree)}
    (normal : fields.TypeNormal) (found : fields.readAll? members = some later) :
    later.TypeNormal := by
  fun_induction readAll? fields members with
  | case1 fields =>
      obtain rfl := Option.some.inj found
      exact normal
  | case2 | case3 => cases found
  | case4 fields name value members text _ next read inductionHypothesis =>
      exact inductionHypothesis (read?_typeNormal normal read) found

/-- Reading the fields in their order keeps the type in its normal form. -/
theorem Fields.readInOrder?_typeNormal {fields later : Fields} {names : List String}
    {values : List Tree} (normal : fields.TypeNormal)
    (found : fields.readInOrder? names values = some later) : later.TypeNormal := by
  fun_induction readInOrder? fields names values with
  | case1 fields =>
      obtain rfl := Option.some.inj found
      exact normal
  | case2 | case3 => cases found
  | case4 fields name names value values next read inductionHypothesis =>
      exact inductionHypothesis (read?_typeNormal normal read) found

/-- An attribute has the type of its fields. -/
theorem Fields.item?_typeNormal {fields : Fields} {item : AttributeItem}
    (normal : fields.TypeNormal) (found : fields.item? = some item) : item.TypeNormal := by
  obtain ⟨name, -, rfl⟩ := Option.map_eq_some_iff.1 found
  exact normal

/-- An attribute that is read from JSON has a type in its normal form. -/
theorem ofTree?_typeNormal {value : Tree} {item : AttributeItem}
    (found : ofTree? value = some item) : item.TypeNormal := by
  have start : ({} : Fields).TypeNormal := fun type member => by cases member
  unfold ofTree? at found
  split at found
  · obtain ⟨name, -, rfl⟩ := Option.map_eq_some_iff.1 found
    trivial
  · obtain ⟨fields, read, made⟩ := Option.bind_eq_some_iff.1 found
    exact Fields.item?_typeNormal (Fields.readAll?_typeNormal start read) made
  · obtain ⟨fields, read, made⟩ := Option.bind_eq_some_iff.1 found
    exact Fields.item?_typeNormal (Fields.readInOrder?_typeNormal start read) made
  · cases found

/-- An attribute that is decoded with its faults told has a type in its normal form. -/
theorem decode_typeNormal {value : Tree} {item : AttributeItem}
    (found : decode value = .ok item) : item.TypeNormal := by
  obtain ⟨-, -, read⟩ := exists_of_bind_eq_ok found
  split at read
  · rename_i read?
    obtain rfl := Except.ok.inj read
    exact ofTree?_typeNormal read?
  · cases read

end AttributeItem

namespace Entity

/-- The types of an entity are those given by its items or inferred from their names. -/
theorem ofItems_typesNormal {name : String} {items : List AttributeItem}
    (normal : ∀ item ∈ items, item.TypeNormal) : (ofItems name items).TypesNormal := by
  intro column member
  obtain ⟨item, isItem, inferred, isInferred, rfl⟩ := exists_of_mem_zipWith member
  have inferredNormal := ofNames_typesNormal name (items.map AttributeItem.name) inferred isInferred
  have given := normal item isItem
  cases item with
  | bare attributeName => exact inferredNormal
  | described attributeName columnType primaryKey unique notNull =>
      cases columnType with
      | none => exact inferredNormal
      | some type => exact given type rfl

/-- The types of an entity are those of its items, wherever the member for them stands. -/
theorem decodeMembers_typesNormal {stop : Option Fault} {name : Option String}
    {items : Option (List AttributeItem)} {members : List (Quoted × Tree)} {entity : Entity}
    (normal : ∀ item ∈ items.getD [], item.TypeNormal)
    (found : decodeMembers stop name items members = .ok entity) : entity.TypesNormal := by
  induction members generalizing name items with
  | nil =>
      obtain ⟨-, -, named⟩ := exists_of_bind_eq_ok found
      cases name with
      | none => cases named
      | some name =>
          obtain rfl := Except.ok.inj named
          exact ofItems_typesNormal normal
  | cons member members inductionHypothesis =>
      obtain ⟨key, value⟩ := member
      obtain ⟨field, -, read⟩ := exists_of_bind_eq_ok found
      split at read
      · split at read
        · cases read
        · obtain ⟨text, -, later⟩ := exists_of_bind_eq_ok read
          exact inductionHypothesis normal later
      · split at read
        · split at read
          · cases read
          · obtain ⟨given, decoded, later⟩ := exists_of_bind_eq_ok read
            have each := Tree.forall_of_decodeArray
              (fun _ _ => AttributeItem.decode_typeNormal) decoded
            exact inductionHypothesis (by exact each) later
        · obtain ⟨-, -, later⟩ := exists_of_bind_eq_ok read
          exact inductionHypothesis normal later

/-- The types of an entity that is written as an array are those of its items. -/
theorem decodeFields_typesNormal {stop : Option Fault} {fields : List Tree} {entity : Entity}
    (found : decodeFields stop fields = .ok entity) : entity.TypesNormal := by
  obtain ⟨first, -, read⟩ := exists_of_bind_eq_ok found
  cases first with
  | none => cases read
  | some first =>
      obtain ⟨name, -, named⟩ := exists_of_bind_eq_ok read
      obtain ⟨second, -, rest⟩ := exists_of_bind_eq_ok named
      cases second with
      | none =>
          obtain rfl := Except.ok.inj rest
          exact ofItems_typesNormal (by simp)
      | some second =>
          obtain ⟨items, decoded, ending⟩ := exists_of_bind_eq_ok rest
          obtain ⟨-, -, made⟩ := exists_of_bind_eq_ok ending
          obtain rfl := Except.ok.inj made
          exact ofItems_typesNormal
            (Tree.forall_of_decodeArray (fun _ _ => AttributeItem.decode_typeNormal) decoded)

/-- An entity that is decoded has types in their normal form. -/
theorem decode_typesNormal {value : Tree} {entity : Entity} (found : decode value = .ok entity) :
    entity.TypesNormal := by
  cases value with
  | object members stop => exact decodeMembers_typesNormal (by simp) found
  | array fields stop => exact decodeFields_typesNormal found
  | _ => cases found

end Entity

namespace Schema

/-- The types of a schema are those of its entities, wherever the member for them stands. -/
theorem decodeMembers_typesNormal {stop : Option Fault} {entities : Option (List Entity)}
    {relationships : Option (List Relationship)} {members : List (Quoted × Tree)}
    {schema : Schema} (normal : ∀ entity ∈ entities.getD [], entity.TypesNormal)
    (found : decodeMembers stop entities relationships members = .ok schema) :
    schema.TypesNormal := by
  induction members generalizing entities relationships with
  | nil =>
      obtain ⟨-, -, made⟩ := exists_of_bind_eq_ok found
      obtain rfl := Except.ok.inj made
      exact normal
  | cons member members inductionHypothesis =>
      obtain ⟨key, value⟩ := member
      obtain ⟨field, -, read⟩ := exists_of_bind_eq_ok found
      split at read
      · split at read
        · cases read
        · obtain ⟨given, decoded, later⟩ := exists_of_bind_eq_ok read
          have each := Tree.forall_of_decodeArray (fun _ _ => Entity.decode_typesNormal) decoded
          exact inductionHypothesis (by exact each) later
      · split at read
        · split at read
          · cases read
          · obtain ⟨given, -, later⟩ := exists_of_bind_eq_ok read
            exact inductionHypothesis normal later
        · obtain ⟨-, -, later⟩ := exists_of_bind_eq_ok read
          exact inductionHypothesis normal later

/-- The types of a schema that is written as an array are those of its entities. -/
theorem decodeFields_typesNormal {stop : Option Fault} {fields : List Tree} {schema : Schema}
    (found : decodeFields stop fields = .ok schema) : schema.TypesNormal := by
  obtain ⟨first, -, read⟩ := exists_of_bind_eq_ok found
  cases first with
  | none =>
      obtain rfl := Except.ok.inj read
      simp [TypesNormal, Schema.empty]
  | some first =>
      obtain ⟨entities, decoded, named⟩ := exists_of_bind_eq_ok read
      have each := Tree.forall_of_decodeArray (fun _ _ => Entity.decode_typesNormal) decoded
      obtain ⟨second, -, rest⟩ := exists_of_bind_eq_ok named
      cases second with
      | none =>
          obtain rfl := Except.ok.inj rest
          exact each
      | some second =>
          obtain ⟨relationships, -, ending⟩ := exists_of_bind_eq_ok rest
          obtain ⟨-, -, made⟩ := exists_of_bind_eq_ok ending
          obtain rfl := Except.ok.inj made
          exact each

/-- Decoding JSON text gives normal types. -/
theorem ofJsonText_typesNormal {text : String} {schema : Schema}
    (found : ofJsonText text = .ok schema) : schema.TypesNormal := by
  obtain ⟨decoded, read, ending⟩ := exists_of_bind_eq_ok found
  split at ending
  · cases ending
  · obtain rfl := Except.ok.inj ending
    cases root : (Document.read text.toList).root with
    | object members stop =>
        rw [root] at read
        exact decodeMembers_typesNormal (by simp) read
    | array fields stop =>
        rw [root] at read
        exact decodeFields_typesNormal read
    | _ =>
        rw [root] at read
        cases read

end Schema

end SchemaLoom
