import Mathlib.Data.List.Forall2
import SchemaLoom.Proofs.AttributeItems

/-!
# Entities written loosely

An entity may leave much to the names of its attributes. Items that are bare names or say
little are completed by what their names suggest, and the lists of entities and of attributes
each have two names. One rule does not speak of each item by itself: where some item says whether
it holds the primary key, all items that are described hold it only if they say so, and a bare
name still holds it by its place.
-/

namespace SchemaLoom

open Json

/-- An array of trees that all decode is decoded. -/
theorem Json.Tree.decodeArray_of_forall₂ {α : Type} {decode : Tree -> Decoded α} {values : List α}
    {trees : List Tree}
    (each : List.Forall₂ (fun value tree => decode tree = .ok value) values trees) :
    (Tree.array trees none).decodeArray decode = .ok values := by
  rw [decodeArray]
  induction each with
  | nil => rfl
  | cons here _ inductionHypothesis =>
      rw [decodeItems, here, inductionHypothesis]
      rfl

namespace AttributeItem

/-- The type that an item gives. -/
def givenType : AttributeItem -> Option ColumnType
  | bare _ => none
  | described _ columnType _ _ _ => columnType

/-- What an item gives about the primary key. -/
def givenKey : AttributeItem -> Option Bool
  | bare _ => none
  | described _ _ primaryKey _ _ => primaryKey

/-- What an item gives about uniqueness. -/
def givenUnique : AttributeItem -> Option Bool
  | bare _ => none
  | described _ _ _ unique _ => unique

/-- What an item gives about presence. -/
def givenNotNull : AttributeItem -> Option Bool
  | bare _ => none
  | described _ _ _ _ notNull => notNull

/-- Whether an item is the first of its entity with the name of an identifier. -/
def IsFirstId (items : List AttributeItem) (position : Nat) : Prop :=
  Inference.primaryKeyIndex? (items.map name) = some position

/-- When the item at a position holds the primary key: by its place, or if it says so where some
item of the entity says whether it does. A bare name holds it by its place in either case. -/
def HoldsKey (items : List AttributeItem) (position : Nat) (item : AttributeItem) : Prop :=
  if items.any givesKey then
    item.givenKey = some true ∨ item = .bare item.name ∧ IsFirstId items position
  else IsFirstId items position

/-- Whether the first item with the name of an identifier is a bare name, while some item says
whether it holds the primary key. -/
def BareIdStays (items : List AttributeItem) : Prop :=
  items.any givesKey = true ∧
    ∃ position name, IsFirstId items position ∧ items[position]? = some (.bare name)

end AttributeItem

namespace Entity

open AttributeItem

/-- The rule for the primary key without a word on bare names: where some item says whether it
holds the key, those hold it that say so, and otherwise the first with the name of an identifier. -/
def PlainKeys (items : List AttributeItem) (entity : Entity) : Prop :=
  ∀ position item, items[position]? = some item ->
    (entity.attributes[position]?.map Attribute.primaryKey = some true ↔
      if items.any givesKey then item.givenKey = some true else IsFirstId items position)

/-- What the items of an entity make of it: each attribute has what its item gives, and for the
rest what its name suggests. The plain rule tells the primary key exactly if no bare identifier
stays. -/
structure Follows (name : String) (items : List AttributeItem) (entity : Entity) : Prop where
  name : entity.name = name
  names : entity.attributes.map Attribute.name = items.map AttributeItem.name
  types : entity.attributes.map Attribute.columnType =
    items.map fun item => item.givenType.getD (Inference.ofName item.name).columnType
  uniques : entity.attributes.map Attribute.unique =
    items.map fun item => item.givenUnique.getD (Inference.ofName item.name).unique
  notNulls : entity.attributes.map Attribute.notNull =
    items.map fun item => item.givenNotNull.getD (Inference.ofName item.name).notNull
  keys : ∀ position item, items[position]? = some item ->
    (entity.attributes[position]?.map Attribute.primaryKey = some true ↔
      HoldsKey items position item)
  plain : PlainKeys items entity ↔ ¬BareIdStays items

section Items

variable {name : String} {items : List AttributeItem}

/-- Each attribute is what its item says, over what the name suggests and over whether the
flags give it the key. -/
theorem attributes_ofItems (name : String) (items : List AttributeItem) :
    (ofItems name items).attributes =
      List.zipWith (fun item primaryKey => item.resolve (items.any givesKey)
        { Attribute.inferred item.name with primaryKey })
        items (Inference.primaryKeyFlags (items.map AttributeItem.name)) := by
  simp only [ofItems, ofNames]
  refine List.ext_getElem? fun position => ?_
  simp only [List.getElem?_zipWith, List.getElem?_map]
  cases items[position]? <;>
    cases (Inference.primaryKeyFlags (items.map AttributeItem.name))[position]? <;> rfl

/-- What the attributes have apart from the primary key comes from one item each. -/
theorem map_attributes_ofItems {α : Type} {value : Attribute -> α} {said : AttributeItem -> α}
    (each : ∀ item given primaryKey,
      value (item.resolve given { Attribute.inferred item.name with primaryKey }) = said item)
    (name : String) (items : List AttributeItem) :
    (ofItems name items).attributes.map value = items.map said := by
  have length := Inference.length_primaryKeyFlags (items.map AttributeItem.name)
  rw [List.length_map] at length
  rw [attributes_ofItems, List.map_zipWith]
  generalize items.any givesKey = given
  generalize Inference.primaryKeyFlags (items.map AttributeItem.name) = flags at length
  simp only [each]
  induction items generalizing flags with
  | nil => rfl
  | cons item items inductionHypothesis =>
      cases flags with
      | nil => cases length
      | cons flag flags =>
          rw [List.zipWith_cons_cons, List.map_cons,
            inductionHypothesis flags (Nat.succ.inj length)]

/-- The attributes that hold the key are those whose items hold it. -/
theorem keys_ofItems (name : String) {items : List AttributeItem} {position : Nat}
    {item : AttributeItem} (found : items[position]? = some item) :
    (ofItems name items).attributes[position]?.map Attribute.primaryKey = some true ↔
      HoldsKey items position item := by
  have inside : position < (items.map AttributeItem.name).length := by
    rw [List.length_map]
    exact (List.getElem?_eq_some_iff.1 found).1
  rw [attributes_ofItems, List.getElem?_zipWith, found, Inference.getElem?_primaryKeyFlags inside]
  simp only [Option.map_some, Option.some.injEq, HoldsKey, IsFirstId]
  cases item with
  | bare name => split <;> simp [resolve, givenKey, AttributeItem.name]
  | described name columnType primaryKey unique notNull =>
      split
      · cases primaryKey <;> simp_all [resolve, givenKey]
      · simp_all [resolve]

/-- Where no bare identifier stays, the exact rule for the primary key is the plain one. -/
theorem plainKeys_iff {entity : Entity}
    (keys : ∀ position item, items[position]? = some item ->
      (entity.attributes[position]?.map Attribute.primaryKey = some true ↔
        HoldsKey items position item)) :
    PlainKeys items entity ↔ ¬BareIdStays items := by
  constructor
  · rintro plain ⟨given, position, name, first, found⟩
    have held := (keys position _ found).2 (by
      rw [HoldsKey, if_pos given]
      exact .inr ⟨rfl, first⟩)
    rw [plain position _ found, if_pos given] at held
    cases held
  · intro none position item found
    rw [keys position item found, HoldsKey]
    split
    · rename_i given
      refine or_iff_left fun ⟨isBare, first⟩ => none ⟨given, position, item.name, first, ?_⟩
      rw [found, ← isBare]
    · exact Iff.rfl

/-- An entity of items follows what is written. -/
theorem follows_ofItems (name : String) (items : List AttributeItem) :
    Follows name items (ofItems name items) where
  name := rfl
  names := map_attributes_ofItems (fun item _ _ => by cases item <;> rfl) name items
  types := map_attributes_ofItems (fun item _ _ => by cases item <;> rfl) name items
  uniques := map_attributes_ofItems (fun item _ _ => by cases item <;> rfl) name items
  notNulls := map_attributes_ofItems (fun item _ _ => by cases item <;> rfl) name items
  keys _ _ found := keys_ofItems name found
  plain := plainKeys_iff fun _ _ found => keys_ofItems name found

end Items

/-- The ways to write an entity of a name and items: an object with the name and the list of the
items under either of its names. -/
inductive Written (name : String) (items : List AttributeItem) : Tree -> Prop where
  | intro {nameKey written listKey : Quoted} {trees : List Tree} {members : List (Quoted × Tree)}
      (named : nameKey.text = .ok "name") (spelled : written.text = .ok name)
      (listed : listKey.text = .ok "attributes" ∨ listKey.text = .ok "columns")
      (each : List.Forall₂ AttributeItem.Written items trees)
      (anyOrder :
        members = [(nameKey, .string written), (listKey, .array trees none)] ∨
          members = [(listKey, .array trees none), (nameKey, .string written)]) :
      Written name items (.object members none)

/-- An entity is decoded as that of the items it is written with. -/
theorem Written.decode_eq {name : String} {items : List AttributeItem} {tree : Tree}
    (written : Written name items tree) : decode tree = .ok (ofItems name items) := by
  obtain ⟨named, spelled, listed, each, anyOrder⟩ := written
  have list := Tree.decodeArray_of_forall₂ (each.imp fun _ _ item => item.decode_eq)
  rcases anyOrder with rfl | rfl <;> rcases listed with listed | listed <;>
    simp [decode, decodeMembers, named, listed, Tree.decodeString, spelled, list, Decoded.ofText,
      stopAt, bind, Except.bind]

end Entity

namespace Schema

/-- Whether a member is the list of entities of a schema. -/
def IsEntityList (member : Quoted × Tree) : Prop :=
  member.1.text = .ok "entities" ∨ member.1.text = .ok "tables"

/-- A text that lists entities, each written in some way, under either name of the list. Whatever
stands beside the list makes up a schema of relationships only. -/
inductive Lists (text : String) (entities : List (String × List AttributeItem))
    (relationships : List Relationship) : Prop where
  | intro (before after : List (Quoted × Tree)) {key : Quoted} {trees : List Tree}
      (read : Document.read text.toList =
        { root := .object (before ++ (key, .array trees none) :: after) none, trailing := false })
      (listed : IsEntityList (key, .array trees none))
      (each : List.Forall₂ (fun written => Entity.Written written.1 written.2) entities trees)
      (single : ∀ member ∈ before ++ after, ¬IsEntityList member)
      (others : decode (.object (before ++ after) none) = .ok { entities := [], relationships })

section Decoding

variable {stop : Option Fault} {entities : List Entity} {before after : List (Quoted × Tree)}
  {relationships : Option (List Relationship)} {rest : Schema}

/-- A member that is not the list of entities is read without regard to entities read before. -/
theorem decodeMembers_other {member : Quoted × Tree} (other : ¬IsEntityList member)
    (stop : Option Fault) (relationships : Option (List Relationship)) :
    ∃ decoded : Decoded (Option (List Relationship)),
      ∀ (entities : Option (List Entity)) (members : List (Quoted × Tree)),
        decodeMembers stop entities relationships (member :: members) =
          decoded.bind fun later => decodeMembers stop entities later members := by
  obtain ⟨key, value⟩ := member
  cases text : key.text with
  | error fault =>
      refine ⟨.error (.text fault), fun entities members => ?_⟩
      simp [decodeMembers, text, Decoded.ofText, bind, Except.bind]
  | ok field =>
      have unlike : field ≠ "entities" ∧ field ≠ "tables" := by
        simpa [IsEntityList, text] using other
      by_cases related : field = "relationships"
      · refine ⟨if relationships.isSome then .error (.duplicateField "relationships")
          else (value.decodeArray Relationship.decode).map some, fun entities members => ?_⟩
        subst related
        cases relationships with
        | some given => simp [decodeMembers, text, Decoded.ofText, bind, Except.bind]
        | none =>
            cases decoded : value.decodeArray Relationship.decode <;>
              simp [decodeMembers, text, decoded, Decoded.ofText, bind, Except.bind, Except.map]
      · refine ⟨(Decoded.ofText value.skip).map fun _ => relationships, fun entities members => ?_⟩
        simp only [decodeMembers, text, Decoded.ofText, bind, Except.bind, unlike, related,
          beq_iff_eq, or_self, if_false, Bool.or_eq_true]
        cases value.skip <;> rfl

/-- Behind the list of entities, the other members are read as without it. -/
theorem decodeMembers_behind (single : ∀ member ∈ after, ¬IsEntityList member)
    (others : decodeMembers stop none relationships after = .ok rest) :
    decodeMembers stop (some entities) relationships after = .ok { rest with entities } := by
  induction after generalizing relationships with
  | nil =>
      cases stop with
      | none =>
          cases others
          rfl
      | some fault => cases others
  | cons member after inductionHypothesis =>
      obtain ⟨here, later⟩ := List.forall_mem_cons.1 single
      obtain ⟨decoded, reads⟩ := decodeMembers_other here stop relationships
      rw [reads] at others ⊢
      cases decoded with
      | error failure => cases others
      | ok found => exact inductionHypothesis later others

/-- The list of entities adds its entities to what the members beside it make up. -/
theorem decodeMembers_around {key : Quoted} {value : Tree}
    (single : ∀ member ∈ before ++ after, ¬IsEntityList member)
    (listed : IsEntityList (key, value)) (decodes : value.decodeArray Entity.decode = .ok entities)
    (others : decodeMembers stop none relationships (before ++ after) = .ok rest) :
    decodeMembers stop none relationships (before ++ (key, value) :: after) =
      .ok { rest with entities } := by
  induction before generalizing relationships with
  | nil =>
      have behind : decodeMembers stop (some entities) relationships after =
          .ok { rest with entities } := decodeMembers_behind single others
      rcases listed with listed | listed <;>
        simpa [decodeMembers, listed, decodes, Decoded.ofText, bind, Except.bind] using behind
  | cons member before inductionHypothesis =>
      obtain ⟨here, later⟩ := List.forall_mem_cons.1 single
      obtain ⟨decoded, reads⟩ := decodeMembers_other here stop relationships
      rw [List.cons_append, reads] at others ⊢
      cases decoded with
      | error failure => cases others
      | ok found => exact inductionHypothesis later others

end Decoding

/-- A text that lists entities decodes to them, each made of its items. -/
theorem Lists.decode_eq {text : String} {entities : List (String × List AttributeItem)}
    {relationships : List Relationship} (lists : Lists text entities relationships) :
    ofJsonText text =
      .ok { entities := entities.map fun written => Entity.ofItems written.1 written.2
            relationships } := by
  obtain ⟨before, after, read, listed, each, single, others⟩ := lists
  have decoded := Tree.decodeArray_of_forall₂
    ((List.forall₂_map_left_iff (f := fun written => Entity.ofItems written.1 written.2)).2
      (each.imp fun _ _ written => written.decode_eq))
  have whole := decodeMembers_around single listed decoded others
  simp [ofJsonText, read, decode, whole, Except.bind]

end Schema

namespace AttributeItem

/-- An item and another that may stand in its place: itself, or for a bare name an object with
the name only. -/
inductive Alike : AttributeItem -> AttributeItem -> Prop where
  | same (item : AttributeItem) : Alike item item
  | nameOnly (name : String) : Alike (.bare name) (.described name none none none none)

variable {items others : List AttributeItem}

/-- Alike items have the same name. -/
theorem Alike.name_eq {item other : AttributeItem} (alike : Alike item other) :
    item.name = other.name := by
  cases alike <;> rfl

/-- Alike items give the key alike. -/
theorem Alike.givesKey_eq {item other : AttributeItem} (alike : Alike item other) :
    item.givesKey = other.givesKey := by
  cases alike <;> rfl

/-- Attributes of alike items are equal if those that hold the primary key by their place are
items that are equal, where some item gives the primary key. -/
theorem Alike.resolve_eq {item other : AttributeItem} {keyGiven first : Bool}
    (alike : Alike item other) (held : keyGiven = true → first = true → item = other) :
    item.resolve keyGiven { Attribute.inferred item.name with primaryKey := first } =
      other.resolve keyGiven { Attribute.inferred other.name with primaryKey := first } := by
  cases alike with
  | same => rfl
  | nameOnly said => cases keyGiven <;> cases first <;> simp_all [resolve, AttributeItem.name]

/-- Lists of alike items have the same names. -/
theorem map_name_of_alike (alike : List.Forall₂ Alike items others) :
    items.map name = others.map name := by
  induction alike with
  | nil => rfl
  | cons here _ inductionHypothesis =>
      rw [List.map_cons, List.map_cons, here.name_eq, inductionHypothesis]

/-- Lists of alike items give the key alike. -/
theorem any_givesKey_of_alike (alike : List.Forall₂ Alike items others) :
    items.any givesKey = others.any givesKey := by
  induction alike with
  | nil => rfl
  | cons here _ inductionHypothesis =>
      rw [List.any_cons, List.any_cons, here.givesKey_eq, inductionHypothesis]

end AttributeItem

namespace Entity

open AttributeItem

/-- Entities as written of which one may stand in the place of the other: their items may. Where
some item gives the primary key, the first item with the name of an identifier stays as it is. -/
structure Alike (written other : String × List AttributeItem) : Prop where
  name : written.1 = other.1
  items : List.Forall₂ AttributeItem.Alike written.2 other.2
  firstId : written.2.any givesKey = true → ∀ position, IsFirstId written.2 position →
    written.2[position]? = other.2[position]?

/-- Alike items make the same entity, if the item that a given key would overrule stays the same. -/
theorem ofItems_of_alike {name : String} {items others : List AttributeItem}
    (alike : List.Forall₂ AttributeItem.Alike items others)
    (firstId : items.any givesKey = true → ∀ position, IsFirstId items position →
      items[position]? = others[position]?) :
    ofItems name items = ofItems name others := by
  obtain ⟨length, pairs⟩ := List.forall₂_iff_get.1 alike
  -- By position, because whether an attribute is the key by its place depends on nothing else.
  have attributes : (ofItems name items).attributes = (ofItems name others).attributes := by
    rw [attributes_ofItems, attributes_ofItems, ← any_givesKey_of_alike alike,
      ← map_name_of_alike alike]
    refine List.ext_getElem (by simp [length]) fun position inside insideOther => ?_
    simp only [List.length_zipWith, Nat.lt_min] at inside insideOther
    have named : position < (items.map AttributeItem.name).length :=
      (List.length_map _).symm ▸ inside.1
    have flag := Inference.getElem?_primaryKeyFlags named
    rw [List.getElem?_eq_getElem inside.2, Option.some.injEq] at flag
    rw [List.getElem_zipWith, List.getElem_zipWith, flag]
    refine (pairs position inside.1 insideOther.1).resolve_eq fun given first => ?_
    have found := firstId given position (beq_iff_eq.1 first)
    rw [List.getElem?_eq_getElem inside.1, List.getElem?_eq_getElem insideOther.1] at found
    exact Option.some.inj found
  exact congrArg (Entity.mk name) attributes

/-- Entities that are written alike are the same. -/
theorem Alike.ofItems_eq {written other : String × List AttributeItem}
    (alike : Alike written other) : ofItems written.1 written.2 = ofItems other.1 other.2 := by
  rw [← alike.name, ofItems_of_alike alike.items alike.firstId]

end Entity

namespace Schema

/-- Lists of entities that are written alike are the same. -/
theorem map_ofItems_of_alike {entities others : List (String × List AttributeItem)}
    (alike : List.Forall₂ Entity.Alike entities others) :
    entities.map (fun written => Entity.ofItems written.1 written.2) =
      others.map fun written => Entity.ofItems written.1 written.2 := by
  induction alike with
  | nil => rfl
  | cons here _ inductionHypothesis =>
      rw [List.map_cons, List.map_cons, here.ofItems_eq, inductionHypothesis]

/-- A text that lists entities decodes to a schema of entities that follow their items. Another
text decodes to the same schema if its entities may stand in the place of those of the first,
whatever names its lists are under and however its items are written. -/
theorem ofJsonText_lists {text : String} {entities : List (String × List AttributeItem)}
    {relationships : List Relationship} (lists : Lists text entities relationships) :
    (∃ schema, ofJsonText text = .ok schema ∧ schema.relationships = relationships ∧
      List.Forall₂ (fun written => Entity.Follows written.1 written.2) entities
        schema.entities) ∧
    ∀ other others, Lists other others relationships → List.Forall₂ Entity.Alike entities others →
      ofJsonText other = ofJsonText text := by
  constructor
  · refine ⟨_, lists.decode_eq, rfl, List.forall₂_map_right_iff.2 ?_⟩
    exact List.forall₂_same.2 fun written _ => Entity.follows_ofItems written.1 written.2
  · intro other others listsOther alike
    rw [lists.decode_eq, listsOther.decode_eq, map_ofItems_of_alike alike]

/-- A bare name for an object with the name only, the other list names, nulls and another order of
members, beside an identifier that stays bare where another item gives the primary key. -/
theorem ofJsonText_lists_loosely :
    let text := (Json.object
      [("tables", .array
        [.object
          [("columns", .array
            [.string "mail", .string "id",
              .object [("notNull", .null), ("primaryKey", .bool true), ("type", .string "DATE"),
                ("name", .string "code")]]),
            ("name", .string "T")]]),
        ("note", .array [.null])]).compact
    let other := (Json.object
      [("relationships", .array []),
        ("entities", .array
          [.object
            [("name", .string "T"),
              ("attributes", .array
                [.object [("name", .string "mail"), ("unique", .null)], .string "id",
                  .object [("name", .string "code"), ("type", .string "date"),
                    ("primaryKey", .bool true)]])]])]).pretty
    let code := AttributeItem.described "code" (some .date) (some true) none none
    let entities := [("T", [AttributeItem.bare "mail", .bare "id", code])]
    let others := [("T", [AttributeItem.described "mail" none none none none, .bare "id", code])]
    (Lists text entities [] ∧ ∃ schema, ofJsonText text = .ok schema ∧ schema.relationships = [] ∧
      List.Forall₂ (fun written => Entity.Follows written.1 written.2) entities
        schema.entities) ∧
    Lists other others [] ∧ List.Forall₂ Entity.Alike entities others ∧
      ofJsonText other = ofJsonText text := by
  intro text other code entities others
  have named (name : String) := Quoted.text_whole name
  have upper : AttributeItem.SpellsType .date (.string (Quoted.whole "DATE")) :=
    @AttributeItem.SpellsType.intro (Quoted.whole "DATE") "DATE" (named _)
  have lower : AttributeItem.SpellsType .date (.string (Quoted.whole "date")) :=
    @AttributeItem.SpellsType.intro (Quoted.whole "date") "date" (named _)
  have lists : Lists text entities [] := by
    refine .intro [] _ (Document.read_write rfl .compact) (.inr (named _))
      (.cons (.intro (named _) (named _) (.inr (named _))
        (.cons (.bare (named _)) (.cons (.bare (named _)) (.cons ?_ .nil)))
        (.inr rfl)) .nil) (by simp [IsEntityList]) rfl
    exact .described (.intro (named _) (named _) (.given (named _) upper)
      (.given (named _) (.intro true)) .absent (.null (named _)) (List.reverse_perm [_, _, _, _]))
  have listsOther : Lists other others [] := by
    refine .intro [(Quoted.whole "relationships", .array [] none)] _
      (Document.read_write rfl .pretty) (.inl (named _))
      (.cons (.intro (named _) (named _) (.inl (named _))
        (.cons ?_ (.cons (.bare (named _)) (.cons ?_ .nil)))
        (.inl rfl)) .nil) (by simp [IsEntityList]) rfl
    · exact .described (.intro (named _) (named _) .absent .absent (.null (named _)) .absent
        (.refl _))
    · exact .described (.intro (named _) (named _) (.given (named _) lower)
        (.given (named _) (.intro true)) .absent .absent (.refl _))
  have alike : List.Forall₂ Entity.Alike entities others := by
    refine .cons ⟨rfl, .cons (.nameOnly _) (.cons (.same _) (.cons (.same _) .nil)), ?_⟩ .nil
    intro _ position first
    obtain rfl : 1 = position := Option.some.inj first
    rfl
  obtain ⟨decoded, unchanged⟩ := ofJsonText_lists lists
  exact ⟨⟨lists, decoded⟩, listsOther, alike, unchanged other others listsOther alike⟩

/-- Not only the items that say so hold the primary key where some item gives it: a bare
identifier that comes first holds it too. -/
theorem not_forall_keys_given :
    ¬∀ text entities relationships schema, Lists text entities relationships →
      ofJsonText text = .ok schema →
      List.Forall₂ (fun (written : String × List AttributeItem) (entity : Entity) =>
        written.2.any AttributeItem.givesKey = true →
          ∀ (position : Nat) item, written.2[position]? = some item →
            (entity.attributes[position]?.map Attribute.primaryKey = some true ↔
              item.givenKey = some true)) entities schema.entities := by
  intro keys
  let json := Json.object
    [("entities", .array
      [.object
        [("name", .string "T"),
          ("attributes", .array
            [.string "id", .object [("name", .string "code"), ("primaryKey", .bool true)]])]])]
  let items := [AttributeItem.bare "id", .described "code" none (some true) none none]
  have named (name : String) := Quoted.text_whole name
  have lists : Lists json.compact [("T", items)] [] := by
    refine .intro [] _ (Document.read_write rfl .compact) (.inl (named _))
      (.cons (.intro (named _) (named _) (.inl (named _)) (.cons (.bare (named _)) (.cons ?_ .nil))
        (.inl rfl)) .nil) nofun rfl
    exact .described (.intro (named _) (named _) .absent (.given (named _) (.intro true)) .absent
      .absent (.refl _))
  obtain ⟨first, -⟩ := List.forall₂_cons.1 (keys _ _ _ _ lists lists.decode_eq)
  exact absurd ((first rfl 0 (.bare "id") rfl).1 rfl) nofun

end Schema

end SchemaLoom
