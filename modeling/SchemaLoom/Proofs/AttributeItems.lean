import SchemaLoom.Proofs.SchemaJson

/-!
# Attribute items in any spelling

An item is a bare name, or an object with a name and any of four more fields. The members of the
object come in any order, since a field is kept whatever was kept before it; a null says as
little as no member at all.
-/

namespace SchemaLoom

open Json

namespace AttributeItem

namespace Fields

/-- Keeps the value of a field. A field that has one already is refused, and so is a value of the
wrong shape. -/
def fill {α : Type} (taken : Fields -> Bool) (put : Fields -> α -> Fields) (value : Option α)
    (fields : Fields) : Option Fields :=
  if taken fields then none else value.map (put fields)

section Filling

variable {α β : Type} {taken otherTaken : Fields -> Bool} {put : Fields -> α -> Fields}
  {otherPut : Fields -> β -> Fields} {fields : Fields}

/-- Two fields are kept in either order. -/
theorem fill_comm {value : Option α} {other : Option β}
    (keeps : ∀ fields said, otherTaken (put fields said) = otherTaken fields)
    (otherKeeps : ∀ fields said, taken (otherPut fields said) = taken fields)
    (apart : ∀ fields said otherSaid,
      otherPut (put fields said) otherSaid = put (otherPut fields otherSaid) said) :
    (fill taken put value fields).bind (fill otherTaken otherPut other) =
      (fill otherTaken otherPut other fields).bind (fill taken put value) := by
  unfold fill
  cases value <;> cases other <;> cases free : taken fields <;>
    cases otherFree : otherTaken fields <;> simp [keeps, otherKeeps, apart, free, otherFree]

/-- No field is kept twice. -/
theorem fill_twice {value other : Option α}
    (fills : ∀ fields said, taken (put fields said) = true) :
    (fill taken put value fields).bind (fill taken put other) = none := by
  unfold fill
  cases value <;> cases free : taken fields <;> simp [fills]

end Filling

section Reading

variable (fields : Fields) (value : Tree)

/-- The member `name` gives the name, unless there is one. -/
theorem read?_name : fields.read? "name" value =
    fill (·.name.isSome) (fun fields text => { fields with name := some text }) value.string?
      fields :=
  rfl

/-- The member `type` gives the type, which may be missing, unless it was given before. -/
theorem read?_type : fields.read? "type" value =
    fill (·.columnType.isSome) (fun fields type => { fields with columnType := some type })
      (optional? columnType? value) fields :=
  rfl

/-- The member `primaryKey` says whether the attribute holds the key. -/
theorem read?_primaryKey : fields.read? "primaryKey" value =
    fill (·.primaryKey.isSome) (fun fields flag => { fields with primaryKey := some flag })
      (optional? bool? value) fields :=
  rfl

/-- The member `unique` says whether the attribute is unique. -/
theorem read?_unique : fields.read? "unique" value =
    fill (·.unique.isSome) (fun fields flag => { fields with unique := some flag })
      (optional? bool? value) fields :=
  rfl

/-- The member `notNull` says whether the attribute needs a value. -/
theorem read?_notNull : fields.read? "notNull" value =
    fill (·.notNull.isSome) (fun fields flag => { fields with notNull := some flag })
      (optional? bool? value) fields :=
  rfl

/-- Members of other names are passed over. -/
theorem read?_other {key : String} (other : key ∉ fieldNames) :
    fields.read? key value = some fields := by
  simp only [fieldNames, List.mem_cons, List.not_mem_nil, or_false, not_or] at other
  unfold read?
  split <;> simp_all

end Reading

/-- Members are read to the same effect in either order. -/
theorem read?_comm (fields : Fields) (name other : String) (value otherValue : Tree) :
    (fields.read? name value).bind (·.read? other otherValue) =
      (fields.read? other otherValue).bind (·.read? name value) := by
  by_cases known : name ∈ fieldNames
  · by_cases otherKnown : other ∈ fieldNames
    · simp only [fieldNames, List.mem_cons, List.not_mem_nil, or_false] at known otherKnown
      rcases known with rfl | rfl | rfl | rfl | rfl <;>
        rcases otherKnown with rfl | rfl | rfl | rfl | rfl <;>
        simp only [read?_name, read?_type, read?_primaryKey, read?_unique, read?_notNull] <;> first
          | exact fill_comm (fun _ _ => rfl) (fun _ _ => rfl) (fun _ _ _ => rfl)
          | rw [fill_twice fun _ _ => rfl, fill_twice fun _ _ => rfl]
    · simp [read?_other _ _ otherKnown]
  · simp [read?_other _ _ known]

/-- Members are read one after the other, and each must be readable. -/
theorem readAll?_cons (fields : Fields) (key : Quoted) (value : Tree)
    (members : List (Quoted × Tree)) :
    fields.readAll? ((key, value) :: members) =
      (key.text.toOption.bind (fields.read? · value)).bind (·.readAll? members) := by
  rw [readAll?]
  cases key.text with
  | error fault => rfl
  | ok text => cases read : fields.read? text value <;> simp [Except.toOption, read]

/-- Members of joined lists are read one list after the other. -/
theorem readAll?_append (fields : Fields) (members later : List (Quoted × Tree)) :
    fields.readAll? (members ++ later) = (fields.readAll? members).bind (·.readAll? later) := by
  induction members generalizing fields with
  | nil => rfl
  | cons member members inductionHypothesis =>
      obtain ⟨key, value⟩ := member
      simp only [List.cons_append, readAll?_cons, inductionHypothesis, Option.bind_assoc]

/-- The order of members does not reach the fields that are read. -/
theorem readAll?_perm {members others : List (Quoted × Tree)} (same : members.Perm others)
    (fields : Fields) : fields.readAll? members = fields.readAll? others := by
  induction same generalizing fields with
  | nil => rfl
  | cons member _ inductionHypothesis =>
      obtain ⟨key, value⟩ := member
      simp only [readAll?_cons, inductionHypothesis]
  | swap first second members =>
      obtain ⟨key, value⟩ := first
      obtain ⟨otherKey, otherValue⟩ := second
      simp only [readAll?_cons]
      cases key.text with
      | error fault => cases otherKey.text <;> simp [Except.toOption]
      | ok name =>
          cases otherKey.text with
          | error fault => simp [Except.toOption]
          | ok other =>
              have swapped := read?_comm fields other name otherValue value
              simp only [Except.toOption, Option.bind_some, ← Option.bind_assoc, swapped]
  | trans _ _ first second => exact (first fields).trans (second fields)

end Fields

/-- The members of an object for a field that may be left out: none, or one under its name whose
value means something or is null. -/
inductive Optionally {α : Type} (name : String) (means : α -> Tree -> Prop) :
    Option α -> List (Quoted × Tree) -> Prop where
  | absent : Optionally name means none []
  | null {key : Quoted} (named : key.text = .ok name) : Optionally name means none [(key, .null)]
  | given {key : Quoted} {said : α} {value : Tree} (named : key.text = .ok name)
      (meant : means said value) : Optionally name means (some said) [(key, value)]

/-- A string that spells a type. -/
inductive SpellsType : ColumnType -> Tree -> Prop where
  | intro {written : Quoted} {spelling : String} (spelled : written.text = .ok spelling) :
      SpellsType (.ofSpelling spelling) (.string written)

/-- A truth value. -/
inductive IsFlag : Bool -> Tree -> Prop where
  | intro (flag : Bool) : IsFlag flag (.bool flag)

/-- The members of an object that describes an item: one with its name and any of the other
fields, in any order. -/
inductive Describes (name : String) (columnType : Option ColumnType)
    (primaryKey unique notNull : Option Bool) (members : List (Quoted × Tree)) : Prop where
  | intro {key written : Quoted} {types primaryKeys uniques notNulls : List (Quoted × Tree)}
      (named : key.text = .ok "name") (spelled : written.text = .ok name)
      (type : Optionally "type" SpellsType columnType types)
      (holdsKey : Optionally "primaryKey" IsFlag primaryKey primaryKeys)
      (isUnique : Optionally "unique" IsFlag unique uniques)
      (isNotNull : Optionally "notNull" IsFlag notNull notNulls)
      (anyOrder : members.Perm
        ((key, .string written) :: (types ++ (primaryKeys ++ (uniques ++ notNulls)))))

/-- The ways to write an item: a string, or an object that describes it. -/
inductive Written : AttributeItem -> Tree -> Prop where
  | bare {name : String} {written : Quoted} (spelled : written.text = .ok name) :
      Written (.bare name) (.string written)
  | described {name : String} {columnType : Option ColumnType}
      {primaryKey unique notNull : Option Bool} {members : List (Quoted × Tree)}
      (describes : Describes name columnType primaryKey unique notNull members) :
      Written (.described name columnType primaryKey unique notNull) (.object members none)

section Decoding

variable {α : Type} {name : String} {means : α -> Tree -> Prop} {given : Option α}
  {members : List (Quoted × Tree)}

/-- A field that may be left out is kept if it is given, and means nothing otherwise. -/
theorem Optionally.readAll? {fields : Fields} {read? : Tree -> Option α}
    (put : Option (Option α) -> Fields) (written : Optionally name means given members)
    (unset : put none = fields)
    (reads : ∀ value,
      fields.read? name value = (optional? read? value).map fun said => put (some said))
    (sound : ∀ said value, means said value -> optional? read? value = some (some said)) :
    ∃ kept, fields.readAll? members = some (put kept) ∧ kept.getD none = given := by
  cases written with
  | absent => exact ⟨none, by rw [unset]; rfl, rfl⟩
  | null named => exact ⟨some none, by simp [Fields.readAll?, named, reads, optional?], rfl⟩
  | @given _ said value named meant =>
      exact ⟨some (some said), by simp [Fields.readAll?, named, reads, sound _ _ meant], rfl⟩

/-- What spells a type is read as the type. -/
theorem optional?_spellsType {type : ColumnType} {value : Tree} (spells : SpellsType type value) :
    optional? columnType? value = some (some type) := by
  obtain ⟨spelled⟩ := spells
  simp [optional?, columnType?, Tree.string?, spelled, Except.toOption]

/-- A flag is read as it is. -/
theorem optional?_isFlag {flag : Bool} {value : Tree} (isFlag : IsFlag flag value) :
    optional? bool? value = some (some flag) := by
  obtain ⟨flag⟩ := isFlag
  rfl

/-- A member that can be read whole, however deep the object stands. -/
def Sound (member : Quoted × Tree) : Prop :=
  (∃ key, member.1.text = .ok key) ∧ ∀ depth, member.2.check depth = .ok ()

/-- A member that is written optionally is sound if its values are. -/
theorem Optionally.sound (written : Optionally name means given members)
    (values : ∀ said value, means said value -> ∀ depth, value.check depth = .ok ()) :
    ∀ member ∈ members, Sound member := by
  cases written with
  | absent => exact nofun
  | null named => exact List.forall_mem_singleton.2 ⟨⟨name, named⟩, fun depth => by rw [Tree.check]⟩
  | given named meant => exact List.forall_mem_singleton.2 ⟨⟨name, named⟩, values _ _ meant⟩

/-- A text whose escapes are in order can be read at any depth. -/
theorem check_string {written : Quoted} {text : String} (spelled : written.text = .ok text)
    (depth : Nat) : (Tree.string written).check depth = .ok () := by
  rw [Tree.check, spelled]
  rfl

/-- What spells a type can be read at any depth. -/
theorem SpellsType.check {type : ColumnType} {value : Tree} (spells : SpellsType type value)
    (depth : Nat) : value.check depth = .ok () := by
  obtain ⟨spelled⟩ := spells
  exact check_string spelled depth

/-- A flag can be read at any depth. -/
theorem IsFlag.check {flag : Bool} {value : Tree} (isFlag : IsFlag flag value) (depth : Nat) :
    value.check depth = .ok () := by
  obtain ⟨flag⟩ := isFlag
  rw [Tree.check]

/-- Members that are all sound can be read. -/
theorem checkMembers_of_sound (sound : ∀ member ∈ members, Sound member) (depth : Nat) :
    Tree.checkMembers depth members = .ok () := by
  induction members with
  | nil => rw [Tree.checkMembers]
  | cons member members inductionHypothesis =>
      obtain ⟨⟨⟨key, named⟩, value⟩, others⟩ := List.forall_mem_cons.1 sound
      obtain ⟨written, tree⟩ := member
      simp_all [Tree.checkMembers, Except.bind]

section Describing

variable {text : String} {columnType : Option ColumnType} {primaryKey unique notNull : Option Bool}

/-- All members of an attribute that is described are sound. -/
theorem Describes.sound
    (describes : Describes text columnType primaryKey unique notNull members) :
    ∀ member ∈ members, Sound member := by
  obtain ⟨named, spelled, type, holdsKey, isUnique, isNotNull, anyOrder⟩ := describes
  simp only [anyOrder.mem_iff, List.forall_mem_cons, List.forall_mem_append]
  exact ⟨⟨⟨"name", named⟩, check_string spelled⟩, type.sound fun _ _ spells => spells.check,
    holdsKey.sound fun _ _ isFlag => isFlag.check, isUnique.sound fun _ _ isFlag => isFlag.check,
    isNotNull.sound fun _ _ isFlag => isFlag.check⟩

/-- The fields of an object that describes an item are those of the item. -/
theorem Describes.readAll?
    (describes : Describes text columnType primaryKey unique notNull members) :
    ∃ fields, ({} : Fields).readAll? members = some fields ∧
      fields.item? = some (.described text columnType primaryKey unique notNull) := by
  obtain @⟨key, written, _, _, _, _, named, spelled, type, holdsKey, isUnique, isNotNull,
    anyOrder⟩ := describes
  -- Since the order does not matter, the fields are read in the order in which they are declared.
  have readName : ({} : Fields).readAll? [(key, .string written)] =
      some { name := some text } := by
    simp [Fields.readAll?, named, Fields.read?, Tree.string?, spelled, Except.toOption]
  obtain ⟨keptType, readType, rfl⟩ := type.readAll?
    (fun kept => { name := some text, columnType := kept }) rfl (fun _ => rfl)
    fun _ _ => optional?_spellsType
  obtain ⟨keptKey, readKey, rfl⟩ := holdsKey.readAll?
    (fun kept => { name := some text, columnType := keptType, primaryKey := kept }) rfl
    (fun _ => rfl) fun _ _ => optional?_isFlag
  obtain ⟨keptUnique, readUnique, rfl⟩ := isUnique.readAll?
    (fun kept =>
      { name := some text, columnType := keptType, primaryKey := keptKey, unique := kept }) rfl
    (fun _ => rfl) fun _ _ => optional?_isFlag
  obtain ⟨keptNotNull, readNotNull, rfl⟩ := isNotNull.readAll?
    (fun kept =>
      { name := some text, columnType := keptType, primaryKey := keptKey, unique := keptUnique
        notNull := kept }) rfl
    (fun _ => rfl) fun _ _ => optional?_isFlag
  refine ⟨{ name := some text, columnType := keptType, primaryKey := keptKey,
            unique := keptUnique, notNull := keptNotNull }, ?_, rfl⟩
  rw [Fields.readAll?_perm anyOrder, ← List.singleton_append, Fields.readAll?_append, readName,
    Option.bind_some, Fields.readAll?_append, readType, Option.bind_some, Fields.readAll?_append,
    readKey, Option.bind_some, Fields.readAll?_append, readUnique, Option.bind_some, readNotNull]

end Describing

/-- An item is decoded however it is written. -/
theorem Written.decode_eq {item : AttributeItem} {tree : Tree} (written : item.Written tree) :
    decode tree = .ok item := by
  cases written with
  | bare spelled =>
      simp [decode, check_string spelled, ofTree?, spelled, Except.toOption, Decoded.ofText,
        Except.bind]
  | @described name columnType primaryKey unique notNull members describes =>
      have checked : (Tree.object members none).check depthLimit = .ok () := by
        simp [Tree.check, checkMembers_of_sound describes.sound, depthLimit, stopAt, Except.bind]
      obtain ⟨fields, read, item⟩ := describes.readAll?
      simp [decode, checked, ofTree?, read, item, Decoded.ofText, Except.bind]

end Decoding

end AttributeItem

end SchemaLoom
