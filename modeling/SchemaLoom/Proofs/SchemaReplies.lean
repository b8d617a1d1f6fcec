import SchemaLoom.Proofs.Normalization
import SchemaLoom.Proofs.SchemaJson

/-!
# Schemas sent as replies

The JSON text of a schema has no fence that its strings do not have. Escaping keeps a mark
as it is and turns nothing else into one, and what stands around strings and between them
keeps the marks of different strings apart. So cleaning leaves the text, and it decodes to
the schema that it was written for.
-/

namespace SchemaLoom.Json

open SchemaLoom.Reply
open SchemaLoom.Text

section Strings

variable {text : List Char}

/-- A character is written as it is, or as an escape without marks of fences. -/
theorem escape_shape (c : Char) :
    escape c = [c] ∨ ∃ letters, escape c = '\\' :: letters ∧ '\x60' ∉ letters := by
  have digits : ∀ digit < 16, '\x60' ≠ hexDigit digit := by decide
  have escaped (letter : Char) (other : letter ≠ '\x60') :
      ∃ letters, ['\\', letter] = '\\' :: letters ∧ '\x60' ∉ letters :=
    ⟨[letter], rfl, by simpa using other.symm⟩
  generalize whole : escape c = written
  unfold escape at whole
  repeat' split at whole
  all_goals subst whole
  all_goals first | exact .inr (escaped _ (by decide)) | skip
  · rename_i control
    refine .inr ⟨_, rfl, ?_⟩
    simp [digits (c.toNat / 16) (by omega), digits (c.toNat % 16) (by omega)]
  · exact .inl rfl

/-- As many marks as begin the text of a string begin the string. -/
theorem marks_isPrefix {count : Nat}
    (begins : List.replicate count '\x60' <+: text.flatMap escape) :
    List.replicate count '\x60' <+: text := by
  induction count generalizing text with
  | zero => exact List.nil_prefix
  | succ count inductionHypothesis =>
      rw [List.replicate_succ] at begins ⊢
      cases text with
      | nil => simp at begins
      | cons c text =>
          rw [List.flatMap_cons] at begins
          rcases escape_shape c with plain | ⟨letters, escaped, -⟩
          · rw [plain, List.singleton_append, List.cons_prefix_cons] at begins
            exact List.cons_prefix_cons.2 (begins.imp_right inductionHypothesis)
          · rw [escaped, List.cons_append, List.cons_prefix_cons] at begins
            exact absurd begins.1 (by decide)

/-- Escaping brings no fence into a text, since no escape has a mark. -/
theorem unfenced_flatMap_escape (unfenced : Unfenced text) : Unfenced (text.flatMap escape) := by
  induction text with
  | nil => decide
  | cons c text inductionHypothesis =>
      have others := inductionHypothesis (unfenced.of_suffix (List.suffix_cons c text))
      rcases escape_shape c with plain | ⟨letters, escaped, absent⟩
      · rw [unfenced_iff, List.infix_cons_iff, not_or] at unfenced
        have here (begins : fence <+: (c :: text).flatMap escape) : fence <+: c :: text :=
          marks_isPrefix begins
        rw [List.flatMap_cons, plain, List.singleton_append] at here ⊢
        rw [unfenced_iff, List.infix_cons_iff, not_or]
        exact ⟨fun begins => unfenced.1 (here begins), unfenced_iff.1 others⟩
      · rw [List.flatMap_cons, escaped]
        exact others.append_left (by simpa using absent)

/-- A string between quotes brings no fence that it does not hold. -/
theorem appendable_quote {text : String} (unfenced : Unfenced text.toList) :
    Appendable (quote text) where
  unfenced :=
    ((unfenced_flatMap_escape unfenced).append (.of_absent (by decide))).cons (by decide)
  first := by simp [quote]

end Strings

/-- A value whose text brings no fence to what it is put behind, at whatever level. -/
def Quiet (layout : Layout) (value : Json) : Prop :=
  ∀ level, Appendable (write layout level value)

namespace Quiet

variable {layout : Layout}

/-- A text without fences is written without any. -/
theorem string {text : String} (unfenced : Unfenced text.toList) : Quiet layout (.string text) := by
  intro level
  rw [write]
  exact appendable_quote unfenced

/-- A truth value is written without marks. -/
theorem bool (value : Bool) : Quiet layout (.bool value) := by
  intro level
  rw [write]
  cases value with
  | false => exact .of_absent (by decide)
  | true => exact .of_absent (by decide)

/-- A line break of the layout brings no fence. -/
theorem appendable_lineBreak (level : Nat) : Appendable (layout.lineBreak level) := by
  cases layout with
  | compact => exact .nil
  | pretty => exact .of_absent (by simp [Layout.lineBreak])

/-- The line on which a list or an object is closed brings no fence. -/
theorem appendable_ending {c : Char} (other : c ≠ '\x60') (level : Nat) :
    Appendable (layout.lineBreak level ++ [c]) :=
  (appendable_lineBreak level).append (Appendable.nil.cons other)

/-- A colon of the layout brings no fence. -/
theorem appendable_colon : Appendable layout.colon := by
  cases layout with
  | compact => exact .of_absent (by decide)
  | pretty => exact .of_absent (by decide)

/-- Items that are written without fences are so in a list. -/
theorem writeItems {items : List Json} (quiet : ∀ item ∈ items, Quiet layout item) (level : Nat) :
    Appendable (Json.writeItems layout level items) := by
  induction items with
  | nil =>
      rw [Json.writeItems]
      exact .nil
  | cons item items inductionHypothesis =>
      obtain ⟨first, others⟩ := List.forall_mem_cons.1 quiet
      rw [Json.writeItems]
      exact (((appendable_lineBreak level).cons (by decide)).append (first level)).append
        (inductionHypothesis others)

/-- An array of quiet values is quiet. -/
theorem array {items : List Json} (quiet : ∀ item ∈ items, Quiet layout item) :
    Quiet layout (.array items) := by
  intro level
  cases items with
  | nil =>
      rw [write]
      exact .of_absent (by decide)
  | cons item items =>
      obtain ⟨first, others⟩ := List.forall_mem_cons.1 quiet
      rw [write, List.append_assoc]
      have opening : Appendable ('[' :: layout.lineBreak (level + 1)) :=
        (appendable_lineBreak (level + 1)).cons (by decide)
      have written := writeItems others (level + 1)
      exact ((opening.append (first (level + 1))).append written).append
        (appendable_ending (by decide) level)

/-- Members that are written without fences are so in an object. -/
theorem writeMembers {members : List (String × Json)}
    (unfenced : ∀ member ∈ members, Unfenced member.1.toList)
    (quiet : ∀ member ∈ members, Quiet layout member.2) (level : Nat) :
    Appendable (Json.writeMembers layout level members) := by
  induction members with
  | nil =>
      rw [Json.writeMembers]
      exact .nil
  | cons member members inductionHypothesis =>
      obtain ⟨name, value⟩ := member
      obtain ⟨firstName, otherNames⟩ := List.forall_mem_cons.1 unfenced
      obtain ⟨first, others⟩ := List.forall_mem_cons.1 quiet
      rw [Json.writeMembers]
      have opening : Appendable (',' :: layout.lineBreak level) :=
        (appendable_lineBreak level).cons (by decide)
      have named := opening.append (appendable_quote firstName)
      exact ((named.append appendable_colon).append (first level)).append
        (inductionHypothesis otherNames others)

/-- An object of quiet values is quiet, if its names have no fence either. -/
theorem object {members : List (String × Json)}
    (unfenced : ∀ member ∈ members, Unfenced member.1.toList)
    (quiet : ∀ member ∈ members, Quiet layout member.2) : Quiet layout (.object members) := by
  intro level
  cases members with
  | nil =>
      rw [write]
      exact .of_absent (by decide)
  | cons member members =>
      obtain ⟨name, value⟩ := member
      obtain ⟨firstName, otherNames⟩ := List.forall_mem_cons.1 unfenced
      obtain ⟨first, others⟩ := List.forall_mem_cons.1 quiet
      rw [write, List.append_assoc]
      exact ((((((appendable_lineBreak (level + 1)).cons (by decide)).append
        (appendable_quote firstName)).append appendable_colon).append (first (level + 1))).append
          (writeMembers otherNames others (level + 1))).append (appendable_ending (by decide) level)

end Quiet

/-- The text of an object runs from brace to brace. -/
theorem write_object (layout : Layout) (level : Nat) (members : List (String × Json)) :
    ∃ inner, write layout level (.object members) = '\x7b' :: (inner ++ ['\x7d']) := by
  cases members with
  | nil => exact ⟨[], by rw [write, List.nil_append]⟩
  | cons member members =>
      obtain ⟨name, value⟩ := member
      rw [write, List.cons_append, List.cons_append, List.cons_append, List.cons_append,
        List.cons_append, List.cons_append]
      exact ⟨_, rfl⟩

end SchemaLoom.Json

namespace SchemaLoom

open Json
open Reply
open Text

/-- The strings of an attribute. -/
def Attribute.strings (column : Attribute) : List String :=
  [column.name, column.columnType.spelling]

/-- The strings of an entity. -/
def Entity.strings (entity : Entity) : List String :=
  entity.name :: entity.attributes.flatMap Attribute.strings

/-- The strings of a relationship. -/
def Relationship.strings (relationship : Relationship) : List String :=
  relationship.endpoints ++ relationship.label.toList

/-- All strings of a schema: names, the spellings of types, and labels. -/
def Schema.strings (schema : Schema) : List String :=
  schema.entities.flatMap Entity.strings ++ schema.relationships.flatMap Relationship.strings

section Quietness

variable {layout : Layout}

/-- An attribute is written without fences if its texts have none. -/
theorem Attribute.quiet_toJson {column : Attribute}
    (unfenced : ∀ text ∈ column.strings, Unfenced text.toList) : Quiet layout column.toJson := by
  simp only [strings, List.forall_mem_cons, List.not_mem_nil, false_implies, implies_true,
    and_true] at unfenced
  refine .object (by simp only [List.forall_mem_cons]; decide) ?_
  simp only [List.forall_mem_cons]
  exact ⟨.string unfenced.1, .string unfenced.2, .bool _, .bool _, .bool _, nofun⟩

/-- An entity is written without fences if its texts have none. -/
theorem Entity.quiet_toJson {entity : Entity}
    (unfenced : ∀ text ∈ entity.strings, Unfenced text.toList) : Quiet layout entity.toJson := by
  obtain ⟨name, columns⟩ := List.forall_mem_cons.1 unfenced
  have attributes : Quiet layout (.array (entity.attributes.map Attribute.toJson)) := by
    refine .array fun item member => ?_
    obtain ⟨column, isColumn, rfl⟩ := List.mem_map.1 member
    exact Attribute.quiet_toJson fun text isText =>
      columns text (List.mem_flatMap.2 ⟨column, isColumn, isText⟩)
  refine .object (by simp only [List.forall_mem_cons]; decide) ?_
  simp only [List.forall_mem_cons]
  exact ⟨.string name, attributes, nofun⟩

/-- A relationship is written without fences if its texts have none. -/
theorem Relationship.quiet_toJson {relationship : Relationship}
    (unfenced : ∀ text ∈ relationship.strings, Unfenced text.toList) :
    Quiet layout relationship.toJson := by
  obtain ⟨fromTable, fromColumn, toTable, toColumn, label⟩ := relationship
  obtain ⟨ends, labels⟩ := List.forall_mem_append.1 unfenced
  simp only [endpoints, List.forall_mem_cons] at ends
  obtain ⟨table, column, otherTable, otherColumn, -⟩ := ends
  cases label with
  | none =>
      refine .object (by simp only [List.append_nil, List.forall_mem_cons]; decide) ?_
      simp only [List.append_nil, List.forall_mem_cons]
      exact ⟨.string table, .string column, .string otherTable, .string otherColumn, nofun⟩
  | some label =>
      have labelled : Unfenced label.toList := labels label (by simp)
      refine .object ?_ ?_
      · simp only [List.cons_append, List.nil_append, List.forall_mem_cons]
        decide
      simp only [List.cons_append, List.nil_append, List.forall_mem_cons]
      exact ⟨.string table, .string column, .string otherTable, .string otherColumn,
        .string labelled, nofun⟩

/-- A schema is written without fences if its texts have none. -/
theorem Schema.quiet_toJson {schema : Schema}
    (unfenced : ∀ text ∈ schema.strings, Unfenced text.toList) : Quiet layout schema.toJson := by
  obtain ⟨inEntities, inRelationships⟩ := List.forall_mem_append.1 unfenced
  have entities : Quiet layout (.array (schema.entities.map Entity.toJson)) := by
    refine .array fun item member => ?_
    obtain ⟨entity, isEntity, rfl⟩ := List.mem_map.1 member
    exact Entity.quiet_toJson fun text isText =>
      inEntities text (List.mem_flatMap.2 ⟨entity, isEntity, isText⟩)
  have relationships : Quiet layout (.array (schema.relationships.map Relationship.toJson)) := by
    refine .array fun item member => ?_
    obtain ⟨relationship, isRelationship, rfl⟩ := List.mem_map.1 member
    exact Relationship.quiet_toJson fun text isText =>
      inRelationships text (List.mem_flatMap.2 ⟨relationship, isRelationship, isText⟩)
  refine .object (by simp only [List.forall_mem_cons]; decide) ?_
  simp only [List.forall_mem_cons]
  exact ⟨entities, relationships, nofun⟩

end Quietness

namespace Reply

variable {schema : Schema} {layout : Layout}

/-- The text of a schema is an object between its braces. -/
theorem toList_jsonText (schema : Schema) (layout : Layout) :
    ∃ inner, (schema.jsonText layout).toList = '\x7b' :: (inner ++ ['\x7d']) := by
  rw [Schema.jsonText, render, String.toList_ofList, Schema.toJson]
  exact write_object layout 0 _

/-- The JSON text of a schema with entities is taken for the schema. -/
theorem usableSchema?_jsonText (entities : schema.entities ≠ []) (normal : schema.TypesNormal) :
    usableSchema? (schema.jsonText layout) = some schema := by
  obtain ⟨inner, braces⟩ := toList_jsonText schema layout
  have decoded : Schema.ofJsonText (schema.jsonText layout) = .ok schema := by
    rw [Schema.ofJsonText, Schema.jsonText, Document.read_write (Schema.tree?_toJson schema),
      Schema.decode_tree normal]
    rfl
  have nonempty : schema.isEmpty = false := by
    rw [Schema.isEmpty, List.isEmpty_eq_false_iff]
    exact entities
  simp [usableSchema?, braces, decoded, nonempty]

/-- However a reply wraps the JSON text of a schema, it is what cleaning leaves. -/
theorem cleanJson_jsonText {reply before after : String}
    (unfenced : ∀ text ∈ schema.strings, Unfenced text.toList)
    (blankBefore : isBlankText before.toList) (blankAfter : isBlankText after.toList)
    (wraps : reply ∈ wrappings "json" (schema.jsonText layout)) :
    cleanJson (before ++ reply ++ after) = schema.jsonText layout := by
  have language : "json".toList = 'j' :: ['s', 'o', 'n'] := by decide
  have quiet : Appendable (schema.jsonText layout).toList := by
    rw [Schema.jsonText, render, String.toList_ofList]
    exact Schema.quiet_toJson unfenced 0
  have solid : Solid (schema.jsonText layout).toList := by
    obtain ⟨inner, braces⟩ := toList_jsonText schema layout
    rw [braces]
    exact ⟨List.cons_ne_nil _ _, .cons (by decide) _,
      EndsSolid.append_right (by simp) (.singleton (by decide)) ('\x7b' :: inner)⟩
  have left := trim_unfence false language (by decide) quiet.unfenced blankBefore blankAfter wraps
  rw [unfence, trim_of_solid solid] at left
  rw [cleanJson, left, String.ofList_toList]

/-- A schema with entities and normal types arrives as it was sent: in either layout, alone
or in a fence, with blanks around it, unless a string of it has a fence. -/
theorem ofText_jsonText (entities : schema.entities ≠ []) (normal : schema.TypesNormal)
    (unfenced : ∀ text ∈ schema.strings, Unfenced text.toList) (layout : Layout)
    {reply before after : String} (wraps : reply ∈ wrappings "json" (schema.jsonText layout))
    (blankBefore : isBlankText before.toList) (blankAfter : isBlankText after.toList) :
    ofText (before ++ reply ++ after) = .schema schema ∧
      Normalized.ofReply (some (ofText (before ++ reply ++ after))) =
        { sql := Ddl.render schema
          schema
          gaps := []
          issues := schema.issues
          usedFallback := false } := by
  have read : ofText (before ++ reply ++ after) = .schema schema := by
    simp only [ofText, cleanJson_jsonText unfenced blankBefore blankAfter wraps,
      usableSchema?_jsonText entities normal]
  rw [read, Normalized.ofReply_schema entities]
  exact ⟨rfl, rfl⟩

/-- A schema with marks of fences in its strings, but never three in a row. -/
def markedSchema : Schema :=
  { entities :=
      [{ name := "``"
         attributes :=
           [{ name := "`\n``", columnType := .declared "ENUM('``', '`\x22`')", primaryKey := false,
              unique := true, notNull := false }] }]
    relationships :=
      [{ fromTable := "``", fromColumn := "`\n``", toTable := "`", toColumn := "",
         label := some "``json" }] }

/-- Marks at both ends of strings make no fence across them. -/
theorem ofText_jsonText_marks :
    markedSchema.TypesNormal ∧ (∀ text ∈ markedSchema.strings, Unfenced text.toList) ∧
      ofText ("\n" ++ fenced "" (markedSchema.jsonText .pretty) ++ "\t") = .schema markedSchema := by
  have normal : markedSchema.TypesNormal := by decide
  have unfenced : ∀ text ∈ markedSchema.strings, Unfenced text.toList := by decide
  have wraps : fenced "" (markedSchema.jsonText .pretty) ∈
      wrappings "json" (markedSchema.jsonText .pretty) :=
    List.mem_cons_of_mem _ (List.mem_cons_of_mem _ List.mem_cons_self)
  have before : isBlankText "\n".toList := by decide
  have after : isBlankText "\t".toList := by decide
  obtain ⟨read, -⟩ :=
    ofText_jsonText (List.cons_ne_nil _ _) normal unfenced .pretty wraps before after
  exact ⟨normal, unfenced, read⟩

end Reply

end SchemaLoom
