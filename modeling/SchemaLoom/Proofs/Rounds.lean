import Mathlib.Data.List.Nodup
import Mathlib.Logic.Function.Iterate
import SchemaLoom.Proofs.Rereading

/-!
# Reading and rendering round after round

A rendered schema can be read and rendered again, round after round. A round puts the
relationships in the order of the tables, loses those that leave no table, and takes types
and constraints from names again. None of this shows in the text, to which each round only
adds a letter behind the name of every table, as long as no two entities share a name.
-/

namespace SchemaLoom

section Renaming

/-- A relationship between tables under other names. -/
def Relationship.renameTables (rename : String -> String) (relationship : Relationship) :
    Relationship :=
  { relationship with
    fromTable := rename relationship.fromTable
    toTable := rename relationship.toTable }

/-- An entity under another name. -/
def Entity.rename (rename : String -> String) (entity : Entity) : Entity :=
  { entity with name := rename entity.name }

/-- A schema with its tables under other names, which its relationships follow. -/
def Schema.renameTables (rename : String -> String) (schema : Schema) : Schema :=
  { entities := schema.entities.map (Entity.rename rename)
    relationships := schema.relationships.map (Relationship.renameTables rename) }

/-- Tables that keep their names make the same schema. -/
theorem Schema.renameTables_id (schema : Schema) : schema.renameTables id = schema := by
  have entity : Entity.rename id = id := rfl
  have relationship : Relationship.renameTables id = id := rfl
  rw [renameTables, entity, relationship, List.map_id, List.map_id]

/-- Two renamings of tables are one. -/
theorem Schema.renameTables_renameTables (first second : String -> String) (schema : Schema) :
    (schema.renameTables first).renameTables second = schema.renameTables (second ∘ first) := by
  simp only [renameTables, List.map_map]
  rfl

/-- Relationships still leave the tables that they left, if names stay apart. -/
theorem Schema.relationshipsFrom_renameTables {rename : String -> String}
    (apart : Function.Injective rename) (schema : Schema) (table : String) :
    (schema.renameTables rename).relationshipsFrom (rename table) =
      (schema.relationshipsFrom table).map (Relationship.renameTables rename) := by
  rw [relationshipsFrom, renameTables, List.filter_map]
  exact congrArg _ (List.filter_congr fun relationship _ => apart.beq_eq)

end Renaming

section Keys

variable {α β : Type} {items : List α} {key : α -> String}

/-- Parts that name the item they belong to are found with the items of that name. -/
theorem filter_flatMap_of_owner {parts : α -> List β} {owner : β -> String}
    (owned : ∀ item ∈ items, ∀ part ∈ parts item, owner part = key item) (name : String) :
    (items.flatMap parts).filter (fun part => owner part == name) =
      (items.filter fun item => key item == name).flatMap parts := by
  induction items with
  | nil => rfl
  | cons item items inductionHypothesis =>
      obtain ⟨ownedFirst, ownedOthers⟩ := List.forall_mem_cons.1 owned
      rw [List.flatMap_cons, List.filter_append, inductionHypothesis ownedOthers]
      by_cases named : key item = name
      · have all : (parts item).filter (fun part => owner part == name) = parts item :=
          List.filter_eq_self.2 fun part isPart => by simp [ownedFirst part isPart, named]
        rw [all, List.filter_cons_of_pos (by simpa using named), List.flatMap_cons]
      · have none : (parts item).filter (fun part => owner part == name) = [] :=
          List.filter_eq_nil_iff.2 fun part isPart => by simp [ownedFirst part isPart, named]
        rw [none, List.filter_cons_of_neg (by simpa using named), List.nil_append]

/-- An item is the only one of its name if no two have the same. -/
theorem filter_key_eq_singleton (distinct : (items.map key).Nodup) {item : α}
    (member : item ∈ items) : (items.filter fun other => key other == key item) = [item] := by
  induction items with
  | nil => cases member
  | cons first items inductionHypothesis =>
      obtain ⟨fresh, distinct⟩ := List.nodup_cons.1 distinct
      rcases List.mem_cons.1 member with rfl | later
      · have none : (items.filter fun other => key other == key item) = [] := by
          refine List.filter_eq_nil_iff.2 fun other isOther same => fresh ?_
          rw [← beq_iff_eq.1 same]
          exact List.mem_map_of_mem isOther
        rw [List.filter_cons_of_pos (by simp), none]
      · have apart : key first ≠ key item := fun same =>
          fresh (same ▸ List.mem_map_of_mem later)
        rw [List.filter_cons_of_neg (by simpa using apart)]
        exact inductionHypothesis distinct later

end Keys

namespace Ddl

section Plurals

variable {schema : Schema}

/-- Names that have the same plural are the same. -/
theorem pluralize_injective : Function.Injective pluralize := by
  intro first second same
  have letters := congrArg String.toList same
  rw [IsPlain.toList_pluralize, IsPlain.toList_pluralize] at letters
  exact String.toList_inj.1 (List.append_cancel_right letters)

/-- Plain names stay plain when tables are given the plurals of their names. -/
theorem namesPlain_renameTables (plain : NamesPlain schema) :
    NamesPlain (schema.renameTables pluralize) := by
  constructor
  · intro entity member
    obtain ⟨singular, isEntity, rfl⟩ := List.mem_map.1 member
    obtain ⟨name, columns⟩ := plain.1 singular isEntity
    exact ⟨name.plural, columns⟩
  · intro relationship member
    obtain ⟨singular, isRelationship, rfl⟩ := List.mem_map.1 member
    have ends := plain.2 singular isRelationship
    simp only [Relationship.endpoints, List.forall_mem_cons] at ends ⊢
    obtain ⟨fromTable, fromColumn, toTable, others⟩ := ends
    exact ⟨fromTable.plural, fromColumn, toTable.plural, others⟩

/-- Distinct names have distinct plurals. -/
theorem nodup_renameTables (distinct : (schema.entities.map Entity.name).Nodup) :
    ((schema.renameTables pluralize).entities.map Entity.name).Nodup := by
  have names : (schema.renameTables pluralize).entities.map Entity.name =
      (schema.entities.map Entity.name).map pluralize := by
    simp only [Schema.renameTables, List.map_map]
    rfl
  rw [names]
  exact distinct.map pluralize_injective

end Plurals

section Rounds

variable {schema : Schema}

/-- The statement of an entity depends on names alone, and on those alone that its foreign
keys spell. -/
theorem renderEntity_congr {first second : Entity} {leaving others : List Relationship}
    (name : first.name = second.name)
    (columns : first.attributes.map Attribute.name = second.attributes.map Attribute.name)
    (keys : leaving.map foreignKeyLine = others.map foreignKeyLine) :
    renderEntity first leaving = renderEntity second others := by
  have lines : bodyLines first leaving = bodyLines second others := by
    rw [bodyLines, bodyLines, columns, keys]
  unfold renderEntity
  rw [name, lines]

/-- Reading finds the relationships that leave a table once for each entity of its name. -/
theorem relationshipsFrom_schemaOf_render (plain : NamesPlain schema) (table : String) :
    (schemaOf (render schema)).relationshipsFrom (pluralize table) =
      (schema.entities.filter fun entity => entity.name == table).flatMap fun entity =>
        (schema.relationshipsFrom entity.name).map pluralized := by
  have owned : ∀ entity ∈ schema.entities,
      ∀ relationship ∈ (schema.relationshipsFrom entity.name).map pluralized,
        relationship.fromTable = pluralize entity.name := by
    intro entity _ relationship leaves
    obtain ⟨singular, isIn, rfl⟩ := List.mem_map.1 leaves
    have fromTable : singular.fromTable = entity.name := by simpa using (List.mem_filter.1 isIn).2
    rw [pluralized, fromTable]
  have found := filter_flatMap_of_owner owned (pluralize table)
  simp only [pluralize_injective.beq_eq] at found
  rw [schemaOf_render plain]
  exact found

/-- A round adds a letter to the name of every table, and does nothing else. -/
theorem render_schemaOf_render (plain : NamesPlain schema)
    (distinct : (schema.entities.map Entity.name).Nodup) :
    render (schemaOf (render schema)) = render (schema.renameTables pluralize) := by
  have entities : (schemaOf (render schema)).entities = schema.entities.map readBack := by
    rw [schemaOf_render plain]
  have leaving : ∀ entity ∈ schema.entities,
      (schemaOf (render schema)).relationshipsFrom (pluralize entity.name) =
        (schema.relationshipsFrom entity.name).map pluralized := by
    intro entity member
    rw [relationshipsFrom_schemaOf_render plain, filter_key_eq_singleton distinct member,
      List.flatMap_singleton]
  generalize schemaOf (render schema) = reread at entities leaving
  rw [render, render, entities, Schema.renameTables, List.map_map, List.map_map]
  refine congrArg _ (List.map_congr_left fun entity member => renderEntity_congr rfl ?_ ?_)
  · exact map_name_ofNames _ _
  · -- Reading loses the label of a relationship, which its foreign key does not spell.
    calc (reread.relationshipsFrom (pluralize entity.name)).map foreignKeyLine
        = ((schema.relationshipsFrom entity.name).map pluralized).map foreignKeyLine := by
          rw [leaving entity member]
      _ = ((schema.relationshipsFrom entity.name).map
            (Relationship.renameTables pluralize)).map foreignKeyLine := by
          rw [List.map_map, List.map_map]
          rfl
      _ = ((schema.renameTables pluralize).relationshipsFrom
            (pluralize entity.name)).map foreignKeyLine := by
          rw [Schema.relationshipsFrom_renameTables pluralize_injective]

/-- A name with letters behind it, as many as there were rounds. -/
def withLetters (count : Nat) (name : String) : String :=
  name ++ String.ofList (List.replicate count 's')

theorem withLetters_zero : withLetters 0 = id := by
  funext name
  exact String.append_empty

/-- One letter more is the letter of the plural. -/
theorem withLetters_succ (count : Nat) :
    withLetters (count + 1) = withLetters count ∘ pluralize := by
  funext name
  rw [← String.toList_inj]
  simp [withLetters, pluralize, List.replicate_succ]

/-- After any number of rounds the text of a schema is that of the schema with as many
letters behind the names of its tables. -/
theorem iterate_render_schemaOf (plain : NamesPlain schema)
    (distinct : (schema.entities.map Entity.name).Nodup) (count : Nat) :
    (fun document => render (schemaOf document))^[count] (render schema) =
      render (schema.renameTables (withLetters count)) := by
  induction count generalizing schema with
  | zero =>
      rw [withLetters_zero, Schema.renameTables_id]
      rfl
  | succ count inductionHypothesis =>
      have later := inductionHypothesis (namesPlain_renameTables plain) (nodup_renameTables distinct)
      rw [Function.iterate_succ_apply, render_schemaOf_render plain distinct, later,
        Schema.renameTables_renameTables, withLetters_succ]

/-- A label and a table that is not there do no harm. -/
theorem iterate_render_schemaOf_keywords :
    NamesPlain keywordSchema ∧ (keywordSchema.entities.map Entity.name).Nodup ∧
      (fun document => render (schemaOf document))^[2] (render keywordSchema) =
        render (keywordSchema.renameTables (withLetters 2)) ∧
      tableNames (keywordSchema.renameTables (withLetters 2)) =
        [("Keyss", ["Constraint", "id", "-email/"]), ("Checkss", [])] := by
  have plain : NamesPlain keywordSchema := by decide
  have distinct : (keywordSchema.entities.map Entity.name).Nodup := by decide
  exact ⟨plain, distinct, iterate_render_schemaOf plain distinct 2, by decide⟩

end Rounds

end Ddl

end SchemaLoom
