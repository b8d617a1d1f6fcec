import SchemaLoom.Proofs.Occurrences
import SchemaLoom.Proofs.RenderedReplies

/-!
# Where the primary key is written

The keywords of the primary key are two words with a blank between them. Names without blanks may
hold either word, but at every blank of a statement a fixed word or mark stands on one side, and it
meets the keywords only behind a column that is to hold the key. There is one such column at
most: the first whose name ends in `id`.
-/

namespace SchemaLoom

namespace Inference

/-- Whether a name ends in `id`, in small letters. -/
def endsInId (name : String) : Bool :=
  Text.endsWith "id".toList (Text.lowercase name.toList)

/-- A name that ends in `id` does not end in `name`, so it is that of an identifier. -/
theorem isIdLike_eq_endsInId : isIdLike = endsInId := by
  funext name
  rw [isIdLike, endsLikeId, endsInId]
  generalize Text.lowercase name.toList = small
  have apart : Text.endsWith "id".toList small = true →
      Text.endsWith "name".toList small = false := by
    unfold Text.endsWith Text.startsWith
    rw [show "id".toList.reverse = ['d', 'i'] by decide,
      show "name".toList.reverse = ['e', 'm', 'a', 'n'] by decide]
    cases small.reverse with
    | nil => simp [Text.dropStart?]
    | cons c rest =>
        simp only [Text.dropStart?]
        split <;> simp_all
  cases ends : Text.endsWith "id".toList small <;> simp_all

/-- The first name that ends in `id` has the flag of the primary key. -/
theorem getElem?_primaryKeyFlags_first {names before after : List String} {name : String}
    (split : names = before ++ name :: after) (ends : endsInId name = true)
    (others : ∀ other ∈ before, endsInId other = false) :
    (primaryKeyFlags names)[before.length]? = some true := by
  have none : before.findIdx? endsInId = none := List.findIdx?_eq_none_iff.2 others
  rw [getElem?_primaryKeyFlags (by simp [split]), primaryKeyIndex?, isIdLike_eq_endsInId, split]
  simp [List.findIdx?_append, List.findIdx?_cons, none, ends]

end Inference

namespace Ddl

open Reply
open Text

/-- The keywords of the primary key. -/
def keyWords : List Char :=
  Constraint.primaryKey.keywords.toList

section Words

variable {word after : List Char}

/-- A word in front of a blank holds no keywords, and does not begin them unless what follows the
blank goes on as they do. -/
theorem occurrences_word (solid : ' ' ∉ word)
    (apart : ¬("PRIMARY".toList <:+ word ∧ "KEY".toList <+: after)) :
    occurrences keyWords (word ++ ' ' :: after) = occurrences keyWords after := by
  have cut : keyWords = "PRIMARY".toList ++ ' ' :: "KEY".toList := by decide
  have none : occurrences keyWords word = 0 := occurrences_eq_zero (c := ' ') (by decide) solid
  rw [cut] at none ⊢
  rw [occurrences_cut (by decide) (by decide), if_neg apart, none, Nat.zero_add]

/-- A text begins with a word that does not end as the keywords begin. -/
theorem occurrences_behind_word (solid : ' ' ∉ word) (other : ¬"PRIMARY".toList <:+ word) :
    occurrences keyWords (word ++ ' ' :: after) = occurrences keyWords after :=
  occurrences_word solid fun meet => other meet.1

/-- A text begins with a word, and goes on in another way than the keywords do. -/
theorem occurrences_before_word (solid : ' ' ∉ word) (other : ¬"KEY".toList <+: after) :
    occurrences keyWords (word ++ ' ' :: after) = occurrences keyWords after :=
  occurrences_word solid fun meet => other meet.2

/-- Indentation adds no occurrence. -/
theorem occurrences_indented (text : List Char) :
    occurrences keyWords (' ' :: ' ' :: text) = occurrences keyWords text := by
  have blank (text : List Char) :
      occurrences keyWords ([] ++ ' ' :: text) = occurrences keyWords text :=
    occurrences_behind_word (List.not_mem_nil) (by decide)
  exact (blank (' ' :: text)).trans (blank text)

end Words

/-- What follows the name of a column holds the keywords of the primary key if it is to be one. -/
theorem occurrences_definition (inference : Inference) (primaryKey : Bool) {ending : List Char}
    (spelled : inference.columnType.spelling ∈ ["INTEGER", "DATE", "TEXT"])
    (ends : ending = [] ∨ ending = [',']) :
    let text := inference.columnType.spelling.toList ++
      (constraintsText (inference.constraints primaryKey) ++ ending)
    ¬"KEY".toList <+: text ∧ occurrences keyWords text = if primaryKey then 1 else 0 := by
  unfold Inference.constraints
  generalize inference.columnType.spelling = spelling at spelled
  generalize inference.unique = unique
  generalize inference.notNull = notNull
  simp only [List.mem_cons, List.not_mem_nil, or_false] at spelled
  rcases spelled with rfl | rfl | rfl <;> rcases ends with rfl | rfl <;>
    cases primaryKey <;> cases unique <;> cases notNull <;> decide

/-- A column holds the keywords of the primary key once if it is to be one, whatever its name. -/
theorem occurrences_columnText {name : String} (solid : ' ' ∉ name.toList) (primaryKey : Bool)
    {ending : List Char} (ends : ending = [] ∨ ending = [',']) :
    occurrences keyWords (' ' :: ' ' :: (columnText name primaryKey ++ ending)) =
      if primaryKey then 1 else 0 := by
  obtain ⟨apart, count⟩ := occurrences_definition (Inference.ofName name) primaryKey
    (mem_spelling_ofName name) ends
  rw [← count, occurrences_indented, ← occurrences_before_word solid apart]
  simp only [columnText, List.append_assoc, List.cons_append, List.nil_append]

/-- The line of a foreign key has no occurrence. -/
theorem occurrences_foreignKeyText {relationship : Relationship}
    (solid : ∀ name ∈ relationship.endpoints, ' ' ∉ name.toList)
    {ending : List Char} (ends : ending = [] ∨ ending = [',']) :
    occurrences keyWords (' ' :: ' ' :: (foreignKeyText relationship ++ ending)) = 0 := by
  simp only [Relationship.endpoints, List.forall_mem_cons] at solid
  obtain ⟨-, fromColumn, toTable, toColumn, -⟩ := solid
  have list : ' ' ∉ enclosed [] relationship.fromColumn.toList [] := by
    simpa [enclosed] using fromColumn
  have target : ' ' ∉ (pluralize relationship.toTable).toList ++
      (enclosed [] relationship.toColumn.toList [] ++ ending) := by
    rcases ends with rfl | rfl <;>
      simpa [enclosed, IsPlain.toList_pluralize] using ⟨toTable, toColumn⟩
  have words : foreignKeyText relationship ++ ending =
      "FOREIGN".toList ++ ' ' :: ("KEY".toList ++ ' ' ::
        (enclosed [] relationship.fromColumn.toList [] ++ ' ' ::
          ("REFERENCES".toList ++ ' ' :: ((pluralize relationship.toTable).toList ++
            (enclosed [] relationship.toColumn.toList [] ++ ending))))) := by
    unfold foreignKeyText
    generalize enclosed [] relationship.fromColumn.toList [] = list
    generalize enclosed [] relationship.toColumn.toList [] = column
    generalize (pluralize relationship.toTable).toList = table
    simp only [List.append_assoc, List.cons_append, List.nil_append]
  have other (text : List Char) : ¬"KEY".toList <+: "REFERENCES".toList ++ text := by
    rw [show "KEY".toList = ['K', 'E', 'Y'] by decide,
      show "REFERENCES".toList = 'R' :: "EFERENCES".toList by decide, List.cons_append,
      List.cons_prefix_cons]
    exact fun begins => absurd begins.1 (by decide)
  rw [occurrences_indented, words, occurrences_behind_word (by decide) (by decide),
    occurrences_behind_word (by decide) (by decide), occurrences_before_word list (other _),
    occurrences_behind_word (by decide) (by decide),
    occurrences_eq_zero (c := ' ') (by decide) target]

/-- The line of a head has no occurrence. -/
theorem occurrences_headText {name : String} (solid : ' ' ∉ name.toList) :
    occurrences keyWords (headText name) = 0 := by
  have table : ' ' ∉ (pluralize name).toList := by simpa [IsPlain.toList_pluralize] using solid
  have words : headText name =
      "CREATE".toList ++ ' ' :: ("TABLE".toList ++ ' ' :: ("IF".toList ++ ' ' ::
        ("NOT".toList ++ ' ' :: ("EXISTS".toList ++ ' ' ::
          ((pluralize name).toList ++ ' ' :: ['(']))))) := by
    unfold headText
    generalize (pluralize name).toList = table
    simp only [List.append_assoc, List.cons_append, List.nil_append]
  rw [words, occurrences_behind_word (by decide) (by decide),
    occurrences_behind_word (by decide) (by decide),
    occurrences_behind_word (by decide) (by decide),
    occurrences_behind_word (by decide) (by decide),
    occurrences_behind_word (by decide) (by decide), occurrences_before_word table (by decide)]
  decide

section Entities

variable {texts : List (List Char)} {counts : List Nat} {names : List String}

/-- The lines of a body hold the keywords as often as its definitions do. -/
theorem map_occurrences_bodyRows
    (each : List.Forall₂ (fun text count => ∀ ending, ending = [] ∨ ending = [','] →
      occurrences keyWords (' ' :: ' ' :: (text ++ ending)) = count) texts counts) :
    (bodyRows texts).map (occurrences keyWords) = counts := by
  induction each with
  | nil => rfl
  | @cons text count texts counts first others inductionHypothesis =>
      cases others with
      | nil => simpa [bodyRows] using first [] (.inl rfl)
      | cons next others =>
          rw [bodyRows, List.map_cons, first [','] (.inr rfl), inductionHypothesis]
          exact List.cons_ne_nil _ _

/-- The line of a column has one occurrence if it is flagged, and none otherwise. -/
theorem occurrences_columnTexts (solid : ∀ name ∈ names, ' ' ∉ name.toList) {flags : List Bool}
    (length : flags.length = names.length) :
    List.Forall₂ (fun text count => ∀ ending, ending = [] ∨ ending = [','] →
        occurrences keyWords (' ' :: ' ' :: (text ++ ending)) = count)
      (List.zipWith columnText names flags) (flags.map Bool.toNat) := by
  induction names generalizing flags with
  | nil =>
      obtain rfl := List.length_eq_zero_iff.1 length
      exact .nil
  | cons name names inductionHypothesis =>
      obtain ⟨first, others⟩ := List.forall_mem_cons.1 solid
      cases flags with
      | nil => cases length
      | cons flag flags =>
          refine .cons (fun ending ends => ?_) (inductionHypothesis others (Nat.succ.inj length))
          rw [occurrences_columnText first flag ends]
          cases flag <;> rfl

/-- One flag is set, or none if no name is that of an identifier. -/
theorem sum_primaryKeyFlags (names : List String) :
    ((Inference.primaryKeyFlags names).map Bool.toNat).sum =
      if names.any Inference.isIdLike then 1 else 0 := by
  induction names with
  | nil => rfl
  | cons name names inductionHypothesis =>
      rw [Inference.primaryKeyFlags]
      split
      · simp_all
      · simp_all

variable {entity : Entity} {relationships : List Relationship}

/-- Along the rows of a body occurrences follow the flags, and the foreign keys have none. -/
theorem map_occurrences_definitionTexts
    (columns : ∀ name ∈ entity.attributes.map Attribute.name, ' ' ∉ name.toList)
    (ends : ∀ relationship ∈ relationships, ∀ name ∈ relationship.endpoints, ' ' ∉ name.toList) :
    (bodyRows (definitionTexts entity relationships)).map (occurrences keyWords) =
      (Inference.primaryKeyFlags (entity.attributes.map Attribute.name)).map Bool.toNat ++
        relationships.map fun _ => 0 := by
  refine map_occurrences_bodyRows (List.rel_append ?_ ?_)
  · exact occurrences_columnTexts columns (Inference.length_primaryKeyFlags _)
  · refine List.forall₂_map_left_iff.2 (List.forall₂_map_right_iff.2 (List.forall₂_same.2 ?_))
    exact fun relationship member ending => occurrences_foreignKeyText (ends relationship member)

section Identifiers

variable {before after : List Attribute} {column : Attribute}

/-- The first attribute whose name ends like that of an identifier is flagged. -/
theorem getElem?_primaryKeyFlags_attributes
    (attributes : entity.attributes = before ++ column :: after)
    (endsInId : Inference.endsInId column.name = true)
    (others : ∀ other ∈ before, Inference.endsInId other.name = false) :
    (Inference.primaryKeyFlags (entity.attributes.map Attribute.name))[before.length]? =
      some true := by
  have names : entity.attributes.map Attribute.name =
      before.map Attribute.name ++ column.name :: after.map Attribute.name := by
    rw [attributes, List.map_append, List.map_cons]
  have flag :=
    Inference.getElem?_primaryKeyFlags_first names endsInId (List.forall_mem_map.2 others)
  rwa [List.length_map] at flag

/-- The definition of the first column whose name ends in `id` is that of a primary key. -/
theorem getElem?_definitionTexts_first (attributes : entity.attributes = before ++ column :: after)
    (endsInId : Inference.endsInId column.name = true)
    (others : ∀ other ∈ before, Inference.endsInId other.name = false) :
    (definitionTexts entity relationships)[before.length]? =
      some (columnText column.name true) := by
  have name : (entity.attributes.map Attribute.name)[before.length]? = some column.name := by
    simp [attributes]
  rw [definitionTexts, List.getElem?_append_left, List.getElem?_zipWith, name,
    getElem?_primaryKeyFlags_attributes attributes endsInId others]
  simp [attributes, Inference.length_primaryKeyFlags]

end Identifiers

end Entities

/-- A name without blanks. -/
def Unspaced (name : String) : Prop :=
  ∀ c ∈ name.toList, isBlank c = false

instance (name : String) : Decidable (Unspaced name) :=
  List.decidableBAll (fun c => isBlank c = false) name.toList

/-- A schema whose names, and those of the ends of its relationships, are without blanks. -/
structure NamesUnspaced (schema : Schema) : Prop where
  entities : ∀ entity ∈ schema.entities, Unspaced entity.name
  attributes : ∀ entity ∈ schema.entities, ∀ column ∈ entity.attributes, Unspaced column.name
  ends : ∀ relationship ∈ schema.relationships, ∀ name ∈ relationship.endpoints, Unspaced name

/-- An unspaced name has no blank. -/
theorem Unspaced.not_mem {name : String} (unspaced : Unspaced name) {c : Char}
    (blank : isBlank c = true) : c ∉ name.toList :=
  fun member => by simp [unspaced c member] at blank

section Lines

/-- The head of a table is on one line. -/
theorem oneLine_headText {name : String} (oneLine : '\n' ∉ name.toList) :
    '\n' ∉ headText name := by
  have table : '\n' ∉ (pluralize name).toList := by simpa [IsPlain.toList_pluralize] using oneLine
  unfold headText
  generalize (pluralize name).toList = letters at table
  simpa using table

/-- A column is on one line. -/
theorem oneLine_columnText {name : String} (oneLine : '\n' ∉ name.toList) (primaryKey : Bool) :
    '\n' ∉ columnText name primaryKey := by
  obtain ⟨first, rest, spelled, word, -, -⟩ := spelling_ofName name
  have spelling := (onLine_of_isAsciiWord word).oneLine
  have constraints :=
    (onLine_constraintsText ((Inference.ofName name).constraints primaryKey)).oneLine
  rw [← spelled] at spelling
  simp [columnText, oneLine, spelling, constraints]

/-- A foreign key is on one line. -/
theorem oneLine_foreignKeyText {relationship : Relationship}
    (oneLine : ∀ name ∈ relationship.endpoints, '\n' ∉ name.toList) :
    '\n' ∉ foreignKeyText relationship := by
  simp only [Relationship.endpoints, List.forall_mem_cons] at oneLine
  obtain ⟨-, fromColumn, toTable, toColumn, -⟩ := oneLine
  have table : '\n' ∉ (pluralize relationship.toTable).toList := by
    simpa [IsPlain.toList_pluralize] using toTable
  unfold foreignKeyText enclosed
  generalize (pluralize relationship.toTable).toList = letters at table
  simpa using ⟨fromColumn, table, toColumn⟩

/-- The lines of the statement of a table: its head, its definitions, and what closes it. -/
theorem splitLines_renderEntity {entity : Entity} {relationships : List Relationship}
    (name : '\n' ∉ entity.name.toList)
    (columns : ∀ name ∈ entity.attributes.map Attribute.name, '\n' ∉ name.toList)
    (ends : ∀ relationship ∈ relationships, ∀ name ∈ relationship.endpoints, '\n' ∉ name.toList) :
    splitLines (renderEntity entity relationships).toList =
      headText entity.name ::
        (bodyRows (definitionTexts entity relationships) ++ [[')', ';']]) := by
  have each : ∀ text ∈ definitionTexts entity relationships, '\n' ∉ text := by
    intro text member
    rcases List.mem_append.1 member with column | foreignKey
    · obtain ⟨name, isName, flag, -, rfl⟩ := exists_of_mem_zipWith column
      exact oneLine_columnText (columns name isName) flag
    · obtain ⟨relationship, isRelationship, rfl⟩ := List.mem_map.1 foreignKey
      exact oneLine_foreignKeyText (ends relationship isRelationship)
  rw [toList_renderEntity, splitLines_bodyText (oneLine_headText name) each]
  rfl

end Lines

/-- The statement of a table holds the keywords of the primary key once if one of its attributes has
a name that ends in `id`, on the line of the first such attribute, and not at all otherwise,
whichever attributes are marked as keys. -/
theorem occurrences_renderEntity {schema : Schema} (unspaced : NamesUnspaced schema) :
    ∀ entity ∈ schema.entities,
      let text := (renderEntity entity (schema.relationshipsFrom entity.name)).toList
      occurrences keyWords text =
          (if entity.attributes.any fun column => Inference.endsInId column.name then 1 else 0) ∧
        ∀ before column after, entity.attributes = before ++ column :: after →
          Inference.endsInId column.name = true →
          (∀ other ∈ before, Inference.endsInId other.name = false) →
            ∃ line, (splitLines text)[before.length + 1]? = some line ∧
              (columnLine column.name true).toList <+: line ∧ occurrences keyWords line = 1 := by
  intro entity member text
  have columns {c : Char} (blank : isBlank c = true) :
      ∀ name ∈ entity.attributes.map Attribute.name, c ∉ name.toList :=
    List.forall_mem_map.2 fun column isColumn =>
      (unspaced.attributes entity member column isColumn).not_mem blank
  have ends {c : Char} (blank : isBlank c = true) :
      ∀ relationship ∈ schema.relationshipsFrom entity.name,
        ∀ name ∈ relationship.endpoints, c ∉ name.toList :=
    fun relationship leaving name isEnd =>
      (unspaced.ends relationship (List.mem_filter.1 leaving).1 name isEnd).not_mem blank
  have lines := splitLines_renderEntity
    ((unspaced.entities entity member).not_mem (c := '\n') (by decide)) (columns (by decide))
    (ends (by decide))
  have counts := map_occurrences_definitionTexts (columns (by decide)) (ends (by decide))
  have head := occurrences_headText ((unspaced.entities entity member).not_mem (by decide))
  have closing : occurrences keyWords [')', ';'] = 0 := by decide
  constructor
  · rw [occurrences_splitLines (by decide) (by decide), lines, List.map_cons, List.map_append,
      counts, List.sum_cons, List.sum_append, List.sum_append, sum_primaryKeyFlags, head,
      Inference.isIdLike_eq_endsInId]
    simp [closing, List.any_map, Function.comp_def]
  · intro before column after attributes endsInId others
    have flag := getElem?_primaryKeyFlags_attributes attributes endsInId others
    have definition :
        (definitionTexts entity (schema.relationshipsFrom entity.name))[before.length]? =
          some (columnText column.name true) :=
      getElem?_definitionTexts_first attributes endsInId others
    -- A comma may follow the definition on its line.
    obtain ⟨ending, row⟩ := getElem?_bodyRows definition
    have count := congrArg (·[before.length]?) counts
    rw [List.getElem?_map, row, List.getElem?_append_left (by
      simp [attributes, Inference.length_primaryKeyFlags]), List.getElem?_map, flag] at count
    refine ⟨_, ?_, ?_, Option.some.inj count⟩
    · rw [lines, List.getElem?_cons_succ, List.getElem?_append_left
        (List.getElem?_eq_some_iff.1 row).1, row]
    · rw [toList_columnLine]
      exact ⟨ending, rfl⟩

/-- Names that are words of statements themselves, and a mark on every attribute. -/
theorem occurrences_renderEntity_keywords :
    let column (name : String) := { Attribute.inferred name with primaryKey := true }
    let entity : Entity :=
      { name := "PRIMARY"
        attributes := ["PRIMARY", "KEY", "FOREIGN", "Paid", "id"].map column }
    let schema : Schema :=
      { entities := [entity]
        relationships := [{ fromTable := "PRIMARY", fromColumn := "KEY", toTable := "KEY",
                            toColumn := "PRIMARY" }] }
    let text := (renderEntity entity (schema.relationshipsFrom entity.name)).toList
    NamesUnspaced schema ∧ occurrences keyWords text = 1 ∧
      ∃ line, (splitLines text)[4]? = some line ∧ (columnLine "Paid" true).toList <+: line ∧
        occurrences keyWords line = 1 := by
  intro column entity schema text
  have unspaced : NamesUnspaced schema := ⟨by decide, by decide, by decide⟩
  obtain ⟨count, line⟩ := occurrences_renderEntity unspaced entity List.mem_cons_self
  exact ⟨unspaced, count.trans (by decide),
    line (["PRIMARY", "KEY", "FOREIGN"].map column) (column "Paid") [column "id"] rfl (by decide)
      (by decide)⟩

end Ddl

end SchemaLoom
