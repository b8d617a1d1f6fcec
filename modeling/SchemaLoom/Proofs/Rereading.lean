import SchemaLoom.Proofs.Heads
import SchemaLoom.Proofs.Keys
import SchemaLoom.Proofs.Rendering
import SchemaLoom.Proofs.Unmarked
import SchemaLoom.Proofs.Words

/-!
# Rendering what was read

Names are rendered without quotes, so a schema that was read can be rendered and read
again when its names are plain. In a document without quotes those of tables and of
what their relationships name always are; only the words that begin columns may hold
marks that a name without quotes cannot.
-/

namespace SchemaLoom.Ddl

open SchemaLoom.Text

/-- The tables of a schema with the names of their columns. -/
def tableNames (schema : Schema) : List (String × List String) :=
  schema.entities.map fun entity => (entity.name, entity.attributes.map Attribute.name)

section Names

variable {text rest written : List Char}

/-- A bare name without marks of comments is plain. -/
theorem isPlain_of_nameChars (nonempty : written ≠ [])
    (nameChars : ∀ c ∈ written, isNameChar c = true) (unmarked : Unmarked written) :
    IsPlain (nameOf written) := by
  have spells : Spells written written := .bare nonempty nameChars unmarked.quoteFree
  rw [spells.nameOf_eq, IsPlain, String.toList_ofList]
  refine ⟨fun empty => nonempty ?_, fun c member => ⟨?_, ?_⟩, unmarked.noLineComment,
    unmarked.noBlockComment⟩
  · simpa using congrArg String.toList empty
  · have nameChar := nameChars c member
    simp only [isNameChar, Bool.and_eq_true, Bool.not_eq_true'] at nameChar
    simp [nameChar]
  · have nameChar := nameChars c member
    have noLiteral : c ≠ '\x27' := by
      rintro rfl
      exact absurd (unmarked.quoteFree _ member) (by decide)
    simp only [isNameChar, Bool.and_eq_true, bne_iff_ne] at nameChar
    simp [nameChar, noLiteral]

/-- An identifier of a text without quotes has a plain name. -/
theorem identifier?_isPlain (unmarked : Unmarked text)
    (found : identifier? text = some (written, rest)) : IsPlain (nameOf written) := by
  obtain ⟨rfl, nonempty, nameChars, -⟩ := identifier?_bare unmarked.quoteFree found
  exact isPlain_of_nameChars nonempty nameChars
    (unmarked.part (List.prefix_append ..).isInfix)

/-- The next part of a qualified name is plain where there are no quotes and comments. -/
theorem nextPart?_isPlain (unmarked : Unmarked text)
    (found : nextPart? text = some (written, rest)) : IsPlain (nameOf written) := by
  rw [nextPart?] at found
  split at found
  · rename_i after point
    have suffix : trimStart after <:+ text := ((trimStart_suffix after).trans
      (List.suffix_cons '.' after)).trans (point ▸ trimStart_suffix text)
    exact identifier?_isPlain (unmarked.of_suffix suffix) found
  · cases found

/-- The last part of an unmarked qualified name is plain if the part in front of it is. -/
theorem lastPart_isPlain {part : List Char} (unmarked : Unmarked text)
    (plain : IsPlain (nameOf part)) : IsPlain (nameOf (lastPart part text).1) := by
  fun_induction lastPart part text with
  | case1 => exact plain
  | case2 part text next rest found inductionHypothesis =>
      exact inductionHypothesis (unmarked.of_suffix (nextPart?_suffix found).1)
        (nextPart?_isPlain unmarked found)

/-- The name that a qualified name without marks is read as is plain. -/
theorem qualified?_isPlain (unmarked : Unmarked text)
    (found : qualified? text = some (written, rest)) : IsPlain (nameOf written) := by
  obtain ⟨parts, first, last⟩ := Option.map_eq_some_iff.1 found
  have plain := lastPart_isPlain (unmarked.of_suffix (identifier?_suffix first).1)
    (identifier?_isPlain unmarked first)
  rwa [last] at plain

/-- The name of a table in an unmarked text is plain. -/
theorem nameAndBody?_isPlain {name body : List Char} (unmarked : Unmarked text)
    (found : nameAndBody? text = some (name, body)) : IsPlain (nameOf name) := by
  rw [nameAndBody?] at found
  split at found
  · cases found
  · rename_i qualified
    split at found
    · obtain ⟨rfl, -⟩ := Prod.mk.inj (Option.some.inj found)
      exact qualified?_isPlain unmarked qualified
    · cases found

/-- The name in a statement head of a text without quotes is plain. -/
theorem tableHead?_isPlain {name body : List Char} (unmarked : Unmarked text)
    (found : tableHead? text = some (name, body)) : IsPlain (nameOf name) := by
  rw [tableHead?] at found
  split at found
  · cases found
  · rename_i rest before
    have inner := unmarked.of_suffix (phraseAndBlanks_suffix before)
    split at found
    · rename_i parts guarded
      cases found
      obtain ⟨after, condition, named⟩ := Option.bind_eq_some_iff.1 guarded
      exact nameAndBody?_isPlain (inner.of_suffix (phraseAndBlanks_suffix condition)) named
    · exact nameAndBody?_isPlain inner found

/-- A name in parentheses in an unmarked text is plain. -/
theorem parenthesizedIdentifier?_isPlain (unmarked : Unmarked text)
    (found : parenthesizedIdentifier? text = some (written, rest)) :
    IsPlain (nameOf written) ∧ rest <:+ text := by
  rw [parenthesizedIdentifier?] at found
  split at found
  · rename_i inner opened
    have inside : trimStart inner <:+ text := ((trimStart_suffix inner).trans
      (List.suffix_cons '(' inner)).trans (opened ▸ trimStart_suffix text)
    split at found
    · cases found
    · rename_i after identifier
      split at found
      · rename_i later closed
        obtain ⟨rfl, rfl⟩ := Prod.mk.inj (Option.some.inj found)
        refine ⟨identifier?_isPlain (unmarked.of_suffix inside) identifier, ?_⟩
        exact ((List.suffix_cons ')' _).trans (closed ▸ trimStart_suffix after)).trans
          ((identifier?_suffix identifier).1.trans inside)
      · cases found
  · cases found

/-- The table and the column of a reference have plain names. -/
theorem reference?_isPlain {target : List Char × List Char} (unmarked : Unmarked text)
    (found : reference? text = some target) :
    IsPlain (nameOf target.1) ∧ IsPlain (nameOf target.2) := by
  rw [reference?] at found
  split at found
  · cases found
  · rename_i after opened
    obtain ⟨middle, word, blanks⟩ := Option.bind_eq_some_iff.1 opened
    have inner := unmarked.of_suffix
      ((dropBlanks?_suffix blanks).trans (dropKeyword?_suffix word).1)
    split at found
    · cases found
    · rename_i table rest qualified
      obtain ⟨parts, column, rfl⟩ := Option.map_eq_some_iff.1 found
      exact ⟨qualified?_isPlain inner qualified, (parenthesizedIdentifier?_isPlain
        (inner.of_suffix (qualified?_suffix qualified).1) column).1⟩

/-- The table and the column that an unmarked clause refers to have plain names. -/
theorem findReference?_isPlain {afterWord : Bool} {target : List Char × List Char}
    (unmarked : Unmarked text) (found : findReference? afterWord text = some target) :
    IsPlain (nameOf target.1) ∧ IsPlain (nameOf target.2) := by
  induction text generalizing afterWord with
  | nil => cases found
  | cons c text inductionHypothesis =>
      rw [findReference?] at found
      split at found
      · rename_i here
        cases found
        split at here
        · cases here
        · exact reference?_isPlain unmarked here
      · exact inductionHypothesis (unmarked.of_suffix (List.suffix_cons c text)) found

end Names

section Definitions

variable {table : String} {text : List Char}

/-- What stands behind the name of a constraint is a part of the definition. -/
theorem infix_withoutConstraintName (definition : List Char) :
    withoutConstraintName definition <:+: definition := by
  rw [withoutConstraintName]
  split
  · exact List.infix_refl _
  · rename_i named opened
    split
    · exact List.infix_refl _
    · rename_i rest blanks
      obtain ⟨middle, word, spaces⟩ := Option.bind_eq_some_iff.1 opened
      have suffix : rest <:+ definition := (dropBlanks?_suffix blanks).trans
        ((List.dropWhile_suffix _).trans
          ((dropBlanks?_suffix spaces).trans (dropKeyword?_suffix word).1))
      exact (infix_trim rest).trans suffix.isInfix

/-- A relationship from plain names to plain names has plain ends. -/
theorem relationshipTo_endpointsPlain {column : String} {target : List Char × List Char}
    (tablePlain : IsPlain table) (columnPlain : IsPlain column)
    (targetPlain : IsPlain (nameOf target.1) ∧ IsPlain (nameOf target.2)) :
    EndpointsPlain (relationshipTo table column target) := by
  intro name member
  simp only [relationshipTo, Relationship.endpoints, List.mem_cons, List.not_mem_nil, or_false]
    at member
  rcases member with rfl | rfl | rfl | rfl
  · exact tablePlain
  · exact columnPlain
  · exact targetPlain.1
  · exact targetPlain.2

/-- A foreign key between plain names has plain ends. -/
theorem foreignKey?_endpointsPlain {relationship : Relationship} (tablePlain : IsPlain table)
    (unmarked : Unmarked text) (found : foreignKey? table text = some relationship) :
    EndpointsPlain relationship := by
  rw [foreignKey?] at found
  split at found
  · cases found
  · rename_i column rest identifier
    obtain ⟨target, reference, rfl⟩ := Option.map_eq_some_iff.1 found
    obtain ⟨columnPlain, suffix⟩ := parenthesizedIdentifier?_isPlain unmarked identifier
    exact relationshipTo_endpointsPlain tablePlain columnPlain
      (reference?_isPlain (unmarked.of_suffix ((trimStart_suffix rest).trans suffix)) reference)

/-- The relationship of a column leads from the table and the column to plain names. -/
theorem readColumn_endpointsPlain {relationship : Relationship} (tablePlain : IsPlain table)
    (unmarked : Unmarked text)
    (columnPlain : ∀ declared, (readColumn table text).attribute? = some declared →
      IsPlain declared.name)
    (found : (readColumn table text).relationship? = some relationship) :
    EndpointsPlain relationship := by
  rw [readColumn] at columnPlain found
  split at found
  · cases found
  · rename_i name afterName word
    split at found
    · cases found
    · rename_i type rest typed
      split at found
      · cases found
      · rename_i ordinary
        simp only [word, typed, if_neg ordinary] at columnPlain
        obtain ⟨target, reference, rfl⟩ := Option.map_eq_some_iff.1 found
        have clauses : trim rest <:+: text := (infix_trim rest).trans
          ((readType?_suffix typed).trans (readWord?_suffix word)).isInfix
        exact relationshipTo_endpointsPlain tablePlain (columnPlain _ rfl)
          (findReference?_isPlain (unmarked.part clauses) reference)

/-- The relationship of a definition leads from the table to plain names. A column's
own relationship also leads from the column, whose name may be anything. -/
theorem Definition.read_endpointsPlain {relationship : Relationship} (tablePlain : IsPlain table)
    (unmarked : Unmarked text)
    (columnPlain : ∀ declared, (read table text).attribute? = some declared →
      IsPlain declared.name)
    (found : (read table text).relationship? = some relationship) :
    EndpointsPlain relationship := by
  have inner : Unmarked (withoutConstraintName text) :=
    unmarked.part (infix_withoutConstraintName text)
  rw [read] at columnPlain found
  split at found
  · rename_i rest words
    split at found
    · rename_i read
      cases found
      have suffix := Phrase.drop?_suffix (Option.filter_eq_some_iff.1 words).1
      exact foreignKey?_endpointsPlain tablePlain (inner.of_suffix suffix) read
    · cases found
  · rename_i noKey
    split at found
    · cases found
    · rename_i noClause
      simp only [noKey, noClause] at columnPlain
      exact readColumn_endpointsPlain tablePlain inner columnPlain found

end Definitions

section Tables

/-- Keys of the table do not rename its columns. -/
theorem map_name_entityOf (table : String) (items : List Definition) :
    (entityOf table items).attributes.map Attribute.name =
      (items.filterMap Definition.attribute?).map Attribute.name := by
  rw [entityOf_eq, List.map_map]
  rfl

/-- The tables of a text without quotes have plain names and bodies without quotes. -/
theorem unmarked_of_mem_blocks {text body : List Char} {name : String} (unmarked : Unmarked text)
    (member : .table name body ∈ blocks text) : IsPlain name ∧ Unmarked body := by
  induction length : text.length using Nat.strongRecOn generalizing text with
  | ind length inductionHypothesis =>
      subst length
      have notUnread (skipped : List Char) : .table name body ∉ unrecognizedHeads skipped := by
        intro inSkipped
        obtain ⟨start, -, same⟩ := List.mem_map.1 inSkipped
        cases same
      cases search : findHead? false text with
      | none =>
          rw [blocks_of_no_head search] at member
          exact absurd member (notUnread text)
      | some head =>
          have place := findHead?_found search
          have start := unmarked.of_suffix ⟨head.skipped, place.text.symm⟩
          have inside := start.of_suffix (tableHead?_suffix place.read).1
          have suffix := Body.read_rest_suffix none 0 head.body
          rw [blocks_of_head search] at member
          rcases List.mem_append.1 member with skipped | others
          · exact absurd skipped (notUnread head.skipped)
          · rcases List.mem_cons.1 others with here | later
            · have divides := Body.divides_read inside.quoteFree 0
              cases ending : Body.read none 0 head.body with
              | unclosed rest =>
                  rw [ending] at here
                  cases here
              | closed body rest =>
                  rw [ending] at divides here
                  obtain ⟨rfl, rfl⟩ := Block.table.inj here
                  refine ⟨tableHead?_isPlain start place.read, ?_⟩
                  generalize head.body = whole at inside divides
                  cases divides with
                  | closed => exact inside.part (List.prefix_append ..).isInfix
            · exact inductionHypothesis _ (Nat.lt_of_le_of_lt suffix.length_le
                (findHead?_body_length search)) (inside.of_suffix suffix) later rfl

/-- The names of a document without quotes are plain if those of its columns are. -/
theorem namesPlain_schemaOf {document : String}
    (quoteFree : QuoteFree (stripComments document.toList))
    (columns : ∀ entity ∈ (schemaOf document).entities, ∀ column ∈ entity.attributes,
      IsPlain column.name) : NamesPlain (schemaOf document) := by
  have unmarked : Unmarked (stripComments document.toList) :=
    unmarked_replaceComments (by simp) quoteFree
  constructor
  · intro entity member
    refine ⟨?_, columns entity member⟩
    obtain ⟨block, isBlock, found⟩ := List.mem_filterMap.1 member
    cases block with
    | unrecognized snippet => cases found
    | table name body =>
        obtain rfl := Option.some.inj found
        exact (unmarked_of_mem_blocks unmarked isBlock).1
  · intro relationship member
    obtain ⟨block, isBlock, inBlock⟩ := List.mem_flatMap.1 member
    obtain ⟨item, inBody, found⟩ := List.mem_filterMap.1 inBlock
    cases block with
    | unrecognized snippet => cases inBody
    | table name body =>
        obtain ⟨namePlain, bodyUnmarked⟩ := unmarked_of_mem_blocks unmarked isBlock
        obtain ⟨written, isFragment, rfl⟩ := List.mem_map.1 inBody
        refine Definition.read_endpointsPlain namePlain
          (bodyUnmarked.part (infix_of_mem_fragments bodyUnmarked isFragment))
          (fun declared isColumn => ?_) found
        have isEntity : entityOf name (definitions name body) ∈ (schemaOf document).entities :=
          List.mem_filterMap.2 ⟨_, isBlock, rfl⟩
        have named : declared.name ∈
            (entityOf name (definitions name body)).attributes.map Attribute.name := by
          rw [map_name_entityOf]
          exact List.mem_map_of_mem (List.mem_filterMap.2 ⟨_, inBody, isColumn⟩)
        obtain ⟨column, inEntity, same⟩ := List.mem_map.1 named
        exact same ▸ columns _ isEntity column inEntity

end Tables

/-- An entity of names has columns with these names. -/
theorem map_name_ofNames (name : String) (names : List String) :
    (Entity.ofNames name names).attributes.map Attribute.name = names := by
  rw [Entity.ofNames, List.map_zipWith]
  induction names with
  | nil => rfl
  | cons first names inductionHypothesis =>
      rw [Inference.primaryKeyFlags]
      split
      · rw [List.zipWith_cons_cons, List.zipWith_map_right, List.zipWith_self]
        exact congrArg (first :: ·) (List.map_id names)
      · exact congrArg (first :: ·) inductionHypothesis

/-- A rendered schema is read table by table. -/
theorem blocks_render {schema : Schema} (plain : NamesPlain schema) :
    blocks (stripComments (render schema).toList) =
      schema.entities.map fun entity =>
        renderedBlock entity (schema.relationshipsFrom entity.name) := by
  have tables : ∀ entity ∈ schema.entities,
      TablePlain entity (schema.relationshipsFrom entity.name) :=
    fun entity member => tablePlain_of_mem plain member
  have text : stripComments (render schema).toList =
      [] ++ tablesText (fun entity => schema.relationshipsFrom entity.name) schema.entities :=
    (tablesText_strips tables).stripComments_eq
  rw [text]
  exact blocks_tablesText (by decide) tables

/-- A rendered schema is read as its entities with what their names suggest, and entity by
entity the relationships that leave it. -/
theorem schemaOf_render {schema : Schema} (plain : NamesPlain schema) :
    schemaOf (render schema) =
      { entities := schema.entities.map readBack
        relationships := schema.entities.flatMap fun entity =>
          (schema.relationshipsFrom entity.name).map pluralized } := by
  rw [schemaOf, Report.ofDocument, blocks_render plain,
    Report.ofBlocks_map fun entity member => renderedBlock_gives (tablePlain_of_mem plain member)]

/-- A rendered schema is read as the tables that its entities read as. -/
theorem tableNames_render {schema : Schema} (plain : NamesPlain schema) :
    tableNames (schemaOf (render schema)) =
      (tableNames schema).map fun (table, columns) => (pluralize table, columns) := by
  rw [tableNames, tableNames, schemaOf_render plain, List.map_map, List.map_map]
  refine List.map_congr_left fun entity _ => ?_
  exact Prod.ext rfl (map_name_ofNames _ _)

/-- What was read from a document can be rendered and read again, with the same tables
and columns in order and the plural names of the tables, if all names are plain. In a
document without quotes outside its comments only those of columns need to be. -/
theorem tableNames_render_schemaOf (document : String)
    (plain : NamesPlain (schemaOf document) ∨
      QuoteFree (stripComments document.toList) ∧
        ∀ entity ∈ (schemaOf document).entities, ∀ column ∈ entity.attributes,
          IsPlain column.name) :
    tableNames (schemaOf (render (schemaOf document))) =
      (tableNames (schemaOf document)).map fun (table, columns) => (pluralize table, columns) := by
  rcases plain with plain | ⟨quoteFree, columns⟩
  · exact tableNames_render plain
  · exact tableNames_render (namesPlain_schemaOf quoteFree columns)

/-- A broken block, a qualified table and a reference, with a quote in a comment. -/
theorem tableNames_render_schemaOf_qualified :
    tableNames (schemaOf (render (schemaOf
      "CREATE TABLE a (b; CREATE TABLE c.d (e INT REFERENCES f.g(h)) -- don't"))) =
        [("ds", ["e"])] := by
  rw [tableNames_render_schemaOf _ (.inr ⟨by decide +kernel, by decide +kernel⟩)]
  decide +kernel

/-- Names that were quoted are rendered without quotes and may not be read again: a
table name with a blank in it opens no table. -/
theorem not_forall_tableNames_render_schemaOf :
    ¬∀ document : String, tableNames (schemaOf (render (schemaOf document))) =
      (tableNames (schemaOf document)).map fun (table, columns) => (pluralize table, columns) := by
  intro all
  have quoted := all "CREATE TABLE \x22Order Items\x22 (id INTEGER)"
  revert quoted
  decide +kernel

end SchemaLoom.Ddl
