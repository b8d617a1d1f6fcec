import SchemaLoom.Proofs.Normalization
import SchemaLoom.Proofs.Rereading

/-!
# Rendered schemas sent as replies

The names in a rendered schema may begin with the marks of headings or of bold text, but
no name begins a line. Lines begin with the word that opens a statement, with a space or
with a closing parenthesis, or they are the empty line between two statements. So cleaning
leaves the statements, and they are not taken for JSON text.
-/

namespace SchemaLoom.Ddl

open SchemaLoom.Reply
open SchemaLoom.Text

section Lines

/-- A text within one line, without marks of fences. -/
def OnLine (text : List Char) : Prop :=
  ∀ c ∈ text, c ≠ '\n' ∧ c ≠ '\x60'

instance (text : List Char) : Decidable (OnLine text) :=
  List.decidableBAll (fun c => c ≠ '\n' ∧ c ≠ '\x60') text

variable {text later : List Char} {name : String}

/-- Joined texts stay on their line. -/
theorem OnLine.append (first : OnLine text) (second : OnLine later) : OnLine (text ++ later) :=
  List.forall_mem_append.2 ⟨first, second⟩

/-- A text on a line has no line break. -/
theorem OnLine.oneLine (onLine : OnLine text) : '\n' ∉ text :=
  fun member => (onLine _ member).1 rfl

/-- A text on a line has no marks of a fence. -/
theorem OnLine.unmarked (onLine : OnLine text) : '\x60' ∉ text :=
  fun member => (onLine _ member).2 rfl

/-- A text on a line has no surplus blank lines. -/
theorem OnLine.spaced (onLine : OnLine text) : Spaced text :=
  .of_count (by rw [List.count_eq_zero_of_not_mem onLine.oneLine]; omega)

/-- A plain name stays on its line. -/
theorem IsPlain.onLine (plain : IsPlain name) : OnLine name.toList := by
  intro c member
  obtain ⟨solid, noMark⟩ := plain.2.1 c member
  constructor
  · rintro rfl
    exact absurd solid (by decide)
  · rintro rfl
    exact absurd noMark (by decide)

/-- The plural of a plain name stays on its line. -/
theorem onLine_pluralize (plain : IsPlain name) : OnLine (pluralize name).toList := by
  rw [IsPlain.toList_pluralize]
  exact plain.onLine.append (by decide)

/-- A word stays on its line. -/
theorem onLine_of_isAsciiWord (word : ∀ c ∈ text, isAsciiWord c = true) : OnLine text := by
  intro c member
  have inWord := word c member
  constructor <;> rintro rfl <;> exact absurd inWord (by decide)

/-- The constraints of a column stay on its line. -/
theorem onLine_constraintsText (constraints : List Constraint) :
    OnLine (constraintsText constraints) := by
  intro c member
  obtain ⟨constraint, -, inside⟩ := List.mem_flatMap.1 member
  have keywords : OnLine (' ' :: constraint.keywords.toList) := by
    cases constraint <;> decide
  exact keywords c inside

/-- The definition of a column stays on its line. -/
theorem onLine_columnText (plain : IsPlain name) (primaryKey : Bool) :
    OnLine (columnText name primaryKey) := by
  obtain ⟨first, rest, spelling, word, -, -⟩ := spelling_ofName name
  simp only [columnText, spelling]
  exact plain.onLine.append (OnLine.append (by decide)
    ((onLine_of_isAsciiWord word).append (onLine_constraintsText _)))

/-- The definition of a foreign key stays on its line. -/
theorem onLine_foreignKeyText {relationship : Relationship} (plain : EndpointsPlain relationship) :
    OnLine (foreignKeyText relationship) := by
  have column := plain relationship.fromColumn (by simp [Relationship.endpoints])
  have table := plain relationship.toTable (by simp [Relationship.endpoints])
  have target := plain relationship.toColumn (by simp [Relationship.endpoints])
  have parenthesized {name : String} (plain : IsPlain name) :
      OnLine (enclosed [] name.toList []) := by
    have opening : OnLine ['('] := by decide
    exact opening.append (plain.onLine.append (by decide))
  have words : OnLine ("FOREIGN".toList ++ ([' '] ++ "KEY".toList)) := by decide
  have space : OnLine [' '] := by decide
  have reference : OnLine "REFERENCES".toList := by decide
  exact words.append (space.append ((parenthesized column).append (space.append
    (reference.append (space.append ((onLine_pluralize table).append (parenthesized target)))))))

/-- The head of a table stays on its line. -/
theorem onLine_headText (plain : IsPlain name) : OnLine (headText name) := by
  have space : OnLine [' '] := by decide
  have opening : OnLine ("CREATE".toList ++ ([' '] ++ "TABLE".toList)) := by decide
  have existing : OnLine ("NOT".toList ++ ([' '] ++ "EXISTS".toList)) := by decide
  have condition : OnLine "IF".toList := by decide
  exact opening.append (space.append (condition.append (space.append (existing.append
    (space.append ((onLine_pluralize plain).append (by decide)))))))

end Lines

section Bodies

variable {texts : List (List Char)} {later : List Char}

/-- A body has no marks of a fence. -/
theorem unmarked_bodyText (onLine : ∀ text ∈ texts, OnLine text) : '\x60' ∉ bodyText texts := by
  induction texts with
  | nil => decide
  | cons text texts inductionHypothesis =>
      obtain ⟨first, others⟩ := List.forall_mem_cons.1 onLine
      cases texts with
      | nil => simp [bodyText, bodyPieces, separated, first.unmarked]
      | cons next texts =>
          rw [bodyText_cons_cons]
          simp [first.unmarked, inductionHypothesis others]

/-- The lines of a body: each definition behind two spaces, and a comma behind all but the last. -/
def bodyRows : List (List Char) -> List (List Char)
  | [] => []
  | [text] => [' ' :: ' ' :: text]
  | text :: texts => (' ' :: ' ' :: (text ++ [','])) :: bodyRows texts

/-- Each definition of a body stands on a line of its own. -/
theorem splitLines_bodyText {line : List Char} (oneLine : '\n' ∉ line)
    (each : ∀ text ∈ texts, '\n' ∉ text) :
    splitLines (line ++ (bodyText texts ++ later)) =
      line :: (bodyRows texts ++ splitLines later) := by
  induction texts generalizing line with
  | nil => exact splitLines_append_lineBreak oneLine later
  | cons text texts inductionHypothesis =>
      obtain ⟨first, others⟩ := List.forall_mem_cons.1 each
      cases texts with
      | nil =>
          have inner : '\n' ∉ ' ' :: ' ' :: text := by simp [first]
          simp [bodyText, bodyPieces, separated, bodyRows,
            splitLines_append_lineBreak oneLine, ← splitLines_append_lineBreak inner]
      | cons next texts =>
          have inner : '\n' ∉ ' ' :: ' ' :: (text ++ [',']) := by simp [first]
          have rows := inductionHypothesis inner others
          rw [bodyRows, List.cons_append, ← rows, ← splitLines_append_lineBreak oneLine,
            bodyText_cons_cons]
          · simp
          · exact List.cons_ne_nil next texts

/-- Each definition stands on a row of its own, indented and with what ends the row. -/
theorem getElem?_bodyRows {position : Nat} {text : List Char}
    (found : texts[position]? = some text) :
    ∃ ending, (bodyRows texts)[position]? = some (' ' :: ' ' :: (text ++ ending)) := by
  fun_induction bodyRows texts generalizing position with
  | case1 => cases found
  | case2 only =>
      obtain ⟨rfl, rfl⟩ : position = 0 ∧ only = text := by
        cases position <;> simp_all
      exact ⟨[], by simp⟩
  | case3 first texts _ inductionHypothesis =>
      cases position with
      | zero =>
          obtain rfl := Option.some.inj found
          exact ⟨[','], rfl⟩
      | succ position => exact inductionHypothesis found

/-- Every row of a body is indented. -/
theorem head?_of_mem_bodyRows {row : List Char} (member : row ∈ bodyRows texts) :
    row.head? = some ' ' := by
  fun_induction bodyRows texts with
  | case1 => cases member
  | case2 text =>
      obtain rfl := List.mem_singleton.1 member
      rfl
  | case3 text texts _ inductionHypothesis =>
      rcases List.mem_cons.1 member with rfl | later
      · rfl
      · exact inductionHypothesis later

/-- Each line of a statement with a body begins it, is indented, or is one of what follows. -/
theorem lines_bodyText {line : List Char} (oneLine : '\n' ∉ line)
    (onLine : ∀ text ∈ texts, OnLine text) :
    ∀ other ∈ splitLines (line ++ (bodyText texts ++ later)),
      other = line ∨ other.head? = some ' ' ∨ other ∈ splitLines later := by
  rw [splitLines_bodyText oneLine fun text member => (onLine text member).oneLine]
  refine List.forall_mem_cons.2 ⟨.inl rfl, fun other member => .inr ?_⟩
  exact (List.mem_append.1 member).imp_left head?_of_mem_bodyRows

/-- A body has no surplus blank lines. -/
theorem spaced_bodyText (onLine : ∀ text ∈ texts, OnLine text)
    (solid : ∀ text ∈ texts, Solid text) : Spaced (bodyText texts) := by
  have lineBreak : Spaced ['\n'] := .of_count (by decide)
  have comma : Spaced [','] := .of_count (by decide)
  have indented {text : List Char} (onLine : OnLine text) : Spaced (['\n', ' ', ' '] ++ text) :=
    .of_count (by simp [List.count_eq_zero_of_not_mem onLine.oneLine])
  induction texts with
  | nil => exact lineBreak
  | cons text texts inductionHypothesis =>
      obtain ⟨first, others⟩ := List.forall_mem_cons.1 onLine
      obtain ⟨firstSolid, othersSolid⟩ := List.forall_mem_cons.1 solid
      have ending : EndsSolid (['\n', ' ', ' '] ++ text) :=
        firstSolid.last.append_right firstSolid.nonempty _
      cases texts with
      | nil =>
          have whole := (indented first).append lineBreak (.inl ending)
          rwa [List.append_assoc] at whole
      | cons next texts =>
          have tail := comma.append (inductionHypothesis others othersSolid) (.inl (by decide))
          have whole := (indented first).append tail (.inl ending)
          rw [List.append_assoc] at whole
          rw [bodyText_cons_cons]
          exact whole

end Bodies

section Documents

variable {text later : List Char}

/-- Text without marks of fences, of headings and of bold lines, and without surplus blank
lines. -/
structure Tidy (text : List Char) : Prop where
  unmarked : '\x60' ∉ text
  lines : ∀ line ∈ splitLines text, line.head? ≠ some '#' ∧ line.head? ≠ some '*'
  spaced : Spaced text

/-- A tidy text is clean. -/
theorem Tidy.clean (tidy : Tidy text) : Clean text where
  unfenced := (Appendable.of_absent tidy.unmarked).unfenced
  noHeading line isLine := by simp [isHeadingLine, (tidy.lines line isLine).1]
  noBold line isLine := by
    refine Bool.eq_false_iff.2 fun bold => ?_
    simp only [isBoldLine, Bool.and_eq_true] at bold
    obtain ⟨rest, whole⟩ := startsWith_iff.1 bold.1.2
    exact (tidy.lines line isLine).2 (by rw [← whole]; rfl)
  spaced := tidy.spaced

/-- The head of a table begins with a letter. -/
theorem head?_headText (name : String) : (headText name).head? = some 'C' :=
  rfl

/-- The head of a table does not end with a blank. -/
theorem endsSolid_headText (name : String) : EndsSolid (headText name) := by
  unfold headText
  simp only [← List.append_assoc]
  exact EndsSolid.append_right (List.cons_ne_nil _ _) (.singleton (by decide)) _

variable {leaving : Entity -> List Relationship} {entities : List Entity}

/-- The statement of a table keeps tidy what follows it. -/
theorem Tidy.table {entity : Entity} {relationships : List Relationship}
    (plain : TablePlain entity relationships) (tidy : Tidy later) (solid : StartsSolid later) :
    Tidy (headText entity.name ++ (bodyText (definitionTexts entity relationships) ++ later)) := by
  have head := onLine_headText plain.name
  have onLine := forall_mem_definitionTexts plain
    (fun _ primaryKey name => onLine_columnText name primaryKey)
    fun _ endpoints => onLine_foreignKeyText endpoints
  have solidTexts := forall_mem_definitionTexts plain
    (fun _ primaryKey name => columnText_solid name primaryKey)
    fun _ endpoints => (foreignKeyText_shape endpoints).solid
  refine ⟨?_, fun line isLine => ?_, ?_⟩
  · simp [head.unmarked, unmarked_bodyText onLine, tidy.unmarked]
  · rcases lines_bodyText head.oneLine onLine line isLine with rfl | indented | inLater
    · simp [head?_headText]
    · simp [indented]
    · exact tidy.lines line inLater
  · exact head.spaced.append
      ((spaced_bodyText onLine solidTexts).append tidy.spaced (.inr solid))
      (.inl (endsSolid_headText entity.name))

/-- An empty line between statements is not a surplus one. -/
theorem Tidy.between (tidy : Tidy later) (solid : StartsSolid later) :
    Tidy (')' :: ([';', '\n', '\n'] ++ later)) := by
  have closing : Spaced [')', ';', '\n', '\n'] := .of_count (by decide)
  have split : splitLines ([')', ';'] ++ '\n' :: ([] ++ '\n' :: later)) =
      [')', ';'] :: [] :: splitLines later := by
    rw [splitLines_append_lineBreak (by decide), splitLines_append_lineBreak (by decide)]
  refine ⟨by simp [tidy.unmarked], ?_, closing.append tidy.spaced (.inr solid)⟩
  change ∀ line ∈ splitLines ([')', ';'] ++ '\n' :: ([] ++ '\n' :: later)), _
  rw [split]
  exact List.forall_mem_cons.2 ⟨by decide, List.forall_mem_cons.2 ⟨by decide, tidy.lines⟩⟩

/-- The text of several tables begins with the head of the first one. -/
theorem head?_tablesText (entity : Entity) (entities : List Entity) :
    (tablesText leaving (entity :: entities)).head? = some 'C' := by
  cases entities with
  | nil =>
      rw [tablesText_singleton]
      rfl
  | cons next entities =>
      rw [tablesText_cons_cons]
      rfl

/-- The text of several tables does not begin with a blank. -/
theorem startsSolid_tablesText (entity : Entity) (entities : List Entity) :
    StartsSolid (tablesText leaving (entity :: entities)) := by
  intro c first
  obtain rfl : 'C' = c := Option.some.inj ((head?_tablesText entity entities).symm.trans first)
  decide

/-- Rendered tables begin and end with characters that are not blank. -/
theorem solid_tablesText (entity : Entity) (entities : List Entity) :
    Solid (tablesText leaving (entity :: entities)) := by
  have nonempty (entity : Entity) (entities : List Entity) :
      tablesText leaving (entity :: entities) ≠ [] := by
    intro empty
    have first : (tablesText leaving (entity :: entities)).head? = some 'C' :=
      head?_tablesText entity entities
    rw [empty] at first
    cases first
  refine ⟨nonempty entity entities, startsSolid_tablesText entity entities, ?_⟩
  induction entities generalizing entity with
  | nil =>
      have closing : EndsSolid [')', ';'] := by decide
      rw [tablesText_singleton, ← List.append_assoc]
      exact closing.append_right (List.cons_ne_nil _ _) _
  | cons next entities inductionHypothesis =>
      have closing := (inductionHypothesis next).append_right (nonempty next entities)
        [')', ';', '\n', '\n']
      have table := closing.append_right (List.cons_ne_nil _ _)
        (bodyText (definitionTexts entity (leaving entity)))
      rw [tablesText_cons_cons]
      exact table.append_right (by simp) _

/-- Rendered tables are tidy. -/
theorem tidy_tablesText (plain : ∀ entity ∈ entities, TablePlain entity (leaving entity)) :
    Tidy (tablesText leaving entities) := by
  induction entities with
  | nil =>
      rw [tablesText, List.map_nil, Text.join, String.toList_empty]
      exact ⟨by decide, by decide, .of_count (by decide)⟩
  | cons entity entities inductionHypothesis =>
      obtain ⟨first, others⟩ := List.forall_mem_cons.1 plain
      cases entities with
      | nil =>
          have ending : Tidy [')', ';'] := ⟨by decide, by decide, .of_count (by decide)⟩
          rw [tablesText_singleton]
          exact .table first ending (by decide)
      | cons next entities =>
          rw [tablesText_cons_cons]
          have between := Tidy.between (inductionHypothesis others)
            (startsSolid_tablesText next entities)
          exact .table first between (.cons (by decide) _)

/-- A rendered schema with plain names is tidy: there is nothing in it to clean. -/
theorem tidy_render {schema : Schema} (plain : NamesPlain schema) : Tidy (render schema).toList :=
  tidy_tablesText fun _ member => tablePlain_of_mem plain member

/-- A rendered schema with entities begins with its first statement. -/
theorem solid_render {schema : Schema} (nonempty : schema.entities ≠ []) :
    Solid (render schema).toList ∧ (render schema).toList.head? = some 'C' := by
  obtain ⟨entity, entities, shape⟩ := List.exists_cons_of_ne_nil nonempty
  have text : (render schema).toList =
      tablesText (fun entity => schema.relationshipsFrom entity.name) schema.entities := rfl
  rw [text, shape]
  exact ⟨solid_tablesText entity entities, head?_tablesText entity entities⟩

end Documents

end SchemaLoom.Ddl

namespace SchemaLoom.Reply

open SchemaLoom.Ddl
open SchemaLoom.Text

variable {schema : Schema} {reply : String}

/-- Cleaning takes the fence around rendered statements and nothing of them. -/
theorem cleanDdl_render (entities : schema.entities ≠ []) (plain : NamesPlain schema)
    (wraps : reply ∈ wrappings "sql" (render schema)) : cleanDdl reply = render schema := by
  have nothing : isBlankText "".toList := rfl
  have cleaned := cleanDdl_of_clean (tidy_render plain).clean
    (trim_of_solid (solid_render entities).1) nothing nothing wraps
  rwa [String.empty_append, String.append_empty] at cleaned

/-- What is left of rendered statements when fences of JSON text are removed begins with
the statements, or with the name of their language. -/
theorem head?_cleanJson_render (entities : schema.entities ≠ []) (plain : NamesPlain schema)
    (wraps : reply ∈ wrappings "sql" (render schema)) :
    (cleanJson reply).toList.head? = some 'C' ∨ (cleanJson reply).toList.head? = some 's' := by
  have nothing : isBlankText "".toList := rfl
  have language : "json".toList = 'j' :: ['s', 'o', 'n'] := by decide
  have tidy := tidy_render plain
  obtain ⟨solid, first⟩ := solid_render entities
  rw [cleanJson, String.toList_ofList, ← unfence]
  by_cases named : reply = fenced "sql" (render schema)
  · have sql : "sql".toList = ['s', 'q', 'l'] := by decide
    have appendable : Appendable (['s', 'q', 'l', '\n'] ++ (render schema).toList) :=
      .of_absent (by simp [tidy.unmarked])
    have whole : Solid (['s', 'q', 'l', '\n'] ++ (render schema).toList) :=
      ⟨by simp, .cons (by decide) _, solid.last.append_right solid.nonempty _⟩
    have left := trim_unfence_unnamed false ['s', 'o', 'n'] (show isBlank 'j' = false by decide)
      appendable whole.nonempty (by simp) nothing nothing
    rw [trim_of_solid whole] at left
    refine .inr ?_
    rw [named, toList_fenced, sql, language]
    simpa using congrArg List.head? left
  · have inJson : reply ∈ wrappings "json" (render schema) := by
      simp only [wrappings, List.mem_cons, List.not_mem_nil, or_false] at wraps ⊢
      exact wraps.imp_right fun fences => .inr (fences.resolve_left named)
    have left := trim_unfence false language (by decide) tidy.clean.unfenced nothing nothing inJson
    rw [String.empty_append, String.append_empty, trim_of_solid solid] at left
    exact .inl (left ▸ first)

/-- A rendered schema, however it is wrapped, is not taken for a schema in JSON. -/
theorem usableSchema?_render (entities : schema.entities ≠ []) (plain : NamesPlain schema)
    (wraps : reply ∈ wrappings "sql" (render schema)) :
    usableSchema? (cleanJson reply) = none := by
  rcases head?_cleanJson_render entities plain wraps with first | first
  · simp [usableSchema?, first]
  · simp [usableSchema?, first]

/-- Rendered statements with plain names arrive as they were sent, alone or in a fence. They
are read without gaps, as the entities that they were rendered for with plural names and
with what the names of their columns suggest. -/
theorem ofText_render (entities : schema.entities ≠ []) (plain : NamesPlain schema)
    (wraps : reply ∈ wrappings "sql" (render schema)) :
    ofText reply = .ddl (render schema) ∧
      (Normalized.ofReply (some (ofText reply))).sql = render schema ∧
      (Normalized.ofReply (some (ofText reply))).usedFallback = false ∧
      (Normalized.ofReply (some (ofText reply))).gaps = [] ∧
      (Normalized.ofReply (some (ofText reply))).schema.entities =
        schema.entities.map fun entity =>
          Entity.ofNames (pluralize entity.name) (entity.attributes.map Attribute.name) := by
  have read : ofText reply = .ddl (render schema) := by
    simp only [ofText, usableSchema?_render entities plain wraps,
      cleanDdl_render entities plain wraps]
  have report : Report.ofDocument (render schema) = _ :=
    (congrArg Report.ofBlocks (blocks_render plain)).trans
      (Report.ofBlocks_map fun entity member =>
        renderedBlock_gives (tablePlain_of_mem plain member))
  have found : (schemaOf (render schema)).entities ≠ [] := by
    rw [schemaOf_render plain]
    simpa using entities
  rw [read, Normalized.ofReply_ddl found, report]
  exact ⟨rfl, rfl, rfl, rfl, rfl⟩

/-- Two tables whose names, like those of their columns, look like headings and bold text. -/
def headingSchema : Schema :=
  { entities := [.ofNames "#" ["**id**", "\x7b"], .ofNames "**" []]
    relationships :=
      [{ fromTable := "**", fromColumn := "##", toTable := "#", toColumn := "**id**" }] }

/-- Names with the marks of headings and of bold text arrive in a fence. -/
theorem ofText_render_headings :
    NamesPlain headingSchema ∧
      ofText (fenced "sql" (render headingSchema)) = .ddl (render headingSchema) ∧
      (Normalized.ofReply (some (ofText (fenced "sql" (render headingSchema))))).gaps = [] := by
  have plain : NamesPlain headingSchema := by decide
  have wraps : fenced "sql" (render headingSchema) ∈ wrappings "sql" (render headingSchema) :=
    List.mem_cons_of_mem _ List.mem_cons_self
  obtain ⟨read, -, -, gaps, -⟩ := ofText_render (List.cons_ne_nil _ _) plain wraps
  exact ⟨plain, read, gaps⟩

end SchemaLoom.Reply
