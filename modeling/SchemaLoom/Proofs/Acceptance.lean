import SchemaLoom.Proofs.GrammarItems
import SchemaLoom.Proofs.Keys

/-!
# Accepting the grammar

Every document of the grammar is read without gaps, and as the schema that it
describes: neither the layout of a document, nor the case of its keywords, nor the
quotes of its identifiers, nor the order of definitions and clauses matters.
-/

namespace SchemaLoom.Ddl.Grammar

open SchemaLoom.Text

namespace Content

/-- The text between the parentheses of a table. -/
def inner : Content -> List Char
  | blank layout => layout.piece.plain
  | items listed => listed.inner Item.piece

/-- A body reads as enclosed in its parentheses. -/
theorem plain_eq (content : Content) : content.piece.plain = '(' :: content.inner ++ [')'] := by
  cases content with
  | blank layout => rfl
  | items listed => exact listed.plain_eq Item.piece

/-- The body of a table is read up to its closing parenthesis. -/
theorem crossed (content : Content) : depthAcross? stopsBody none 0 content.inner = some 0 := by
  cases content with
  | blank layout => exact (Undivided.of_blanks layout.plain_blank).body
  | items listed =>
      refine Undivided.separated_body fun text isText => ?_
      obtain ⟨part, -, rfl⟩ := List.mem_map.1 isText
      exact part.undivided part.item.undivided

/-- The definitions of a table are read one by one. -/
theorem definitions_eq (content : Content) (table : String) :
    Ddl.definitions table content.inner = content.definitions.map (Item.definition table) := by
  cases content with
  | blank layout =>
      have whole : fragments ',' (separated ',' [layout.piece.plain]) =
          ([layout.piece.plain].map trim).filter fun piece => !piece.isEmpty :=
        fragments_separated rfl
          (by simpa using (Undivided.of_blanks layout.plain_blank).fragment)
          layout.piece.settled.uncommented
      have single : separated ',' [layout.piece.plain] = layout.piece.plain := rfl
      rw [single] at whole
      rw [Ddl.definitions, inner, whole]
      simp [trim_of_isBlankText layout.plain_blank, definitions]
  | items listed =>
      rw [Ddl.definitions, inner, listed.fragments_inner Item.solid Item.undivided, List.map_map]
      exact List.map_congr_left fun item _ => item.read_eq table

end Content

section Keys

variable {column : Identifier} {declared : Attribute}

/-- A key names a column if one of the names that it lists is that of the column in any case. -/
theorem Key.any_columns (key : Key) :
    ((key.columns.items.map Identifier.string).any fun name =>
      sameIgnoringCase name.toList column.string.toList) = key.names column := by
  simp [Key.names, Identifier.string, List.any_map, Function.comp_def]

/-- A key sets the flags of the columns that it names. -/
theorem Key.makes_tableKey (key : Key) :
    key.tableKey.makesPrimary column.string = key.makesPrimary column ∧
      key.tableKey.makesUnique column.string = key.makesUnique column := by
  have single : ((key.columns.items.map Identifier.string).length == 1) =
      key.columns.others.isEmpty := by
    cases others : key.columns.others <;> simp [Listed.items, Listed.parts, others]
  cases opening : key.opening with
  | primary words =>
      have shape : key.tableKey = .primary (key.columns.items.map Identifier.string) := by
        rw [Key.tableKey, opening]
        rfl
      rw [shape, TableKey.makesPrimary, TableKey.makesUnique, key.any_columns]
      simp [Key.makesPrimary, Key.makesUnique, opening]
  | unique word =>
      have shape : key.tableKey = .unique (key.columns.items.map Identifier.string) := by
        rw [Key.tableKey, opening]
        rfl
      rw [shape, TableKey.makesPrimary, TableKey.makesUnique, key.any_columns, single]
      simp [Key.makesPrimary, Key.makesUnique, opening]

/-- All keys together set the flags of the columns that any of them names. -/
theorem flagged_tableKeys (keys : List Key) (named : declared.name = column.string) :
    flagged (keys.map Key.tableKey) declared =
      { declared with
        primaryKey := declared.primaryKey || keys.any fun key => key.makesPrimary column
        unique := declared.unique || keys.any fun key => key.makesUnique column } := by
  simp only [flagged, named, List.any_map, Function.comp_def, Key.makes_tableKey]

end Keys

namespace Table

variable (table : Table)

/-- The block that a table is read as. -/
def block : Block :=
  .table table.name.string table.content.inner

/-- The head of a table is one that is read, with the name of the table. -/
theorem headText : HeadText (table.head.plain ++ ['(']) table.name.identifier.name := by
  obtain ⟨last, qualifies⟩ := table.name.qualifies
  cases shape : table.condition with
  | none =>
      have noCondition (rest : List Char) : dropWord? "IF".toList
          (table.name.piece.plain ++ (table.gap.piece.plain ++ '(' :: rest)) = none :=
        dropWord?_of_not_stands (by decide) table.name.plain_ne_nil
          (table.name.lacks (by decide))
          (.of_startsInWord (startsInWord_mark table.gap.plain_blank (by decide) rest))
      have whole := HeadText.unconditional table.words.text table.space.plain_blank
        table.space.plain_ne_nil qualifies table.gap.plain_blank noCondition
      simpa [head, shape] using whole
  | some condition =>
      have whole := HeadText.conditional table.words.text table.space.plain_blank
        table.space.plain_ne_nil condition.word.cased condition.space.plain_blank
        condition.space.plain_ne_nil condition.others.text condition.after.plain_blank
        condition.after.plain_ne_nil qualifies table.gap.plain_blank
      simpa [head, shape, Condition.piece, Keyword.piece] using whole

/-- A table statement is read as the block of its table. -/
theorem blocks_eq {separator : List Char} (separates : Separates separator) (rest : List Char) :
    blocks (separator ++ (table.piece.plain ++ rest)) = table.block :: blocks rest := by
  have read := blocks_of_table separates table.headText table.content.crossed rest
  have text : table.piece.plain ++ rest =
      table.head.plain ++ ['('] ++ (table.content.inner ++ ')' :: rest) := by
    simp [piece, table.content.plain_eq]
  rw [text]
  exact read

/-- The entity that the definitions of a table make has its columns with the flags that
clauses and keys state. -/
theorem entityOf_definitions :
    entityOf table.name.string
      (table.content.definitions.map (Item.definition table.name.string)) = table.entity := by
  have columns : (table.content.definitions.map (Item.definition table.name.string)).filterMap
      Definition.attribute? =
        (table.content.definitions.filterMap Item.column?).map Column.declared := by
    rw [List.filterMap_map, List.map_filterMap]
    refine List.filterMap_congr fun item _ => ?_
    cases item <;> rfl
  have keys : (table.content.definitions.map (Item.definition table.name.string)).filterMap
      Definition.key? = table.keys.map Key.tableKey := by
    rw [keys, List.filterMap_map, List.map_filterMap]
    refine List.filterMap_congr fun item _ => ?_
    cases item <;> rfl
  have attributes (column : Column) :
      flagged (table.keys.map Key.tableKey) column.declared = table.attributeOf column := by
    have named : column.declared.name = column.name.string := rfl
    rw [flagged_tableKeys table.keys named, attributeOf, Column.declared]
  rw [entityOf_eq, columns, keys, List.map_map]
  exact congrArg (Entity.mk table.name.string)
    (List.map_congr_left fun column _ => attributes column)

/-- The relationships of the definitions are those of the table. -/
theorem relationships_definitions :
    (table.content.definitions.map (Item.definition table.name.string)).filterMap
      Definition.relationship? = table.relationships := by
  rw [List.filterMap_map, relationships]
  refine List.filterMap_congr fun item _ => ?_
  cases item <;> rfl

/-- A table gives what it describes. -/
theorem gives_block : table.block.Gives table.entity table.relationships := by
  have noGap : ∀ item ∈ table.content.definitions.map (Item.definition table.name.string),
      item.gap? table.name.string = none := by
    intro definition member
    obtain ⟨item, -, rfl⟩ := List.mem_map.1 member
    cases item <;> rfl
  have gives := Block.gives_of_definitions (table.content.definitions_eq table.name.string) noGap
  rwa [entityOf_definitions, relationships_definitions] at gives

end Table

/-- Layout and semicolons separate statements. -/
theorem Separator.separates (separator : Separator) : Separates separator.piece.plain := by
  cases separator with
  | filler space =>
      exact fun c member => .inl (List.all_eq_true.1 space.plain_blank.1 c member)
  | semicolon => exact fun c member => .inr (List.mem_singleton.1 member)

/-- Several separators in a row separate statements, too. -/
theorem separates_separators (separators : List Separator) :
    Separates (separatorsPiece separators).plain := by
  intro c member
  simp only [separatorsPiece, Piece.plain_joined, List.mem_flatMap, List.mem_map] at member
  obtain ⟨piece, ⟨separator, -, rfl⟩, inside⟩ := member
  exact separator.separates c inside

/-- The tables of a document are read one after the other. -/
theorem blocks_tables (tables : List (List Separator × Table)) (rest : List Char) :
    blocks ((Piece.joined (tables.map fun part =>
        separatorsPiece part.1 ++ part.2.piece)).plain ++ rest) =
      (tables.map fun part => part.2.block) ++ blocks rest := by
  induction tables with
  | nil => rfl
  | cons part tables inductionHypothesis =>
      obtain ⟨separators, table⟩ := part
      have first := table.blocks_eq (separates_separators separators)
        ((Piece.joined (tables.map fun part =>
          separatorsPiece part.1 ++ part.2.piece)).plain ++ rest)
      rw [inductionHypothesis] at first
      simpa [Piece.plain_joined] using first

namespace Document

variable (document : Document)

/-- A comment that no line ends leaves a space too. -/
theorem replaceComments_remark (remark : Remark) :
    replaceComments .plain ('-' :: '-' :: remark.1) = [' '] := by
  rw [replaceComments, replaceComments_lastLine remark.2]

/-- The removal of comments leaves the tables, and something that separates behind them. -/
theorem stripComments_text : ∃ ending, Separates ending ∧
    stripComments document.text.toList = document.piece.plain ++ ending := by
  cases remark : document.remark with
  | none =>
      refine ⟨[], by simp [Separates], ?_⟩
      simpa [text, remark] using document.piece.strips.stripComments_eq
  | some last =>
      refine ⟨[' '], by decide, ?_⟩
      have whole := document.piece.strips ('-' :: '-' :: last.1)
      rw [replaceComments_remark] at whole
      simpa [text, remark, stripComments] using whole

/-- A document is read as one block for each of its tables. -/
theorem blocks_text : blocks (stripComments document.text.toList) =
    document.tables.map fun part => part.2.block := by
  obtain ⟨ending, separates, stripped⟩ := document.stripComments_text
  have later : Separates ((separatorsPiece document.ending).plain ++ ending) :=
    List.forall_mem_append.2 ⟨separates_separators document.ending, separates⟩
  rw [stripped, piece, Piece.plain_append, List.append_assoc, blocks_tables,
    blocks_of_separates later, List.append_nil]

end Document

end SchemaLoom.Ddl.Grammar

namespace SchemaLoom.Ddl

/-- Every document of the grammar is read as the schema that it describes, without gaps. -/
theorem Report.ofDocument_grammar (document : Grammar.Document) :
    Report.ofDocument document.text = { schema := document.schema, gaps := [] } := by
  rw [Report.ofDocument, document.blocks_text]
  exact Report.ofBlocks_map fun part _ => part.2.gives_block

namespace Grammar

/-- A space. -/
def Spacing.single : Spacing :=
  { first := .blank ' ' (by decide), others := [] }

/-- A document with quotes, a comment and a condition. -/
def quotedDocument : Document :=
  let space := Spacing.single
  let remark : Spacing :=
    { first := .blockComment " a, (b".toList (by decide), others := [] }
  let item : Identifier :=
    { name := "Item, ID".toList
      ascii := by decide
      unreserved := by decide
      style := .quoted .double (by decide) }
  let order : Identifier :=
    { name := "order".toList
      ascii := by decide
      unreserved := by decide
      style := .bare (by decide) (by decide) (by decide) }
  let column : Column :=
    { name := item
      space := remark
      type :=
        { word := "INT".toList
          nonempty := by decide
          letters := by decide
          unreserved := by decide
          parameters := none }
      clauses := [(space.first :: [], .primaryKey
        { firstWord := { letters := "Primary".toList, cased := by decide }
          space := remark
          secondWord := { letters := "KEY".toList, cased := by decide } })]
      apart := by simp [Clauses.Apart] }
  let table : Table :=
    { words :=
        { firstWord := { letters := "create".toList, cased := by decide }
          space
          secondWord := { letters := "TABLE".toList, cased := by decide } }
      space
      condition := none
      name := .part item [] [] (.last order)
      gap := []
      content := .items
        { first := { before := [], item := .column column, after := [] }, others := [] } }
  { tables := [([], table)], ending := [.semicolon], remark := none }

example : quotedDocument.piece.written =
    "create TABLE \"Item, ID\".order(\"Item, ID\"/* a, (b*/INT Primary/* a, (b*/KEY);".toList := by
  decide

/-- A table with a key of a column and a key of the whole table. -/
def lendingTable : Table :=
  let space := Spacing.single
  let gap : Layout := [space.first]
  let name (letters : List Char) (ascii : letters.all fun c => c.toNat < 0x80 := by decide)
      (unreserved : Unreserved letters := by decide) (nonempty : letters ≠ [] := by decide)
      (word : letters.all Text.isAsciiWord := by decide)
      (noDigit : letters.head?.all fun c => !c.isDigit := by decide) : Identifier :=
    { name := letters, ascii, unreserved, style := .bare nonempty word noDigit }
  let type : DeclaredType :=
    { word := "INTEGER".toList
      nonempty := by decide
      letters := by decide
      unreserved := by decide
      parameters := none }
  let reference (table column : Identifier) : Reference :=
    { word := { letters := "REFERENCES".toList, cased := by decide }
      space
      table := .last table
      gap := []
      column := { before := [], item := column, after := [] } }
  let key : ForeignKey :=
    { words :=
        { firstWord := { letters := "FOREIGN".toList, cased := by decide }
          space
          secondWord := { letters := "KEY".toList, cased := by decide } }
      gap
      column := { before := [], item := name ['b'], after := [] }
      space := gap
      reference := reference (name ['v']) (name ['y']) }
  { words :=
      { firstWord := { letters := "CREATE".toList, cased := by decide }
        space
        secondWord := { letters := "TABLE".toList, cased := by decide } }
    space
    condition := none
    name := .last (name ['t'])
    gap
    content := .items
      { first :=
          { before := []
            item := .column
              { name := name ['a']
                space
                type
                clauses := [(gap, .references (reference (name ['u']) (name ['x'])))]
                apart := by simp [Clauses.Apart, gap] }
            after := [] }
        others :=
          [{ before := gap
             item := .column
              { name := name ['b'], space, type, clauses := [], apart := trivial }
             after := [] },
            { before := gap, item := .foreignKey key, after := [] }] } }

example : lendingTable.piece.written =
    "CREATE TABLE t (a INTEGER REFERENCES u(x), b INTEGER, FOREIGN KEY (b) REFERENCES v(y))".toList := by
  decide

end Grammar

end SchemaLoom.Ddl
