import SchemaLoom.Proofs.NormalForms
import SchemaLoom.Proofs.Scripts

/-!
# Scripts that drop tables

The names of the tables to drop go into one script, which is cut into statements before a
sink sees it. A name that is one statement by itself and leaves nothing open stays what it is
behind the words of its statement, and shields its neighbours: it is cut neither off these
words nor in two, and the semicolon behind it stands in the outermost scope. The words in
front of a name, with the blank that ends them, can take part in no comment with it.
-/

namespace SchemaLoom

open Text

namespace Ddl

/-- The statement that drops a table, without the semicolon. -/
def dropText (table : String) : String :=
  "DROP TABLE IF EXISTS " ++ table

section Pieces

variable {separator : Char} {text piece : List Char} {pieces : List (List Char)}

/-- A piece leaves room for the separators between it and the others. -/
theorem length_le_separated (member : piece ∈ pieces) :
    piece.length + pieces.length ≤ (separated separator pieces).length + 1 := by
  induction pieces generalizing piece with
  | nil => cases member
  | cons first pieces inductionHypothesis =>
      cases pieces with
      | nil =>
          obtain rfl := List.mem_singleton.1 member
          exact Nat.le_refl _
      | cons next pieces =>
          have later := inductionHypothesis (List.mem_cons_self (a := next))
          rw [separated_cons_cons]
          simp only [List.length_append, List.length_cons] at later ⊢
          rcases List.mem_cons.1 member with rfl | other
          · omega
          · have here := inductionHypothesis other
            simp only [List.length_cons] at here
            omega

/-- A text that is one of its own fragments is not cut: another piece would take room. -/
theorem Alone.cut_eq (mark : IsSeparator separator) (alone : Alone separator text) :
    cut separator .plain 0 text = [text] := by
  have whole : separated separator (cut separator .plain 0 text) = text :=
    separated_cut mark alone.uncommented
  have own : text ∈ fragments separator text := by simp [alone.fragments_eq]
  obtain ⟨piece, isPiece, trimmed⟩ := List.mem_map.1 (List.mem_filter.1 own).1
  have room : piece.length + (cut separator .plain 0 text).length ≤
      (separated separator (cut separator .plain 0 text)).length + 1 :=
    length_le_separated isPiece
  have shorter : text.length ≤ piece.length := by
    rw [← trimmed]
    exact (infix_trim piece).length_le
  rw [whole] at room
  obtain ⟨only, single⟩ : ∃ only, cut separator .plain 0 text = [only] :=
    List.length_eq_one_iff.1 (by have := List.length_pos_of_mem isPiece; omega)
  rw [single] at whole ⊢
  exact congrArg (fun text => [text]) whole

/-- Words in front of a fragment become part of it, if nothing begins in them. -/
theorem Alone.words_append (mark : IsSeparator separator) {words : List Char}
    (ordinary : Ordinary words)
    (crossed : depthAcross? (stopsFragment separator) none 0 words = some 0)
    (starts : StartsSolid words) (nonempty : words ≠ []) (alone : Alone separator text) :
    Alone separator (words ++ text) := by
  have solid : Solid (words ++ text) :=
    ⟨List.append_ne_nil_of_left_ne_nil nonempty _, (startsSolid_append nonempty).2 starts,
      alone.solid.last.append_right alone.solid.nonempty words⟩
  have uncommented : Uncommented none (words ++ text) := by
    have kept := Strips.of_ordinary ordinary text
    rwa [show replaceComments .plain text = text from alone.uncommented] at kept
  have joined : cut separator .plain 0 (words ++ text) =
      words.foldr consFirst (cut separator .plain 0 text) :=
    cut_append crossed uncommented
  rw [alone.cut_eq mark, foldr_consFirst] at joined
  exact ⟨solid, uncommented, by simp [fragments, joined, trim_of_solid solid, solid.nonempty]⟩

end Pieces

section Statements

variable {name : String} {names : List String}

/-- What is one statement is a fragment of its own. -/
theorem Alone.of_statements (single : statements name = [name]) : Alone ';' name.toList := by
  have found : fragments ';' name.toList = [name.toList] := by
    have texts := congrArg (List.map String.toList) single
    simpa [statements, List.map_map, Function.comp_def] using texts
  exact (normal_fragments isSeparator_semicolon name.toList).alone _ (by simp [found])

/-- What is a fragment of its own is one statement. -/
theorem Alone.statements_eq (alone : Alone ';' name.toList) : statements name = [name] := by
  simp [statements, alone.fragments_eq]

/-- A name that is one statement and leaves nothing open makes such a statement when it is
dropped. -/
theorem dropText_alone (single : statements name = [name]) (closed : Closed name.toList) :
    statements (dropText name) = [dropText name] ∧ Settled (dropText name).toList := by
  have alone := Alone.of_statements single
  have words : (dropText name).toList = "DROP TABLE IF EXISTS ".toList ++ name.toList :=
    String.toList_append
  have whole : Alone ';' (dropText name).toList := by
    rw [words]
    exact alone.words_append isSeparator_semicolon (by decide) (by decide) (by decide) (by decide)
  have between : scopeBehind "DROP TABLE IF EXISTS ".toList = .outermost := by decide
  have behind : scopeBehind name.toList = .outermost :=
    alone.uncommented.settled_iff.1
      (closed.settled isSeparator_semicolon _ (by simp [alone.fragments_eq]))
  refine ⟨whole.statements_eq, whole.uncommented.settled_iff.2 ?_⟩
  rw [words, scopeBehind_append, between]
  exact behind

/-- A script that drops tables is cut into one statement for each, if none of the statements
is cut and none leaves anything open. -/
theorem statements_dropScript_of_dropText (each : ∀ name ∈ names,
      statements (dropText name) = [dropText name] ∧ Settled (dropText name).toList) :
    statements (dropScript names) = names.map dropText := by
  have texts : ∀ text ∈ names.map dropText, statements text = [text] ∧ Settled text.toList :=
    List.forall_mem_map.2 each
  cases names with
  | nil => decide +kernel
  | cons name names =>
      have joined := @statements_join "\n" (by decide) ((name :: names).map dropText)
        (fun text member => (texts text member).1) fun text member => (texts text member).2
      rw [List.map_map] at joined
      exact joined

/-- Names that are statements by themselves and leave nothing open are dropped by one
statement each. -/
theorem statements_dropScript (single : ∀ name ∈ names, statements name = [name])
    (closed : ∀ name ∈ names, Closed name.toList) :
    statements (dropScript names) = names.map dropText :=
  statements_dropScript_of_dropText fun name member =>
    dropText_alone (single name member) (closed name member)

end Statements

end Ddl

namespace Script

open Ddl

variable {State Error Result : Type}

/-- Each table of a list is dropped by a statement of its own. If every name is one statement
by itself and leaves no quoted run and no parenthesis open, whatever stands in its quotes, then
dropping the tables succeeds exactly if the statements succeed in turn, with a report at the
position of each name, and it fails exactly as the first of them that does, at the position of
its name. The sink is given these statements in order up to the one that fails, and is not
called at all if the list is empty. -/
theorem dropTables_statement_each (execute : Execute State Error Result) {names : List String}
    (single : ∀ name ∈ names, statements name = [name])
    (closed : ∀ name ∈ names, Closed name.toList) :
    (∀ (state final : State) (reports : List (StatementReport Result)),
        dropTables execute names state = (.ok reports, final) ↔
          ∃ outcomes, Succeeds execute state (names.map dropText) outcomes final ∧
            reports = reportsFrom 0 (names.map dropText) outcomes) ∧
      (∀ (state final : State) (failure : ScriptError Error),
        dropTables execute names state = (.error failure, final) ↔
          FailsFrom execute 0 state (names.map dropText) failure final) ∧
      (∀ (state : State) (calls : List String),
        dropTables (recording execute) names (state, calls) =
          ((dropTables execute names state).1, (dropTables execute names state).2,
            calls ++ passedFrom 0 (names.map dropText) (dropTables execute names state).1)) ∧
      ∀ (state : State) (calls : List String),
        dropTables (recording execute) [] (state, calls) = (.ok [], state, calls) := by
  have nothing : statements (dropScript []) = [] := by decide +kernel
  refine ⟨fun state final reports => ?_, fun state final failure => ?_, fun state calls => ?_,
    fun state calls => ?_⟩
  · rw [dropTables, run, statements_dropScript single closed, runFrom_eq_ok_iff]
  · rw [dropTables, run, statements_dropScript single closed, runFrom_eq_error_iff]
  · rw [dropTables, run, dropTables, run, statements_dropScript single closed, runFrom_recording]
  · rw [dropTables, run, nothing, runFrom]

/-- A sink that refuses one statement and counts the others. -/
def refusingSink (refused : String) : Execute Nat String Nat :=
  fun statement count =>
    if statement = refused then (.error statement, count) else (.ok count, count + 1)

/-- A qualified name, one with a semicolon and a comment mark in its quotes and one with
parentheses, a comment mark and a foreign quote in its parts, which the sink refuses. -/
theorem dropTables_statement_each_quoted :
    let names := ["main.t", "\x22a; b--\x22", "[(/*] . \x60d;\x22\x60", "never reached"]
    let sink := refusingSink (dropText "[(/*] . \x60d;\x22\x60")
    (∀ name ∈ names, statements name = [name]) ∧ (∀ name ∈ names, Closed name.toList) ∧
      dropTables (recording sink) names (5, []) =
        (.error { index := 2, statement := dropText "[(/*] . \x60d;\x22\x60",
                  source := dropText "[(/*] . \x60d;\x22\x60" },
          7, (names.take 3).map dropText) := by
  intro names sink
  have single : ∀ name ∈ names, statements name = [name] := by decide +kernel
  have closed : ∀ name ∈ names, Closed name.toList := by decide +kernel
  obtain ⟨-, failing, passing, -⟩ := dropTables_statement_each sink single closed
  have first : sink (dropText "main.t") 5 = (.ok 5, 6) := by decide +kernel
  have second : sink (dropText "\x22a; b--\x22") 6 = (.ok 6, 7) := by decide +kernel
  have third : sink (dropText "[(/*] . \x60d;\x22\x60") 7 =
      (.error (dropText "[(/*] . \x60d;\x22\x60"), 7) := by decide +kernel
  have refused := (failing 5 7 ⟨2, _, dropText "[(/*] . \x60d;\x22\x60"⟩).2
    ⟨_, [dropText "never reached"], _, 7, rfl, rfl, .cons first (.cons second (.nil 7)), third⟩
  refine ⟨single, closed, ?_⟩
  rw [passing, refused]
  rfl

end Script

end SchemaLoom
