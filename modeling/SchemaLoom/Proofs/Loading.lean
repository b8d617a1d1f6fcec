import Mathlib.Logic.ExistsUnique
import SchemaLoom.Host.Memory
import SchemaLoom.Proofs.Expansion
import SchemaLoom.Proofs.Successes
import SchemaLoom.Settings.Loading

/-!
# Loaded settings

The path of the database is the one in the environment if there is one, else the one in the
file, else the default. Only the path that is taken is expanded, so that a reference in a path
that another one overrides is of no consequence. Loading asks the environment for what it
needs and leaves its host as it is.
-/

namespace SchemaLoom.Settings

open Template

section Expanding

variable {environment other : String -> Option String} {parts : Parts} {settings : Settings}

/-- A text expands as its template is filled. -/
theorem expand_text (proper : parts.Proper) :
    expand environment (String.ofList parts.text) =
      ((fill environment parts.template).mapError .missingVariable).map String.ofList := by
  rw [expand, Template.ofText, String.toList_ofList, proper.ofChars_text]

/-- Settings in an environment have the path of the database from there, if it is set,
with its references expanded. -/
theorem inEnvironment_eq (settings : Settings) (environment : String -> Option String) :
    settings.inEnvironment environment =
      (expand environment ((environment "DB_PATH").getD settings.databasePath)).map
        fun databasePath => { databasePath, pretty := settings.pretty } :=
  rfl

/-- An environment completes settings by its path and by what the path refers to. -/
theorem inEnvironment_congr (path : environment pathVariable = other pathVariable)
    (same : ∀ name ∈ (Template.ofText (settings.unexpandedPath other)).references,
      environment name = other name) :
    settings.inEnvironment environment = settings.inEnvironment other := by
  have unexpanded : settings.unexpandedPath environment = settings.unexpandedPath other := by
    rw [unexpandedPath, unexpandedPath, path]
  rw [inEnvironment, inEnvironment, unexpanded, expand, expand, fill_congr same]

end Expanding

section Running

variable {memory : Memory} {path : Option String} {settings : Settings}

/-- A program goes on with what its first part has found, in the state that this has left. -/
theorem run_bind {State α β : Type} {first : StateM State α} {next : α -> StateM State β}
    {found : α} {before after : State} (ran : first.run before = (found, after)) :
    (first >>= next).run before = (next found).run after := by
  rw [StateT.run_bind, ran]
  rfl

/-- The values of listed variables are those of the environment. -/
theorem find?_values {names : List String} {name : String} (listed : name ∈ names)
    (value : String -> Option String) :
    ((names.map fun name => (name, value name)).find? fun entry => entry.1 == name).bind
      Prod.snd = value name := by
  induction names with
  | nil => cases listed
  | cons first names inductionHypothesis =>
      rw [List.map_cons, List.find?_cons]
      by_cases here : first = name
      · simp [here]
      · simp only [beq_eq_false_iff_ne.2 here]
        exact inductionHypothesis ((List.mem_cons.1 listed).resolve_left (Ne.symm here))

/-- The environment of a host with a memory is that of the memory. -/
theorem environment_memory (name : String) (memory : Memory) :
    (Memory.host.environment name).run memory = (memory.value? name, memory) :=
  rfl

/-- Looking up names in a memory gives the value of each and leaves the memory as it is. -/
theorem valuesOf_memory (names : List String) (memory : Memory) :
    (valuesOf Memory.host names).run memory =
      (names.map fun name => (name, memory.value? name), memory) := by
  induction names with
  | nil => rfl
  | cons name names inductionHypothesis =>
      have first : (do return (name, ← Memory.host.environment name) : StateM Memory _).run memory =
          ((name, memory.value? name), memory) := rfl
      rw [valuesOf] at inductionHypothesis ⊢
      rw [List.mapM_cons, run_bind first, run_bind inductionHypothesis]
      rfl

/-- Settings that are written somewhere are loaded as the environment completes them. -/
theorem load_of_written
    (isWritten : (written Memory.host path).run memory = (.ok settings, memory)) :
    (load Memory.host path).run memory = (settings.inEnvironment memory.value?, memory) := by
  have found {name : String} (listed : name ∈ pathVariable ::
      (Template.ofText (settings.unexpandedPath memory.value?)).references) :=
    find?_values listed memory.value?
  have completed := inEnvironment_congr (found List.mem_cons_self)
    fun name listed => found (List.mem_cons_of_mem pathVariable listed)
  rw [load, run_bind isWritten]
  dsimp only
  rw [run_bind (environment_memory pathVariable memory), run_bind (valuesOf_memory _ memory)]
  exact congrArg (·, memory) completed

/-- A file is present in a memory if its path leads to one. -/
theorem isPresent_memory (path : String) (memory : Memory) :
    (Memory.host.isPresent path).run memory = ((memory.files.resolve path).isOk, memory) :=
  rfl

/-- A file that can be read is there. -/
theorem isOk_resolve_of_readText {files : Files} {path text : String}
    (read : files.readText path = .ok text) : (files.resolve path).isOk = true := by
  rw [Files.readText] at read
  cases found : files.resolve path with
  | error error =>
      rw [found] at read
      cases read
  | ok entry => rfl

/-- A file whose text can be read gives the settings of the text. -/
theorem ofFile_memory {path text : String} (read : memory.files.readText path = .ok text) :
    (ofFile Memory.host path).run memory = (ofText text, memory) := by
  have first : (Memory.host.readText path).run memory = (.ok text, memory) :=
    congrArg (·, memory) read
  rw [ofFile, run_bind first]
  rfl

/-- The settings in a file, be it asked for or not. -/
theorem written_of_readText {text : String}
    (read : memory.files.readText (path.getD defaultFile) = .ok text) :
    (written Memory.host path).run memory = (ofText text, memory) := by
  have isThere := isPresent_memory (path.getD defaultFile) memory
  rw [isOk_resolve_of_readText read] at isThere
  cases path with
  | none =>
      rw [Option.getD_none] at isThere
      rw [written, run_bind isThere, if_pos rfl]
      exact ofFile_memory read
  | some path =>
      rw [Option.getD_some] at isThere
      rw [written, run_bind isThere, if_pos rfl]
      exact ofFile_memory read

/-- Without the default file the environment completes the default settings. -/
theorem load_of_absent (absent : (memory.files.resolve defaultFile).isOk = false) :
    (load Memory.host none).run memory = (({} : Settings).inEnvironment memory.value?, memory) := by
  have isAbsent := isPresent_memory defaultFile memory
  rw [absent] at isAbsent
  refine load_of_written ?_
  rw [written, run_bind isAbsent]
  rfl

end Running

section Entries

variable {document : Toml.Members} {text : String} {settings : Settings}

/-- The item of a document that stands under a name in a named table. -/
def item? (document : Toml.Members) (table name : String) : Option Toml :=
  (Toml.member? document table).bind fun item => (field? name item).join

/-- Without its table an item is absent. -/
theorem item?_of_absent {table : String} (absent : Toml.member? document table = none)
    (name : String) : item? document table name = none := by
  rw [item?, absent, Option.bind_none]

/-- With its table an item is what the field of the table is. -/
theorem item?_of_field {table name : String} {item : Toml} {found : Option Toml}
    (present : Toml.member? document table = some item) (field : field? name item = some found) :
    item? document table name = found := by
  rw [item?, present, Option.bind_some, field, Option.join_some]

/-- A setting is what its document has, read by the reader of the setting, or the default
where the document has nothing. -/
theorem setting?_eq {α : Type} {table name : String} {read : Toml -> Option α} {default value : α}
    (found : setting? table name read default document = some value) :
    (∃ item, item? document table name = some item ∧ read item = some value) ∨
      item? document table name = none ∧ value = default := by
  rw [setting?] at found
  split at found
  · rename_i absent
    exact .inr ⟨item?_of_absent absent name, (Option.some.inj found).symm⟩
  · rename_i item present
    split at found
    · cases found
    · rename_i field
      exact .inr ⟨item?_of_field present field, (Option.some.inj found).symm⟩
    · rename_i written field
      exact .inl ⟨written, item?_of_field present field, found⟩

/-- An item that reads as a text is one. -/
theorem string?_eq_some {item : Toml} {text : String} (found : item.string? = some text) :
    item = .string text := by
  cases item <;> cases found
  rfl

/-- An item that reads as a truth value is one. -/
theorem boolean?_eq_some {item : Toml} {value : Bool} (found : item.boolean? = some value) :
    item = .boolean value := by
  cases item <;> cases found
  rfl

/-- Settings that are accepted hold what their document has, and the defaults for the rest. -/
theorem ofText_eq_ok (accepted : ofText text = .ok settings) :
    ∃ document, Toml.ofText? text = some document ∧
      path? document = some settings.databasePath ∧ pretty? document = some settings.pretty := by
  rw [ofText] at accepted
  split at accepted
  · cases accepted
  · rename_i document read
    split at accepted
    · rename_i path pretty isPath isPretty
      cases accepted
      exact ⟨document, read, isPath, isPretty⟩
    · cases accepted

end Entries

/-- Expansion goes over a text once, from left to right. Every text is, in one way only, plain
texts and references by turns and a tail that begins like a reference and has no end. It
expands to these parts with values in place of the references if all of them have one, and
fails with the first that has none.

Loading settings from a file that is accepted expands the path in the environment, or else the
path in the settings of the file, and changes nothing else. The settings of a file are what it
has at `database.path` and `output.pretty`, and the defaults where it has nothing there. Where
no file is asked for and there is none, the settings are the defaults. -/
theorem expansion_and_loading :
    (∀ text : List Char, ∃! parts : Parts, parts.Proper ∧ parts.text = text) ∧
      (∀ (environment : String -> Option String) (parts : Parts), parts.Proper →
        (∀ value : String -> String,
          (∀ part ∈ parts.references, environment part.2 = some (value part.2)) →
            expand environment (String.ofList parts.text) =
              .ok (String.ofList (parts.filled value))) ∧
          ∀ before plain name after, parts.references = before ++ (plain, name) :: after →
            (∀ part ∈ before, (environment part.2).isSome) → environment name = none →
              expand environment (String.ofList parts.text) = .error (.missingVariable name)) ∧
      (∀ (memory : Memory) (path : Option String) (text : String) (settings : Settings),
        memory.files.readText (path.getD defaultFile) = .ok text → ofText text = .ok settings →
          (load Memory.host path).run memory =
            ((expand memory.value? ((memory.value? "DB_PATH").getD settings.databasePath)).map
              fun databasePath => { databasePath, pretty := settings.pretty }, memory)) ∧
      (∀ memory : Memory, (memory.files.resolve defaultFile).isOk = false →
        (load Memory.host none).run memory =
          (({} : Settings).inEnvironment memory.value?, memory)) ∧
      ∀ (text : String) (settings : Settings), ofText text = .ok settings →
        ∃ document, Toml.ofText? text = some document ∧
          (item? document "database" "path" = some (.string settings.databasePath) ∨
            item? document "database" "path" = none ∧
              settings.databasePath = "./data/database.sqlite") ∧
          (item? document "output" "pretty" = some (.boolean settings.pretty) ∨
            item? document "output" "pretty" = none ∧ settings.pretty = true) := by
  refine ⟨fun text => ?_, fun environment parts proper => ⟨fun value isSet => ?_, ?_⟩,
    fun memory path text settings read accepted => ?_, fun memory absent => load_of_absent absent,
    fun text settings accepted => ?_⟩
  · obtain ⟨parts, proper, whole⟩ := Parts.exists_proper text
    refine ⟨parts, ⟨proper, whole⟩, fun other ⟨otherProper, otherWhole⟩ => ?_⟩
    exact otherProper.unique proper (otherWhole.trans whole.symm)
  · rw [expand_text proper, Parts.fill_template isSet]
    rfl
  · intro before plain name after written isSet unset
    rw [expand_text proper, Parts.fill_template_unset written isSet unset]
    rfl
  · have isWritten := written_of_readText read
    rw [accepted] at isWritten
    rw [load_of_written isWritten, inEnvironment_eq]
  · obtain ⟨document, read, isPath, isPretty⟩ := ofText_eq_ok accepted
    refine ⟨document, read, (setting?_eq isPath).imp_left ?_, (setting?_eq isPretty).imp_left ?_⟩
    · rintro ⟨item, written, isString⟩
      rw [written, string?_eq_some isString]
    · rintro ⟨item, written, isBoolean⟩
      rw [written, boolean?_eq_some isBoolean]

/-- A memory with a file whose path refers to a variable without a value, and a path in its
environment that overrides it. -/
def overridingMemory : Memory where
  files :=
    { entries := [(["f"], .text "[database]\npath = '$\x7bGONE\x7d'\n[output]\npretty = false\n")] }
  «variables» := [("DB_PATH", "$$\x7bHOME\x7d/$\x7bHOME\x7d$\x7bx"), ("HOME", "$\x7bGONE\x7d")]

/-- The text of the file in that memory. -/
theorem readText_overridingMemory : overridingMemory.files.readText "f" =
    .ok "[database]\npath = '$\x7bGONE\x7d'\n[output]\npretty = false\n" := by
  -- Splitting a path is not structural, so it is unfolded here step by step.
  have unsplit : "f".splitOn "/" = ["f"] := by
    rw [String.splitOn, if_neg (by decide), String.splitOnAux, if_neg (by decide),
      if_neg (by decide), String.splitOnAux, if_pos (by decide)]
    decide +kernel
  have steps : Files.steps "f" = ["f"] := by
    rw [Files.steps, unsplit]
    decide +kernel
  rw [Files.readText, Files.resolve, steps]
  rfl

/-- A dollar sign before a reference, a value that looks like a reference, and a tail; and two
references without a value behind one that has one. -/
theorem expansion_and_loading_overridden :
    let value := overridingMemory.value?
    let parts : Parts :=
      { references := [("$".toList, "HOME"), ("/".toList, "HOME")], last := [],
        tail := "$\x7bx".toList }
    let unset : Parts :=
      { references := [([], "HOME"), (" ".toList, "GONE"), ([], "")], last := [], tail := [] }
    let text := "[database]\npath = '$\x7bGONE\x7d'\n[output]\npretty = false\n"
    let settings : Settings := { databasePath := "$\x7bGONE\x7d", pretty := false }
    parts.Proper ∧ (∀ part ∈ parts.references, value part.2 = some "$\x7bGONE\x7d") ∧
      expand value (String.ofList parts.text) = .ok "$$\x7bGONE\x7d/$\x7bGONE\x7d$\x7bx" ∧
      unset.Proper ∧ value "GONE" = none ∧
      expand value (String.ofList unset.text) = .error (.missingVariable "GONE") ∧
      overridingMemory.files.readText ((some "f").getD defaultFile) = .ok text ∧
      ofText text = .ok settings ∧
      (load Memory.host (some "f")).run overridingMemory =
        (.ok { databasePath := "$$\x7bGONE\x7d/$\x7bGONE\x7d$\x7bx", pretty := false },
          overridingMemory) := by
  intro value parts unset text settings
  obtain ⟨-, expands, loads, -⟩ := expansion_and_loading
  have proper : parts.Proper := ⟨by decide, by decide, by decide, by decide⟩
  have unsetProper : unset.Proper := ⟨by decide, by decide, by decide, by decide⟩
  have isSet : ∀ part ∈ parts.references, value part.2 = some "$\x7bGONE\x7d" := by decide
  have expanded := (expands value parts proper).1 (fun _ => "$\x7bGONE\x7d") isSet
  have missing := (expands value unset unsetProper).2 [([], "HOME")] " ".toList "GONE" [([], "")]
    rfl (by decide) (by decide)
  have read : overridingMemory.files.readText "f" = .ok text := readText_overridingMemory
  have accepted : ofText text = .ok settings := eq_ok_of_toOption (by decide +kernel)
  have loaded := loads overridingMemory (some "f") text settings read accepted
  refine ⟨proper, isSet, expanded, unsetProper, by decide, missing, read, accepted, ?_⟩
  have path : (overridingMemory.value? "DB_PATH").getD settings.databasePath =
      String.ofList parts.text := by decide
  rw [loaded, path, expanded]
  rfl

end SchemaLoom.Settings
