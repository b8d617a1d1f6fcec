import SchemaLoom.Proofs.Splitting
import SchemaLoom.Script.Basic

/-!
# Runs of scripts

A run is described by what its sink answers: every statement succeeds in turn, or one
of them is the first to fail and nothing behind it is executed. A sink that keeps
record of its calls shows the same. Runs of scripts that a semicolon joins are runs
of one after the other.
-/

namespace SchemaLoom.Script

variable {State Error Result : Type}

/-- Statements that succeed one after the other, with their outcomes and the state
that they lead to. -/
inductive Succeeds (execute : Execute State Error Result) :
    State -> List String -> List Result -> State -> Prop where
  | nil (state : State) : Succeeds execute state [] [] state
  | cons {state after final : State} {statement : String} {statements : List String}
      {outcome : Result} {outcomes : List Result}
      (first : execute statement state = (.ok outcome, after))
      (others : Succeeds execute after statements outcomes final) :
      Succeeds execute state (statement :: statements) (outcome :: outcomes) final

/-- Statements of which one is the first to fail, given the position that the first of
them has. -/
def FailsFrom (execute : Execute State Error Result) (index : Nat) (state : State)
    (statements : List String) (failure : ScriptError Error) (final : State) : Prop :=
  ∃ (before later : List String) (outcomes : List Result) (middle : State),
    statements = before ++ failure.statement :: later ∧
      failure.index = index + before.length ∧
      Succeeds execute state before outcomes middle ∧
      execute failure.statement middle = (.error failure.source, final)

/-- The reports of statements from a position on. -/
def reportsFrom (index : Nat) (statements : List String) (outcomes : List Result) :
    List (StatementReport Result) :=
  (statements.zip outcomes).mapIdx fun position answered =>
    { index := index + position, statement := answered.1, outcome := answered.2 }

/-- A sink that also keeps the statements it is given. -/
def recording (execute : Execute State Error Result) :
    Execute (State × List String) Error Result :=
  fun statement (state, calls) =>
    ((execute statement state).1, (execute statement state).2, calls ++ [statement])

/-- The statements that a run gives to its sink, by its answer: all of them, or those up
to the one that fails. -/
def passedFrom (index : Nat) (statements : List String) :
    Except (ScriptError Error) (List (StatementReport Result)) -> List String
  | .ok _ => statements
  | .error failure => statements.take (failure.index + 1 - index)

/-- What a run gives: its reports or its failure, and the state it leaves. -/
abbrev Answer (State Error Result : Type) :=
  Except (ScriptError Error) (List (StatementReport Result)) × State

/-- The report of a statement that stands a number of statements further on. -/
def StatementReport.shift (count : Nat) (report : StatementReport Result) :
    StatementReport Result :=
  { report with index := report.index + count }

/-- The failure of a statement that stands a number of statements further on. -/
def ScriptError.shift (count : Nat) (failure : ScriptError Error) : ScriptError Error :=
  { failure with index := failure.index + count }

/-- The answer of a run whose statements stand a number of statements further on. -/
def Answer.shift (count : Nat) : Answer State Error Result -> Answer State Error Result
  | (.ok reports, final) => (.ok (reports.map (StatementReport.shift count)), final)
  | (.error failure, final) => (.error (failure.shift count), final)

/-- The answer of a run and, only where it comes through, of another one from the state
that it leaves. -/
def Answer.andThen (answer : Answer State Error Result)
    (next : State -> Answer State Error Result) : Answer State Error Result :=
  match answer with
  | (.error failure, after) => (.error failure, after)
  | (.ok reports, after) =>
      match next after with
      | (.error failure, final) => (.error failure, final)
      | (.ok later, final) => (.ok (reports ++ later), final)

/-- The report of the first statement comes first, and the others are counted on from it. -/
theorem reportsFrom_cons (index : Nat) (statement : String) (statements : List String)
    (outcome : Result) (outcomes : List Result) :
    reportsFrom index (statement :: statements) (outcome :: outcomes) =
      { index, statement, outcome } :: reportsFrom (index + 1) statements outcomes := by
  simp [reportsFrom, Nat.add_assoc, Nat.add_comm 1]

section Answers

variable {execute : Execute State Error Result}

/-- Statements that succeed from a state are run with a report of each. -/
theorem runFrom_of_succeeds {state final : State} {statements : List String}
    {outcomes : List Result} (succeeds : Succeeds execute state statements outcomes final)
    (index : Nat) :
    runFrom execute index statements state =
      (.ok (reportsFrom index statements outcomes), final) := by
  induction succeeds generalizing index with
  | nil state => rfl
  | cons first others inductionHypothesis =>
      rw [runFrom, first, reportsFrom_cons]
      simp only [inductionHypothesis]

/-- A statement that fails ends the run with its failure, in the state that it leaves. -/
theorem runFrom_of_failsFrom {index : Nat} {state final : State}
    {statements : List String} {failure : ScriptError Error}
    (fails : FailsFrom execute index state statements failure final) :
    runFrom execute index statements state = (.error failure, final) := by
  obtain ⟨before, later, outcomes, middle, rfl, position, succeeded, failed⟩ := fails
  induction succeeded generalizing index with
  | nil state =>
      obtain rfl : failure.index = index := by simpa using position
      rw [List.nil_append, runFrom, failed]
  | cons first others inductionHypothesis =>
      have shifted := @inductionHypothesis (index + 1)
        (by simp only [List.length_cons] at position; omega) failed
      rw [List.cons_append, runFrom, first]
      simp only [shifted]

/-- Statements that succeed have one report each. -/
theorem Succeeds.map_statement_reportsFrom {state final : State} {statements : List String}
    {outcomes : List Result} (succeeds : Succeeds execute state statements outcomes final)
    (index : Nat) :
    (reportsFrom index statements outcomes).map StatementReport.statement = statements := by
  induction succeeds generalizing index with
  | nil state => rfl
  | cons first others inductionHypothesis =>
      rw [reportsFrom_cons, List.map_cons, inductionHypothesis]

/-- A run either succeeds as a whole or has a first statement that fails. -/
theorem succeeds_or_failsFrom (execute : Execute State Error Result) (index : Nat)
    (statements : List String) (state : State) :
    (∃ outcomes final, Succeeds execute state statements outcomes final) ∨
      ∃ failure final, FailsFrom execute index state statements failure final := by
  induction statements generalizing index state with
  | nil => exact .inl ⟨[], state, .nil state⟩
  | cons statement statements inductionHypothesis =>
      cases answered : execute statement state with
      | mk answer after =>
          cases answer with
          | error source =>
              exact .inr ⟨{ index, statement, source }, after, [], statements, [], state, rfl, rfl,
                .nil state, answered⟩
          | ok outcome =>
              rcases inductionHypothesis (index + 1) after with
                ⟨outcomes, final, others⟩ |
                ⟨failure, final, before, later, outcomes, middle, rfl, position, others, failed⟩
              · exact .inl ⟨outcome :: outcomes, final, .cons answered others⟩
              · refine .inr ⟨failure, final, statement :: before, later, outcome :: outcomes,
                  middle, rfl, ?_, .cons answered others, failed⟩
                simp only [List.length_cons]
                omega

/-- A run without failure is a success of all its statements. -/
theorem runFrom_eq_ok_iff {index : Nat} {statements : List String} {state final : State}
    {reports : List (StatementReport Result)} :
    runFrom execute index statements state = (.ok reports, final) ↔
      ∃ outcomes, Succeeds execute state statements outcomes final ∧
        reports = reportsFrom index statements outcomes := by
  constructor
  · intro ran
    rcases succeeds_or_failsFrom execute index statements state with
      ⟨outcomes, after, succeeds⟩ | ⟨failure, after, fails⟩
    · rw [runFrom_of_succeeds succeeds index] at ran
      cases ran
      exact ⟨outcomes, succeeds, rfl⟩
    · rw [runFrom_of_failsFrom fails] at ran
      cases ran
  · rintro ⟨outcomes, succeeds, rfl⟩
    exact runFrom_of_succeeds succeeds index

/-- A run fails with the first statement that does. -/
theorem runFrom_eq_error_iff {index : Nat} {statements : List String} {state final : State}
    {failure : ScriptError Error} :
    runFrom execute index statements state = (.error failure, final) ↔
      FailsFrom execute index state statements failure final := by
  constructor
  · intro ran
    rcases succeeds_or_failsFrom execute index statements state with
      ⟨outcomes, after, succeeds⟩ | ⟨other, after, fails⟩
    · rw [runFrom_of_succeeds succeeds index] at ran
      cases ran
    · rw [runFrom_of_failsFrom fails] at ran
      cases ran
      exact fails
  · exact runFrom_of_failsFrom

/-- Recording the calls leaves the outcomes of a run as they are. -/
theorem succeeds_recording {state final : State} {statements : List String}
    {outcomes : List Result} (succeeds : Succeeds execute state statements outcomes final)
    (calls : List String) :
    Succeeds (recording execute) (state, calls) statements outcomes
      (final, calls ++ statements) := by
  induction succeeds generalizing calls with
  | nil state =>
      rw [List.append_nil]
      exact .nil _
  | cons first others inductionHypothesis =>
      rename_i statement statements outcome outcomes
      have whole := inductionHypothesis (calls ++ [statement])
      rw [List.append_assoc] at whole
      exact .cons (by simp [recording, first]) whole

/-- A sink that keeps record answers as the sink itself, and its record is of the
statements that the answer says to have been reached. -/
theorem runFrom_recording (execute : Execute State Error Result) (index : Nat)
    (statements : List String) (state : State) (calls : List String) :
    runFrom (recording execute) index statements (state, calls) =
      ((runFrom execute index statements state).1, (runFrom execute index statements state).2,
        calls ++ passedFrom index statements (runFrom execute index statements state).1) := by
  rcases succeeds_or_failsFrom execute index statements state with
    ⟨outcomes, final, succeeds⟩ | ⟨failure, final, fails⟩
  · rw [runFrom_of_succeeds succeeds, runFrom_of_succeeds (succeeds_recording succeeds calls)]
    rfl
  · have ran := runFrom_of_failsFrom fails
    obtain ⟨before, later, outcomes, middle, rfl, position, succeeded, failed⟩ := fails
    have passed : (before ++ failure.statement :: later).take (failure.index + 1 - index) =
        before ++ [failure.statement] := by
      rw [position, show index + before.length + 1 - index = before.length + 1 by omega,
        List.take_length_add_append]
      rfl
    have recorded : FailsFrom (recording execute) index (state, calls)
        (before ++ failure.statement :: later) failure
        (final, calls ++ (before ++ [failure.statement])) := by
      refine ⟨before, later, outcomes, (middle, calls ++ before), rfl, position,
        succeeds_recording succeeded calls, ?_⟩
      simp [recording, failed]
    rw [runFrom_of_failsFrom recorded, ran, passedFrom, passed]

end Answers

variable (execute : Execute State Error Result)

/-- A run from a later position differs in the positions only. -/
theorem runFrom_add (index count : Nat) (statements : List String) (state : State) :
    runFrom execute (index + count) statements state =
      Answer.shift count (runFrom execute index statements state) := by
  induction statements generalizing index state with
  | nil => rfl
  | cons statement statements inductionHypothesis =>
      have later := inductionHypothesis (index + 1)
      rw [show index + 1 + count = index + count + 1 by omega] at later
      rw [runFrom, runFrom]
      cases execute statement state with
      | mk answer after =>
          cases answer with
          | error source => rfl
          | ok outcome =>
              simp only [later]
              cases runFrom execute (index + 1) statements after with
              | mk answer final => cases answer <;> rfl

/-- Statements that follow others run where these have come through. -/
theorem runFrom_append (index : Nat) (first second : List String) (state : State) :
    runFrom execute index (first ++ second) state =
      Answer.andThen (runFrom execute index first state)
        (runFrom execute (index + first.length) second) := by
  induction first generalizing index state with
  | nil =>
      rw [List.nil_append, List.length_nil, Nat.add_zero]
      change _ = Answer.andThen (.ok [], state) (runFrom execute index second)
      rw [Answer.andThen]
      cases runFrom execute index second state with
      | mk answer final => cases answer <;> rfl
  | cons statement statements inductionHypothesis =>
      rw [List.cons_append, runFrom, runFrom]
      cases execute statement state with
      | mk answer after =>
          cases answer with
          | error source => rfl
          | ok outcome =>
              have count : index + (statement :: statements).length =
                  index + 1 + statements.length := by
                rw [List.length_cons]
                omega
              simp only [inductionHypothesis, count]
              generalize runFrom execute (index + 1 + statements.length) second = next
              cases runFrom execute (index + 1) statements after with
              | mk answer middle =>
                  cases answer with
                  | error failure => rfl
                  | ok reports =>
                      simp only [Answer.andThen]
                      cases next middle with
                      | mk answer final => cases answer <;> rfl

/-- What a run shows of its sink and of its script. It comes through with one report for
each statement exactly when all of them succeed in turn, and it fails exactly as the
first statement that does; the sink is given the statements up to that one, each once
and in order, and no others. A script that a semicolon divides behind a settled part
runs as this part and, only where that comes through, as what follows from the state
reached, whose positions go on counting. -/
theorem run_prefix_and_append :
    (∀ (script : String) (state final : State) (reports : List (StatementReport Result)),
        run execute script state = (.ok reports, final) ↔
          ∃ outcomes, Succeeds execute state (Ddl.statements script) outcomes final ∧
            reports = reportsFrom 0 (Ddl.statements script) outcomes) ∧
      (∀ (script : String) (state final : State) (failure : ScriptError Error),
        run execute script state = (.error failure, final) ↔
          FailsFrom execute 0 state (Ddl.statements script) failure final) ∧
      (∀ (script : String) (state : State) (calls : List String),
        run (recording execute) script (state, calls) =
          ((run execute script state).1, (run execute script state).2,
            calls ++ passedFrom 0 (Ddl.statements script) (run execute script state).1)) ∧
      ∀ (first second : String) (state : State), Ddl.Settled first.toList ->
        run execute (first ++ ";" ++ second) state =
          Answer.andThen (run execute first state) fun after =>
            Answer.shift (Ddl.statements first).length (run execute second after) := by
  refine ⟨fun script state final reports => runFrom_eq_ok_iff,
    fun script state final failure => runFrom_eq_error_iff,
    fun script state calls => runFrom_recording execute 0 _ state calls, ?_⟩
  intro first second state settled
  have later : runFrom execute (0 + (Ddl.statements first).length) (Ddl.statements second) =
      fun after => Answer.shift (Ddl.statements first).length (run execute second after) :=
    funext fun after => runFrom_add execute 0 _ _ after
  rw [run, Ddl.statements_append_semicolon settled, runFrom_append, later]
  rfl

/-- A sink that refuses the empty table name and counts the others. -/
def countingSink : Execute Nat String Nat :=
  fun statement count =>
    if statement = "DROP TABLE" then (.error statement, count) else (.ok count, count + 1)

/-- A failure behind a comment with a semicolon, in the second part of a script. -/
theorem run_prefix_and_append_refused :
    Ddl.Settled "DROP TABLE a; -- b;\n".toList ∧
      run countingSink ("DROP TABLE a; -- b;\n" ++ ";" ++ "DROP TABLE b; DROP TABLE; x") 5 =
        (.error { index := 2, statement := "DROP TABLE", source := "DROP TABLE" }, 7) := by
  have settled : Ddl.Settled "DROP TABLE a; -- b;\n".toList := by decide
  refine ⟨settled, ?_⟩
  rw [(run_prefix_and_append countingSink).2.2.2 _ _ 5 settled]
  cbv

end SchemaLoom.Script
