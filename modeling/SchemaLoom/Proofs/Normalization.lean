import SchemaLoom.Proofs.Heads
import SchemaLoom.Proofs.Lines
import SchemaLoom.Reply.Normalized

/-!
# Normalized replies

A result always has entities to show, and says whether they come from the reply. Where a
reply is nothing but fences and blanks, whatever cleaning leaves of it has no letter that
could begin a table statement and no brace, so it counts for as little as no reply.
-/

namespace SchemaLoom.Reply

open SchemaLoom.Text

/-- A reply without any entity: none at all, a schema without one, or statements in
which none is declared. -/
inductive OffersNothing : Option Reply -> Prop where
  | missing : OffersNothing none
  | schema {given : Schema} (empty : given.entities = []) : OffersNothing (some (.schema given))
  | ddl {text : String} (empty : (Ddl.schemaOf text).entities = []) :
      OffersNothing (some (.ddl text))

/-- A text of blanks and code fences, each with or without the name of a language. -/
inductive OnlyFences : List Char -> Prop where
  | nil : OnlyFences []
  | blank {c : Char} {rest : List Char} (blank : isBlank c = true) (others : OnlyFences rest) :
      OnlyFences (c :: rest)
  | fence {language : String} {rest : List Char} (known : language ∈ ["", "json", "sql"])
      (others : OnlyFences rest) : OnlyFences (fence ++ (language.toList ++ rest))

/-- The characters of fences. -/
def fenceChars : List Char :=
  ['\x60', 'j', 's', 'o', 'n', 'q', 'l']

/-- Whether a character can stand in a text of blanks and fences. -/
def isFenceChar (c : Char) : Bool :=
  isBlank c || fenceChars.contains c

/-- There are only characters of fences in a text of fences. -/
theorem OnlyFences.chars {text : List Char} (only : OnlyFences text) :
    ∀ c ∈ text, isFenceChar c = true := by
  induction only with
  | nil => simp
  | @blank c rest blank others inductionHypothesis =>
      exact List.forall_mem_cons.2 ⟨by simp [isFenceChar, blank], inductionHypothesis⟩
  | @fence language rest known others inductionHypothesis =>
      have marks : ∀ c ∈ Reply.fence, isFenceChar c = true := by
        intro c member
        rw [List.eq_of_mem_replicate member]
        decide
      have letters : (language.toList).all isFenceChar = true := by
        simp only [List.mem_cons, List.not_mem_nil, or_false] at known
        rcases known with rfl | rfl | rfl <;> decide
      exact List.forall_mem_append.2 ⟨marks, List.forall_mem_append.2
        ⟨List.all_eq_true.1 letters, inductionHypothesis⟩⟩

/-- No fence has a letter that begins `CREATE`. -/
theorem foldsTo_of_isFenceChar {c : Char} (inFence : isFenceChar c = true) :
    foldsTo 'C' c = false := by
  refine Bool.eq_false_iff.2 fun folds => ?_
  have solid : isBlank c = false := isBlank_of_foldsTo (by decide) folds
  rw [isFenceChar, solid, Bool.false_or, List.contains_iff_mem] at inFence
  have letters : fenceChars.all (fun c => !foldsTo 'C' c) = true := by decide
  have here := List.all_eq_true.1 letters c inFence
  rw [folds] at here
  cases here

/-- A reply of fences and blanks declares nothing. -/
theorem offersNothing_of_onlyFences {text : String} (only : OnlyFences text.toList) :
    OffersNothing (some (ofText text)) := by
  have noBrace : (cleanJson text).toList.head? ≠ some '\x7b' := fun first =>
    absurd (only.chars _ (mem_cleanJson (List.mem_of_mem_head? first))) (by decide)
  have noLetter : ∀ c ∈ (cleanDdl text).toList, foldsTo 'C' c = false := by
    intro c member
    rcases mem_cleanDdl member with rfl | inside
    · decide
    · exact foldsTo_of_isFenceChar (only.chars c inside)
  have noSchema : usableSchema? (cleanJson text) = none := by simp [usableSchema?, noBrace]
  simp only [ofText, noSchema]
  exact .ddl (Ddl.entities_of_letter noLetter)

end SchemaLoom.Reply

namespace SchemaLoom.Normalized

open SchemaLoom.Reply

/-- What a result owes to the reply that it is for. -/
structure Answers (reply : Option Reply) (result : Normalized) : Prop where
  nonempty : result.schema.entities ≠ []
  issues : result.issues = result.schema.issues
  usedFallback : result.usedFallback = true ↔ OffersNothing reply
  fallback : result.usedFallback = true ->
    result.schema = fallbackSchema ∧ result.sql = Ddl.render fallbackSchema ∧ result.gaps = []
  schema : ∀ schema, reply = some (.schema schema) -> schema.entities ≠ [] ->
    result.schema = schema ∧ result.sql = Ddl.render schema ∧ result.gaps = []
  ddl : ∀ text, reply = some (.ddl text) -> (Ddl.schemaOf text).entities ≠ [] ->
    result.sql = text ∧ result.schema = (Ddl.Report.ofDocument result.sql).schema ∧
      result.gaps = (Ddl.Report.ofDocument result.sql).gaps

/-- The stand-in answers every reply without an entity. -/
theorem answers_fallback {reply : Option Reply} (nothing : OffersNothing reply) :
    Answers reply fallback where
  nonempty := List.cons_ne_nil _ _
  issues := rfl
  usedFallback := iff_of_true rfl nothing
  fallback _ := ⟨rfl, rfl, rfl⟩
  schema := by
    rintro schema rfl entities
    cases nothing with
    | schema empty => exact absurd empty entities
  ddl := by
    rintro text rfl entities
    cases nothing with
    | ddl empty => exact absurd empty entities

/-- A reply that offers nothing is answered with the fallback. -/
theorem ofReply_of_offersNothing {reply : Option Reply} (nothing : OffersNothing reply) :
    ofReply reply = fallback := by
  cases nothing with
  | missing => rfl
  | @schema given empty =>
      have noEntity : given.isEmpty = true := List.isEmpty_iff.2 empty
      rw [ofReply, if_pos noEntity]
  | @ddl text empty =>
      have noEntity : (Ddl.Report.ofDocument text).schema.isEmpty = true :=
        List.isEmpty_iff.2 empty
      simp only [ofReply, ofDdl, if_pos noEntity]

/-- A reply with a usable schema is answered with it. -/
theorem ofReply_schema {schema : Schema} (entities : schema.entities ≠ []) :
    ofReply (some (.schema schema)) = ofSchema schema false := by
  have nonempty : ¬schema.isEmpty = true := fun empty => entities (List.isEmpty_iff.1 empty)
  rw [ofReply, if_neg nonempty]

/-- A reply with a usable text is answered with the schema that is read from it. -/
theorem ofReply_ddl {text : String} (entities : (Ddl.schemaOf text).entities ≠ []) :
    ofReply (some (.ddl text)) =
      { sql := text
        schema := (Ddl.Report.ofDocument text).schema
        gaps := (Ddl.Report.ofDocument text).gaps
        issues := (Ddl.Report.ofDocument text).schema.issues
        usedFallback := false } := by
  have nonempty : ¬(Ddl.Report.ofDocument text).schema.isEmpty = true :=
    fun empty => entities (List.isEmpty_iff.1 empty)
  simp only [ofReply, ofDdl, if_neg nonempty]

/-- Every reply is answered as it should be. -/
theorem answers_ofReply (reply : Option Reply) : Answers reply (ofReply reply) := by
  by_cases nothing : OffersNothing reply
  · rw [ofReply_of_offersNothing nothing]
    exact answers_fallback nothing
  · cases reply with
    | none => exact absurd .missing nothing
    | some reply =>
        cases reply with
        | schema schema =>
            have entities : schema.entities ≠ [] := fun empty => nothing (.schema empty)
            rw [ofReply_schema entities]
            refine ⟨entities, rfl, iff_of_false (by simp [ofSchema]) nothing, nofun, ?_, nofun⟩
            rintro given same -
            cases same
            exact ⟨rfl, rfl, rfl⟩
        | ddl text =>
            have entities : (Ddl.schemaOf text).entities ≠ [] := fun empty => nothing (.ddl empty)
            rw [ofReply_ddl entities]
            refine ⟨entities, rfl, iff_of_false (by simp) nothing, nofun, nofun, ?_⟩
            rintro given same -
            cases same
            exact ⟨rfl, rfl, rfl⟩

/-- Every result answers its reply, and to a reply of fences and blanks it is the same as
to none. -/
theorem ofReply_answers :
    (∀ reply, Answers reply (ofReply reply)) ∧
      ∀ text : String, OnlyFences text.toList -> ofReply (some (ofText text)) = ofReply none := by
  refine ⟨answers_ofReply, fun text only => ?_⟩
  have missing : ofReply none = fallback := rfl
  rw [ofReply_of_offersNothing (offersNothing_of_onlyFences only), missing]

/-- Fences of both languages and of none, with blanks among them. -/
theorem ofReply_fences_only :
    OnlyFences " ```sql\n```\t```json```".toList ∧
      ofReply (some (ofText " ```sql\n```\t```json```")) = ofReply none := by
  have text : " ```sql\n```\t```json```".toList =
      ' ' :: (fence ++ ("sql".toList ++ '\n' :: (fence ++ ("".toList ++
        '\t' :: (fence ++ ("json".toList ++ (fence ++ ("".toList ++ [])))))))) := by
    decide
  have only : OnlyFences " ```sql\n```\t```json```".toList := by
    rw [text]
    exact .blank (by decide) (.fence (by decide) (.blank (by decide) (.fence (by decide)
      (.blank (by decide) (.fence (by decide) (.fence (by decide) .nil))))))
  exact ⟨only, ofReply_answers.2 _ only⟩

end SchemaLoom.Normalized
