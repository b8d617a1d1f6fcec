import SchemaLoom.Ddl.Document
import SchemaLoom.Ddl.Render
import SchemaLoom.Reply.Basic
import SchemaLoom.Schema.Json
import SchemaLoom.Schema.Validation

/-!
# Normalized replies

Whatever form a reply has, the result holds both statements and a schema. Where the
reply offers no entity, a schema of one generic table stands in.
-/

namespace SchemaLoom

/-- Statements and schema of one reply. -/
structure Normalized where
  sql : String
  schema : Schema
  gaps : List Ddl.Gap
  issues : List SchemaIssue
  usedFallback : Bool
  deriving DecidableEq, Repr

namespace Normalized

/-- The schema that stands in for a reply without any entity. -/
def fallbackSchema : Schema :=
  { entities := [Entity.ofNames "Generated_Table" ["id", "name", "description", "created_at"]]
    relationships := [] }

/-- The result for a schema: its statements are rendered. -/
def ofSchema (schema : Schema) (usedFallback : Bool) : Normalized :=
  { sql := Ddl.render schema
    schema
    gaps := []
    issues := schema.issues
    usedFallback }

/-- The result without a usable reply. -/
def fallback : Normalized :=
  ofSchema fallbackSchema true

/-- The result for statements: their schema is read, and they are kept as they are. -/
def ofDdl (text : String) : Normalized :=
  let report := Ddl.Report.ofDocument text
  if report.schema.isEmpty then fallback
  else
    { sql := text
      schema := report.schema
      gaps := report.gaps
      issues := report.schema.issues
      usedFallback := false }

/-- The result for a reply that may be missing. -/
def ofReply : Option Reply -> Normalized
  | none => fallback
  | some (.ddl text) => ofDdl text
  | some (.schema schema) => if schema.isEmpty then fallback else ofSchema schema false

/-- The part of a result that callers are sent. -/
def toJson (normalized : Normalized) : Json :=
  .object [("sql", .string normalized.sql), ("schema", normalized.schema.toJson)]

end Normalized

end SchemaLoom
