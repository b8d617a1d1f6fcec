import SchemaLoom.Reply.Cleaning
import SchemaLoom.Schema.Decode

/-!
# Replies

A reply is a schema when its JSON text is one with at least one entity. Anything
else is taken for statements, without asking whether they can be read.
-/

namespace SchemaLoom

/-- What a reply holds. -/
inductive Reply where
  | schema (schema : Schema)
  | ddl (text : String)
  deriving DecidableEq, Repr

namespace Reply

/-- The schema that a text holds, if it is an object with at least one entity. -/
def usableSchema? (text : String) : Option Schema :=
  if text.toList.head? == some '\x7b' then
    match Schema.ofJsonText text with
    | .ok decoded => if decoded.isEmpty then none else some decoded
    | .error _ => none
  else none

/-- Reads a reply. -/
def ofText (text : String) : Reply :=
  match usableSchema? (cleanJson text) with
  | some usable => .schema usable
  | none => .ddl (cleanDdl text)

/-- Reads a reply that may be missing; a blank one counts as missing. -/
def ofText? (text : Option String) : Option Reply :=
  (text.filter fun given => !Text.isBlankText given.toList).map ofText

end Reply

end SchemaLoom
