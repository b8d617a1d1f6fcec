import SchemaLoom.Decimal
import SchemaLoom.Json.Tree
import SchemaLoom.Json.Number
import SchemaLoom.Text.Shown

/-!
# Reading and skipping trees

What a decoder reads is held to all rules of JSON. What it skips may hold lone
surrogates, numbers of any size and any depth. Both walks stop at the first fault in
reading order.
-/

namespace SchemaLoom.Json

namespace Quoted

/-- The character of a pair of surrogates. -/
def pairChar (lead trail : Nat) : Char :=
  Char.ofNat (0x10000 + (lead - 0xD800) * 0x400 + (trail - 0xDC00))

/-- The characters of a string. Surrogates must come in pairs; a text that ends
after the first of a pair ends too soon. -/
def characters : List Piece -> Option Fault -> Except Fault (List Char)
  | [], none => .ok []
  | [], some fault => .error fault
  | .char c :: pieces, fault => (characters pieces fault).map (c :: ·)
  | .surrogate lead :: .surrogate trail :: pieces, fault =>
      if lead < 0xDC00 && 0xDC00 ≤ trail then
        (characters pieces fault).map (pairChar lead trail :: ·)
      else .error .malformed
  | [.surrogate lead], some fault => .error (if lead < 0xDC00 then fault else .malformed)
  | .surrogate _ :: _, _ => .error .malformed

/-- The text of a string. -/
def text (written : Quoted) : Except Fault String :=
  (characters written.pieces written.fault).map String.ofList

end Quoted

/-- Stops at a fault, if there is one. -/
def stopAt (fault : Option Fault) : Except Fault Unit :=
  match fault with
  | none => .ok ()
  | some fault => .error fault

namespace Tree

mutual

/-- The first fault of a value that is skipped. -/
def skip : Tree -> Except Fault Unit
  | null | bool _ | number _ => .ok ()
  | string written => stopAt written.fault
  | array items stop => (skipItems items).bind fun _ => stopAt stop
  | object members stop => (skipMembers members).bind fun _ => stopAt stop
  | broken place => .error place.whenSkipped

/-- The first fault of items that are skipped. -/
def skipItems : List Tree -> Except Fault Unit
  | [] => .ok ()
  | item :: items => (skip item).bind fun _ => skipItems items

/-- The first fault of members that are skipped. -/
def skipMembers : List (Quoted × Tree) -> Except Fault Unit
  | [] => .ok ()
  | (name, value) :: members =>
      (stopAt name.fault).bind fun _ => (skip value).bind fun _ => skipMembers members

end

mutual

/-- The first fault of a value that is read whole, with at most the given depth of
arrays and objects. -/
def check (depth : Nat) : Tree -> Except Fault Unit
  | null | bool _ => .ok ()
  | number written => if (Number.ofNumeral? written).isSome then .ok () else .error .malformed
  | string written => written.text.map fun _ => ()
  | array items stop =>
      if depth == 0 then .error .malformed
      else (checkItems (depth - 1) items).bind fun _ => stopAt stop
  | object members stop =>
      if depth == 0 then .error .malformed
      else (checkMembers (depth - 1) members).bind fun _ => stopAt stop
  | broken place => .error place.whenRead

/-- The first fault of items that are read whole. -/
def checkItems (depth : Nat) : List Tree -> Except Fault Unit
  | [] => .ok ()
  | item :: items => (check depth item).bind fun _ => checkItems depth items

/-- The first fault of members that are read whole. -/
def checkMembers (depth : Nat) : List (Quoted × Tree) -> Except Fault Unit
  | [] => .ok ()
  | (name, value) :: members =>
      name.text.bind fun _ => (check depth value).bind fun _ => checkMembers depth members

end

/-- The text of a string value; any other value has none. -/
def string? : Tree -> Option String
  | string written => written.text.toOption
  | _ => none

end Tree

/-- Why a text is not the JSON of a value of the expected shape. -/
inductive DecodeError where
  | text (fault : Fault)
  | missingField (name : String)
  | duplicateField (name : String)
  | unexpected (found expected : String)
  | wrongLength (length : Nat) (expected : String)
  | noVariant (name : String)
  deriving DecidableEq, Repr

namespace DecodeError

/-- A name as a message quotes it. -/
def ticked (name : String) : String :=
  "\x60" ++ name ++ "\x60"

/-- The wording of an error of shape. The faults of the text have none of their own. -/
def message : DecodeError -> String
  | text _ => ""
  | missingField name => "missing field " ++ ticked name
  | duplicateField name => "duplicate field " ++ ticked name
  | unexpected found expected => "invalid type: " ++ found ++ ", expected " ++ expected
  | wrongLength length expected =>
      "invalid length " ++ toString length ++ ", expected " ++ expected
  | noVariant name => "data did not match any variant of untagged enum " ++ name

end DecodeError

/-- What decoding gives. -/
abbrev Decoded (α : Type) := Except DecodeError α

namespace Decoded

/-- A result of reading text as a result of decoding. -/
def ofText {α : Type} : Except Fault α -> Decoded α
  | .ok value => .ok value
  | .error fault => .error (.text fault)

end Decoded

namespace Tree

/-- How a message names a number. -/
def numberName : Number -> String
  | .integer value => "integer " ++ DecodeError.ticked (toString value)
  | .real value =>
      "floating point " ++ DecodeError.ticked
        (match Decimal.ofFloat? value with
          | some shown => shown.text
          | none => "")

/-- The error of a value where another shape is expected. Scalars are read first. -/
def mismatch (expected : String) : Tree -> DecodeError
  | null => .unexpected "null" expected
  | bool value =>
      .unexpected ("boolean " ++ DecodeError.ticked (if value then "true" else "false")) expected
  | number written =>
      match Number.ofNumeral? written with
      | some value => .unexpected (numberName value) expected
      | none => .text .malformed
  | string written =>
      match written.text with
      | .ok text => .unexpected ("string " ++ Text.shown text) expected
      | .error fault => .text fault
  | array _ _ => .unexpected "sequence" expected
  | object _ _ => .unexpected "map" expected
  | broken place => .text place.whenRead

/-- Decodes a string. -/
def decodeString (tree : Tree) : Decoded String :=
  match tree with
  | string written => .ofText written.text
  | other => .error (mismatch "a string" other)

/-- Decodes a string that may be null. -/
def decodeStringOrNull (tree : Tree) : Decoded (Option String) :=
  match tree with
  | null => .ok none
  | other => other.decodeString.map some

/-- Decodes the items of an array, each in turn. -/
def decodeItems {α : Type} (decode : Tree -> Decoded α) (stop : Option Fault) :
    List Tree -> Decoded (List α)
  | [] => (Decoded.ofText (stopAt stop)).map fun _ => []
  | item :: items =>
      (decode item).bind fun value => (decodeItems decode stop items).map (value :: ·)

/-- Decodes an array. -/
def decodeArray {α : Type} (decode : Tree -> Decoded α) (tree : Tree) : Decoded (List α) :=
  match tree with
  | array items stop => decodeItems decode stop items
  | other => .error (mismatch "a sequence" other)

/-- The next item of an array that stands for a record, if there is one. -/
def nextItem (items : List Tree) (stop : Option Fault) : Decoded (Option Tree) :=
  match items with
  | [] => (Decoded.ofText (stopAt stop)).map fun _ => none
  | item :: _ => .ok (some item)

/-- The end of an array that stands for a record. -/
def endItems (items : List Tree) (stop : Option Fault) : Decoded Unit :=
  match items with
  | [] => .ofText (stopAt stop)
  | _ :: _ => .error (.text .malformed)

end Tree

end SchemaLoom.Json
