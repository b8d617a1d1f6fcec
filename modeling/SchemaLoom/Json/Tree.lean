import SchemaLoom.Json.Token

/-!
# JSON text as a tree

A text becomes a tree whatever it holds. Where it stops being JSON the tree has a
break, and everything open at that point ends there. A decoder walks the tree in
reading order, so the first problem it meets is the first one of the text, be it a
break or a value of the wrong shape.
-/

namespace SchemaLoom.Json

/-- A value of a text, down to the place where the text breaks. An array or object
without its end says why. -/
inductive Tree where
  | null
  | bool (value : Bool)
  | number (value : Numeral)
  | string (value : Quoted)
  | array (items : List Tree) (stop : Option Fault)
  | object (members : List (Quoted × Tree)) (stop : Option Fault)
  | broken (place : Break)
  deriving Inhabited

namespace Tree

/-- An array or object around the place that is being read. What it holds so far is
in reverse order; an object waits for the value of a name. -/
inductive Frame where
  | array (before : List Tree)
  | object (before : List (Quoted × Tree)) (name : Quoted)

/-- What may come next, within the frames around it. -/
inductive Progress where
  /-- A value. -/
  | value (frames : List Frame)
  /-- The first item of an array, or its end. -/
  | firstItem (frames : List Frame)
  /-- A comma or the end of an array. -/
  | afterItem (frames : List Frame) (before : List Tree)
  /-- The first name of an object, or its end. -/
  | firstName (frames : List Frame)
  /-- A name after a comma. -/
  | nextName (frames : List Frame) (before : List (Quoted × Tree))
  /-- A colon. -/
  | colon (frames : List Frame) (before : List (Quoted × Tree)) (name : Quoted)
  /-- A comma or the end of an object. -/
  | afterMember (frames : List Frame) (before : List (Quoted × Tree))
  /-- Nothing; the flag says whether something came all the same. -/
  | finished (root : Tree) (trailing : Bool)

/-- The progress after a whole value. -/
def complete (value : Tree) : List Frame -> Progress
  | [] => .finished value false
  | .array before :: frames => .afterItem frames (value :: before)
  | .object before name :: frames => .afterMember frames ((name, value) :: before)

/-- The whole tree when a value breaks off, which leaves all frames around it open. -/
def abandon (value : Tree) : List Frame -> Tree
  | [] => value
  | .array before :: frames => abandon (.array (value :: before).reverse none) frames
  | .object before name :: frames =>
      abandon (.object ((name, value) :: before).reverse none) frames

/-- The progress when a text breaks at a value. -/
def breakAt (frames : List Frame) (place : Break) : Progress :=
  .finished (abandon (.broken place) frames) false

/-- The progress when an array has no proper end. -/
def stopArray (frames : List Frame) (before : List Tree) (fault : Fault) : Progress :=
  .finished (abandon (.array before.reverse (some fault)) frames) false

/-- The progress when an object has no proper end. -/
def stopObject (frames : List Frame) (before : List (Quoted × Tree)) (fault : Fault) :
    Progress :=
  .finished (abandon (.object before.reverse (some fault)) frames) false

/-- The progress after a token where a value is due. -/
def beginValue (frames : List Frame) : Token -> Progress
  | .openArray => .firstItem frames
  | .openObject => .firstName frames
  | .null => complete .null frames
  | .bool value => complete (.bool value) frames
  | .number value => complete (.number value) frames
  | .string value => complete (.string value) frames
  | .broken place => breakAt frames place
  | .closeArray | .closeObject | .comma | .colon => breakAt frames (.always .malformed)

/-- The progress after one more token. -/
def Progress.step : Progress -> Token -> Progress
  | value frames, token => beginValue frames token
  | firstItem frames, .closeArray => complete (.array [] none) frames
  | firstItem frames, token => beginValue (.array [] :: frames) token
  | afterItem frames before, .comma => .value (.array before :: frames)
  | afterItem frames before, .closeArray => complete (.array before.reverse none) frames
  | afterItem frames before, _ => stopArray frames before .malformed
  | firstName frames, .closeObject => complete (.object [] none) frames
  | firstName frames, .string name => .colon frames [] name
  | firstName frames, _ => stopObject frames [] .malformed
  | nextName frames before, .string name => .colon frames before name
  | nextName frames before, _ => stopObject frames before .malformed
  | colon frames before name, .colon => .value (.object before name :: frames)
  | colon frames before name, _ => breakAt (.object before name :: frames) (.always .malformed)
  | afterMember frames before, .comma => .nextName frames before
  | afterMember frames before, .closeObject => complete (.object before.reverse none) frames
  | afterMember frames before, _ => stopObject frames before .malformed
  | finished root _, _ => .finished root true

/-- The progress when the text ends. -/
def Progress.atEnd : Progress -> Progress
  | value frames => breakAt frames (.always .ended)
  | firstItem frames => stopArray frames [] .ended
  | afterItem frames before => stopArray frames before .ended
  | firstName frames => stopObject frames [] .ended
  | nextName frames before => stopObject frames before .ended
  | colon frames before name => breakAt (.object before name :: frames) (.always .ended)
  | afterMember frames before => stopObject frames before .ended
  | finished root trailing => .finished root trailing

end Tree

/-- The tree of a text, and whether anything stands after its value. -/
structure Document where
  root : Tree
  trailing : Bool

/-- Reads a text. -/
def Document.read (text : List Char) : Document :=
  match ((tokens text).foldl Tree.Progress.step (.value [])).atEnd with
  | .finished root trailing => { root, trailing }
  | _ => { root := .broken (.always .ended), trailing := false }

end SchemaLoom.Json
