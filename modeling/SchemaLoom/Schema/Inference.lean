import SchemaLoom.Schema.ColumnType

/-!
# What a column name suggests

Types and constraints are read off names alone, without regard to case. A name
ending in `id` is that of an identifier and suggests an integer; dates come next,
then amounts of time and the other numeric words; everything else is text. An
e-mail address suggests uniqueness and a name suggests presence.
-/

namespace SchemaLoom

/-- A constraint on one column, in the order in which constraints are written. -/
inductive Constraint where
  | primaryKey
  | unique
  | notNull
  deriving DecidableEq, Repr

/-- The keywords of a constraint. -/
def Constraint.keywords : Constraint -> String
  | primaryKey => "PRIMARY KEY"
  | unique => "UNIQUE"
  | notNull => "NOT NULL"

/-- What a name suggests about its column. -/
structure Inference where
  columnType : ColumnType
  idLike : Bool
  unique : Bool
  notNull : Bool
  deriving DecidableEq, Repr

namespace Inference

/-- Words that make a name numeric when nothing else decides. -/
def numericWords : List String :=
  ["age", "price", "amount", "credits"]

/-- Whether a name, already in small letters, is that of an identifier. -/
def endsLikeId (small : List Char) : Bool :=
  Text.endsWith "id".toList small && !Text.endsWith "name".toList small

/-- The suggestions of a name. -/
def ofName (name : String) : Inference :=
  let small := Text.lowercase name.toList
  let has (word : String) : Bool := Text.contains word.toList small
  { columnType :=
      if endsLikeId small then .integer
      else if has "date" then .date
      else if has "time" || has "duration" then .integer
      else if numericWords.any has then .integer
      else .text
    idLike := endsLikeId small
    unique := has "email"
    notNull := has "name" && !Text.endsWith "_id".toList small }

/-- The suggested constraints in writing order. The primary key depends on the
neighbouring names, so it is passed in. -/
def constraints (inference : Inference) (primaryKey : Bool) : List Constraint :=
  (if primaryKey then [.primaryKey] else []) ++ (if inference.unique then [.unique] else []) ++
    (if inference.notNull then [.notNull] else [])

/-- Whether a name is that of an identifier. -/
def isIdLike (name : String) : Bool :=
  endsLikeId (Text.lowercase name.toList)

/-- The place of the primary key among names: the first identifier. -/
def primaryKeyIndex? (names : List String) : Option Nat :=
  names.findIdx? isIdLike

/-- For each name, whether it holds the primary key. -/
def primaryKeyFlags : List String -> List Bool
  | [] => []
  | name :: names =>
      if isIdLike name then true :: names.map fun _ => false
      else false :: primaryKeyFlags names

end Inference

end SchemaLoom
