import SchemaLoom.Database.Table

/-!
# Rows of a table

A new row is checked against the columns that may not be null, then against the row
key and then against the indexes. It goes to its place in key order, or to the end of
a table that no key orders.
-/

namespace SchemaLoom.Database

/-- The greatest integer. -/
def greatest : Int :=
  0x7FFFFFFFFFFFFFFF

namespace Table

/-- The key of a row. -/
def keyOf (column : Nat) (row : List Value) : Int :=
  match row[column]? with
  | some (.integer key) => key
  | _ => 0

/-- The keys of the rows. -/
def rowKeys (table : Table) : List Int :=
  match table.rowKey with
  | some key => table.rows.map (keyOf key.column)
  | none => []

/-- The key that a row gets when none is given: one more than the largest one, and
more than any number given before. -/
def nextKey (table : Table) (used : Option Int) : Except Cause Int :=
  let keys := table.rowKeys ++ used.toList
  match keys.max? with
  | none => .ok 1
  | some largest => if largest < greatest then .ok (largest + 1) else .error .full

/-- The integer that a value is in a row key. -/
def rowKeyOf (table : Table) (used : Option Int) (value : Value) : Except Cause Int :=
  match Affinity.integer.apply value with
  | .null => table.nextKey used
  | .integer key => .ok key
  | _ => .error .typeMismatch

/-- Whether two rows have the same values in the given columns. -/
def agree (columns : List Nat) (left right : List Value) : Bool :=
  columns.all fun column =>
    match left[column]?, right[column]? with
    | some first, some second => first.sameKey second
    | _, _ => false

/-- The first column that may not be null and is. -/
def missing? (table : Table) (row : List Value) : Option Nat :=
  (List.zipWith (fun (column : Column) (value : Value) => column.notNull && value.isNull)
    table.columns row).findIdx? id

/-- A row as the table stores it. -/
def stored (table : Table) (row : List Value) : List Value :=
  List.zipWith (fun column value => column.affinity.apply value) table.columns row

/-- Puts a row in its place. -/
def place (table : Table) (row : List Value) : Table :=
  match table.rowKey with
  | none => { table with rows := table.rows ++ [row] }
  | some key =>
      let before (other : List Value) : Bool := keyOf key.column other < keyOf key.column row
      { table with rows := table.rows.takeWhile before ++ row :: table.rows.dropWhile before }

/-- Gives a row its key. -/
def withKey (table : Table) (used : Option Int) (row : List Value) : Except Cause (List Value) :=
  match table.rowKey with
  | none => .ok row
  | some key =>
      match row[key.column]? with
      | none => .ok row
      | some value =>
          (table.rowKeyOf used value).map fun number => row.set key.column (.integer number)

/-- Inserts a row, given the largest number that the row key gave so far. -/
def insertRow (table : Table) (used : Option Int) (values : List Value) : Except Cause Table := do
  let row := table.stored (← table.withKey used values)
  match table.missing? row with
  | some column => .error (.notNullFailed (table.qualified column))
  | none =>
      match table.rowKey with
      | some key =>
          if table.rows.any fun other => keyOf key.column other == keyOf key.column row then
            .error (.uniqueFailed true [table.qualified key.column])
      | none => .ok ()
      match table.indexes.find? fun index => table.rows.any (agree index.columns row) with
      | some index => .error (.uniqueFailed index.primary (index.columns.map table.qualified))
      | none => .ok (table.place row)

/-- The largest number that a table has given, after those given before. -/
def numbersGiven (table : Table) (used : Option Int) : Option Int :=
  match table.rowKey with
  | some { automatic := true, .. } => (table.rowKeys ++ [used.getD 0]).max?
  | _ => none

/-- Inserts rows one after the other. -/
def insertRows (table : Table) (used : Option Int) : List (List Value) -> Except Cause Table
  | [] => .ok table
  | row :: rows => do
      let table ← table.insertRow used row
      table.insertRows (table.numbersGiven used) rows

end Table

end SchemaLoom.Database
