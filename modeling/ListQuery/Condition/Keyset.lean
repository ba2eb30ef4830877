import ListQuery.Condition.OfFilter
import ListQuery.Paging.Cursor
import ListQuery.Schema.Coercion

/-!
# Rows after a cursor

The rows that come after the row of given key values in the order of the keys: those that come
strictly after it by some key and agree with it by all keys before that one. A key other than the
primary key may be nothing; nothing comes last in either direction, so it comes after every value,
and only rows that agree on it can come after a row without a value.
-/

namespace ListQuery

open Sql

namespace Keyset

/-- Strictly after the value by one key. -/
def after (e : Entity) (key : SortKey) (v : Value) : Except Failure Predicate := do
  let c := e.columnNamed key.field
  let strictly ← c.ordered (if key.direction = .descending then .lt else .gt) v
  .ok (if key.field = e.primaryKey then strictly else .disj [strictly, .isNull (.column c) false])

def valueOf (values : Entries Value) (key : SortKey) : Value := (values.get? key.field).getD .null

/-- Equal to the row by the key. -/
def agrees (e : Entity) (values : Entries Value) (key : SortKey) : Predicate :=
  (e.columnNamed key.field).equals false (valueOf values key)

/-- A condition for every key with a value: agreement by the keys before it, and after by it. -/
def branches (e : Entity) (values : Entries Value) (before : List SortKey) :
    List SortKey → Except Failure (List Predicate)
  | []          => .ok []
  | key :: keys => do
    let here ← match valueOf values key with
      | .null => pure []
      | v     => do
        let p ← after e key v
        pure [Predicate.conj (before.map (agrees e values) ++ [p])]
    let rest ← branches e values (before ++ [key]) keys
    .ok (here ++ rest)

/-- The rows after the one with the given key values. -/
def predicate (e : Entity) (keys : List SortKey) (values : Entries Value) :
    Except Failure Predicate :=
  (branches e values [] keys).map .disj

/-- The value of one key as a value of its column, unless it cannot be read as one. -/
def keyValue? (e : Entity) (decoded : Entries Value) (key : SortKey) :
    Except Failure (Option (String × Value)) :=
  match decoded.get? key.field with
  | none     => .ok none
  | some raw =>
    match coerce (e.typeOf key.field) raw with
    | .ok v       => .ok (some (key.field, v))
    | .error fail => if fail.isReading then .ok none else .error fail

/-- The key values that a cursor holds, if it has one for each key that can be read, and one that is
not nothing for the primary key. -/
def ofDecoded? (e : Entity) (keys : List SortKey) (decoded : Entries Value) :
    Except Failure (Option (Entries Value)) := do
  let values ← keys.mapM (keyValue? e decoded)
  match values.mapM id with
  | none        => .ok none
  | some values =>
    let values := Entries.ofList values
    match values.get? e.primaryKey with
    | none | some .null => .ok none
    | some _            => .ok (some values)

/-- The key values of a cursor. -/
def ofCursor? (e : Entity) (keys : List SortKey) (token : Value) :
    Except Failure (Option (Entries Value)) := do
  match ← Cursor.ofValue? token with
  | none         => .ok none
  | some decoded => ofDecoded? e keys decoded

end Keyset

end ListQuery
