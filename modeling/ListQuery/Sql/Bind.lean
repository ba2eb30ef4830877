import ListQuery.Sql.Dialect
import ListQuery.Value.Equal
import ListQuery.Value.Kind
import ListQuery.Value.Number

/-!
# Bound values

A value that a statement binds, with the type as which it is bound: the column's type when the value
is of that family or of no type of its own, else the value's own type. Statements carry a
placeholder for it; `literal` is its text in a statement that is written out for reading. Values
that are compared together are bound as one list, which may be a list of rows.
-/

namespace ListQuery.Sql

open Text Calendar

/-- Types whose values are bound alike. -/
inductive TypeFamily where
  | integer | text | boolean | date | timestamp | time | json | float | numeric | unknown
  deriving DecidableEq

def family : ColumnType → TypeFamily
  | .integer | .bigInteger | .smallInteger => .integer
  | .string | .text | .enum _              => .text
  | .boolean                               => .boolean
  | .date                                  => .date
  | .dateTime _                            => .timestamp
  | .time                                  => .time
  | .json | .jsonb                         => .json
  | .float | .floatDecimal                 => .float
  | .numeric | .numericFloat               => .numeric
  | .untyped                               => .unknown

/-- The type that a value has by itself. -/
def ownType? : Value → Option ColumnType
  | .null | .list _ | .map _ => none
  | .bool _                  => some .boolean
  | .int _                   => some .integer
  | .float _                 => some .float
  | .decimal _               => some .numeric
  | .text _                  => some .string
  | .date _                  => some .date
  | .time _                  => some .time
  | .timestamp _             => some (.dateTime false)

structure Bind where
  value : Value
  type  : ColumnType

namespace Bind

/-- The type as which a value is bound in a comparison with a column of type `t`. -/
def typeFor (t : ColumnType) (v : Value) : ColumnType :=
  match ownType? v with
  | some own => if family own = family t then t else own
  | none     => t

/-- A value compared with a column of type `t`. -/
def ofValue (t : ColumnType) (v : Value) : Bind := ⟨v, typeFor t v⟩

/-- What stands for the value in a statement. -/
def placeholder (d : Dialect) (b : Bind) : String :=
  match d, b.type with
  | .postgresql, .json  => "?::JSON"
  | .postgresql, .jsonb => "?::JSONB"
  | _,           _      => "?"

-- ---------------------------------------------------------------------------
-- Literals
-- ---------------------------------------------------------------------------

/-- A text in single quotes. -/
def quote (s : String) : String := "'" ++ doubled '\'' s ++ "'"

/-- A time of day with all six digits of its fraction and without its offset. -/
def fullClock (c : Clock) : List Char :=
  Number.padded 2 c.hour ++ ':' :: Number.padded 2 c.minute ++ ':' :: Number.padded 2 c.second ++
    '.' :: Number.padded 6 c.micro

def sqliteMoment? : ColumnType → Value → Option (List Char)
  | .dateTime _, .timestamp t => some (t.date.chars ++ ' ' :: fullClock t.clock)
  | .dateTime _, .date d      => some (d.chars ++ ' ' :: fullClock .midnight)
  | .date,       .timestamp t => some t.date.chars
  | .date,       .date d      => some d.chars
  | .time,       .time t      => some (fullClock t.clock)
  | _,           _            => none

def postgresqlMoment? : ColumnType → Value → Option String
  | .dateTime _, .timestamp t => some (t.textWith ' ')
  | .date,       .timestamp t => some t.date.text
  | .time,       .timestamp t => some (DayTime.text ⟨t.clock, t.offset⟩)
  | _,           .date d      => some d.text
  | _,           .time t      => some t.text
  | _,           _            => none

/-- A date or time as the dialect writes it for a column of the type. -/
def moment? (d : Dialect) (t : ColumnType) (v : Value) : Option String :=
  match d with
  | .sqlite     => (sqliteMoment? t v).map String.ofList
  | .postgresql => postgresqlMoment? t v

def truthText (d : Dialect) (b : Bool) : String :=
  match d with
  | .sqlite     => if b then "1" else "0"
  | .postgresql => if b then "true" else "false"

def literal? (d : Dialect) (b : Bind) : Option String :=
  match family b.type, b.value with
  | _,        .null      => some "NULL"
  | .json,    _          => none
  | .unknown, _          => none
  | .integer, v          =>
    match v.toInteger with
    | .ok n    => some (Number.intText n)
    | .error _ => none
  | .text,    .text s    => some (quote s)
  | .text,    _          => none
  | .boolean, v          =>
    if v.same (.bool true) then some (truthText d true)
    else if v.same (.bool false) then some (truthText d false)
    else none
  | .float,   v          => if v.isNumber then some v.display else none
  | .numeric, v          => if v.isNumber then some v.display else none
  | _,        v          => (moment? d b.type v).map quote

mutual

/-- Whether a value holds an integer of more digits than can be written. -/
def hasLongInteger : Value → Bool
  | .int n   => decide (Number.maxIntegerDigits < Number.digitCount n.natAbs)
  | .list vs => anyLongInteger vs
  | .map es  => anyLongEntry es
  | _        => false

def anyLongInteger : List Value → Bool
  | []      => false
  | v :: vs => hasLongInteger v || anyLongInteger vs

def anyLongEntry : List (Value × Value) → Bool
  | []           => false
  | (k, v) :: es => hasLongInteger k || hasLongInteger v || anyLongEntry es

end

/-- The value as text in a statement. JSON, and what has no type, cannot be written. -/
def literal (d : Dialect) (b : Bind) : Except Failure String :=
  if hasLongInteger b.value then .error .unreadable
  else
    match literal? d b with
    | some s => .ok s
    | none   => .error .unwritable

end Bind

-- ---------------------------------------------------------------------------
-- Lists of values
-- ---------------------------------------------------------------------------

/-- Values for one comparison, all of them bound as one type. -/
structure BindList where
  values : List Value
  type   : ColumnType

namespace BindList

/-- A list of values for a column of type `t`; the first of them settles the type of all. -/
def ofList (t : ColumnType) (vs : List Value) : BindList :=
  ⟨vs, ((vs.head?).map (Bind.typeFor t)).getD t⟩

variable (l : BindList)

def binds : List Bind := l.values.map (⟨·, l.type⟩)

/-- Values without a type that begin with a list are rows of values. -/
def areRows : Bool :=
  match l.type, l.values with
  | .untyped, .list _ :: _ => true
  | _,        _            => false

/-- Whether a row at a position is longer than its share of all the values allows. -/
def isUneven (total : Nat) (row : List Value × Nat) : Bool :=
  !row.1.isEmpty && decide (total < (row.2 + 1) * row.1.length)

/-- The rows of values. Each of them has to have members, and none may be too long beside the
others. -/
def rows : Except Failure (List (List Value)) := do
  let rows ← l.values.mapM Value.members
  if rows.zipIdx.any (isUneven rows.flatten.length) then .error .unevenRows else .ok rows

end BindList

end ListQuery.Sql
