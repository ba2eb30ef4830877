/-!
# Column types

The types a column can be declared with, and the kinds by which columns are told apart.
-/

namespace ListQuery

inductive ColumnType where
  | integer | bigInteger | smallInteger
  | string | text
  | boolean
  | date
  | dateTime (zoned : Bool)
  | time
  | json | jsonb
  | float
  | numeric
  /-- Floating point in the database, decimal in the program. -/
  | floatDecimal
  /-- Decimal in the database, floating point in the program. -/
  | numericFloat
  | enum (labels : List String)
  /-- A column without a declared type. -/
  | untyped
  deriving DecidableEq

/-- What the program reads a column's values as, where it has a reading of its own. -/
inductive NativeKind where
  | boolean | integer | float | decimal
  deriving DecidableEq

namespace ColumnType

def native? : ColumnType → Option NativeKind
  | boolean                             => some .boolean
  | integer | bigInteger | smallInteger => some .integer
  | float | numericFloat                => some .float
  | numeric | floatDecimal              => some .decimal
  | _                                   => none

/-- Text of any length; an enumeration is not one. -/
def isText : ColumnType → Bool
  | string | text => true
  | _             => false

def isInteger (t : ColumnType) : Bool := t.native? == some .integer

def isBoolean : ColumnType → Bool
  | boolean => true
  | _       => false

def isEnum : ColumnType → Bool
  | enum _ => true
  | _      => false

/-- Either kind of JSON document. -/
def isJson : ColumnType → Bool
  | json | jsonb => true
  | _            => false

def isJsonb : ColumnType → Bool
  | jsonb => true
  | _     => false

end ColumnType

end ListQuery
