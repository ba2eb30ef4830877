import ListQuery.Sql.Predicate

/-!
# Statements

A statement that reads rows, or their number, as data: what it projects, the tables it joins, the
conditions all of which a row has to meet, and the order and cut of the result.
-/

namespace ListQuery.Sql

/-- A table under its own name or an alias. -/
structure TableRef where
  name      : String
  aliasName : Option String := none

/-- A table joined on the equality of two columns. -/
structure Join where
  table : TableRef
  left  : Column
  right : Column
  /-- Whether rows without a partner stay, with nothing in the columns of the joined table. -/
  outer : Bool := true

/-- A projected column, under its own name or a label. -/
structure Output where
  column : Column
  label  : Option String := none

inductive Projection where
  | columns (outputs : List Output)
  | count

structure OrderKey where
  column    : Column
  direction : Direction
  /-- Whether rows without a value come last in either direction. -/
  nullsLast : Bool := false

structure Statement where
  projection : Projection
  table      : TableRef
  joins      : List Join := []
  conditions : List Predicate := []
  order      : List OrderKey := []
  limit      : Option Int := none
  offset     : Option Int := none

namespace Statement

/-- The statement with one more condition. -/
def restrict (s : Statement) (p : Predicate) : Statement :=
  { s with conditions := s.conditions ++ p.conjuncts }

end Statement

end ListQuery.Sql
