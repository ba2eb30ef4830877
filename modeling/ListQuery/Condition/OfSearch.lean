import ListQuery.Condition.OfFilter
import ListQuery.Number.Reading
import ListQuery.Text.Digit

/-!
# Conditions of a search

A search term is looked for in every searchable column: in texts as a part of them, in integers and
truth values as the value that the term spells, and in anything else as a part of its text.
-/

namespace ListQuery

open Sql Text Number

/-- The integer of a term of digit signs. A term of other signs spells none; a sign of a digit that
cannot stand in a number is unreadable. -/
def searchedInteger? (term : String) : Except Failure (Option Int) :=
  if term ≠ "" ∧ term.toList.all isDigitSign then
    match readInteger term with
    | some n => .ok (some n)
    | none   => .error .unreadable
  else .ok none

def searchedTruth? (term : String) : Option Bool :=
  if lower term = "true" then some true
  else if lower term = "false" then some false
  else none

/-- The condition that the column holds the term, if it can. -/
def Column.searchCondition? (c : Column) (term : String) : Except Failure (Option Predicate) :=
  if c.type.isText then .ok (some (.affix (.column c) .anywhere term))
  else if c.type.isInteger then do
    let n ← searchedInteger? term
    .ok (n.map fun n => c.equals false (.int n))
  else if c.type.isBoolean then
    .ok ((searchedTruth? term).map fun b => c.equals false (.bool b))
  else .ok (some (.affix (.asText c) .anywhere term))

/-- The conditions of which any makes a row a match. -/
def Entity.searchConditions (e : Entity) (term : String) : Except Failure (List Predicate) :=
  ((e.searchFields.filterMap e.column?).mapM fun c : Column => c.searchCondition? term).map
    fun ps => ps.filterMap id

/-- Why a column cannot be searched for something that is no text. -/
def Column.unsearchable (c : Column) : Failure :=
  if c.type.isInteger || c.type.isBoolean then .noOperation else .wrongKind

/-- The conditions of a search for a value; only a text can be searched for. -/
def Entity.searchFor (e : Entity) (term : Value) : Except Failure (List Predicate) :=
  match term, e.searchFields.filterMap e.column? with
  | .text s, _      => e.searchConditions s
  | _,       []     => .ok []
  | _,       c :: _ => .error c.unsearchable

end ListQuery
