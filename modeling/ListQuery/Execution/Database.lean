import ListQuery.Failure
import ListQuery.Sql.Text

/-!
# Databases

A database answers statements, and may change between two of them: its state is passed along. What
a database is beyond that is left open. A `Session` is work on one, which can fail and leaves the
state behind in either case.
-/

namespace ListQuery

open Sql

structure Database (σ : Type) where
  connect : σ → σ
  close   : σ → σ
  /-- The rows that a statement reads. -/
  rows    : Statement → σ → Except Failure (List Row) × σ
  /-- The one number that a statement reads. -/
  number  : Statement → σ → Except Failure Int × σ

abbrev Session (σ : Type) := ExceptT Failure (StateM σ)

namespace Database

variable {σ α : Type} (db : Database σ)

/-- A step that does not touch the database. -/
def pureStep {α : Type} (r : Except Failure α) : Session σ α := ExceptT.mk (pure r)

/-- The rows of a statement. One that cannot be written does not reach the database. -/
def readRows (s : Statement) : Session σ (List Row) := do
  pureStep s.check
  ExceptT.mk (db.rows s)

/-- The number of a statement. One that cannot be written does not reach the database. -/
def readNumber (s : Statement) : Session σ Int := do
  pureStep s.check
  ExceptT.mk (db.number s)

/-- A failure that the database layer reports becomes a failed execution on the table. -/
def onTable (table : String) (failure : Failure) : Failure :=
  if failure.isDatabase then .execution table failure else failure

/-- Work on one connection, which is closed whatever comes of it. -/
def withConnection (table : String) (work : Session σ α) (st : σ) : Except Failure α × σ :=
  let (result, st) := (work.run (db.connect st))
  (result.mapError (onTable table), db.close st)

end Database

end ListQuery
