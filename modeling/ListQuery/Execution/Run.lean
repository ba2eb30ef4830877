import ListQuery.Execution.Row
import ListQuery.Loading.Includes
import ListQuery.Sql.Text

/-!
# Running queries

The four ways to run a query: one page, all rows, the first row, and the number of rows. All of a
run happens on one connection; pages by number read the total first. Failures of the database
become failures of the run on the query's table.
-/

namespace ListQuery

open Sql

namespace Query

open Database (pureStep)

variable {σ : Type} (db : Database σ) (schema : Schema) (q : Query)

def fetch (joins : List (String × EagerJoin)) (s : Statement) : Session σ (List Row) := do
  let rows ← db.readRows s
  pureStep (rows.mapM (Row.fold joins))

/-- The related rows of the includes, for some rows. -/
def loadIncluded (rows : List Row) : Session σ Included :=
  if q.includes.isEmpty || rows.isEmpty then pure []
  else do
    let ids ← pureStep (rows.mapM fun r : Row => r.value q.entity.primaryKey)
    Loading.includes db schema q.entity (.list ids) q.includes

def numberedPage (c : Compiled) (number perPage : Int) : Session σ (PageOf Row) := do
  let total ← db.readNumber c.count
  let rows ← fetch db c.joins c.select
  let included ← q.loadIncluded db schema rows
  let page ← pureStep (PageOf.ofNumber number perPage total (rows.map (Row.stripHidden c.hidden)))
  pure { page with included, warnings := c.warnings }

/-- A row beyond the page's size shows that another page follows, and is not delivered. -/
def cursorPage (c : Compiled) (token : Value) (perPage : Int) : Session σ (PageOf Row) := do
  let read ← fetch db c.joins c.select
  let rows := read.take perPage.toNat
  let next ← pureStep (if perPage < read.length then nextCursor c.keyColumns rows else .ok none)
  let included ← q.loadIncluded db schema rows
  let data := rows.map (Row.stripHidden c.hidden)
  let page ← pureStep (PageOf.ofCursor token perPage data (.optional .text next))
  pure { page with included, warnings := c.warnings }

def pageWork : Session σ (PageOf Row) := do
  let c ← pureStep (q.compile schema true)
  match c.page with
  | .offset number perPage => q.numberedPage db schema c number perPage
  | .cursor token perPage  => q.cursorPage db schema c token perPage

/-- All rows, or the first ones up to a limit, with their related rows attached. -/
def rowsWork (limit : Option Int) : Session σ (List Row) := do
  let c ← pureStep (q.compile schema false)
  let rows ← fetch db c.joins (match limit with
    | some n => { c.select with limit := some n }
    | none   => c.select)
  let included ← q.loadIncluded db schema rows
  let attached ← pureStep (rows.mapM (Row.attach q.entity.primaryKey included))
  pure (attached.map (Row.stripHidden c.hidden))

def countWork : Session σ Int := do
  let c ← pureStep (q.compile schema false)
  db.readNumber c.count

-- ---------------------------------------------------------------------------
-- Entry points
-- ---------------------------------------------------------------------------

/-- The page that the query asks for. -/
def runPage (st : σ) : Except Failure (PageOf Row) × σ :=
  db.withConnection q.entity.table (q.pageWork db schema) st

def runAll (st : σ) : Except Failure (List Row) × σ :=
  db.withConnection q.entity.table (q.rowsWork db schema none) st

def runFirst (st : σ) : Except Failure (Option Row) × σ :=
  db.withConnection q.entity.table ((·.head?) <$> q.rowsWork db schema (some 1)) st

def runCount (st : σ) : Except Failure Int × σ :=
  db.withConnection q.entity.table (q.countWork db schema) st

/-- The statement of the page as text, for reading. -/
def statementText (d : Dialect) (literal : Bool) : Except Failure String := do
  let c ← q.compile schema true
  if literal then c.select.literal d else c.select.outline d

end Query

end ListQuery
