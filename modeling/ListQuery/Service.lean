import ListQuery.Execution.Run
import ListQuery.Query.OfRequest
import ListQuery.Response.Basic

/-!
# The list service

Lists, single rows and counts of one entity, from the parameters of a request. A request that is
rejected does not reach the database.
-/

namespace ListQuery

structure Service where
  schema   : Schema
  entity   : Entity
  settings : Settings := .standard

namespace Service

variable {σ : Type} (service : Service) (db : Database σ) (p : RequestParams)

def query : Except Failure Query :=
  Query.ofRequest service.entity service.settings p

/-- Runs the query of the request, if it has one. -/
def running {α : Type} (run : Query → σ → Except Failure α × σ) (st : σ) : Except Failure α × σ :=
  match service.query p with
  | .ok q       => run q st
  | .error fail => (.error fail, st)

/-- A page of the list, with links to the others on the path. -/
def index (path : String) (st : σ) : Except Failure (Response Row) × σ :=
  service.running p (fun q st =>
    match p.toItems with
    | .error fail => (.error fail, st)
    | .ok items   =>
      let (result, st) := q.runPage db service.schema st
      (result.map fun page => Response.answer q (page.withPath path items) path items, st)) st

def all (st : σ) : Except Failure (List Row) × σ :=
  service.running p (fun q st => q.runAll db service.schema st) st

def first (st : σ) : Except Failure (Option RowResponse) × σ :=
  service.running p (fun q st =>
    let (result, st) := q.runFirst db service.schema st
    (result.map fun row => row.map fun r => ⟨r, service.settings.apiVersion⟩, st)) st

def count (st : σ) : Except Failure Int × σ :=
  service.running p (fun q st => q.runCount db service.schema st) st

end Service

end ListQuery
