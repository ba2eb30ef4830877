import ListQuery.Response.Links
import ListQuery.Response.Meta

/-!
# Responses

A page with its report and links, a single row with a short report, and the answer to a failure.
-/

namespace ListQuery

/-- A page as it is answered to a client. -/
structure Response (α : Type) where
  data     : List α
  info     : PageInfo
  report   : Meta := {}
  links    : Option Links := none
  included : Included := []

namespace Response

variable {α : Type}

/-- A page without links; its warnings are the whole report. -/
def ofPage (p : PageOf α) : Response α where
  data     := p.data
  info     := p.info
  report   := { warnings := p.warnings.map .text }
  included := p.included

/-- The answer to a query by its page on a path; the links repeat the request's parameters. -/
def answer (q : Query) (page : PageOf α) (path : String) (query : QueryItems) : Response α where
  data     := page.data
  info     := page.info
  report   :=
    { Meta.ofInfo q.info q.settings.apiVersion with
        warnings := q.warnings ++ page.warnings.map Value.text }
      |>.warnIfComplex q.settings.complexityThreshold
  links    := some (.ofPage path page.info query)
  included := page.included

def warn (r : Response α) (message : String) : Response α :=
  { r with report := r.report.warn message }

end Response

/-- A single row as it is answered to a client. -/
structure RowResponse where
  data       : Row
  apiVersion : String

namespace RowResponse

/-- The response by name. -/
def entries (r : RowResponse) : Entries Value :=
  [("data", .record r.data),
    ("meta", .record [("api_version", .text r.apiVersion), ("type", .text "single")]),
    ("links", .null)]

end RowResponse

/-- What a client is told about a failure. -/
structure ErrorResponse where
  status  : Int
  error   : String
  message : String
  errors  : Option Rejections := none

/-- The path of a request as its URL has it: with a slash at its start, without tabs and line ends,
and with the signs that would end it encoded. -/
def urlPath (path : String) : String :=
  let cs := path.toList
  let cs := if cs = [] ∨ cs.head? = some '/' then cs else '/' :: cs
  String.ofList ((cs.filter fun c => c ≠ '\t' ∧ c ≠ '\n' ∧ c ≠ '\r').flatMap fun c =>
    if c = '?' then "%3F".toList else if c = '#' then "%23".toList else [c])

/-- The request that failed. -/
structure ErrorContext where
  requestId : Option String
  path      : String
  query     : Entries String

namespace ErrorResponse

def ofRejections (errors : Rejections) : ErrorResponse :=
  ⟨400, "query_validation_error", Failure.rejectionText errors, some errors⟩

/-- Why a statement failed is not for the client to know. -/
def ofExecution : ErrorResponse :=
  ⟨500, "query_execution_error", "The query could not be executed", none⟩

/-- The response of a failure of the query itself; other failures have none. -/
def ofFailure? : Failure → Option ErrorResponse
  | .rejected errors => some (ofRejections errors)
  | .execution ..    => some ofExecution
  | _                => none

/-- The response by name. -/
def entries (r : ErrorResponse) (context : ErrorContext) : Entries Value :=
  let messages (ms : List String) : Value := .list (ms.map .text)
  [("error", .text r.error), ("message", .text r.message), ("code", .int r.status),
    ("errors", .optional (fun es => .record (es.map fun e => (e.1, messages e.2))) r.errors),
    ("context", .record
      [("request_id", .optional .text context.requestId), ("endpoint", .text context.path),
        ("query_params", .record (context.query.map fun e => (e.1, .text e.2)))])]

end ErrorResponse

end ListQuery
