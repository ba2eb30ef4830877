import ListQuery.Execution.Script
import ListQuery.Query.Calls
import ListQuery.Response.Applied
import ListQuery.Service
import ListQuery.Proofs.Codec.Base64
import ListQuery.Proofs.Number.Digits
import ListQuery.Proofs.Number.Numeral
import ListQuery.Proofs.Number.DecimalText
import ListQuery.Proofs.Number.DoubleText
import ListQuery.Proofs.Paging.PageCount
import ListQuery.Proofs.Calendar.Text
import ListQuery.Proofs.Json.Scalar
import ListQuery.Proofs.Failure
import ListQuery.Proofs.Json.Record
import ListQuery.Proofs.Paging.Token
import ListQuery.Proofs.Condition.Keyset
import ListQuery.Proofs.Compiled
import ListQuery.Proofs.Execution.CursorPage
import ListQuery.Proofs.Execution.Resume
import ListQuery.Proofs.Sql.Engine
import ListQuery.Proofs.Sql.Order
import ListQuery.Proofs.Condition.After
import ListQuery.Proofs.Execution.OneTable
import ListQuery.Proofs.Execution.Walk
import ListQuery.Proofs.Sql.Writable
import ListQuery.Proofs.Execution.Written
import ListQuery.Proofs.Execution.Progress
import ListQuery.Proofs.Execution.Agreement
import ListQuery.Proofs.Loading.Group
import ListQuery.Proofs.Loading.Related
import ListQuery.Proofs.Text.Split
import ListQuery.Proofs.Loading.Paths
import ListQuery.Proofs.Loading.Trail
import ListQuery.Proofs.Execution.Attached
import ListQuery.Proofs.Paging.RoundTrip
import ListQuery.Proofs.Query.Meaning
import ListQuery.Proofs.Query.Independence
import ListQuery.Proofs.Query.Whitelist
import ListQuery.Proofs.Query.WellFormed
import ListQuery.Proofs.Query.TextOperands
import ListQuery.Proofs.Query.AnyCursor
import ListQuery.Proofs.Request.Navigation
import ListQuery.Proofs.Query.Rejection
import ListQuery.Proofs.Query.Fluent
import ListQuery.Proofs.Response.Links
import ListQuery.Proofs.Response.PageUrls
import ListQuery.Proofs.Loading.AuditWalk
import ListQuery.Proofs.Execution.JoinedPartner
import ListQuery.Proofs.Query.DeclaredColumns
import ListQuery.Proofs.Query.PageSize
import ListQuery.Proofs.Execution.PageCap
import ListQuery.Proofs.Request.Interleaved
import ListQuery.Proofs.Query.Interleaved
import ListQuery.Proofs.Sql.OuterJoin
import ListQuery.Proofs.Execution.Folded
import ListQuery.Proofs.Execution.MorePaths
import ListQuery.Proofs.Query.MoreIncludes
import ListQuery.Proofs.Execution.SideBySide
import ListQuery.Proofs.Execution.KeptIncludes
import ListQuery.Proofs.EagerJoin
import ListQuery.Proofs.Sql.Reference
import ListQuery.Proofs.Query.TableNames
import ListQuery.Proofs.Loading.OneByOne
import ListQuery.Proofs.Loading.Hop
import ListQuery.Proofs.Loading.HopByHop
import ListQuery.Proofs.Schema.Entity
import ListQuery.Proofs.SortKey
import ListQuery.Proofs.Query.Defaults
import ListQuery.Proofs.Execution.EagerAsLoaded
import ListQuery.Proofs.Calendar.Days
import ListQuery.Proofs.Sql.Standard
import ListQuery.Proofs.Condition.Later
import ListQuery.Proofs.Condition.InOrder
import ListQuery.Proofs.Query.Matching
import ListQuery.Proofs.Query.Bounds
import ListQuery.Proofs.Query.PathMembership
import ListQuery.Proofs.Query.Moments
import ListQuery.Proofs.Sql.DocumentText
import ListQuery.Proofs.Query.PathValues
import ListQuery.Proofs.Sql.Negation
import ListQuery.Proofs.Condition.Negated
import ListQuery.Proofs.Query.Complements
import ListQuery.Proofs.Number.IntegerText
import ListQuery.Proofs.Condition.Search
import ListQuery.Proofs.Sql.Sought
import ListQuery.Proofs.Query.SoughtTexts
import ListQuery.Proofs.Filter.Operand
import ListQuery.Proofs.Query.MalformedOperands
import ListQuery.Proofs.Schema.Coercion
import ListQuery.Proofs.Query.Replay
import ListQuery.Proofs.Query.ListSpellings
import ListQuery.Proofs.Paging.Numbered
import ListQuery.Proofs.Execution.FoldedColumns
import ListQuery.Proofs.Loading.LoadedPaths
import ListQuery.Proofs.Execution.Shape
