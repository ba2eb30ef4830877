import ListQuery.Value.Display
import ListQuery.Filter.Operator

/-!
# Failures

What can go wrong, by cause. Only rejected input and a failed execution carry a message for the
client of the service; `message` words them and the few others that say what they refuse.
-/

namespace ListQuery

open Text

/-- Messages for each rejected parameter, in the order in which they arose. -/
abbrev Rejections := Entries (List String)

inductive Failure where
  /-- A text that does not spell what it has to, or a number without an integer part. -/
  | unreadable
  /-- A value of a kind that cannot be read at all. -/
  | wrongKind
  | notBoolean (raw : Value)
  | notInteger (raw : Value)
  | notNumber (raw : Value)
  /-- A text that is no JSON document. -/
  | notDocument
  /-- An operator that cannot look inside a JSON document. -/
  | noPathOperator (op : Operator)
  /-- A number or date beyond its range. -/
  | outOfRange
  /-- A name that is not there. -/
  | missing
  /-- A column type that lacks the operation. -/
  | noOperation
  /-- A document in which brackets stand too deep inside each other. -/
  | tooDeep
  /-- A comparison with a number that signals. -/
  | signalling
  /-- Rows of values of which one is too short. -/
  | unevenRows
  /-- A column without a name that would need a label. -/
  | namelessColumn
  /-- An operand that the comparison does not take. -/
  | badOperand
  /-- A value that cannot be written into the text of a statement. -/
  | unwritable
  /-- An error that the database reports. -/
  | database (text : String)
  /-- Input that strict rules reject. -/
  | rejected (errors : Rejections)
  /-- A statement on a table that could not be carried out, and why. -/
  | execution (table : String) (cause : Failure)
  /-- A request answered with a client error. -/
  | badRequest (errors : Rejections)
  /-- Fields with values out of bounds or of the wrong kind, by name. -/
  | invalid (names : List String)

namespace Failure

/-- What a client reads about rejected parameters. -/
def rejectionText (errors : Rejections) : String :=
  "Invalid query parameters: " ++
    join "; " (errors.map fun e => e.1 ++ ": " ++ commaSeparated e.2)

/-- A single rejected parameter. -/
def reject (field message : String) : Failure := .rejected [(field, [message])]

/-- Failures to read a value, as opposed to failures of the program around it. -/
def isReading : Failure → Bool
  | .unreadable | .wrongKind | .notBoolean _ | .notInteger _ | .notNumber _ | .notDocument
  | .noPathOperator _ => true
  | _                 => false

/-- Failures that the database layer reports, and that are reported on as failures of execution. -/
def isDatabase : Failure → Bool
  | .database _ | .badOperand | .unwritable => true
  | _                                       => false

/-- The wording, where there is one. -/
def message : Failure → String
  | .notBoolean raw        => raw.shown ++ " is not a boolean"
  | .notInteger raw        => raw.shown ++ " is not an integer"
  | .notNumber raw         => raw.shown ++ " is not a number"
  | .noPathOperator op     =>
    "Operator '" ++ op.name ++ "' is not supported for JSON path filtering"
  | .database text         => text
  | .rejected errors       => rejectionText errors
  | .badRequest errors     => rejectionText errors
  | .execution table cause => "Query on " ++ table ++ " failed: " ++ cause.message
  | _                      => ""

end Failure

end ListQuery
