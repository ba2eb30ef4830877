import ListQuery.Value.Number
import ListQuery.Value.Order

/-!
# Pages

Which page of a list is asked for: by number, or by a cursor that stands for the last row of the
page before. A page has at least one row and at most a hundred; pages count from one. The setters
take numbers as a request spells them, and leave a page of the other kind as it is.

A cursor is a text, or null for the first page; a value of another kind is kept as it was given, and
is refused where the cursor is read.
-/

namespace ListQuery

inductive PagingKind where
  | offset | cursor
  deriving DecidableEq, Repr

def PagingKind.name : PagingKind → String
  | offset => "offset"
  | cursor => "cursor"

inductive Page where
  | offset (number perPage : Int)
  | cursor (token : Value) (perPage : Int)

namespace Page

def defaultPerPage : Int := 15

def maxPerPage : Int := 100

/-- A page size between one and `cap`; one when the cap is below that. -/
def clampPerPage (perPage cap : Int) : Int := max 1 (min perPage cap)

/-- A page size between one and a cap that may be a number of any kind: the size, the cap or one,
whichever it is. -/
def clampValue (perPage cap : Value) : Except Failure Value := do
  let n ← perPage.toInteger
  (Value.int 1).larger (← (Value.int n).smaller cap)

/-- The numbered page with its bounds kept. -/
def ofNumber (number perPage : Int) : Page :=
  .offset (max 1 number) (clampPerPage perPage maxPerPage)

/-- The page after a cursor, or the first one, with its bounds kept. -/
def ofCursor (token : Value) (perPage : Int) : Page :=
  .cursor token (clampPerPage perPage maxPerPage)

def kind : Page → PagingKind
  | offset .. => .offset
  | cursor .. => .cursor

/-- The number of rows of a page. -/
def perPage : Page → Int
  | offset _ n => n
  | cursor _ n => n

/-- The number of rows before a numbered page. -/
def skipped? : Page → Option Int
  | offset number n => some ((number - 1) * n)
  | cursor ..       => none

/-- The cursor; a numbered page has none. -/
def token : Page → Value
  | offset ..   => .null
  | cursor tk _ => tk

def isCursor (p : Page) : Bool := p.kind == .cursor

-- ---------------------------------------------------------------------------
-- Changing one part
-- ---------------------------------------------------------------------------

/-- A page of another size; a cursor page when none was chosen. -/
def withPerPage (state : Option Page) (perPage : Int) : Page :=
  match state with
  | some (offset number _) => ofNumber number perPage
  | some (cursor token _)  => ofCursor token perPage
  | none                   => ofCursor .null perPage

/-- Another page number. A cursor page has none, so there the number is not even read. -/
def withNumber (state : Option Page) (number : Value) : Except Failure Page :=
  match state with
  | some (offset _ n)      => number.toInteger.map (ofNumber · n)
  | some (cursor token n)  => .ok (cursor token n)
  | none                   => number.toInteger.map (ofNumber · defaultPerPage)

/-- Another cursor; a numbered page has none. -/
def withToken (state : Option Page) (token : Value) : Page :=
  match state with
  | some (cursor _ n)      => ofCursor token n
  | some (offset number n) => offset number n
  | none                   => ofCursor token defaultPerPage

/-- The page as a message shows it. -/
def shown : Option Page → String
  | none                   => "Unset()"
  | some (offset number n) =>
    "OffsetPagination(page=" ++ Number.intText number ++ ", per_page=" ++ Number.intText n ++ ")"
  | some (cursor token n)  =>
    "CursorPagination(cursor=" ++ token.shown ++ ", per_page=" ++ Number.intText n ++ ")"

end Page

end ListQuery
