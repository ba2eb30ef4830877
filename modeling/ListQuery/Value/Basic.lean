import ListQuery.Number.Decimal
import ListQuery.Number.Double
import ListQuery.Calendar.Basic

/-!
# Values

What a request can carry, a row can hold and a statement can bind. Maps keep the order in which
their keys first came. A map may have keys of any kind; `Entries` are the maps whose keys are texts,
and `Entries.put` is the only way a key of theirs is written.
-/

namespace ListQuery

open Number Calendar

inductive Value where
  | null
  | bool (b : Bool)
  | int (n : Int)
  | float (d : Double)
  | decimal (d : Decimal)
  | text (s : String)
  | date (d : Date)
  | time (t : DayTime)
  | timestamp (t : Timestamp)
  | list (items : List Value)
  | map (entries : List (Value × Value))
  deriving Inhabited

/-- Text keys with their values, in the order in which the keys were first written. -/
abbrev Entries (α : Type) := List (String × α)

/-- The columns of a row with their values. -/
abbrev Row := Entries Value

namespace Entries

variable {α : Type}

def get? (key : String) (es : Entries α) : Option α := es.lookup key

/-- Writes a value: a known key keeps its place, a new one comes last. -/
def put (key : String) (v : α) : Entries α → Entries α
  | []          => [(key, v)]
  | (k, w) :: r => if k = key then (k, v) :: r else (k, w) :: put key v r

/-- The entries without a key. -/
def drop (key : String) (es : Entries α) : Entries α := es.filter fun e => e.1 ≠ key

/-- Repeated keys written one after the other. -/
def ofList (es : List (String × α)) : Entries α := es.foldl (fun m e => put e.1 e.2 m) []

def keys (es : Entries α) : List String := es.map (·.1)

theorem get?_put_self (key : String) (v : α) (es : Entries α) :
    get? key (put key v es) = some v := by
  induction es with
  | nil => simp [put, get?]
  | cons e r ih =>
    obtain ⟨k, w⟩ := e
    by_cases h : k = key
    · simp [put, get?, h]
    · have h' : (key == k) = false := by simpa using fun e => h e.symm
      simpa [put, get?, List.lookup_cons, h, h'] using ih

theorem get?_put_of_ne {key other : String} (v : α) (es : Entries α) (h : other ≠ key) :
    get? other (put key v es) = get? other es := by
  have h' : (other == key) = false := by simpa using h
  induction es with
  | nil => simp [put, get?, List.lookup_cons, h']
  | cons e r ih =>
    obtain ⟨k, w⟩ := e
    by_cases hk : k = key
    · subst hk
      simp [put, get?, List.lookup_cons, h']
    · cases ho : other == k with
      | true => simp [put, get?, List.lookup_cons, hk, ho]
      | false => simpa [put, get?, List.lookup_cons, hk, ho] using ih

end Entries

/-- The entries of a map that stand under a text. -/
def textEntries (es : List (Value × Value)) : Entries Value :=
  es.filterMap fun
    | (.text key, v) => some (key, v)
    | _              => none

namespace Value

/-- A map with text keys. -/
def record (es : Entries Value) : Value := .map (es.map fun e => (.text e.1, e.2))

/-- A value that may be missing; nothing stands for it then. -/
def optional {α : Type} (f : α → Value) (x : Option α) : Value := (x.map f).getD .null

def isNull : Value → Bool
  | .null => true
  | _     => false

/-- Values that say nothing: null, false, zero, and the empty text, list and map. -/
def isVoid : Value → Bool
  | .null                          => true
  | .bool b                        => !b
  | .int n                         => n == 0
  | .float (.finite _ m _ _)       => m == 0
  | .decimal (.finite _ c _)       => c == 0
  | .text s                        => s == ""
  | .list vs                       => vs.isEmpty
  | .map es                        => es.isEmpty
  | _                              => false

end Value

theorem textEntries_record (es : Entries Value) :
    textEntries (es.map fun e => (.text e.1, e.2)) = es := by
  induction es with
  | nil => rfl
  | cons e es ih => exact congrArg (e :: ·) ih

end ListQuery
