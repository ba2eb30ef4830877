import ListQuery.Text.Split

/-!
# Includes

A path of relations to load with the rows, such as `createdBy.organizations`, and the text form of a
list of paths.
-/

namespace ListQuery

open Text

/-- The relation names of a path. -/
def segments (path : String) : List String := split '.' path

def rootOf (path : String) : String := (segments path).headD ""

def depthOf (path : String) : Nat := (segments path).length

def isNested (path : String) : Bool := decide (1 < depthOf path)

/-- The path without its last segment. -/
def parentOf? (path : String) : Option String :=
  if isNested path then some (join "." (segments path).dropLast) else none

/-- The list without later repetitions. -/
def distinct : List String → List String :=
  fun xs => xs.foldl (fun seen x => if seen.contains x then seen else seen ++ [x]) []

/-- The path of an entry with its segments trimmed, unless one of them is blank. -/
def pathOfEntry? (entry : String) : Option String :=
  let names := (segments entry).map trim
  if names.all (· ≠ "") then some (join "." names) else none

/-- The paths of a comma-separated list, each once. -/
def parseIncludes (list : String) : List String :=
  distinct ((split ',' list).filterMap pathOfEntry?)

/-- Every prefix of a path, the shortest first. -/
def prefixesOf (path : String) : List String :=
  let names := segments path
  (List.range names.length).map fun i => join "." (names.take (i + 1))

/-- Every prefix of every path, each once. -/
def relationPaths (paths : List String) : List String := distinct (paths.flatMap prefixesOf)

end ListQuery
