import ListQuery.Sql.Naming
import ListQuery.Sql.Statement

/-!
# The text of statements

A statement is written as pieces of fixed text with the values it binds between them. From the
pieces come the text with placeholders and the bound values, or the text with the values written
out. Parentheses depend on where a condition stands: alone, among conjuncts, or among the members of
a disjunction.

The placeholder of a value or of a list of values has a name. It shows only where a list is left as
one placeholder: in the outline of a statement, and where there is blank space in the name, since
such a list cannot be spread out.
-/

namespace ListQuery.Sql

open Text

inductive Piece where
  | text (s : String)
  | bound (stem : String) (b : Bind)
  /-- The values of a membership, or of the lack of one, in their parentheses. -/
  | boundList (stem : String) (negated : Bool) (l : BindList)
  /-- The keys that lead into the JSON document of a column. -/
  | path (stem : String) (keys : List String)

/-- Where a condition stands. -/
inductive Place where
  /-- Outside any statement. -/
  | bare
  /-- The only condition of a statement. -/
  | sole
  /-- One of several conditions that all have to hold. -/
  | conjunct
  /-- One of several conditions of which any may hold. -/
  | disjunct
  deriving DecidableEq, Repr

/-- Lists of pieces with a text between neighbours. -/
def separated (sep : String) (parts : List (List Piece)) : List Piece :=
  List.intercalate [.text sep] parts

def wrapped (when : Bool) (ps : List Piece) : List Piece :=
  if when then .text "(" :: ps ++ [.text ")"] else ps

-- ---------------------------------------------------------------------------
-- Expressions
-- ---------------------------------------------------------------------------

/-- The access to the text at a path, by one key or by several. -/
def pathAccess (d : Dialect) (c : Column) (keys : List String) : List Piece :=
  let sign := if keys.length = 1 then " ->> " else " #>> "
  [.text (columnText d c ++ sign), .path (bindStem c.name) keys]

def extraction (d : Dialect) (c : Column) (keys : List String) : List Piece :=
  [.text ("JSON_EXTRACT(" ++ columnText d c ++ ", "), .path (bindStem c.name) keys, .text ")"]

def castAs (type : String) (ps : List Piece) : List Piece :=
  .text "CAST(" :: ps ++ [.text (" AS " ++ type ++ ")")]

/-- The stem of the names of values that an expression is compared with. -/
def Expr.bindStem : Expr → String
  | .column c => Sql.bindStem c.name
  | _         => plainBindStem

def Expr.pieces (d : Dialect) : Expr → List Piece
  | .column c          => [.text (columnText d c)]
  | .asText c          => castAs "VARCHAR" [.text (columnText d c)]
  | .pathText c keys   =>
    if c.type.isJsonb then wrapped true (pathAccess d c keys)
    else
      match d with
      | .sqlite     => castAs "VARCHAR" (extraction d c keys)
      | .postgresql => castAs "VARCHAR" (wrapped true (pathAccess d c keys))
  | .pathNumber c keys =>
    match d with
    | .sqlite     => castAs "FLOAT" (extraction d c keys)
    | .postgresql => castAs "FLOAT" (wrapped true (pathAccess d c keys))

/-- The expression in which a text is looked for. Among the members of a disjunction the access to a
path has one more pair of parentheses. -/
def Expr.soughtPieces (d : Dialect) (place : Place) : Expr → List Piece
  | .pathText c keys =>
    let inner := wrapped (place == .disjunct) (pathAccess d c keys)
    if c.type.isJsonb then wrapped true inner
    else
      match d with
      | .sqlite     => wrapped true (castAs "VARCHAR" (extraction d c keys))
      | .postgresql => wrapped true (castAs "VARCHAR" inner)
  | e => e.pieces d

-- ---------------------------------------------------------------------------
-- Conditions
-- ---------------------------------------------------------------------------

def lowered (ps : List Piece) : List Piece := .text "lower(" :: ps ++ [.text ")"]

def memberPieces (d : Dialect) (e : Expr) (negated : Bool) (l : BindList) : List Piece :=
  let word := if negated then " NOT IN " else " IN "
  wrapped negated (e.pieces d ++ [.text word, .boundList e.bindStem negated l])

def likePieces (d : Dialect) (e : List Piece) (caseless negated : Bool) (pattern : List Piece) :
    List Piece :=
  let word (s : String) : Piece := .text (if negated then " NOT " ++ s ++ " " else " " ++ s ++ " ")
  match caseless, d with
  | false, _           => e ++ word "LIKE" :: pattern
  | true,  .sqlite     => lowered e ++ word "LIKE" :: lowered pattern
  | true,  .postgresql => e ++ word "ILIKE" :: pattern

/-- The pattern of a text that is looked for, with anything allowed around it. -/
def affixPattern (d : Dialect) (stem : String) (kind : Affix) (s : String) : List Piece :=
  let value : List Piece := [.bound stem ⟨.text (escapePattern s), .string⟩]
  let sought := match d with
    | .sqlite     => lowered value
    | .postgresql => value
  let before := if kind = .atStart then [] else [Piece.text "'%' || "]
  let after := if kind = .atEnd then [] else [Piece.text " || '%'"]
  before ++ sought ++ after ++ [.text " ESCAPE '/'"]

def affixPieces (d : Dialect) (place : Place) (e : Expr) (kind : Affix) (s : String) : List Piece :=
  let subject := e.soughtPieces d place
  match d with
  | .sqlite     => lowered subject ++ .text " LIKE " :: affixPattern d e.bindStem kind s
  | .postgresql => subject ++ .text " ILIKE " :: affixPattern d e.bindStem kind s

def documentPieces (d : Dialect) (e : Expr) (test : DocumentTest) (v : Bind) : List Piece :=
  let operand := match test with
    | .contains | .containedBy => castAs "JSONB" [.bound plainBindStem v]
    | _                        => [.bound e.bindStem v]
  e.pieces d ++ .text (" " ++ test.sign ++ " ") :: operand

/-- The place of the members of a list of conditions. -/
def memberPlace (place inside : Place) (ps : List Predicate) : Place :=
  if 2 ≤ ps.length then inside else place

mutual

def Predicate.pieces (d : Dialect) (place : Place) : Predicate → List Piece
  | .constant b            => [.text (if b then "1 = 1" else "1 = 0")]
  | .compare e op v        =>
    e.pieces d ++ [.text (" " ++ op.sign ++ " "), .bound e.bindStem v]
  | .isTruth e negated b   =>
    e.pieces d ++ [.text ((if negated then " != " else " = ") ++ Bind.truthText d b)]
  | .isNull e negated      => e.pieces d ++ [.text (if negated then " IS NOT NULL" else " IS NULL")]
  | .between e negated low high =>
    e.pieces d ++ [.text (if negated then " NOT BETWEEN " else " BETWEEN "),
      .bound e.bindStem low, .text " AND ", .bound e.bindStem high]
  | .member e negated l    => memberPieces d e negated l
  | .like e caseless negated pattern =>
    likePieces d (e.pieces d) caseless negated [.bound e.bindStem pattern]
  | .affix e kind s        => wrapped (place != .bare) (affixPieces d place e kind s)
  | .fullText e v          =>
    match d with
    | .sqlite     => e.pieces d ++ [.text " MATCH ", .bound e.bindStem v]
    | .postgresql =>
      e.pieces d ++ [.text " @@ plainto_tsquery(", .bound e.bindStem v, .text ")"]
  | .document e test v     => wrapped (place == .disjunct) (documentPieces d e test v)
  | .likeDocument e v      =>
    e.pieces d ++ .text " LIKE '%' || " :: castAs "JSONB" [.bound plainBindStem v] ++
      [.text " || '%'"]
  | .all ps                =>
    separated " AND " (Predicate.listPieces d (memberPlace place .conjunct ps) ps)
  | .any ps                =>
    wrapped (place == .conjunct && decide (2 ≤ ps.length))
      (separated " OR " (Predicate.listPieces d (memberPlace place .disjunct ps) ps))

def Predicate.listPieces (d : Dialect) (place : Place) : List Predicate → List (List Piece)
  | []      => []
  | p :: ps => p.pieces d place :: Predicate.listPieces d place ps

end

-- ---------------------------------------------------------------------------
-- Statements
-- ---------------------------------------------------------------------------

def tableText (d : Dialect) (t : TableRef) : String :=
  match t.aliasName with
  | some a => identifier d t.name ++ " AS " ++ identifier d a
  | none   => identifier d t.name

def joinText (d : Dialect) (j : Join) : String :=
  (if j.outer then " LEFT OUTER JOIN " else " JOIN ") ++ tableText d j.table ++ " ON " ++
    columnText d j.left ++ " = " ++ columnText d j.right

/-- The projected columns. A column that was projected under its own name before gets a label with a
number. -/
def outputTexts (d : Dialect) : List Output → Labels → List String
  | [],      _  => []
  | o :: os, ls =>
    match o.label with
    | some l => (columnText d o.column ++ " AS " ++ identifier d l) :: outputTexts d os ls
    | none   =>
      if ls.columns.contains o.column then
        let (label, ls) := ls.next d o.column.name
        (columnText d o.column ++ " AS " ++ identifier d label) :: outputTexts d os ls
      else columnText d o.column :: outputTexts d os { ls with columns := o.column :: ls.columns }

/-- Whether a column without a name is projected under its own name twice. -/
def hasNamelessRepetition (os : List Output) : Bool :=
  let plain := (os.filter (·.label.isNone)).map (·.column)
  plain.any fun c => c.name == "" && decide (2 ≤ plain.count c)

def projectionText (d : Dialect) : Projection → String
  | .count      => "count(*) AS count_1 "
  | .columns os => if os.isEmpty then "" else commaSeparated (outputTexts d os {}) ++ " "

def orderText (d : Dialect) (k : OrderKey) : String :=
  columnText d k.column ++ " " ++ k.direction.keyword ++ if k.nullsLast then " NULLS LAST" else ""

def wherePieces (d : Dialect) (ps : List Predicate) : List Piece :=
  if ps.isEmpty then []
  else .text " \nWHERE " ::
    separated " AND " (Predicate.listPieces d (memberPlace .sole .conjunct ps) ps)

def orderPieces (d : Dialect) (ks : List OrderKey) : List Piece :=
  if ks.isEmpty then [] else [.text (" ORDER BY " ++ commaSeparated (ks.map (orderText d)))]

def countBind (n : Int) : Piece := .bound plainBindStem ⟨.int n, .integer⟩

def cutPieces (d : Dialect) (limit offset : Option Int) : List Piece :=
  match limit with
  | none   => []
  | some n =>
    match d with
    | .sqlite     => [.text "\n LIMIT ", countBind n, .text " OFFSET ", countBind (offset.getD 0)]
    | .postgresql =>
      .text " \n LIMIT " :: countBind n ::
        match offset with
        | some k => [.text " OFFSET ", countBind k]
        | none   => []

def Statement.pieces (d : Dialect) (s : Statement) : List Piece :=
  .text ("SELECT " ++ projectionText d s.projection ++ "\nFROM " ++ tableText d s.table ++
      String.join (s.joins.map (joinText d))) ::
    wherePieces d s.conditions ++ orderPieces d s.order ++ cutPieces d s.limit s.offset

-- ---------------------------------------------------------------------------
-- From pieces to text
-- ---------------------------------------------------------------------------

/-- A statement, or a part of one, with placeholders and the values for them in their order. -/
structure Written where
  text   : String
  values : List Value := []

namespace Written

/-- Parts one after the other. -/
def concat (parts : List Written) : Written :=
  ⟨String.join (parts.map (·.text)), parts.flatMap (·.values)⟩

end Written

/-- Texts between parentheses, separated by commas. -/
def parenthesized (parts : List String) : String := "(" ++ commaSeparated parts ++ ")"

namespace BindList

/-- The rows of values in the text, each in its own parentheses. -/
def writeRows (d : Dialect) (l : BindList) : Except Failure Written := do
  let rows ← l.rows
  let word := match d with
    | .sqlite     => "VALUES "
    | .postgresql => ""
  let texts := rows.map fun row =>
    parenthesized (row.map fun v => Bind.placeholder d ⟨v, l.type⟩)
  .ok ⟨"(" ++ word ++ commaSeparated texts ++ ")", rows.flatten⟩

/-- No values at all, which nothing is a member of. -/
def emptyText (d : Dialect) (negated : Bool) : String :=
  match d, negated with
  | .sqlite,     _     => "(SELECT 1 FROM (SELECT 1) WHERE 1!=1)"
  | .postgresql, false => "(NULL) AND (1 != 1)"
  | .postgresql, true  => "(NULL) OR (1 = 1)"

/-- One placeholder for a list that is not spread out. -/
def placeholder (name : String) : String := "(__[POSTCOMPILE_" ++ name ++ "])"

/-- The list in the text. With blank space in the name of its placeholder it is not spread out, and
has no values. -/
def write (d : Dialect) (name : String) (negated : Bool) (l : BindList) : Except Failure Written :=
  if name.toList.any isBlank then .ok ⟨placeholder name, []⟩
  else if l.values.isEmpty then .ok ⟨emptyText d negated, []⟩
  else if l.areRows then l.writeRows d
  else .ok ⟨parenthesized (l.binds.map (Bind.placeholder d)), l.values⟩

/-- The list with its values written out. Rows of values have no such form. -/
def literal (d : Dialect) (negated : Bool) (l : BindList) : Except Failure String :=
  if l.values.isEmpty then .ok (emptyText d negated)
  else if l.areRows then .error .noOperation
  else (l.binds.mapM (Bind.literal d)).map parenthesized

end BindList

namespace Piece

/-- The stem of the placeholder's name, if there is a placeholder. -/
def stem? : Piece → Option String
  | text _             => none
  | bound stem _       => some stem
  | boundList stem _ _ => some stem
  | path stem _        => some stem

/-- The piece with placeholders, where `name` is the one of its own. -/
def write (d : Dialect) (name : String) : Piece → Except Failure Written
  | text s                => .ok ⟨s, []⟩
  | bound _ b             => .ok ⟨b.placeholder d, [b.value]⟩
  | boundList _ negated l => l.write d name negated
  | path _ [k]            => .ok ⟨"?", [.text k]⟩
  | path _ ks             => .ok ⟨"?", [.list (ks.map .text)]⟩

/-- The piece with one placeholder even for a list of values. -/
def outline (d : Dialect) (name : String) : Piece → String
  | text s          => s
  | bound _ b       => b.placeholder d
  | boundList _ _ _ => BindList.placeholder name
  | path _ _        => "?"

/-- The keys of a path as the dialect writes it. -/
def pathLiteral (d : Dialect) (keys : List String) : String :=
  match d, keys with
  | .sqlite,     ks  =>
    Bind.quote ("$" ++ String.join (ks.map fun k => ".\"" ++ k ++ "\""))
  | .postgresql, [k] => Bind.quote k
  | .postgresql, ks  => Bind.quote ("\x7b" ++ commaSeparated ks ++ "\x7d")

def literal (d : Dialect) : Piece → Except Failure String
  | text s                => .ok s
  | bound _ b             => b.literal d
  | boundList _ negated l => l.literal d negated
  | path _ ks             => .ok (pathLiteral d ks)

end Piece

/-- The pieces with the names of their placeholders; `used` holds the names that were given
before. -/
def named (d : Dialect) (used : DerivedNames) : List Piece → List (String × Piece)
  | []      => []
  | p :: ps =>
    match p.stem? with
    | none      => ("", p) :: named d used ps
    | some stem =>
      let (name, used) := used.next d stem
      (placeholderName name, p) :: named d used ps

/-- The pieces as one text with placeholders. -/
def writePieces (d : Dialect) (ps : List Piece) : Except Failure Written :=
  ((named d {} ps).mapM fun (name, p) => Piece.write d name p).map Written.concat

/-- The pieces as one text with one placeholder for each list of values. -/
def outlinePieces (d : Dialect) (ps : List Piece) : String :=
  String.join ((named d {} ps).map fun (name, p) => p.outline d name)

/-- The pieces as one text with the values written out. -/
def literalText (d : Dialect) (ps : List Piece) : Except Failure String :=
  (ps.mapM (Piece.literal d)).map String.join

namespace Statement

variable (d : Dialect) (s : Statement)

/-- A column without a name cannot be projected twice. -/
def checkNames : Except Failure Unit :=
  match s.projection with
  | .columns os => if hasNamelessRepetition os then .error .namelessColumn else .ok ()
  | .count      => .ok ()

/-- The statement with placeholders. -/
def write : Except Failure Written := do
  s.checkNames
  writePieces d (s.pieces d)

/-- The statement with one placeholder for each list of values, whatever is in the list. -/
def outline : Except Failure String := do
  s.checkNames
  .ok (outlinePieces d (s.pieces d))

/-- The statement with the values written out. -/
def literal : Except Failure String := do
  s.checkNames
  literalText d (s.pieces d)

/-- Whether the statement can be written, which is the same in both dialects. -/
def check : Except Failure Unit := (s.write .sqlite).map fun _ => ()

end Statement

end ListQuery.Sql
