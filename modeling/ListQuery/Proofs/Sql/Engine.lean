import ListQuery.Execution.Database

/-!
# Evaluating statements

A database whose tables are lists of rows, and which evaluates a statement step by step: the rows of
the joined tables, those that meet the conditions, in the order of the keys with rows that agree by
all of them left as they stood, and cut. What the program does not decide is left open: when a test
is true of a value, when two values join, and how the values of a column are ordered.

No condition of the program has a negation above a test, so it is enough to know whether a test is
true; a test that is unknown is one that is not.

* `Engine.rows`, `Engine.database` — evaluation, and the engine as a database;
* `acceptsAll_conjuncts`, `accepts_conj`, `accepts_disj` — conditions built from conditions;
* `found_single`, `scenes_eq_flatMap` — statements on one table and on joined tables.
-/

namespace ListQuery.Sql

/-- A row of a table: what it has in each column. -/
abbrev Record := String → Value

/-- The rows of each table, in the order in which the engine comes by them. -/
abbrev Tables := String → List Record

/-- A row of joined tables: the row of each, by the name that the table has in the statement. -/
abbrev Scene := String → Record

namespace Scene

/-- The row with the row of one more table. -/
def put (label : String) (r : Record) (s : Scene) : Scene :=
  fun other => if other = label then r else s other

/-- A row of one table. -/
def single (label : String) (r : Record) : Scene := put label r fun _ _ => .null

theorem put_self (label : String) (r : Record) (s : Scene) : put label r s label = r := if_pos rfl

theorem put_of_ne {label other : String} (r : Record) (s : Scene) (h : other ≠ label) :
    put label r s other = s other := if_neg h

end Scene

/-- What the row has in a column. -/
def Scene.at (s : Scene) (c : Column) : Value := s c.table c.name

def TableRef.label (t : TableRef) : String := t.aliasName.getD t.name

/-- The names that the tables of a statement have in it. -/
def Statement.labels (s : Statement) : List String := s.table.label :: s.joins.map (·.table.label)

/-- The column that an expression is about. -/
def Expr.subject : Expr → Column
  | .column c | .asText c | .pathText c _ | .pathNumber c _ => c

/-- The column that a test is about. -/
def Predicate.subject? : Predicate → Option Column
  | .constant _ | .all _ | .any _ => none
  | .compare e _ _ | .isTruth e _ _ | .isNull e _ | .between e _ _ _ | .member e _ _
  | .like e _ _ _ | .affix e _ _ | .fullText e _ | .document e _ _ | .likeDocument e _ =>
    some e.subject

/-- What an engine knows of values. -/
structure Engine where
  /-- Whether a test is true of a value of its column. -/
  meets      : Predicate → Value → Bool
  /-- Whether the values of two columns are joined. -/
  joins      : Column → Column → Value → Value → Bool
  /-- Whether a value of a column may come before another one; neither is nothing. -/
  le         : Column → Value → Value → Bool
  /-- Whether rows without a value come first where a statement does not say. -/
  nullsFirst : Direction → Bool

namespace Engine

variable (g : Engine)

-- ---------------------------------------------------------------------------
-- Conditions
-- ---------------------------------------------------------------------------

mutual

/-- Whether a condition is true of a row. -/
def accepts (s : Scene) : Predicate → Bool
  | .constant b                 => b
  | .isNull (.column c) negated => (s.at c).isNull != negated
  | .all ps                     => acceptsAll s ps
  | .any ps                     => acceptsAny s ps
  | p                           => p.subject?.any fun c => g.meets p (s.at c)

def acceptsAll (s : Scene) : List Predicate → Bool
  | []      => true
  | p :: ps => accepts s p && acceptsAll s ps

def acceptsAny (s : Scene) : List Predicate → Bool
  | []      => false
  | p :: ps => accepts s p || acceptsAny s ps

end

-- ---------------------------------------------------------------------------
-- Joined tables
-- ---------------------------------------------------------------------------

variable (tables : Tables)

/-- The rows of a table that are joined to a row. -/
def partners (s : Scene) (j : Join) : List Scene :=
  ((tables j.table.name).map fun r => s.put j.table.label r).filter fun s =>
    g.joins j.left j.right (s.at j.left) (s.at j.right)

/-- The row with each of its partners; without any it may stay with nothing in their place. -/
def extend (j : Join) (s : Scene) : List Scene :=
  let found := g.partners tables s j
  if j.outer && found.isEmpty then [s.put j.table.label fun _ => .null] else found

/-- The rows of the joined tables. -/
def scenes (st : Statement) : List Scene :=
  st.joins.foldl (fun ss j => ss.flatMap (g.extend tables j))
    ((tables st.table.name).map (Scene.single st.table.label))

/-- The rows that meet the conditions. -/
def found (st : Statement) : List Scene :=
  (g.scenes tables st).filter fun s => g.acceptsAll s st.conditions

-- ---------------------------------------------------------------------------
-- Order and cut
-- ---------------------------------------------------------------------------

/-- Whether a value may come before another one by a key. -/
def keyLe (k : OrderKey) (v w : Value) : Bool :=
  let nullsFirst := !k.nullsLast && g.nullsFirst k.direction
  match v.isNull, w.isNull, k.direction with
  | true,  true,  _           => true
  | true,  false, _           => nullsFirst
  | false, true,  _           => !nullsFirst
  | false, false, .ascending  => g.le k.column v w
  | false, false, .descending => g.le k.column w v

/-- Whether a row may come before another one: by the first key, or if they agree by it by the
others. -/
def sceneLe : List OrderKey → Scene → Scene → Bool
  | [],      _, _ => true
  | k :: ks, a, b =>
    g.keyLe k (a.at k.column) (b.at k.column) &&
      (!g.keyLe k (b.at k.column) (a.at k.column) || sceneLe ks a b)

/-- The part of a list that a limit and an offset leave. -/
def cut {α : Type} (limit offset : Option Int) (xs : List α) : List α :=
  match limit with
  | none   => xs
  | some n => (xs.drop (offset.getD 0).toNat).take n.toNat

/-- The projected columns of a row, each under its label or its own name. -/
def project (os : List Output) (s : Scene) : Row :=
  Entries.ofList (os.map fun o => (o.label.getD o.column.name, s.at o.column))

/-- The rows that a statement reads. -/
def rows (st : Statement) : List Row :=
  match st.projection with
  | .count      => []
  | .columns os =>
    (cut st.limit st.offset ((g.found tables st).mergeSort (g.sceneLe st.order))).map (project os)

/-- A table that is joined twice under one name. -/
def ambiguous : Failure := .database "ambiguous table name"

/-- The engine as a database whose tables stay as they are. Two tables of a statement cannot have
the same name in it. -/
def database : Database Tables where
  connect := id
  close   := id
  rows st tables :=
    (if st.labels.Nodup then .ok (g.rows tables st) else .error ambiguous, tables)
  number st tables :=
    (if st.labels.Nodup then .ok (g.found tables st).length else .error ambiguous, tables)

-- ---------------------------------------------------------------------------
-- Conditions built from conditions
-- ---------------------------------------------------------------------------

section
variable {g tables}
variable {s : Scene}

theorem acceptsAll_append (ps qs : List Predicate) :
    g.acceptsAll s (ps ++ qs) = (g.acceptsAll s ps && g.acceptsAll s qs) := by
  induction ps with
  | nil => rfl
  | cons p ps ih =>
    show (g.accepts s p && g.acceptsAll s (ps ++ qs)) = _
    rw [ih, ← Bool.and_assoc]
    rfl

theorem acceptsAny_append (ps qs : List Predicate) :
    g.acceptsAny s (ps ++ qs) = (g.acceptsAny s ps || g.acceptsAny s qs) := by
  induction ps with
  | nil => rfl
  | cons p ps ih =>
    show (g.accepts s p || g.acceptsAny s (ps ++ qs)) = _
    rw [ih, ← Bool.or_assoc]
    rfl

theorem acceptsAll_singleton (p : Predicate) : g.acceptsAll s [p] = g.accepts s p :=
  Bool.and_true _

theorem acceptsAny_singleton (p : Predicate) : g.acceptsAny s [p] = g.accepts s p :=
  Bool.or_false _

/-- A condition is true of a row if all are of which it is the conjunction. -/
theorem acceptsAll_conjuncts (p : Predicate) : g.acceptsAll s p.conjuncts = g.accepts s p := by
  cases p with
  | all ps =>
    rw [accepts]
    rfl
  | _ => exact acceptsAll_singleton _

theorem acceptsAny_disjuncts (p : Predicate) : g.acceptsAny s p.disjuncts = g.accepts s p := by
  cases p with
  | any ps =>
    rw [accepts]
    rfl
  | _ => exact acceptsAny_singleton _

theorem acceptsAll_flatMap_conjuncts (ps : List Predicate) :
    g.acceptsAll s (ps.flatMap Predicate.conjuncts) = g.acceptsAll s ps := by
  induction ps with
  | nil => rfl
  | cons p ps ih =>
    rw [List.flatMap_cons, acceptsAll_append, acceptsAll_conjuncts, ih]
    rfl

theorem acceptsAny_flatMap_disjuncts (ps : List Predicate) :
    g.acceptsAny s (ps.flatMap Predicate.disjuncts) = g.acceptsAny s ps := by
  induction ps with
  | nil => rfl
  | cons p ps ih =>
    rw [List.flatMap_cons, acceptsAny_append, acceptsAny_disjuncts, ih]
    rfl

theorem accepts_conj (ps : List Predicate) : g.accepts s (.conj ps) = g.acceptsAll s ps := by
  rw [← acceptsAll_flatMap_conjuncts, Predicate.conj]
  split
  case h_1 p heq => rw [heq, acceptsAll_singleton]
  case h_2 => rw [accepts]

theorem accepts_disj (ps : List Predicate) : g.accepts s (.disj ps) = g.acceptsAny s ps := by
  rw [← acceptsAny_flatMap_disjuncts, Predicate.disj]
  split
  case h_1 p heq => rw [heq, acceptsAny_singleton]
  case h_2 => rw [accepts]

-- ---------------------------------------------------------------------------
-- Parts of lists
-- ---------------------------------------------------------------------------

theorem cut_map {α β : Type} (f : α → β) (limit offset : Option Int) (xs : List α) :
    cut limit offset (xs.map f) = (cut limit offset xs).map f := by
  cases limit with
  | none => rfl
  | some n => rw [cut, cut, ← List.map_drop, ← List.map_take]

theorem mem_of_mem_cut {α : Type} {limit offset : Option Int} {xs : List α} {x : α}
    (h : x ∈ cut limit offset xs) : x ∈ xs := by
  cases limit with
  | none => exact h
  | some n => exact List.mem_of_mem_drop (List.mem_of_mem_take h)

-- ---------------------------------------------------------------------------
-- Statements on one table
-- ---------------------------------------------------------------------------

theorem found_single {st : Statement} (h : st.joins = []) :
    g.found tables st =
      ((tables st.table.name).map (Scene.single st.table.label)).filter fun s =>
        g.acceptsAll s st.conditions := by
  rw [found, scenes, h]
  rfl

theorem labels_single {st : Statement} (h : st.joins = []) : st.labels.Nodup := by
  rw [Statement.labels, h]
  exact List.pairwise_singleton _ _

-- ---------------------------------------------------------------------------
-- Statements on joined tables
-- ---------------------------------------------------------------------------

/-- The rows to which a row leads by some joins, one after the other. -/
def follow (g : Engine) (tables : Tables) : List Join → Scene → List Scene
  | [],      s => [s]
  | j :: js, s => (g.extend tables j s).flatMap (follow g tables js)

/-- A row and those that it is joined to have the same in every other table. -/
theorem at_of_mem_extend {j : Join} {s' : Scene} {label : String} (hlabel : j.table.label ≠ label)
    (h : s' ∈ g.extend tables j s) : s' label = s label := by
  have hput : ∀ r, s.put j.table.label r label = s label := fun r =>
    Scene.put_of_ne r s (Ne.symm hlabel)
  rw [extend] at h
  split at h
  · rw [List.mem_singleton.mp h, hput]
  · obtain ⟨r, -, rfl⟩ := List.mem_map.mp (List.mem_filter.mp h).1
    exact hput r

/-- Joins leave the columns of the tables that are not joined. -/
theorem at_of_mem_follow {js : List Join} {label : String}
    (hlabel : ∀ j ∈ js, j.table.label ≠ label) {s s' : Scene} (h : s' ∈ g.follow tables js s) :
    s' label = s label := by
  induction js generalizing s with
  | nil => rw [List.mem_singleton.mp h]
  | cons j js ih =>
    obtain ⟨s₁, hs₁, h⟩ := List.mem_flatMap.mp h
    rw [ih (fun j hj => hlabel j (List.mem_cons_of_mem _ hj)) h,
      at_of_mem_extend (hlabel j List.mem_cons_self) hs₁]

theorem foldl_extend (joins : List Join) (ss : List Scene) :
    joins.foldl (fun ss j => ss.flatMap (g.extend tables j)) ss =
      ss.flatMap (g.follow tables joins) := by
  induction joins generalizing ss with
  | nil => exact (List.flatMap_singleton' ss).symm
  | cons j joins ih =>
    rw [List.foldl_cons, ih, List.flatMap_assoc]
    rfl

/-- The rows of the joined tables are those to which the rows of the first one lead. -/
theorem scenes_eq_flatMap (st : Statement) :
    g.scenes tables st =
      (tables st.table.name).flatMap fun r =>
        g.follow tables st.joins (Scene.single st.table.label r) := by
  rw [scenes, foldl_extend, List.flatMap_map]

/-- Without an order and a cut all rows are read as they are found. -/
theorem rows_of_unordered {st : Statement} {os : List Output} (hos : st.projection = .columns os)
    (horder : st.order = []) (hlimit : st.limit = none) :
    g.rows tables st = (g.found tables st).map (project os) := by
  have hsorted : (g.found tables st).mergeSort (g.sceneLe st.order) = g.found tables st := by
    rw [horder]
    exact List.mergeSort_of_pairwise (List.pairwise_of_forall fun _ _ => rfl)
  rw [rows, hos]
  dsimp only
  rw [hsorted, hlimit]
  rfl

end

end Engine

end ListQuery.Sql
