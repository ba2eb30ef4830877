import ListQuery.Proofs.Compiled
import ListQuery.Proofs.EagerJoin
import ListQuery.Proofs.Query.Meaning
import ListQuery.Proofs.Sql.OuterJoin

/-!
# Queries with one include more

A further include changes a query in its includes only, and its statements in at most one join: the
conditions, the order and the cut stay, and so do the columns that were read.

* `newJoin?` — the join of a further include, if it has one;
* `joinsMore_compile` — the compiled query;
* `isPlain_compile` — conditions and order are on the entity's own table.
-/

namespace ListQuery

open Sql

/-- The rows without a partner stay when a relation is joined. -/
theorem EagerJoin.outer_of_join {e : Entity} {j : EagerJoin} {t : Join} (h : j.join e = .ok t) :
    t.outer = true := by
  obtain ⟨-, rfl⟩ := join_eq_ok.mp h
  rfl

/-- The statement with one more join, if there is one. -/
def Sql.Statement.Joined (e : Entity) : Option EagerJoin → Statement → Statement → Prop
  | none,   s, s' => s' = s
  | some j, s, s' => ∃ t, j.join e = .ok t ∧ s' = s.joining t j.outputs

/-- The compiled query with the join of one more relation, if it has one. -/
structure Compiled.JoinsMore (e : Entity) (p : String) (j? : Option EagerJoin) (c c' : Compiled) :
    Prop where
  page   : c'.page = c.page
  hidden : c'.hidden = c.hidden
  joins  : c'.joins = c.joins ++ j?.toList.map (p, ·)
  select : c.select.Joined e j? c'.select

namespace Query

variable {q : Query} {schema : Schema} {p : String} {c c' : Compiled} {paginate : Bool}

-- ---------------------------------------------------------------------------
-- One include more
-- ---------------------------------------------------------------------------

/-- The join of a further include: it is allowed, it is new, and its relation is joined. -/
def newJoin? (q : Query) (schema : Schema) (p : String) : Option EagerJoin :=
  if q.entity.allowsInclude p ∧ p ∉ q.includes ∧ q.entity.joinsEagerly p then
    EagerJoin.ofRelation? schema q.entity p q.entity.table
  else none

theorem includePath_eq (q : Query) (p : String) :
    q.includePath p = { q with includes := (q.includePath p).includes } := by
  unfold includePath
  split <;> rfl

theorem includes_includePath (q : Query) (p : String) :
    (q.includePath p).includes =
      if q.entity.allowsInclude p ∧ p ∉ q.includes then q.includes ++ [p] else q.includes := by
  rw [includePath]
  by_cases hnew : q.entity.allowsInclude p ∧ p ∉ q.includes
  · rw [if_pos hnew, if_pos (by simpa using hnew)]
  · rw [if_neg hnew, if_neg (by simpa using hnew)]

theorem includes_subset (q : Query) (p : String) : q.includes ⊆ (q.includePath p).includes := by
  rw [includes_includePath]
  split
  · exact List.subset_append_left _ _
  · exact List.Subset.refl _

theorem eagerJoins_includePath :
    (q.includePath p).eagerJoins schema =
      q.eagerJoins schema ++ (q.newJoin? schema p).toList.map (p, ·) := by
  have hjoins : ∀ paths, { q with includes := paths }.eagerJoins schema = paths.filterMap fun path =>
      if q.entity.joinsEagerly path then
        (EagerJoin.ofRelation? schema q.entity path q.entity.table).map (path, ·)
      else none := fun _ => rfl
  rw [includePath_eq, hjoins, includes_includePath, newJoin?]
  by_cases hnew : q.entity.allowsInclude p ∧ p ∉ q.includes
  · rw [if_pos hnew, List.filterMap_append]
    refine congrArg (q.eagerJoins schema ++ ·) ?_
    show ([p].filterMap fun path => if q.entity.joinsEagerly path then _ else none) = _
    rw [List.filterMap_cons]
    by_cases heager : q.entity.joinsEagerly p
    · rw [if_pos heager, if_pos ⟨hnew.1, hnew.2, heager⟩]
      cases EagerJoin.ofRelation? schema q.entity p q.entity.table <;> rfl
    · rw [if_neg heager, if_neg fun h => heager h.2.2]
      rfl
  · rw [if_neg hnew, if_neg fun h => hnew ⟨h.1, h.2.1⟩]
    exact (List.append_nil _).symm

-- ---------------------------------------------------------------------------
-- The statements
-- ---------------------------------------------------------------------------

theorem joinedTables_eq_ok {tables tables' : List Join} (h : q.joinedTables schema = .ok tables)
    (h' : (q.includePath p).joinedTables schema = .ok tables') :
    match q.newJoin? schema p with
    | none   => tables' = tables
    | some j => ∃ t, j.join q.entity = .ok t ∧ tables' = tables ++ [t] := by
  rw [joinedTables, eagerJoins_includePath, entity_includePath, List.mapM_append, bind_eq_ok] at h'
  obtain ⟨old, hold, h'⟩ := h'
  obtain rfl := Except.ok.inj (hold.symm.trans h)
  obtain ⟨more, hmore, h'⟩ := bind_eq_ok.mp h'
  obtain rfl := Except.ok.inj h'
  generalize q.newJoin? schema p = j? at hmore
  cases j? with
  | none =>
    obtain rfl := Except.ok.inj hmore
    exact List.append_nil _
  | some j =>
    obtain ⟨t, ht, hmore⟩ := bind_eq_ok.mp hmore
    obtain rfl := Except.ok.inj hmore
    exact ⟨t, ht, rfl⟩

theorem projectedFields_includePath : (q.includePath p).projectedFields = q.projectedFields := by
  rw [includePath_eq]
  rfl

theorem hiddenFor_includePath (hincludes : q.includes ≠ []) (keys : List SortKey) :
    (q.includePath p).hiddenFor keys = q.hiddenFor keys := by
  have hmore : (q.includePath p).includes ≠ [] := fun hnil =>
    hincludes (List.subset_nil.mp (hnil ▸ q.includes_subset p))
  rw [hiddenFor, hiddenFor, projectedFields_includePath, entity_includePath,
    List.isEmpty_eq_false_iff.mpr hincludes, List.isEmpty_eq_false_iff.mpr hmore]

theorem outputs_includePath (hincludes : q.includes ≠ []) (keys : List SortKey) :
    (q.includePath p).outputs schema keys =
      q.outputs schema keys ++ (q.newJoin? schema p).toList.flatMap (·.outputs) := by
  rw [outputs, outputs, hiddenFor_includePath hincludes, projectedFields_includePath,
    entity_includePath, eagerJoins_includePath, List.flatMap_append, List.flatMap_map,
    List.append_assoc]

/-- The query that is compiled without a cut. -/
theorem joinsMore_compiledWith (hincludes : q.includes ≠ []) {tables tables' : List Join}
    (h : q.joinedTables schema = .ok tables)
    (h' : (q.includePath p).joinedTables schema = .ok tables')
    (keys : List SortKey) (conditions : List Predicate) :
    Compiled.JoinsMore q.entity p (q.newJoin? schema p)
      (q.compiledWith schema keys tables conditions)
      ((q.includePath p).compiledWith schema keys tables' conditions) where
  page := by
    show (q.includePath p).effectivePage = q.effectivePage
    rw [includePath_eq]
    rfl
  hidden := hiddenFor_includePath hincludes keys
  joins := eagerJoins_includePath
  select := by
    have hjoined := joinedTables_eq_ok h h'
    have horder : (q.includePath p).orderBy keys = q.orderBy keys := by
      rw [includePath_eq]
      rfl
    have hrows : (q.includePath p).rowsStatement schema keys tables' conditions =
        { q.rowsStatement schema keys tables' conditions with
          projection := .columns (q.outputs schema keys ++
            (q.newJoin? schema p).toList.flatMap (·.outputs)) } := by
      rw [rowsStatement, outputs_includePath hincludes, horder, entity_includePath]
      rfl
    show (q.rowsStatement schema keys tables conditions).Joined q.entity (q.newJoin? schema p)
      ((q.includePath p).rowsStatement schema keys tables' conditions)
    rw [hrows]
    generalize q.newJoin? schema p = j? at hjoined
    cases j? with
    | none =>
      obtain rfl : tables' = tables := hjoined
      show { q.rowsStatement schema keys tables' conditions with
        projection := .columns (q.outputs schema keys ++ []) } = _
      rw [List.append_nil]
      rfl
    | some j =>
      obtain ⟨t, ht, rfl⟩ := hjoined
      have hmore : [j].flatMap EagerJoin.outputs = j.outputs := List.append_nil _
      refine ⟨t, ht, ?_⟩
      show { q.rowsStatement schema keys (tables ++ [t]) conditions with
        projection := .columns (q.outputs schema keys ++ [j].flatMap EagerJoin.outputs) } = _
      rw [hmore]
      rfl

end Query

/-- Joining and cutting can be exchanged. -/
theorem Compiled.JoinsMore.cut {e : Entity} {p : String} {j? : Option EagerJoin} {c c' : Compiled}
    (h : JoinsMore e p j? c c') (cut : Statement → Statement)
    (hcut : ∀ s t os, cut (s.joining t os) = (cut s).joining t os) (warnings : List String) :
    JoinsMore e p j? { c with select := cut c.select, warnings }
      { c' with select := cut c'.select, warnings } where
  page := h.page
  hidden := h.hidden
  joins := h.joins
  select := by
    have hselect := h.select
    cases j? with
    | none => exact congrArg cut hselect
    | some j =>
      obtain ⟨t, ht, hselect⟩ := hselect
      exact ⟨t, ht, (congrArg cut hselect).trans (hcut _ _ _)⟩

namespace Query

variable {q : Query} {schema : Schema} {p : String} {c c' : Compiled} {paginate : Bool}

/-- A further include changes the compiled query in at most one join. -/
theorem joinsMore_compile (hincludes : q.includes ≠ [])
    (h : q.compile schema paginate = .ok c)
    (h' : (q.includePath p).compile schema paginate = .ok c') :
    Compiled.JoinsMore q.entity p (q.newJoin? schema p) c c' := by
  have hconditions' : (q.includePath p).conditions = q.conditions := by
    rw [includePath_eq]
    rfl
  have hpage : (q.includePath p).effectivePage = q.effectivePage := by
    rw [includePath_eq]
    rfl
  cases paginate with
  | false =>
    obtain ⟨tables, conditions, htables, hconditions, rfl⟩ := compile_all_eq_ok.mp h
    obtain ⟨tables', conditions', htables', hsame, rfl⟩ := compile_all_eq_ok.mp h'
    obtain rfl := Except.ok.inj ((hconditions'.symm.trans hsame).symm.trans hconditions)
    exact joinsMore_compiledWith hincludes htables htables' [] _
  | true =>
    cases hp : q.effectivePage with
    | offset number n =>
      obtain ⟨tables, conditions, htables, hconditions, rfl⟩ := compile_numbered_eq_ok hp |>.mp h
      obtain ⟨tables', conditions', htables', hsame, rfl⟩ :=
        compile_numbered_eq_ok (hpage.trans hp) |>.mp h'
      obtain rfl := Except.ok.inj ((hconditions'.symm.trans hsame).symm.trans hconditions)
      exact (joinsMore_compiledWith hincludes htables htables' [] _).cut
        (fun s => numberedCut s number n) (fun _ _ _ => rfl) []
    | cursor token n =>
      obtain ⟨tables, conditions, after, warnings, htables, hconditions, hafter, rfl⟩ :=
        compile_cursor_eq_ok hp |>.mp h
      obtain ⟨tables', conditions', after', warnings', htables', hsame, hafter', rfl⟩ :=
        compile_cursor_eq_ok (hpage.trans hp) |>.mp h'
      have hkeys : (q.includePath p).keys = q.keys := by
        rw [includePath_eq]
        rfl
      have hcursor : (q.includePath p).cursorConditions q.keys token =
          q.cursorConditions q.keys token := by
        rw [includePath_eq]
        rfl
      obtain rfl := Except.ok.inj ((hconditions'.symm.trans hsame).symm.trans hconditions)
      rw [hkeys, hcursor] at hafter'
      obtain ⟨rfl, rfl⟩ := Prod.mk.inj (Except.ok.inj (hafter'.symm.trans hafter))
      have hjoining : ∀ s t os, cursorCut (s.joining t os) after' n =
          (cursorCut s after' n).joining t os := by
        intro s t os
        rw [cursorCut, cursorCut, foldl_restrict, foldl_restrict]
        rfl
      have hmore := (joinsMore_compiledWith hincludes htables htables' q.keys conditions').cut
        (fun s => cursorCut s after' n) hjoining warnings'
      rw [compiledCursor, compiledCursor, hkeys]
      exact hmore

theorem joins_compile (h : q.compile schema paginate = .ok c) : c.joins = q.eagerJoins schema := by
  obtain ⟨keys, tables, conditions, after, hc⟩ := exists_compiles h
  exact hc.joins

/-- Every include that is joined has a join. -/
theorem mem_map_eagerJoins {path : String} :
    path ∈ (q.eagerJoins schema).map (·.1) ↔
      path ∈ q.includes ∧ q.entity.joinsEagerly path = true := by
  rw [List.mem_map]
  constructor
  · rintro ⟨join, hjoin, rfl⟩
    obtain ⟨path, hpath, hjoin⟩ := List.mem_filterMap.mp hjoin
    split at hjoin
    case isTrue heager =>
      obtain ⟨j, -, rfl⟩ := Option.map_eq_some_iff.mp hjoin
      exact ⟨hpath, heager⟩
    case isFalse => cases hjoin
  · rintro ⟨hpath, heager⟩
    obtain ⟨j, hj⟩ := EagerJoin.exists_ofRelation? schema q.entity.table heager
    refine ⟨(path, j), List.mem_filterMap.mpr ⟨path, hpath, ?_⟩, rfl⟩
    rw [if_pos heager, hj]
    rfl

-- ---------------------------------------------------------------------------
-- The entity's own table
-- ---------------------------------------------------------------------------

theorem isPlain_rowsStatement (hcolumns : q.HasColumns) {tables : List Join}
    {conditions : List Predicate} (htables : q.joinedTables schema = .ok tables)
    (hconditions : q.conditions = .ok conditions) (keys : List SortKey) :
    (q.rowsStatement schema keys tables conditions).IsPlain (q.outputs schema keys) where
  projection := rfl
  conditions := isOn_conditions hcolumns hconditions
  order := by
    intro k hk
    obtain ⟨key, -, rfl⟩ := List.mem_map.mp hk
    rfl
  outputs := by
    intro o ho
    rcases List.mem_append.mp ho with ho | ho
    · obtain ⟨name, -, rfl⟩ := List.mem_map.mp ho
      exact List.mem_cons_self
    · obtain ⟨join, hjoin, ho⟩ := List.mem_flatMap.mp ho
      obtain ⟨name, -, rfl⟩ := List.mem_map.mp ho
      obtain ⟨t, ht, hmade⟩ := exists_of_mem_forall₂ (mapM_eq_ok.mp htables).flip hjoin
      obtain ⟨-, rfl⟩ := EagerJoin.join_eq_ok.mp hmade
      exact List.mem_cons_of_mem _ (List.mem_map.mpr ⟨_, ht, rfl⟩)

/-- Conditions and order of a compiled query are on the entity's own table. -/
theorem isPlain_compile (hcolumns : q.HasColumns) (h : q.compile schema paginate = .ok c) :
    c.select.table = ⟨q.entity.table, none⟩ ∧ ∃ os, c.select.IsPlain os := by
  obtain ⟨tables, conditions, after, hc, -, token, found, hafter, rfl⟩ := exists_compiles_keysFor h
  have hplain := isPlain_rowsStatement hcolumns hc.joined hc.required (q.keysFor paginate)
  rw [hc.select]
  refine ⟨rfl, _, hplain.projection, List.forall_mem_append.mpr ⟨hplain.conditions, ?_⟩,
    hplain.order, hplain.outputs⟩
  intro p hp
  have htests := Predicate.tests_flatMap_conjuncts.mpr (tests_cursorConditions hafter) p hp
  refine (Predicate.isOn_iff_tests p).mpr (htests.imp fun column hcolumn => ?_)
  obtain ⟨key, -, rfl⟩ := hcolumn
  rfl

end Query

end ListQuery
