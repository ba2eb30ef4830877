import ListQuery.Compiled
import ListQuery.Proofs.Schema.Entity
import ListQuery.Query.Steps

/-!
# Defaults made explicit

A query that sorts by nothing is ordered by the default sort of its entity, and one that selects no
field reads the default fields. Both can be written into the query. That changes nothing of its
statements, whatever its page: a default sort that the whitelist does not allow is not written, but
still orders, and one by no column is written, but orders as little as before.

* `compile_choosing` — what compiling takes from the sorts and fields of a query;
* `applyDefaultSort_eq`, `ordering_explicitSorts` — the default sort;
* `projectedFields_of_unselected`, `projectedFields_of_default` — the default fields;
* `compile_applyDefaults` — both, and that once is enough.
-/

namespace ListQuery.Query

variable {q : Query}

/-- The query with other sorts and fields. -/
def choosing (q : Query) (sorts : List SortKey) (fields : Option (List String)) : Query :=
  { q with sorts, fields }

/-- Sorts and fields are compiled by the order and the columns to which they come. -/
theorem compile_choosing {sorts : List SortKey} {fields : Option (List String)}
    (hordering : (q.choosing sorts fields).ordering = q.ordering)
    (hfields : (q.choosing sorts fields).projectedFields = q.projectedFields)
    (schema : Schema) (paginate : Bool) :
    (q.choosing sorts fields).compile schema paginate = q.compile schema paginate := by
  have hkeys : (q.choosing sorts fields).keysFor paginate = q.keysFor paginate := by
    unfold keysFor
    rw [hordering]
    rfl
  have hhidden : (q.choosing sorts fields).hiddenFor = q.hiddenFor := by
    funext keys
    unfold hiddenFor
    rw [hfields]
    rfl
  have horder : (q.choosing sorts fields).orderBy = q.orderBy := by
    funext keys
    unfold orderBy
    rw [hordering]
    rfl
  unfold compile
  simp only [hkeys, hhidden, horder, hfields]
  rfl

-- ---------------------------------------------------------------------------
-- The default sort
-- ---------------------------------------------------------------------------

/-- The sorts of the query, or the default sort if the whitelist allows it. -/
def explicitSorts (q : Query) : List SortKey :=
  if q.sorts = [] then (q.entity.defaultSort.filter fun s => q.entity.allowsSort s.field).toList
  else q.sorts

theorem choosing_nil (h : q.sorts = []) : q.choosing [] q.fields = q := by
  rw [← h]
  rfl

theorem applyDefaultSort_eq (q : Query) :
    q.applyDefaultSort = q.choosing q.explicitSorts q.fields := by
  unfold applyDefaultSort explicitSorts
  split
  case h_1 s hsorts hdefault =>
    rw [if_pos hsorts, hdefault, Option.filter_some, sort]
    split
    case isTrue =>
      rw [hsorts]
      rfl
    case isFalse => exact (choosing_nil hsorts).symm
  case h_2 hother =>
    by_cases hsorts : q.sorts = []
    · have hnone : q.entity.defaultSort = none :=
        Option.eq_none_iff_forall_ne_some.mpr fun s hs => hother s hsorts hs
      rw [if_pos hsorts, hnone]
      exact (choosing_nil hsorts).symm
    · rw [if_neg hsorts]
      rfl

theorem explicitSorts_eq_nil_iff :
    q.explicitSorts = [] ↔
      q.sorts = [] ∧ ∀ s ∈ q.entity.defaultSort, q.entity.allowsSort s.field = false := by
  unfold explicitSorts
  split
  case isTrue hsorts => simp [hsorts, Option.filter_eq_none_iff]
  case isFalse hsorts => simp [hsorts]

/-- Whether the default sort is written or only used makes no difference to the order. -/
theorem ordering_explicitSorts (q : Query) (fields : Option (List String)) :
    (q.choosing q.explicitSorts fields).ordering = q.ordering := by
  by_cases hsorts : q.sorts = []
  · cases hdefault : q.entity.defaultSort with
    | none => simp [ordering, choosing, explicitSorts, hsorts, hdefault]
    | some s =>
      by_cases hallowed : q.entity.allowsSort s.field = true
      · simp [ordering, choosing, explicitSorts, hsorts, hdefault, Option.filter, hallowed]
      · simp [ordering, choosing, explicitSorts, hsorts, hdefault, Option.filter, hallowed]
  · simp [ordering, choosing, explicitSorts, hsorts]

theorem explicitSorts_explicitSorts (q : Query) (fields : Option (List String)) :
    (q.choosing q.explicitSorts fields).explicitSorts = q.explicitSorts := by
  by_cases h : q.explicitSorts = []
  · have hagain : (q.choosing q.explicitSorts fields).explicitSorts = [] :=
      explicitSorts_eq_nil_iff.mpr ⟨h, (explicitSorts_eq_nil_iff.mp h).2⟩
    rw [hagain, h]
  · exact if_neg h

-- ---------------------------------------------------------------------------
-- The default fields
-- ---------------------------------------------------------------------------

/-- The columns among the selected fields are read, and those among the default ones if none is
selected. -/
theorem projectedFields_eq (q : Query) :
    q.projectedFields =
      (if q.fields.getD [] = [] then q.entity.defaultFields else q.fields.getD []).filter
        (· ∈ q.entity.columnNames) := by
  have hcolumn : (fun name => (q.entity.column? name).isSome) =
      fun name => decide (name ∈ q.entity.columnNames) := by
    funext name
    rw [Bool.eq_iff_iff, Entity.isSome_column?_iff_mem_columnNames, decide_eq_true_eq]
  rw [projectedFields, hcolumn]
  cases q.fields with
  | none => rfl
  | some names =>
    cases names with
    | nil => rfl
    | cons name names => rfl

theorem projectedFields_of_unselected (h : q.fields.getD [] = []) :
    q.projectedFields = q.entity.defaultFields.filter (· ∈ q.entity.columnNames) := by
  rw [projectedFields_eq, if_pos h]

/-- The default fields that are columns are read where they are selected too. -/
theorem projectedFields_of_default
    (hfields : q.fields = none ∨ q.fields = some q.entity.defaultFields) :
    q.projectedFields = q.entity.defaultFields.filter (· ∈ q.entity.columnNames) := by
  rcases hfields with hnone | hdefault
  · exact projectedFields_of_unselected (by rw [hnone]; rfl)
  · rw [projectedFields_eq, hdefault, Option.getD_some, ite_self]

-- ---------------------------------------------------------------------------
-- Both
-- ---------------------------------------------------------------------------

/-- A query with its default sort made explicit is compiled as it is, and so is one without a selection
of fields with its default fields made explicit, whatever the page and whether or not it is used. Doing
it once more changes nothing. The default sort is explicit then unless the whitelist does not allow it,
and the default fields are. -/
theorem compile_applyDefaults (q : Query) (schema : Schema) (paginate : Bool) :
    q.applyDefaultSort.compile schema paginate = q.compile schema paginate ∧
      (q.fields.getD [] = [] →
        q.applyDefaultFields.compile schema paginate = q.compile schema paginate) ∧
      q.applyDefaultSort.applyDefaultSort = q.applyDefaultSort ∧
      q.applyDefaultFields.applyDefaultFields = q.applyDefaultFields ∧
      (q.applyDefaultSort.sorts = [] ↔
        q.sorts = [] ∧ ∀ s ∈ q.entity.defaultSort, q.entity.allowsSort s.field = false) ∧
      q.applyDefaultFields.fields = some q.entity.defaultFields := by
  refine ⟨?_, fun hfields => ?_, ?_, rfl, ?_, rfl⟩
  · rw [applyDefaultSort_eq]
    exact compile_choosing (q.ordering_explicitSorts _) rfl schema paginate
  · have hchoosing : q.applyDefaultFields = q.choosing q.sorts (some q.entity.defaultFields) := rfl
    rw [hchoosing]
    refine compile_choosing rfl ?_ schema paginate
    rw [projectedFields_of_unselected hfields]
    exact projectedFields_of_default (.inr rfl)
  · rw [applyDefaultSort_eq, applyDefaultSort_eq, explicitSorts_explicitSorts]
    rfl
  · rw [applyDefaultSort_eq]
    exact explicitSorts_eq_nil_iff

-- ---------------------------------------------------------------------------
-- Articles by day
-- ---------------------------------------------------------------------------

/-- The newest articles, a page by cursor. They are read by default with a field that is no column. -/
def byDay : Query where
  entity :=
    { table            := "articles"
      filterFields     := []
      sortFields       := ["day"]
      selectFields     := ["id", "title"]
      includePaths     := []
      defaultSort      := some ⟨"day", .descending⟩
      defaultSelection := some ["title", "teaser"]
      searchFields     := []
      primaryKey       := "id"
      softDelete       := none
      types            := [("id", .integer), ("title", .string), ("day", .date)]
      relations        := [] }
  page := some (.cursor .null 10)

/-- Their sort and their fields become explicit, and they are compiled as before. -/
theorem compile_applyDefaults_byDay :
    byDay.applyDefaultSort.sorts ≠ [] ∧
      byDay.applyDefaultSort.compile [] true = byDay.compile [] true ∧
      byDay.applyDefaultFields.fields = some ["title", "teaser"] ∧
      byDay.applyDefaultFields.compile [] true = byDay.compile [] true := by
  obtain ⟨hsort, hfields, -, -, hexplicit, hwritten⟩ := compile_applyDefaults byDay [] true
  refine ⟨fun hnone => ?_, hsort, hwritten, hfields rfl⟩
  have hforbidden := (hexplicit.mp hnone).2 _ rfl
  cases hforbidden

end ListQuery.Query
