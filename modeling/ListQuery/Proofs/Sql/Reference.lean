import ListQuery.Proofs.Sql.OuterJoin
import ListQuery.Proofs.Sql.Subjects

/-!
# Columns and the tables they are of

A statement mentions columns with the name of a table: those it reads, those it joins on, those of
its conditions and of its order. Such a column means something if exactly one table of the statement
has the name. Where only columns of the statement's own tables are mentioned, and one of each joined
table, this is so just if no two of the tables have one name.

* `Statement.IsUnambiguous` — every column that is mentioned is of one table;
* `isUnambiguous_iff` — when a statement is.
-/

namespace ListQuery.Sql

-- ---------------------------------------------------------------------------
-- Columns that are mentioned
-- ---------------------------------------------------------------------------

/-- The columns that are read. -/
def Projection.columnsRead : Projection → List Column
  | .columns os => os.map (·.column)
  | .count      => []

namespace Statement

variable {st : Statement}

/-- The columns that a statement mentions. -/
def references (st : Statement) : List Column :=
  st.projection.columnsRead ++ st.joins.flatMap (fun j => [j.left, j.right]) ++
    Predicate.listSubjects st.conditions ++ st.order.map (·.column)

-- ---------------------------------------------------------------------------
-- Columns of one table
-- ---------------------------------------------------------------------------

/-- Every column that is mentioned is of one of the tables, and of no other one. -/
def IsUnambiguous (st : Statement) : Prop := ∀ c ∈ st.references, st.labels.count c.table = 1

/-- Only columns of the tables are mentioned, and each joined table is joined on a column of it. -/
structure IsClosed (st : Statement) : Prop where
  references : ∀ c ∈ st.references, c.table ∈ st.labels
  joins      : ∀ j ∈ st.joins, j.left.table = j.table.label ∨ j.right.table = j.table.label

theorem IsClosed.exists_reference (h : st.IsClosed) {j : Join} (hj : j ∈ st.joins) :
    ∃ c ∈ st.references, c.table = j.table.label := by
  have hmem : ∀ c ∈ [j.left, j.right], c ∈ st.references := fun c hc =>
    List.mem_append_left _ (List.mem_append_left _ (List.mem_append_right _
      (List.mem_flatMap.mpr ⟨j, hj, hc⟩)))
  rcases h.joins j hj with hleft | hright
  · exact ⟨j.left, hmem _ List.mem_cons_self, hleft⟩
  · exact ⟨j.right, hmem _ (List.mem_cons_of_mem _ List.mem_cons_self), hright⟩

/-- A statement is unambiguous just if no two of its tables have one name. -/
theorem isUnambiguous_iff (h : st.IsClosed) : st.IsUnambiguous ↔ st.labels.Nodup := by
  rw [List.nodup_iff_count_eq_one]
  refine ⟨fun hone label hlabel => ?_, fun hone c hc => hone _ (h.references c hc)⟩
  by_cases hjoined : label ∈ st.joins.map (·.table.label)
  · -- a column of the joined table is mentioned
    obtain ⟨j, hj, rfl⟩ := List.mem_map.mp hjoined
    obtain ⟨c, hc, htable⟩ := h.exists_reference hj
    rw [← htable]
    exact hone c hc
  · -- nothing but the first table can have the name
    obtain rfl : label = st.table.label := (List.mem_cons.mp hlabel).resolve_right hjoined
    rw [labels, List.count_cons_self, List.count_eq_zero.mpr hjoined]

/-- What is mentioned by a statement whose own table decides what is read. -/
theorem IsPlain.isClosed {os : List Output} (h : st.IsPlain os)
    (hleft : ∀ j ∈ st.joins, j.left.table = st.table.label)
    (hright : ∀ j ∈ st.joins, j.right.table = j.table.label) : st.IsClosed where
  references := by
    have hown : st.table.label ∈ st.labels := List.mem_cons_self
    intro c hc
    rw [references, h.projection] at hc
    simp only [List.mem_append] at hc
    rcases hc with ((hread | hjoin) | hcondition) | horder
    · obtain ⟨o, ho, rfl⟩ := List.mem_map.mp hread
      exact h.outputs o ho
    · obtain ⟨j, hj, hc⟩ := List.mem_flatMap.mp hjoin
      rcases List.mem_cons.mp hc with rfl | hc
      · rw [hleft j hj]
        exact hown
      · obtain rfl := List.mem_singleton.mp hc
        rw [hright j hj]
        exact List.mem_cons_of_mem _ (List.mem_map.mpr ⟨j, hj, rfl⟩)
    · rw [(Predicate.areOn_iff_listSubjects _).mp
        (Predicate.areOn_iff_forall.mpr h.conditions) c hcondition]
      exact hown
    · obtain ⟨k, hk, rfl⟩ := List.mem_map.mp horder
      rw [h.order k hk]
      exact hown
  joins j hj := .inr (hright j hj)

end Statement

end ListQuery.Sql
