import ListQuery.Proofs.Execution.EagerAsLoaded
import ListQuery.Proofs.Execution.FoldedColumns

/-!
# Partners of joined relations

A row of a query shows under the name of a joined relation the related row that satisfies the
condition of the join, or nothing. Whether there is one is told by the declared columns alone: a
related row that has nothing in any of them is taken for none. All others are shown with all declared
columns, those without a value as well.

* `foldApart_of_fold` — what is asked of joins for folding them;
* `EagerJoin.partners` — the related rows that satisfy a condition;
* `ShowsPartner` — what a row shows of them;
* `fetch_showsPartners` — the rows of a query.
-/

namespace ListQuery

open Sql Database Text

-- ---------------------------------------------------------------------------
-- Joins that were folded
-- ---------------------------------------------------------------------------

namespace Row

variable {j : EagerJoin} {row rest joined out : Row} {names : List String}
  {join later : String × EagerJoin} {joins : List (String × EagerJoin)} {label : String}

/-- A column is taken off once. -/
theorem nodup_of_takeJoined (h : takeJoined j names row = .ok (joined, rest)) : names.Nodup := by
  induction names generalizing row joined rest with
  | nil => exact List.nodup_nil
  | cons name names ih =>
    rw [takeJoined] at h
    split at h
    case h_1 => cases h
    case h_2 =>
      obtain ⟨⟨joined', rest'⟩, htake, -⟩ := bind_eq_ok.mp h
      refine List.nodup_cons.mpr ⟨fun hname => ?_, ih htake⟩
      -- a second time it is no longer there
      obtain ⟨v, hv⟩ := (takeJoined_eq_ok htake).1 name hname
      simp [get?_drop] at hv

/-- No relation has the name of a label of a later join. -/
def NamesKept (joins : List (String × EagerJoin)) : Prop :=
  joins.Pairwise fun first later => first.1 ∉ later.2.labels

/-- The labels of the joins that were folded were all there from the start. -/
theorem exists_label_of_fold (hkept : NamesKept joins) (h : fold joins row = .ok out)
    (hlater : later ∈ joins) (hlabel : label ∈ later.2.labels) : ∃ v, row.get? label = some v := by
  induction joins generalizing row with
  | nil => exact absurd hlater List.not_mem_nil
  | cons first joins ih =>
    obtain ⟨mid, hmid, h⟩ := fold_cons_eq_ok.mp h
    obtain ⟨hfirst, hkept⟩ := List.pairwise_cons.mp hkept
    rcases List.mem_cons.mp hlater with rfl | hlater
    · exact exists_of_mem_labels hmid hlabel
    · obtain ⟨v, hv⟩ := ih hkept h hlater
      have hne : label ≠ first.1 := fun heq => hfirst later hlater (heq ▸ hlabel)
      rw [get?_foldJoin_of_ne hmid hne] at hv
      split at hv
      · cases hv
      · exact ⟨v, hv⟩

/-- Joins that were folded read each of their columns once, and share no label. -/
theorem foldApart_of_fold (hkept : NamesKept joins) (h : fold joins row = .ok out) :
    (∀ join ∈ joins, join.2.columns.Nodup) ∧ joins.Pairwise FoldApart := by
  induction joins generalizing row with
  | nil => exact ⟨List.forall_mem_nil _, .nil⟩
  | cons first joins ih =>
    obtain ⟨mid, hmid, h⟩ := fold_cons_eq_ok.mp h
    obtain ⟨hfirst, hkept⟩ := List.pairwise_cons.mp hkept
    obtain ⟨hcolumns, hapart⟩ := ih hkept h
    obtain ⟨joined, rest, htake, -⟩ := foldJoin_eq_ok.mp hmid
    refine ⟨List.forall_mem_cons.mpr ⟨nodup_of_takeJoined htake, hcolumns⟩,
      List.pairwise_cons.mpr ⟨fun later hlater => ⟨hfirst later hlater, ?_⟩, hapart⟩⟩
    -- the first join takes its labels off, so that none of them is there for a later one
    intro label hlabel hboth
    obtain ⟨v, hv⟩ := exists_label_of_fold hkept h hlater hboth
    have hne : label ≠ first.1 := fun heq => hfirst later hlater (heq ▸ hboth)
    rw [get?_foldJoin_of_ne hmid hne, if_pos hlabel] at hv
    cases hv

/-- A relation with the name of a label of a later join is missing from every row. -/
theorem exists_missing_of_not_namesKept (hnames : (joins.map (·.1)).Nodup)
    (hkept : ¬ NamesKept joins) :
    ∃ join ∈ joins, ∀ row out, fold joins row = .ok out → out.get? join.1 = none := by
  induction joins with
  | nil => exact absurd .nil hkept
  | cons first joins ih =>
    obtain ⟨hname, hnames⟩ := List.nodup_cons.mp hnames
    by_cases hfirst : ∀ later ∈ joins, first.1 ∉ later.2.labels
    · have hrest : ¬ NamesKept joins := fun hrest => hkept (List.pairwise_cons.mpr ⟨hfirst, hrest⟩)
      obtain ⟨join, hjoin, hmissing⟩ := ih hnames hrest
      refine ⟨join, List.mem_cons_of_mem _ hjoin, fun row out h => ?_⟩
      obtain ⟨mid, -, h⟩ := fold_cons_eq_ok.mp h
      exact hmissing mid out h
    · push Not at hfirst
      obtain ⟨later, hlater, hlabel⟩ := hfirst
      refine ⟨first, List.mem_cons_self, fun row out h => ?_⟩
      obtain ⟨mid, -, h⟩ := fold_cons_eq_ok.mp h
      exact get?_fold_label hlater hlabel hname h

end Row

-- ---------------------------------------------------------------------------
-- Partners
-- ---------------------------------------------------------------------------

variable {g : Engine} {tables : Tables} {e : Entity} {o : Record}

namespace EagerJoin

/-- A join in a statement on an entity that has the column it needs. -/
def onEntity (j : EagerJoin) (e : Entity) : Join :=
  { table := ⟨j.table, some j.aliasName⟩, left := e.columnNamed j.leftColumn,
    right := j.column j.rightColumn }

/-- The related rows that satisfy the condition of a join with a row. -/
def partners (j : EagerJoin) (g : Engine) (tables : Tables) (e : Entity) (o : Record) :
    List Record :=
  (tables j.table).filter fun x =>
    g.joins (e.columnNamed j.leftColumn) (j.column j.rightColumn) (o j.leftColumn)
      (x j.rightColumn)

/-- The declared columns of a related row. -/
def recordOf (j : EagerJoin) (x : Record) : Value :=
  .record (j.columns.map fun name => (name, x name))

/-- Whether a related row has something in a declared column. -/
def IsShown (j : EagerJoin) (x : Record) : Prop := ∃ name ∈ j.columns, (x name).isNull = false

variable {j : EagerJoin}

theorem relatedOf_isShown {x : Record} (hx : j.IsShown x) :
    Row.relatedOf (j.columns.map fun name => (name, x name)) = j.recordOf x := by
  obtain ⟨name, hname, hsome⟩ := hx
  refine if_neg fun hall => ?_
  have hnull := List.all_eq_true.mp hall (name, x name) (List.mem_map.mpr ⟨name, hname, rfl⟩)
  exact Bool.false_ne_true (hsome.symm.trans hnull)

theorem relatedOf_not_isShown {x : Record} (hx : ¬ j.IsShown x) :
    Row.relatedOf (j.columns.map fun name => (name, x name)) = .null := by
  refine if_pos (List.all_eq_true.mpr fun entry hentry => ?_)
  obtain ⟨name, hname, rfl⟩ := List.mem_map.mp hentry
  by_contra hsome
  exact hx ⟨name, hname, Bool.not_eq_true _ |>.mp hsome⟩

theorem partner_onEntity : g.partner tables (j.onEntity e) o =
    ((j.partners g tables e o).head?).getD fun _ => .null := by
  rw [Engine.partner, partners, List.head?_filter]
  rfl

end EagerJoin

/-- What a row shows under the name of a relation, by the related rows that satisfy the condition of
its join: nothing if there is none, the declared columns of one that has something in them, and
nothing of one that has not. -/
structure ShowsPartner (j : EagerJoin) (partners : List Record) (shown : Option Value) : Prop where
  absent  : partners = [] → shown = some .null
  present : ∀ x ∈ partners, j.IsShown x → shown = some (j.recordOf x)
  blank   : ∀ x ∈ partners, ¬ j.IsShown x → shown = some .null

theorem showsPartner_partner {j : EagerJoin}
    (hsingle : (j.partners g tables e o).length ≤ 1) :
    ShowsPartner j (j.partners g tables e o)
      (some (Row.relatedOf (j.columns.map fun name =>
        (name, g.partner tables (j.onEntity e) o name)))) := by
  rw [EagerJoin.partner_onEntity]
  cases hpartners : j.partners g tables e o with
  | nil =>
    have hnone : ¬ j.IsShown fun _ => .null := by simp [EagerJoin.IsShown, Value.isNull]
    exact ⟨fun _ => congrArg _ (EagerJoin.relatedOf_not_isShown hnone), by simp, by simp⟩
  | cons x xs =>
    obtain rfl : xs = [] := by
      rw [hpartners, List.length_cons] at hsingle
      exact List.length_eq_zero_iff.mp (by omega)
    refine ⟨by simp, ?_, ?_⟩
    · simpa using EagerJoin.relatedOf_isShown
    · simpa using EagerJoin.relatedOf_not_isShown

-- ---------------------------------------------------------------------------
-- The rows of a query
-- ---------------------------------------------------------------------------

namespace Query

variable {q : Query} {schema : Schema} {c : Compiled} {paginate : Bool}

/-- The tables that a query joins. -/
theorem joins_select (hc : q.compile schema paginate = .ok c) :
    c.select.joins = c.joins.map fun join => join.2.onEntity q.entity := by
  obtain ⟨keys, joins, conditions, after, hcompiles⟩ := exists_compiles hc
  have hselect : c.select.joins = joins := by
    rw [hcompiles.select]
    rfl
  have hjoined := hcompiles.joined
  rw [joinedTables, mapM_eq_ok, ← hcompiles.joins] at hjoined
  rw [hselect, ← List.forall₂_eq_eq_eq, List.forall₂_map_right_iff]
  exact hjoined.flip.imp fun t join ht => (EagerJoin.join_eq_ok.mp ht).2

theorem leadsToOne_joins (hc : q.compile schema paginate = .ok c)
    (hsingle : ∀ join ∈ c.joins, ∀ o ∈ tables q.entity.table,
      (join.2.partners g tables q.entity o).length ≤ 1) :
    ∀ j ∈ c.select.joins, g.LeadsToOne tables q.entity.table j := by
  rw [joins_select hc]
  intro j hj
  obtain ⟨join, hjoin, rfl⟩ := List.mem_map.mp hj
  exact ⟨rfl, rfl, rfl, hsingle join hjoin⟩

theorem nodup_names_joins (hc : q.compile schema paginate = .ok c) (hlabels : c.select.labels.Nodup) :
    (c.joins.map (·.1)).Nodup := by
  rw [labels_select hc] at hlabels
  rw [joins_compile hc, map_fst_eagerJoins]
  exact (List.nodup_cons.mp hlabels).2.of_map _

/-- What a row that was read shows when it is folded. -/
theorem showsPartner_of_fold (hc : q.compile schema paginate = .ok c)
    (hsingle : ∀ join ∈ c.joins, (join.2.partners g tables q.entity o).length ≤ 1)
    (hlabels : c.select.labels.Nodup) (hkept : Row.NamesKept c.joins) {fields : List String}
    {row : Row}
    (h : Row.fold c.joins (Engine.project (fields.map q.output ++
        c.joins.flatMap fun j => j.2.outputs)
          (g.joined tables c.select.joins o (Scene.single q.entity.table o))) = .ok row) :
    ∀ join ∈ c.joins,
      ShowsPartner join.2 (join.2.partners g tables q.entity o) (row.get? join.1) := by
  obtain ⟨hcolumns, hapart⟩ := Row.foldApart_of_fold hkept h
  obtain ⟨row', hrow', hjoined, -⟩ := Row.exists_fold hcolumns (nodup_names_joins hc hlabels) hapart
    fun join hjoin name hname => get?_project_label (q := q)
      (s := g.joined tables c.select.joins o (Scene.single q.entity.table o))
      (Row.nodup_labels hcolumns hapart) hjoin hname
  obtain rfl := Except.ok.inj (h.symm.trans hrow')
  intro join hjoin
  have hmem : join.2.onEntity q.entity ∈ c.select.joins := by
    rw [joins_select hc]
    exact List.mem_map.mpr ⟨join, hjoin, rfl⟩
  have hpartner : g.joined tables c.select.joins o (Scene.single q.entity.table o)
      (join.2.onEntity q.entity).table.label = g.partner tables (join.2.onEntity q.entity) o :=
    Engine.joined_of_mem (List.nodup_cons.mp hlabels).2 hmem
  have hshown := showsPartner_partner (hsingle join hjoin)
  rw [← hpartner] at hshown
  rw [hjoined join hjoin]
  exact hshown

/-- The rows of a query whose joins lead to one row at most are those of the entity, in their order.
Unless a joined relation has the name of a label of a later join, each of them shows under the name
of every joined relation the related row that satisfies the condition of the join, with all declared
columns, or nothing where there is none; but nothing as well where the related row has nothing in any
declared column. A relation with the name of a later label is missing from all rows. -/
theorem fetch_showsPartners (hq : q.Reachable) (hc : q.compile schema paginate = .ok c)
    (hsingle : ∀ join ∈ c.joins, ∀ o ∈ tables q.entity.table,
      (join.2.partners g tables q.entity o).length ≤ 1)
    {rows : List Row} {tables' : Tables}
    (h : (fetch g.database c.joins c.select).run tables = (.ok rows, tables')) :
    rows.length = (q.parents g tables c.select).length ∧
    (Row.NamesKept c.joins →
      List.Forall₂ (fun o row => ∀ join ∈ c.joins,
        ShowsPartner join.2 (join.2.partners g tables q.entity o) (row.get? join.1))
        (q.parents g tables c.select) rows) ∧
    (¬ Row.NamesKept c.joins → ∃ join ∈ c.joins, ∀ row ∈ rows, row.get? join.1 = none) := by
  rw [fetch, run_bind_eq_ok] at h
  obtain ⟨read, tables₁, hread, hfold⟩ := h
  obtain ⟨hlabels, rfl, rfl⟩ := Engine.run_readRows_eq_ok hread
  rw [run_pureStep] at hfold
  obtain ⟨htable, os, hplain⟩ := isPlain_compile hq.hasColumns hc
  obtain ⟨hjoins, hhidden, -, hprojection⟩ := columns_compile hc
  obtain rfl := Projection.columns.inj (hplain.projection.symm.trans hprojection)
  have hfolded := mapM_eq_ok.mp (Prod.mk.inj hfold).1
  rw [Engine.rows_joined (leadsToOne_joins hc hsingle) htable hlabels hplain,
    List.forall₂_map_left_iff] at hfolded
  refine ⟨hfolded.length_eq.symm, fun hkept => ?kept, fun hkept => ?missing⟩
  case kept =>
    have hmem : ∀ o ∈ q.parents g tables₁ c.select, o ∈ tables₁ q.entity.table := fun o ho =>
      List.mem_of_mem_filter ((List.mergeSort_perm _ _).mem_iff.mp (Engine.mem_of_mem_cut ho))
    refine ((List.forall₂_and_left _ _).mpr ⟨hmem, hfolded⟩).imp fun o row hboth => ?_
    obtain ⟨ho, hrow⟩ := hboth
    rw [outputs, ← hjoins] at hrow
    exact showsPartner_of_fold hc (fun join hjoin => hsingle join hjoin o ho) hlabels hkept hrow
  case missing =>
    obtain ⟨join, hjoin, hmissing⟩ :=
      Row.exists_missing_of_not_namesKept (nodup_names_joins hc hlabels) hkept
    refine ⟨join, hjoin, fun row hrow => ?_⟩
    obtain ⟨o, -, ho⟩ := exists_of_mem_forall₂ hfolded hrow
    exact hmissing _ _ ho

end Query

-- ---------------------------------------------------------------------------
-- Books and the names of their authors
-- ---------------------------------------------------------------------------

/-- Books with an author of whom the name is read. -/
def Query.credited : Query :=
  includePath
    { entity :=
        { Entity.keyed "books"
            [("author", { Relation.single "authors" .belongsTo "author_id" true with
                columns := some ["name"] })] with
          includePaths := ["author"], types := [("id", .integer), ("author_id", .integer)] } }
    "author"

/-- One book has an author, one an author without a name, and one has none. -/
def Sql.Tables.credited : Tables
  | "books"   =>
    [.ofInts [("id", 1), ("author_id", 5)], .ofInts [("id", 2), ("author_id", 6)],
      .ofInts [("id", 3)]]
  | "authors" => [.ofInts [("id", 5), ("name", 7)], .ofInts [("id", 6)]]
  | _         => []

namespace Query

/-- The second book shows no author either, although it has one. -/
theorem fetch_showsPartners_credited :
    ∃ c first second third,
      credited.compile [] false = .ok c ∧
      (fetch Engine.integers.database c.joins c.select).run .credited =
        (.ok [first, second, third], .credited) ∧
      first.get? "author" = some (.record [("name", .int 7)]) ∧
      second.get? "author" = some .null ∧ third.get? "author" = some .null := by
  obtain ⟨c, hc⟩ : ∃ c, credited.compile [] false = .ok c := ⟨_, rfl⟩
  obtain ⟨rows, hfetch⟩ : ∃ rows, (fetch Engine.integers.database c.joins c.select).run .credited =
      (.ok rows, .credited) := by
    obtain rfl := Except.ok.inj hc
    rw [Engine.database_eq]
    exact ⟨_, rfl⟩
  have hreachable : credited.Reachable := .includePath "author" (.fresh _ _)
  have hparents : credited.parents Engine.integers .credited c.select = Tables.credited "books" := by
    obtain rfl := Except.ok.inj hc
    exact List.mergeSort_of_pairwise (List.pairwise_of_forall fun _ _ => rfl)
  have hjoins : c.joins = credited.eagerJoins [] := joins_compile hc
  have hsingle : ∀ join ∈ c.joins, ∀ o ∈ Tables.credited credited.entity.table,
      (join.2.partners Engine.integers .credited credited.entity o).length ≤ 1 := by
    rw [hjoins]
    decide
  obtain ⟨-, hshows, -⟩ := fetch_showsPartners hreachable hc hsingle hfetch
  have hrows := hshows (by rw [hjoins]; exact List.pairwise_singleton _ _)
  rw [hparents] at hrows
  obtain ⟨first, others, hfirst, hothers, rfl⟩ := List.forall₂_cons_left_iff.mp hrows
  obtain ⟨second, last, hsecond, hlast, rfl⟩ := List.forall₂_cons_left_iff.mp hothers
  obtain ⟨third, none, hthird, hnone, rfl⟩ := List.forall₂_cons_left_iff.mp hlast
  obtain rfl := List.forall₂_nil_left_iff.mp hnone
  obtain ⟨join, hjoin⟩ : ∃ join, credited.eagerJoins [] = [("author", join)] := ⟨_, rfl⟩
  have hmem : ("author", join) ∈ c.joins := by rw [hjoins, hjoin]; exact List.mem_cons_self
  obtain rfl := (Prod.mk.inj (List.cons.inj hjoin).1).2
  refine ⟨c, first, second, third, hc, hfetch, ?_, ?_, ?_⟩
  · exact (hfirst _ hmem).present (.ofInts [("id", 5), ("name", 7)]) List.mem_cons_self
      ⟨"name", List.mem_cons_self, rfl⟩
  · refine (hsecond _ hmem).blank (.ofInts [("id", 6)]) List.mem_cons_self ?_
    rintro ⟨name, hname, hsome⟩
    obtain rfl := List.mem_singleton.mp hname
    cases hsome
  · exact (hthird _ hmem).absent rfl

end Query

end ListQuery
