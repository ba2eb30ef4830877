import ListQuery.Proofs.Execution.OneTable
import ListQuery.Proofs.Execution.Resume
import ListQuery.Proofs.Paging.Walk

/-!
# Walking through pages by cursor
-/

namespace ListQuery

open Sql Database

variable {g : Engine} {schema : Schema} {tables tables' : Tables}

namespace Query

variable {q : Query} {conditions : List Predicate}

/-- The order of the query's cursor pages. -/
def pageLe (q : Query) (g : Engine) : Record → Record → Bool := Keyset.recordLe g q.entity q.keys

/-- What a token stands for: the first page, or the page after a row. -/
inductive Marks (e : Entity) (keys : List SortKey) : Value → Option Record → Prop
  | start : Marks e keys .null none
  | row {x : Record} {text : String} (hx : Keyset.IsKeyed e keys x)
      (htext : Cursor.encode (.record (Keyset.valuesOf keys x)) = .ok text) :
      Marks e keys (.text text) (some x)

/-- The key values of a token are those of the row that it stands for. -/
theorem ofCursor?_of_marks {x : Record} {text : String} (hx : Keyset.IsKeyed q.entity q.keys x)
    (htext : Cursor.encode (.record (Keyset.valuesOf q.keys x)) = .ok text) :
    Keyset.ofCursor? q.entity q.keys (.text text) = .ok (some (Keyset.valuesOf q.keys x)) := by
  have hadmits : ∀ key ∈ q.keys, (q.entity.typeOf key.field).Admits (x key.field) := fun key hkey =>
    (hx.sorts key hkey).imp Value.eq_null_of_isNull And.left
  have hgiven : x q.entity.primaryKey ≠ .null := by
    intro hnull
    have h := hx.given
    rw [hnull] at h
    cases h
  have hreturned : Keyset.valuesOf q.keys (returned ∘ x) = Keyset.valuesOf q.keys x := by
    rw [Keyset.valuesOf, Keyset.valuesOf]
    refine congrArg Entries.ofList (List.map_congr_left fun key hkey => congrArg (key.field, ·) ?_)
    rcases hx.sorts key hkey with hnull | hsorts
    · show returned (x key.field) = x key.field
      rw [Value.eq_null_of_isNull hnull]
      rfl
    · exact returned_eq_iff.mpr hsorts.2.1
  rw [← hreturned]
  exact Keyset.ofCursor?_encode hadmits q.primaryKey_mem_keys hgiven htext

/-- The conditions that a token adds to those of the query. -/
def afterMark (q : Query) : Option Record → List Predicate
  | none   => []
  | some x => [.disj (Keyset.branchesOf q.entity (Keyset.valuesOf q.keys x) [] q.keys)]

theorem cursorConditions_of_marks {token : Value} {mark : Option Record}
    (hmark : Marks q.entity q.keys token mark) :
    q.cursorConditions q.keys token = .ok (q.afterMark mark, []) := by
  cases hmark with
  | start => rfl
  | @row x text hx htext =>
    have hordered : ∀ key ∈ q.keys, Keyset.valueOf (Keyset.valuesOf q.keys x) key ≠ .null →
        Keyset.IsOrdered (Keyset.valueOf (Keyset.valuesOf q.keys x) key) := by
      intro key hkey hnull
      rw [Keyset.valueOf_valuesOf x hkey] at hnull ⊢
      exact ((hx.sorts key hkey).resolve_left fun h => hnull (Value.eq_null_of_isNull h)).2.2
    exact cursorConditions_of_values (ofCursor?_of_marks hx htext)
      (Keyset.predicate_eq_ok hordered)

/-- The conditions select the rows after the row that the token stands for. -/
theorem accepts_afterMark {token : Value} {mark : Option Record}
    (hmark : Marks q.entity q.keys token mark)
    (hf : ∀ key ∈ q.keys, g.Follows (q.entity.columnNamed key.field)) {r : Record}
    (hr : Keyset.IsKeyed q.entity q.keys r) :
    g.acceptsAll (Scene.single q.entity.table r) ((q.afterMark mark).flatMap Predicate.conjuncts) =
      Walk.isAfter (q.pageLe g) mark r := by
  cases hmark with
  | start => rfl
  | @row x text hx htext =>
    rw [afterMark, List.flatMap_singleton, Engine.acceptsAll_conjuncts,
      Keyset.accepts_after hf hr hx]
    rfl

-- ---------------------------------------------------------------------------
-- One page
-- ---------------------------------------------------------------------------

/-- The rows that a cursor page reads: those after the mark in order, up to one more than the page
holds. -/
theorem rows_cursorCut (schema : Schema) (conditions : List Predicate)
    (hplain : ∀ p ∈ q.includes, q.entity.joinsEagerly p = false)
    (hf : ∀ key ∈ q.keys, g.Follows (q.entity.columnNamed key.field))
    (hkeyed : ∀ r ∈ tables q.entity.table, Keyset.IsKeyed q.entity q.keys r) {token : Value}
    {mark : Option Record} (hmark : Marks q.entity q.keys token mark) (n : Int) :
    g.rows tables (cursorCut (q.rowsStatement schema q.keys [] conditions) (q.afterMark mark) n) =
      ((Walk.ahead (q.pageLe g) (g.matching tables q.entity.table conditions) mark).take
        (n + 1).toNat).map (q.rowOf q.keys) := by
  rw [cursorCut, foldl_restrict, Engine.rows_single rfl rfl rfl]
  -- the rows that meet the conditions are those of the query that come after the mark
  have hmatching : g.matching tables q.entity.table
      (conditions ++ (q.afterMark mark).flatMap Predicate.conjuncts) =
        (g.matching tables q.entity.table conditions).filter (Walk.isAfter (q.pageLe g) mark) := by
    rw [Engine.matching, Engine.matching, List.filter_filter]
    refine List.filter_congr fun r hr => ?_
    rw [Engine.acceptsAll_append, accepts_afterMark hmark hf (hkeyed r hr), Bool.and_comm]
  have horder : (fun a b => g.sceneLe (q.rowsStatement schema q.keys [] conditions).order
      (Scene.single q.entity.table a) (Scene.single q.entity.table b)) = q.pageLe g := by
    funext a b
    show g.sceneLe (q.orderBy q.keys) _ _ = _
    rw [q.orderBy_keys q.keys_ne_nil]
    rfl
  show (Engine.cut _ _ ((g.matching tables q.entity.table
    (conditions ++ (q.afterMark mark).flatMap Predicate.conjuncts)).mergeSort _)).map _ = _
  rw [hmatching, horder, outputs_eq_map hplain]
  rfl

/-- A page that holds the first of some rows and tells whether there are more. -/
structure DeliversPage (deliver : Record → Row) (keys : List SortKey) (rows : List Record) (n : Nat)
    (page : PageOf Row) : Prop where
  data : page.data = (rows.take n).map deliver
  more : n < rows.length → ∃ x text, (rows.take n).getLast? = some x ∧
    page.info.nextCursor = some text ∧
      Cursor.encode (.record (Keyset.valuesOf keys x)) = .ok text
  last : ¬n < rows.length → page.info.nextCursor = none

theorem joins_cursorCut (st : Statement) (after : List Predicate) (n : Int) :
    (cursorCut st after n).joins = st.joins := by
  rw [cursorCut, foldl_restrict]

/-- A page by cursor holds the first rows after the one that its token stands for. -/
theorem deliversPage {token : Value} {n : Int} (hp : q.effectivePage = .cursor token n) (hn : 1 ≤ n)
    (hplain : ∀ p ∈ q.includes, q.entity.joinsEagerly p = false)
    (hconditions : q.conditions = .ok conditions)
    (hf : ∀ key ∈ q.keys, g.Follows (q.entity.columnNamed key.field))
    (hkeyed : ∀ r ∈ tables q.entity.table, Keyset.IsKeyed q.entity q.keys r)
    {mark : Option Record} (hmark : Marks q.entity q.keys token mark) {page : PageOf Row}
    (hrun : q.runPage g.database schema tables = (.ok page, tables')) :
    DeliversPage q.delivered q.keys
      (Walk.ahead (q.pageLe g) (g.matching tables q.entity.table conditions) mark) n.toNat page := by
  obtain ⟨c, read, tables'', hc, hread, hparts, -⟩ := runPage_cursor hp hrun
  obtain ⟨joined, conditions', after, warnings, hjoined, hconditions', hafter, rfl⟩ :=
    (compile_cursor_eq_ok hp).mp hc
  obtain rfl : conditions' = conditions := Except.ok.inj (hconditions'.symm.trans hconditions)
  obtain rfl : joined = [] := Except.ok.inj (hjoined.symm.trans (joinedTables_eq_nil hplain))
  obtain ⟨rfl, rfl⟩ := Prod.mk.inj (Except.ok.inj (hafter.symm.trans (cursorConditions_of_marks hmark)))
  have hjoins : (q.compiledCursor schema [] conditions' (q.afterMark mark) [] n).joins = [] :=
    eagerJoins_eq_nil hplain
  rw [hjoins] at hread
  obtain ⟨-, hread, -⟩ := (fetch_eq_ok (joins_cursorCut _ _ _)).mp hread
  have hrows := rows_cursorCut schema conditions' hplain hf hkeyed hmark n
  generalize Walk.ahead (q.pageLe g) (g.matching tables q.entity.table conditions') mark = rows
    at hrows ⊢
  have hread : read = (rows.take (n + 1).toNat).map (q.rowOf q.keys) := hread.trans hrows
  have htaken : read.take n.toNat = (rows.take n.toNat).map (q.rowOf q.keys) := by
    rw [hread, ← List.map_take, List.take_take, Nat.min_eq_left (by omega)]
  have hmore : n < read.length ↔ n.toNat < rows.length := by
    rw [hread, List.length_map, List.length_take]
    omega
  obtain ⟨hdata, hnext⟩ := hparts
  have hnext' : (if n < read.length then nextCursor (q.keys.map (·.field)) (read.take n.toNat)
    else .ok none) = .ok page.info.nextCursor := hnext
  rw [htaken] at hdata hnext'
  refine ⟨?_, fun h => ?_, fun h => ?_⟩
  · rw [hdata, List.map_map]
    exact List.map_congr_left fun r _ => q.stripHidden_rowOf q.keys r
  · have hne : rows.take n.toNat ≠ [] := by
      intro hnil
      have hlength := congrArg List.length hnil
      rw [List.length_take, List.length_nil] at hlength
      omega
    have hlast := List.getLast?_eq_some_getLast hne
    rw [if_pos (hmore.mpr h), nextCursor_map_rowOf, hlast] at hnext'
    obtain ⟨text, hencode, htext⟩ := map_eq_ok.mp hnext'
    exact ⟨_, text, hlast, htext.symm, hencode⟩
  · rw [if_neg fun h' => h (hmore.mp h')] at hnext'
    exact (Except.ok.inj hnext').symm

-- ---------------------------------------------------------------------------
-- All pages
-- ---------------------------------------------------------------------------

/-- The pages of a walk. Each call has the tables as they stand then and the size of its page, and is
passed the cursor of the page before; the walk ends at a page without one. -/
def walk (g : Engine) (schema : Schema) (q : Query) :
    List (Tables × Int) → Value → Except Failure (List (PageOf Row))
  | [],                   _     => .ok []
  | (tables, n) :: calls, token => do
    let page ← ((q.paginate (some (.ofCursor token n))).runPage g.database schema tables).1
    match page.info.nextCursor with
    | none      => .ok [page]
    | some text => do .ok (page :: (← walk g schema q calls (.text text)))

/-- The rows that are listed when a call is made, and the number of them that its page may have. -/
def listed (q : Query) (g : Engine) (conditions : List Predicate) (call : Tables × Int) :
    List Record × Nat :=
  (g.matching call.1 q.entity.table conditions,
    (Page.clampPerPage call.2 Page.maxPerPage).toNat)

theorem one_le_clampPerPage (n cap : Int) : 1 ≤ Page.clampPerPage n cap := Int.le_max_left _ _

theorem one_le_listed (g : Engine) (conditions : List Predicate) (call : Tables × Int) :
    1 ≤ (q.listed g conditions call).2 := by
  have hn := one_le_clampPerPage call.2 Page.maxPerPage
  show 1 ≤ (Page.clampPerPage call.2 Page.maxPerPage).toNat
  omega

/-- The walk delivers the pages of a walk through the list of the rows that meet the conditions. -/
theorem walk_eq_pages (hplain : ∀ p ∈ q.includes, q.entity.joinsEagerly p = false)
    (hconditions : q.conditions = .ok conditions)
    (hf : ∀ key ∈ q.keys, g.Follows (q.entity.columnNamed key.field))
    {calls : List (Tables × Int)}
    (hkeyed : ∀ call ∈ calls, ∀ r ∈ call.1 q.entity.table, Keyset.IsKeyed q.entity q.keys r)
    {token : Value} {mark : Option Record} (hmark : Marks q.entity q.keys token mark)
    {ps : List (PageOf Row)}
    (hwalk : q.walk g schema calls token = .ok ps) :
    ps.map (fun page => (page.data, page.info.nextCursor.isSome)) =
      (Walk.pages (q.pageLe g) (calls.map (q.listed g conditions)) mark).map
        fun p => (p.1.map q.delivered, p.2) := by
  induction calls generalizing token mark ps with
  | nil =>
    obtain rfl := Except.ok.inj hwalk
    rfl
  | cons call calls ih =>
    obtain ⟨tables, n⟩ := call
    obtain ⟨page, hpage, hrest⟩ := bind_eq_ok.mp hwalk
    have hn := one_le_clampPerPage n Page.maxPerPage
    have hkeyed' := hkeyed (tables, n) List.mem_cons_self
    obtain ⟨hdata, hmore, hlast⟩ : DeliversPage q.delivered q.keys
        (Walk.ahead (q.pageLe g) (g.matching tables q.entity.table conditions) mark)
        (Page.clampPerPage n Page.maxPerPage).toNat page :=
      deliversPage (q := q.paginate (some (.ofCursor token n))) rfl hn hplain hconditions hf hkeyed'
        hmark (Prod.ext hpage rfl)
    rw [List.map_cons, listed]
    by_cases h : (Page.clampPerPage n Page.maxPerPage).toNat <
        (Walk.ahead (q.pageLe g) (g.matching tables q.entity.table conditions) mark).length
    · obtain ⟨x, text, hx, htext, hencode⟩ := hmore h
      rw [htext] at hrest
      obtain ⟨rest, hwalk', heq⟩ := bind_eq_ok.mp hrest
      obtain rfl := Except.ok.inj heq
      -- the next call goes on after the last row of this page
      have hxkeyed : Keyset.IsKeyed q.entity q.keys x :=
        hkeyed' x (List.mem_filter.mp (Walk.mem_of_getLast? hx)).1
      have ih := ih (fun c hc => hkeyed c (List.mem_cons_of_mem _ hc)) (.row hxkeyed hencode) hwalk'
      rw [Walk.pages_more h, List.map_cons, List.map_cons, hx, ih, hdata, htext]
      rfl
    · rw [hlast h] at hrest
      obtain rfl := Except.ok.inj hrest
      rw [Walk.pages_last h, List.map_singleton, List.map_singleton, hdata, hlast h,
        List.take_of_length_le (by omega)]
      rfl

-- ---------------------------------------------------------------------------
-- What a walk delivers
-- ---------------------------------------------------------------------------

/-- Whether two rows have the same primary key, as the engine orders its values. -/
def sameKey (q : Query) (g : Engine) (a b : Record) : Prop :=
  g.le (q.entity.columnNamed q.entity.primaryKey) (a q.entity.primaryKey) (b q.entity.primaryKey) ∧
    g.le (q.entity.columnNamed q.entity.primaryKey) (b q.entity.primaryKey) (a q.entity.primaryKey)

/-- What is asked of the tables of a walk: the key columns hold what they have to, no two rows have
the same primary key, and a row that stays keeps its key values. -/
structure IsStable (q : Query) (g : Engine) (calls : List (Tables × Int)) : Prop where
  keyed  : ∀ call ∈ calls, ∀ r ∈ call.1 q.entity.table, Keyset.IsKeyed q.entity q.keys r
  unique : ∀ call ∈ calls, (call.1 q.entity.table).Pairwise fun a b => ¬q.sameKey g a b
  kept   : ∀ call ∈ calls, ∀ r ∈ call.1 q.entity.table, ∀ call' ∈ calls,
    ∀ r' ∈ call'.1 q.entity.table, q.sameKey g r r' → ∀ key ∈ q.keys, r key.field = r' key.field

/-- Rows that are equal in the order have the same primary key. -/
theorem sameKey_of_pageLe {a b : Record} (ha : Keyset.IsKeyed q.entity q.keys a)
    (hb : Keyset.IsKeyed q.entity q.keys b) (hab : q.pageLe g a b = true)
    (hba : q.pageLe g b a = true) : q.sameKey g a b := by
  obtain ⟨key, hkey, hfield⟩ := List.mem_map.mp q.primaryKey_mem_keys
  have hagree := Engine.keyLe_of_sceneLe hab hba (Keyset.orderKey q.entity key)
    (List.mem_map.mpr ⟨key, hkey, rfl⟩)
  rw [Keyset.orderKey, Keyset.at_columnNamed, Keyset.at_columnNamed, hfield,
    Engine.keyLe_values ha.given hb.given, Engine.keyLe_values hb.given ha.given] at hagree
  dsimp only at hagree
  split at hagree
  · exact hagree.symm
  · exact hagree

theorem isRanked_matching
    (hkeyed : ∀ r ∈ tables q.entity.table, Keyset.IsKeyed q.entity q.keys r)
    (hunique : (tables q.entity.table).Pairwise fun a b => ¬q.sameKey g a b)
    (conditions : List Predicate) :
    Walk.IsRanked (Keyset.IsKeyed q.entity q.keys) (q.pageLe g)
      (g.matching tables q.entity.table conditions) where
  comparable r hr := hkeyed r (List.mem_filter.mp hr).1
  distinct := by
    have hall : (tables q.entity.table).Pairwise fun a b =>
        ¬(q.pageLe g a b = true ∧ q.pageLe g b a = true) := by
      refine hunique.imp_of_mem fun {a b} ha hb hab hle => hab ?_
      exact sameKey_of_pageLe (hkeyed a ha) (hkeyed b hb) hle.1 hle.2
    exact hall.filter _

namespace IsStable

variable {calls : List (Tables × Int)} (h : q.IsStable g calls)

include h

/-- Each call of a walk lists distinct rows. -/
theorem isRanked_listed (conditions : List Predicate) :
    ∀ call ∈ calls.map (q.listed g conditions),
      Walk.IsRanked (Keyset.IsKeyed q.entity q.keys) (q.pageLe g) call.1 := by
  intro call hcall
  obtain ⟨call', hcall', rfl⟩ := List.mem_map.mp hcall
  exact isRanked_matching (h.keyed call' hcall') (h.unique call' hcall') conditions

/-- A row takes the same place at each call, whatever else becomes of it between them. -/
theorem pageLe_congr {a b : Record} (ha : ∃ call ∈ calls, a ∈ call.1 q.entity.table)
    (hb : ∃ call ∈ calls, b ∈ call.1 q.entity.table) (hab : q.sameKey g a b) (x : Record) :
    q.pageLe g b x = q.pageLe g a x := by
  obtain ⟨call, hcall, ha⟩ := ha
  obtain ⟨call', hcall', hb⟩ := hb
  exact Keyset.recordLe_congr
    (fun key hkey => (h.kept call hcall a ha call' hcall' b hb hab key hkey).symm) fun _ _ => rfl

end IsStable

/-- What a walk delivers was listed by the call that delivered it. -/
theorem forall₂_matching (q : Query) (g : Engine) (conditions : List Predicate)
    (calls : List (Tables × Int)) (mark : Option Record) :
    List.Forall₂ (fun call part => ∀ r ∈ part, r ∈ g.matching call.1 q.entity.table conditions)
      (calls.take (Walk.pages (q.pageLe g) (calls.map (q.listed g conditions)) mark).length)
      ((Walk.pages (q.pageLe g) (calls.map (q.listed g conditions)) mark).map (·.1)) := by
  have h := Walk.forall₂_pages (q.pageLe g) (calls.map (q.listed g conditions)) mark
  rw [← List.map_take, List.forall₂_map_left_iff] at h
  exact List.forall₂_map_right_iff.mpr h

/-- Whether the last of some pages has no cursor is whether the walk that they are of has ended. -/
theorem hasEnded_of_pages {ps : List (PageOf Row)} {pages : List (List Record × Bool)}
    (hpages : ps.map (fun page => (page.data, page.info.nextCursor.isSome)) =
      pages.map fun p => (p.1.map q.delivered, p.2)) :
    Walk.hasEnded pages = true ↔
      ∃ page, ps.getLast? = some page ∧ page.info.nextCursor = none := by
  have h := congrArg List.getLast? hpages
  rw [List.getLast?_map, List.getLast?_map] at h
  rw [Walk.hasEnded]
  cases hp : pages.getLast? with
  | none =>
    rw [hp, Option.map_none, Option.map_eq_none_iff] at h
    rw [h]
    refine iff_of_false Bool.false_ne_true ?_
    rintro ⟨page, hpage, -⟩
    cases hpage
  | some p =>
    rw [hp] at h
    obtain ⟨page, hpage, heq⟩ := Option.map_eq_some_iff.mp h
    have hmore : page.info.nextCursor.isSome = p.2 := congrArg Prod.snd heq
    rw [hpage, Option.any_some, ← hmore, Bool.not_eq_true', Option.isSome_eq_false_iff,
      Option.isNone_iff_eq_none]
    constructor
    · intro hnone
      exact ⟨page, rfl, hnone⟩
    · rintro ⟨page', hp', hnone⟩
      exact Option.some.inj hp' ▸ hnone

end Query

end ListQuery
