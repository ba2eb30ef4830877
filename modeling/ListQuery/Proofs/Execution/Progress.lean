import ListQuery.Proofs.Execution.Walk
import ListQuery.Proofs.Execution.Written

/-!
# Walks that reach the end

A walk never fails if the statement of its rows can be written and no integer among its keys has too
many digits: each page is read, and its cursor can be written and is read again. A walk through
tables that stay as they are reaches the end and has then delivered each row once.

* `exists_runPage`, `exists_walk` — every call of a walk delivers a page;
* `exists_complete_walk` — the pages of a walk through one table are a permutation of its rows.
-/

namespace ListQuery

open Sql Database Number

/-- Rows whose integer keys can be written into a cursor. -/
def Keyset.HasShortIntegers (keys : List SortKey) (r : Record) : Prop :=
  ∀ key ∈ keys, ∀ n, r key.field = .int n → digitCount n.natAbs ≤ maxIntegerDigits

namespace Query

variable {g : Engine} {schema : Schema} {tables : Tables} {q : Query} {conditions : List Predicate}

theorem includes_plain (hincludes : q.includes = []) :
    ∀ p ∈ q.includes, q.entity.joinsEagerly p = false := by
  rw [hincludes]
  exact fun p hp => absurd hp List.not_mem_nil

/-- The key values of a row can be written into a cursor. -/
theorem exists_encode_valuesOf {r : Record} (hr : Keyset.IsKeyed q.entity q.keys r)
    (hshort : Keyset.HasShortIntegers q.keys r) :
    ∃ text, Cursor.encode (.record (Keyset.valuesOf q.keys r)) = .ok text := by
  refine Cursor.exists_encode fun e he => ?_
  obtain ⟨key, hkey, rfl⟩ := Keyset.mem_valuesOf he
  have hadmits : (q.entity.typeOf key.field).Admits (r key.field) :=
    (hr.sorts key hkey).imp Value.eq_null_of_isNull And.left
  exact Json.exists_chars hadmits.isScalar (hshort key hkey)

theorem isList_afterMark (mark : Option Record) :
    ∀ p ∈ conditionMarks .sqlite ((q.afterMark mark).flatMap Predicate.conjuncts),
      p.isList = false := by
  cases mark with
  | none => exact fun p hp => absurd hp List.not_mem_nil
  | some x =>
    rw [afterMark, List.flatMap_singleton]
    exact isList_after

/-- A page by cursor is delivered. -/
theorem exists_runPage {token : Value} {n : Int} (hp : q.effectivePage = .cursor token n)
    (hincludes : q.includes = []) (hconditions : q.conditions = .ok conditions)
    (hcheck : (q.rowsStatement schema [] [] conditions).check = .ok ())
    (hf : ∀ key ∈ q.keys, g.Follows (q.entity.columnNamed key.field))
    (hkeyed : ∀ r ∈ tables q.entity.table, Keyset.IsKeyed q.entity q.keys r)
    (hshort : ∀ r ∈ tables q.entity.table, Keyset.HasShortIntegers q.keys r)
    {mark : Option Record} (hmark : Marks q.entity q.keys token mark) :
    ∃ page, q.runPage g.database schema tables = (.ok page, tables) := by
  have hplain := includes_plain hincludes
  have hc : q.compile schema true =
      .ok (q.compiledCursor schema [] conditions (q.afterMark mark) [] n) :=
    (compile_cursor_eq_ok hp).mpr ⟨[], conditions, _, _, joinedTables_eq_nil hplain, hconditions,
      cursorConditions_of_marks hmark, rfl⟩
  have hjoins : (q.compiledCursor schema [] conditions (q.afterMark mark) [] n).joins = [] :=
    eagerJoins_eq_nil hplain
  obtain ⟨rows, hrows, hread⟩ : ∃ rows : List Record, (∀ r ∈ rows, r ∈ tables q.entity.table) ∧
      (fetch g.database (q.compiledCursor schema [] conditions (q.afterMark mark) [] n).joins
        (q.compiledCursor schema [] conditions (q.afterMark mark) [] n).select).run tables =
          (.ok ((rows.take (n + 1).toNat).map (q.rowOf q.keys)), tables) := by
    refine ⟨Walk.ahead (q.pageLe g) (g.matching tables q.entity.table conditions) mark,
      fun r hr => (List.mem_filter.mp (Walk.mem_ahead.mp hr).1).1, ?_⟩
    rw [hjoins]
    exact (fetch_eq_ok (joins_cursorCut _ _ _)).mpr
      ⟨check_cursorCut hcheck hplain q.keys n (isList_afterMark mark),
        (rows_cursorCut schema conditions hplain hf hkeyed hmark n).symm, rfl⟩
  -- the last row of the page has a cursor
  have hnext : ∃ next, nextCursor (q.keys.map (·.field))
      (((rows.take (n + 1).toNat).map (q.rowOf q.keys)).take n.toNat) = .ok next := by
    rw [← List.map_take, nextCursor_map_rowOf]
    cases hlast : ((rows.take (n + 1).toNat).take n.toNat).getLast? with
    | none => exact ⟨none, rfl⟩
    | some r =>
      have hr : r ∈ tables q.entity.table := hrows r
        (List.mem_of_mem_take (List.mem_of_mem_take (List.mem_of_mem_getLast? hlast)))
      obtain ⟨text, htext⟩ := exists_encode_valuesOf (hkeyed r hr) (hshort r hr)
      exact ⟨some text, map_eq_ok.mpr ⟨text, htext, rfl⟩⟩
  have htoken : token.isOptionalText = true := by
    cases hmark <;> rfl
  obtain ⟨next, hnext⟩ := hnext
  have hcut : ∃ next', (if n < ((rows.take (n + 1).toNat).map (q.rowOf q.keys)).length then
      nextCursor (q.compiledCursor schema [] conditions (q.afterMark mark) [] n).keyColumns
        (((rows.take (n + 1).toNat).map (q.rowOf q.keys)).take n.toNat) else .ok none) =
          .ok next' := by
    split
    · exact ⟨next, hnext⟩
    · exact ⟨none, rfl⟩
  obtain ⟨next', hcut⟩ := hcut
  obtain ⟨page, hpage, -⟩ := exists_runPage_cursor hp hincludes hc hread hcut htoken
  exact ⟨page, hpage⟩

/-- Every call of a walk delivers its page. -/
theorem exists_walk (hincludes : q.includes = []) (hconditions : q.conditions = .ok conditions)
    (hcheck : (q.rowsStatement schema [] [] conditions).check = .ok ())
    (hf : ∀ key ∈ q.keys, g.Follows (q.entity.columnNamed key.field))
    {calls : List (Tables × Int)}
    (hkeyed : ∀ call ∈ calls, ∀ r ∈ call.1 q.entity.table, Keyset.IsKeyed q.entity q.keys r)
    (hshort : ∀ call ∈ calls, ∀ r ∈ call.1 q.entity.table, Keyset.HasShortIntegers q.keys r)
    {token : Value} {mark : Option Record} (hmark : Marks q.entity q.keys token mark) :
    ∃ ps, q.walk g schema calls token = .ok ps := by
  induction calls generalizing token mark with
  | nil => exact ⟨[], rfl⟩
  | cons call calls ih =>
    obtain ⟨tables, n⟩ := call
    have hplain := includes_plain hincludes
    have hkeyed' := hkeyed (tables, n) List.mem_cons_self
    obtain ⟨page, hpage⟩ := exists_runPage (q := q.paginate (some (.ofCursor token n))) rfl hincludes
      hconditions hcheck hf hkeyed' (hshort (tables, n) List.mem_cons_self) hmark
    have hdelivers : DeliversPage q.delivered q.keys
        (Walk.ahead (q.pageLe g) (g.matching tables q.entity.table conditions) mark)
        (Page.clampPerPage n Page.maxPerPage).toNat page :=
      deliversPage (q := q.paginate (some (.ofCursor token n))) rfl (one_le_clampPerPage _ _) hplain
        hconditions hf hkeyed' hmark hpage
    rw [walk, hpage]
    cases hnext : page.info.nextCursor with
    | none => exact ⟨[page], by simp only [bind, Except.bind, hnext]⟩
    | some text =>
      obtain ⟨x, text', hx, htext, hencode⟩ := hdelivers.more (by
        by_contra hlast
        rw [hdelivers.last hlast] at hnext
        cases hnext)
      obtain rfl : text' = text := Option.some.inj (htext.symm.trans hnext)
      have hxkeyed : Keyset.IsKeyed q.entity q.keys x :=
        hkeyed' x (List.mem_filter.mp (Walk.mem_of_getLast? hx)).1
      obtain ⟨ps, hps⟩ := ih (fun c hc => hkeyed c (List.mem_cons_of_mem _ hc))
        (fun c hc => hshort c (List.mem_cons_of_mem _ hc)) (.row hxkeyed hencode)
      exact ⟨page :: ps, by simp only [bind, Except.bind, hnext, hps]⟩

/-- A walk through tables that stay as they are ends, and its pages hold the rows that meet the
conditions, each once. -/
theorem exists_complete_walk (hincludes : q.includes = [])
    (hconditions : q.conditions = .ok conditions)
    (hcheck : (q.rowsStatement schema [] [] conditions).check = .ok ())
    (hf : ∀ key ∈ q.keys, g.Follows (q.entity.columnNamed key.field))
    (hkeyed : ∀ r ∈ tables q.entity.table, Keyset.IsKeyed q.entity q.keys r)
    (hshort : ∀ r ∈ tables q.entity.table, Keyset.HasShortIntegers q.keys r)
    (hunique : (tables q.entity.table).Pairwise fun a b => ¬q.sameKey g a b) (n : Int) {k : Nat}
    (hk : (g.matching tables q.entity.table conditions).length < k) :
    ∃ ps, q.walk g schema (List.replicate k (tables, n)) .null = .ok ps ∧
      (∃ page, ps.getLast? = some page ∧ page.info.nextCursor = none) ∧
      (ps.flatMap (·.data)).Perm ((g.matching tables q.entity.table conditions).map q.delivered) := by
  have hcalls : ∀ call ∈ List.replicate k (tables, n), call = (tables, n) := fun call hcall =>
    List.eq_of_mem_replicate hcall
  have hkeyed' : ∀ call ∈ List.replicate k (tables, n), ∀ r ∈ call.1 q.entity.table,
      Keyset.IsKeyed q.entity q.keys r := by
    intro call hcall
    rw [hcalls call hcall]
    exact hkeyed
  have hshort' : ∀ call ∈ List.replicate k (tables, n), ∀ r ∈ call.1 q.entity.table,
      Keyset.HasShortIntegers q.keys r := by
    intro call hcall
    rw [hcalls call hcall]
    exact hshort
  have hplain := includes_plain hincludes
  obtain ⟨ps, hwalk⟩ := exists_walk hincludes hconditions hcheck hf hkeyed' hshort' .start
  have hpages := walk_eq_pages hplain hconditions hf hkeyed' .start hwalk
  have htotal : IsTotalOn (q.pageLe g) (Keyset.IsKeyed q.entity q.keys) :=
    Keyset.isTotalOn_recordLe hf
  have hranked : Walk.IsRanked (Keyset.IsKeyed q.entity q.keys) (q.pageLe g)
      (g.matching tables q.entity.table conditions) :=
    isRanked_matching hkeyed hunique conditions
  have hn : 1 ≤ (q.listed g conditions (tables, n)).2 := one_le_listed g conditions (tables, n)
  rw [List.map_replicate] at hpages
  have hperm := Walk.perm_delivered_replicate htotal hranked hn hk
  have hended := Walk.hasEnded_replicate htotal hranked hn
    (fun y hy => absurd hy (Option.not_mem_none y))
    (Nat.lt_of_le_of_lt (Walk.length_ahead_le _ none) hk)
  refine ⟨ps, hwalk, (hasEnded_of_pages hpages).mp hended, ?_⟩
  -- the data are those of the walk through the list
  have hdata : ps.flatMap (·.data) = (Walk.delivered (Walk.pages (q.pageLe g)
      (List.replicate k (q.listed g conditions (tables, n))) none)).map q.delivered := by
    have h := congrArg (List.flatMap Prod.fst) hpages
    rw [List.flatMap_map, List.flatMap_map] at h
    rw [Walk.delivered, List.map_flatMap]
    exact h
  rw [hdata]
  exact hperm.map _

end Query

-- ---------------------------------------------------------------------------
-- Ranked items
-- ---------------------------------------------------------------------------

/-- Items with an optional rank, of which only the key is delivered. -/
def Entity.ranked : Entity where
  table            := "items"
  filterFields     := []
  sortFields       := ["rank"]
  selectFields     := ["id"]
  includePaths     := []
  defaultSort      := none
  defaultSelection := some ["id"]
  searchFields     := []
  primaryKey       := "id"
  softDelete       := none
  types            := [("id", .integer), ("rank", .integer)]
  relations        := []

/-- The items, those of the highest rank first. -/
def Query.ranked : Query := { entity := .ranked, sorts := [⟨"rank", .descending⟩] }

theorem Query.keys_ranked :
    Query.ranked.keys = [⟨"rank", .descending⟩, ⟨"id", .ascending⟩] := rfl

def Sql.Record.ranked (item : Int × Option Int) : Record := fun name =>
  if name = "id" then .int item.1 else .optional .int item.2

def Sql.Tables.ranked (items : List (Int × Option Int)) : Tables := fun _ => items.map .ranked

theorem Sql.Engine.follows_ranked :
    ∀ key ∈ Query.ranked.keys, integers.Follows (Entity.ranked.columnNamed key.field) := by
  rw [Query.keys_ranked]
  intro key hkey
  refine follows_integers ?_
  rcases List.mem_cons.mp hkey with rfl | hkey
  · rfl
  · obtain rfl := List.mem_singleton.mp hkey
    rfl

theorem Keyset.isKeyed_ranked (item : Int × Option Int) :
    IsKeyed .ranked Query.ranked.keys (.ranked item) := by
  refine ⟨?_, rfl⟩
  rw [Query.keys_ranked]
  intro key hkey
  rcases List.mem_cons.mp hkey with rfl | hkey
  · obtain ⟨id, rank⟩ := item
    cases rank with
    | none => exact .inl rfl
    | some n => exact .inr ⟨rfl, trivial, trivial⟩
  · obtain rfl := List.mem_singleton.mp hkey
    exact .inr ⟨rfl, trivial, trivial⟩

theorem Query.sameKey_ranked (a b : Int × Option Int) :
    Query.ranked.sameKey .integers (.ranked a) (.ranked b) ↔ a.1 = b.1 := by
  show decide (a.1 ≤ b.1) = true ∧ decide (b.1 ≤ a.1) = true ↔ _
  rw [decide_eq_true_eq, decide_eq_true_eq]
  omega

/-- The calls of a walk through the items, with the size of each page. -/
def Query.rankedCalls (calls : List (List (Int × Option Int) × Int)) : List (Tables × Int) :=
  calls.map fun call => (.ranked call.1, call.2)

section
variable {calls : List (List (Int × Option Int) × Int)}

theorem Query.exists_of_mem_rankedCalls {call : Tables × Int} {r : Record}
    (hcall : call ∈ Query.rankedCalls calls) (hr : r ∈ call.1 Entity.ranked.table) :
    ∃ items ∈ calls, ∃ item ∈ items.1, r = .ranked item := by
  obtain ⟨items, hitems, rfl⟩ := List.mem_map.mp hcall
  obtain ⟨item, hitem, rfl⟩ := List.mem_map.mp hr
  exact ⟨items, hitems, item, hitem, rfl⟩

theorem Query.isStable_ranked (hunique : ∀ items ∈ calls, (items.1.map (·.1)).Nodup)
    (hkept : ∀ items ∈ calls, ∀ a ∈ items.1, ∀ items' ∈ calls, ∀ b ∈ items'.1,
      a.1 = b.1 → a = b) :
    Query.ranked.IsStable .integers (Query.rankedCalls calls) where
  keyed := by
    intro call hcall r hr
    obtain ⟨items, -, item, -, rfl⟩ := exists_of_mem_rankedCalls hcall hr
    exact Keyset.isKeyed_ranked item
  unique := by
    intro call hcall
    obtain ⟨items, hitems, rfl⟩ := List.mem_map.mp hcall
    have h := List.pairwise_map.mp (hunique items hitems)
    refine List.pairwise_map.mpr (h.imp fun {a b} hab hsame => hab ?_)
    exact (sameKey_ranked a b).mp hsame
  kept := by
    intro call hcall r hr call' hcall' r' hr' hsame key _
    obtain ⟨items, hitems, a, ha, rfl⟩ := exists_of_mem_rankedCalls hcall hr
    obtain ⟨items', hitems', b, hb, rfl⟩ := exists_of_mem_rankedCalls hcall' hr'
    rw [hkept items hitems a ha items' hitems' b hb ((sameKey_ranked a b).mp hsame)]

/-- Items whose numbers are not too long for a cursor. -/
def IsShortItem (item : Int × Option Int) : Prop :=
  digitCount item.1.natAbs ≤ maxIntegerDigits ∧
    ∀ n ∈ item.2, digitCount n.natAbs ≤ maxIntegerDigits

instance (item : Int × Option Int) : Decidable (IsShortItem item) := by
  unfold IsShortItem
  infer_instance

theorem IsShortItem.hasShortIntegers {item : Int × Option Int} (h : IsShortItem item) :
    Keyset.HasShortIntegers Query.ranked.keys (.ranked item) := by
  rw [Keyset.HasShortIntegers, Query.keys_ranked]
  intro key hkey n hn
  rcases List.mem_cons.mp hkey with rfl | hkey
  · obtain ⟨id, rank⟩ := item
    cases rank with
    | none => cases hn
    | some m =>
      obtain rfl := Value.int.inj hn
      exact h.2 m rfl
  · obtain rfl := List.mem_singleton.mp hkey
    obtain rfl := Value.int.inj hn
    exact h.1

end

-- ---------------------------------------------------------------------------
-- What a walk delivers
-- ---------------------------------------------------------------------------

namespace Query

variable {g : Engine} {schema : Schema} {q : Query} {conditions : List Predicate}

/-- A walk delivers the rows that meet the conditions in the order of its pages, none of them twice,
whatever is inserted or deleted between its calls. If it has ended, every row was delivered that met
the conditions at each call. -/
theorem walk_delivers {calls : List (Tables × Int)} {ps : List (PageOf Row)}
    (hplain : ∀ p ∈ q.includes, q.entity.joinsEagerly p = false)
    (hconditions : q.conditions = .ok conditions)
    (hf : ∀ key ∈ q.keys, g.Follows (q.entity.columnNamed key.field))
    (hstable : q.IsStable g calls) (hwalk : q.walk g schema calls .null = .ok ps) :
    ∃ parts : List (List Record),
      ps.map (·.data) = parts.map (·.map q.delivered) ∧
      List.Forall₂ (fun call part => ∀ r ∈ part, r ∈ g.matching call.1 q.entity.table conditions)
        (calls.take ps.length) parts ∧
      parts.flatten.Pairwise (fun a b => g.sceneLe (q.orderBy q.keys)
        (Scene.single q.entity.table b) (Scene.single q.entity.table a) = false) ∧
      parts.flatten.Pairwise (fun a b => ¬q.sameKey g a b) ∧
      ((∃ page, ps.getLast? = some page ∧ page.info.nextCursor = none) →
        ∀ first ∈ calls, ∀ r ∈ first.1 q.entity.table,
          (∀ call ∈ calls.take ps.length, ∃ r' ∈ g.matching call.1 q.entity.table conditions,
            q.sameKey g r r') →
          ∃ r' ∈ parts.flatten, q.sameKey g r r') := by
  have hpages := walk_eq_pages hplain hconditions hf hstable.keyed .start hwalk
  have htotal : IsTotalOn (q.pageLe g) (Keyset.IsKeyed q.entity q.keys) :=
    Keyset.isTotalOn_recordLe hf
  have hranked := hstable.isRanked_listed conditions
  have hsize : ∀ call ∈ calls.map (q.listed g conditions), 1 ≤ call.2 :=
    List.forall_mem_map.mpr fun call _ => one_le_listed g conditions call
  have hparts := forall₂_matching q g conditions calls none
  have hstrict : (Walk.delivered (Walk.pages (q.pageLe g) (calls.map (q.listed g conditions))
      none)).Pairwise fun a b => q.pageLe g b a = false := Walk.pairwise_pages htotal hranked hsize
  have hcomplete := @Walk.mem_pages_of_ended _ _ _ _ none htotal hranked hsize
  rw [Walk.delivered, List.flatMap_def] at hstrict hcomplete
  generalize Walk.pages (q.pageLe g) (calls.map (q.listed g conditions)) none = pages at *
  have hlength : pages.length = ps.length := by
    have h := congrArg List.length hpages
    rw [List.length_map, List.length_map] at h
    exact h.symm
  rw [hlength] at hparts hcomplete
  have hlisted : ∀ r ∈ (pages.map (·.1)).flatten, ∃ call ∈ calls, r ∈ call.1 q.entity.table := by
    intro r hr
    obtain ⟨part, hpart, hr⟩ := List.mem_flatten.mp hr
    obtain ⟨call, hcall, hall⟩ := exists_of_mem_forall₂ hparts hpart
    exact ⟨call, List.mem_of_mem_take hcall, (List.mem_filter.mp (hall r hr)).1⟩
  refine ⟨pages.map (·.1), ?data, hparts, ?ordered, ?distinct, ?complete⟩
  case data =>
    have h := congrArg (List.map Prod.fst) hpages
    rw [List.map_map, List.map_map] at h
    rw [List.map_map]
    exact h
  case ordered =>
    rw [q.orderBy_keys q.keys_ne_nil]
    exact hstrict
  case distinct =>
    refine hstrict.imp_of_mem fun {a b} ha hb hab hsame => ?_
    obtain ⟨call, hcall, hmem⟩ := hlisted a ha
    rw [hstable.pageLe_congr (hlisted a ha) (hlisted b hb) hsame a,
      htotal.refl (hstable.keyed call hcall a hmem)] at hab
    cases hab
  case complete =>
    intro hlast first hfirst r hr hpresent
    -- at each call the row had a stand-in with its primary key
    have hstands : ∀ call ∈ (calls.map (q.listed g conditions)).take ps.length,
        ∃ b ∈ call.1, q.sameKey g r b ∧ ∃ call ∈ calls, b ∈ call.1 q.entity.table := by
      rw [← List.map_take]
      intro call hcall
      obtain ⟨call', hcall', rfl⟩ := List.mem_map.mp hcall
      obtain ⟨r', hr', hsame⟩ := hpresent call' hcall'
      exact ⟨r', hr', hsame, call', List.mem_of_mem_take hcall', (List.mem_filter.mp hr').1⟩
    obtain ⟨b, hb, hsame, -⟩ := hcomplete ((hasEnded_of_pages hpages).mpr hlast) (a := r) rfl
      (fun b hb => hstable.pageLe_congr ⟨first, hfirst, hr⟩ hb.2 hb.1) hstands
    exact ⟨b, hb, hsame⟩

/-- Two calls, between which an item is deleted and another one inserted. -/
def editedItems : List (List (Int × Option Int) × Int) :=
  [([(1, some 7), (2, none), (3, some 7)], 1), ([(2, none), (3, some 7), (4, some 9)], 1)]

theorem walk_delivers_editedItems :
    ∃ (ps : List (PageOf Row)) (parts : List (List Record)),
      ranked.walk .integers [] (rankedCalls editedItems) .null = .ok ps ∧
      ps.map (·.data) = parts.map (·.map ranked.delivered) ∧
      parts.flatten.Pairwise fun a b => ¬ranked.sameKey .integers a b := by
  have hstable : ranked.IsStable .integers (rankedCalls editedItems) :=
    isStable_ranked (by decide) (by decide)
  have hitems : ∀ items ∈ editedItems, ∀ item ∈ items.1, IsShortItem item := by decide
  have hshort : ∀ call ∈ rankedCalls editedItems, ∀ r ∈ call.1 Entity.ranked.table,
      Keyset.HasShortIntegers ranked.keys r := by
    intro call hcall r hr
    obtain ⟨items, h, item, hitem, rfl⟩ := exists_of_mem_rankedCalls hcall hr
    exact (hitems items h item hitem).hasShortIntegers
  obtain ⟨ps, hwalk⟩ : ∃ ps, ranked.walk .integers [] (rankedCalls editedItems) .null = .ok ps :=
    exists_walk rfl rfl rfl Engine.follows_ranked hstable.keyed hshort .start
  obtain ⟨parts, hdata, -, -, hdistinct, -⟩ :=
    walk_delivers (includes_plain rfl) rfl Engine.follows_ranked hstable hwalk
  exact ⟨ps, parts, hwalk, hdata, hdistinct⟩

end Query

end ListQuery
