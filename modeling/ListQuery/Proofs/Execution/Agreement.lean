import ListQuery.Proofs.Execution.Progress
import ListQuery.Proofs.Paging.PageCount

/-!
# The ways to run a query agree

Without includes, all ways to run a query on tables that stay as they are read the same rows in the
same order: all of them, their number, the first one, and the pages by number and by cursor. The
statements differ, yet the conditions are the same in all of them, the order is the same in all but
the pages by cursor, and only the cut and the hidden columns differ.

* `run_rowsWork`, `run_countWork`, `exists_numberedPage` — what each way reads;
* `entryPoints_agree` — the ways agree.
-/

namespace ListQuery

open Sql Database

-- ---------------------------------------------------------------------------
-- Parts of a list and pages
-- ---------------------------------------------------------------------------

theorem flatMap_range_take {α : Type} (rows : List α) (n pages : Nat) :
    (List.range pages).flatMap (fun i => (rows.drop (i * n)).take n) = rows.take (pages * n) := by
  induction pages with
  | zero =>
    rw [Nat.zero_mul, List.take_zero]
    rfl
  | succ pages ih =>
    rw [List.range_succ, List.flatMap_append, ih, List.flatMap_singleton, Nat.succ_mul,
      ← List.take_add]

theorem le_ceil_mul (total n : Nat) (hn : 1 ≤ n) : total ≤ (total + n - 1) / n * n := by
  have hdiv := Nat.div_add_mod (total + n - 1) n
  have hmod := Nat.mod_lt (total + n - 1) hn
  rw [Nat.mul_comm] at hdiv
  omega

/-- What the pages by number of one size hold: each the number of all rows and of the pages, and
together just these rows. -/
structure ArePages (all : List Row) (page : Int → PageOf Row) (count : Nat) : Prop where
  total      : ∀ number, (page number).info.total = some (all.length : Int)
  totalPages : ∀ number, (page number).info.totalPages = some (count : Int)
  joined     : (List.range count).flatMap (fun i : Nat => (page (i + 1)).data) = all
  beyond     : ∀ number : Int, count < number → (page number).data = []

section
variable {all : List Row} {page : Int → PageOf Row} {n total : Nat}

theorem flatMap_pages (hn : 1 ≤ n) (htotal : all.length = total)
    (hdata : ∀ number, (page number).data = (all.drop ((max 1 number - 1).toNat * n)).take n) :
    (List.range ((total + n - 1) / n)).flatMap (fun i : Nat => (page (i + 1)).data) = all := by
  have hparts : (fun i : Nat => (page (i + 1)).data) = fun i => (all.drop (i * n)).take n := by
    funext i
    rw [hdata, show (max 1 ((i : Int) + 1) - 1).toNat = i by omega]
  rw [hparts, flatMap_range_take]
  exact List.take_of_length_le (htotal ▸ le_ceil_mul total n hn)

theorem data_beyond (hn : 1 ≤ n) (htotal : all.length = total)
    (hdata : ∀ number, (page number).data = (all.drop ((max 1 number - 1).toNat * n)).take n)
    {number : Int} (hnumber : ((total + n - 1) / n : Nat) < number) : (page number).data = [] := by
  have hskipped : (total + n - 1) / n ≤ (max 1 number - 1).toNat := by omega
  have hall : all.length ≤ (max 1 number - 1).toNat * n := by
    rw [htotal]
    exact Nat.le_trans (le_ceil_mul total n hn) (Nat.mul_le_mul_right n hskipped)
  rw [hdata, List.drop_eq_nil_of_le hall, List.take_nil]

end

/-- A page by number is made once its pages are counted. -/
theorem exists_ofNumber (number n total : Int) (data : List Row) {count : Int}
    (hcount : pageCount total n = .ok count) :
    ∃ page, PageOf.ofNumber number n total data = .ok page ∧ page.data = data ∧
      page.info.total = some total ∧ page.info.totalPages = some count := by
  rw [PageOf.ofNumber, PageInfo.ofNumber, hcount]
  exact ⟨_, rfl, rfl, rfl, rfl⟩

namespace Query

variable {g : Engine} {schema : Schema} {tables : Tables} {q : Query} {conditions : List Predicate}

/-- The rows of the query in the order of its sorts. -/
def allRecords (q : Query) (g : Engine) (tables : Tables) (conditions : List Predicate) :
    List Record :=
  (g.matching tables q.entity.table conditions).mergeSort fun a b =>
    g.sceneLe (q.orderBy []) (Scene.single q.entity.table a) (Scene.single q.entity.table b)

-- ---------------------------------------------------------------------------
-- The single ways
-- ---------------------------------------------------------------------------

section
variable (hincludes : q.includes = []) (hconditions : q.conditions = .ok conditions)
  (hcheck : (q.rowsStatement schema [] [] conditions).check = .ok ())

include hincludes

/-- What a cut of all rows reads. -/
theorem rows_cut (limit offset : Option Int) :
    g.rows tables { q.rowsStatement schema [] [] conditions with limit, offset } =
      (Engine.cut limit offset (q.allRecords g tables conditions)).map (q.rowOf []) := by
  rw [Engine.rows_single rfl rfl rfl,
    outputs_eq_map (includes_plain hincludes)]
  rfl

theorem run_loadIncluded {σ : Type} (db : Database σ) (rows : List Row) (st : σ) :
    (q.loadIncluded db schema rows).run st = (.ok [], st) := by
  rw [loadIncluded, hincludes]
  rfl

include hconditions in
theorem compile_all :
    q.compile schema false = .ok (q.compiledWith schema [] [] conditions) :=
  compile_all_eq_ok.mpr
    ⟨[], conditions, joinedTables_eq_nil (includes_plain hincludes), hconditions, rfl⟩

include hconditions hcheck in
/-- The rows up to a limit are delivered in order. -/
theorem run_rowsWork (limit : Option Int) :
    (q.rowsWork g.database schema limit).run tables =
      (.ok ((Engine.cut limit none (q.allRecords g tables conditions)).map q.delivered),
        tables) := by
  have hread : (fetch g.database [] { q.rowsStatement schema [] [] conditions with limit }).run
      tables = (.ok ((Engine.cut limit none (q.allRecords g tables conditions)).map (q.rowOf [])),
        tables) :=
    (fetch_eq_ok rfl).mpr ⟨check_cut hcheck limit none, (rows_cut hincludes limit none).symm, rfl⟩
  rw [rowsWork, run_pureStep_bind_eq_ok]
  refine ⟨_, compile_all hincludes hconditions, ?_⟩
  refine run_bind_eq_ok.mpr
    ⟨(Engine.cut limit none (q.allRecords g tables conditions)).map (q.rowOf []), tables, ?_, ?_⟩
  · have hjoins : (q.compiledWith schema [] [] conditions).joins = [] :=
      eagerJoins_eq_nil (includes_plain hincludes)
    rw [hjoins]
    cases limit <;> exact hread
  rw [run_bind_eq_ok]
  refine ⟨[], tables, run_loadIncluded hincludes _ _ _, ?_⟩
  rw [run_pureStep_bind_eq_ok]
  refine ⟨_, mapM_ok id _, ?_⟩
  rw [List.map_id, run_pure, List.map_map]
  refine congrArg (fun rows => (Except.ok rows, tables)) (List.map_congr_left fun r _ => ?_)
  exact q.stripHidden_rowOf [] r

omit hincludes in
include hcheck in
theorem run_readTotal :
    (g.database.readNumber (q.countStatement conditions)).run tables =
      (.ok ((q.allRecords g tables conditions).length : Int), tables) := by
  have htotal : (q.allRecords g tables conditions).length =
      (g.matching tables q.entity.table conditions).length := List.length_mergeSort _
  rw [run_readNumber_count, check_count hcheck, htotal]
  rfl

include hconditions hcheck in
theorem run_countWork :
    (q.countWork g.database schema).run tables =
      (.ok ((q.allRecords g tables conditions).length : Int), tables) := by
  rw [countWork, run_pureStep_bind_eq_ok]
  exact ⟨_, compile_all hincludes hconditions, run_readTotal hcheck⟩

-- ---------------------------------------------------------------------------
-- Pages by number
-- ---------------------------------------------------------------------------

include hconditions hcheck in
/-- A page by number is delivered. -/
theorem exists_numberedPage {number n count : Int} (hp : q.effectivePage = .offset number n)
    (hcount : pageCount (q.allRecords g tables conditions).length n = .ok count) :
    ∃ page, q.runPage g.database schema tables = (.ok page, tables) ∧
      page.data = (Engine.cut (some n) (some ((number - 1) * n))
        (q.allRecords g tables conditions)).map q.delivered ∧
      page.info.total = some ((q.allRecords g tables conditions).length : Int) ∧
      page.info.totalPages = some count := by
  have hplain := includes_plain hincludes
  have hc : q.compile schema true = .ok (q.compiledNumbered schema [] conditions number n) :=
    (compile_numbered_eq_ok hp).mpr
      ⟨[], conditions, joinedTables_eq_nil hplain, hconditions, rfl⟩
  have hread : (fetch g.database (q.eagerJoins schema)
      (numberedCut (q.rowsStatement schema [] [] conditions) number n)).run tables =
        (.ok ((Engine.cut (some n) (some ((number - 1) * n))
          (q.allRecords g tables conditions)).map (q.rowOf [])), tables) := by
    rw [eagerJoins_eq_nil hplain]
    exact (fetch_eq_ok rfl).mpr
      ⟨check_cut hcheck (some n) _, (rows_cut hincludes (some n) _).symm, rfl⟩
  have hdata : ((Engine.cut (some n) (some ((number - 1) * n))
      (q.allRecords g tables conditions)).map (q.rowOf [])).map
        (Row.stripHidden (q.hiddenFor [])) =
      (Engine.cut (some n) (some ((number - 1) * n))
        (q.allRecords g tables conditions)).map q.delivered := by
    rw [List.map_map]
    exact List.map_congr_left fun r _ => q.stripHidden_rowOf [] r
  obtain ⟨page, hpage, hpart, hinfo⟩ := exists_ofNumber number n
    (q.allRecords g tables conditions).length
    ((Engine.cut (some n) (some ((number - 1) * n))
      (q.allRecords g tables conditions)).map q.delivered) hcount
  refine ⟨{ page with included := [], warnings := [] }, ?_, hpart, hinfo⟩
  refine withConnection_eq_ok g.database |>.mpr ⟨tables, ?_, rfl⟩
  rw [pageWork, run_pureStep_bind_eq_ok]
  refine ⟨_, hc, ?_⟩
  have hpage' : (q.compiledNumbered schema [] conditions number n).page = .offset number n := hp
  rw [hpage']
  show (q.numberedPage g.database schema (q.compiledNumbered schema [] conditions number n)
    number n).run tables = _
  rw [numberedPage, run_bind_eq_ok]
  refine ⟨_, tables, run_readTotal hcheck, ?_⟩
  rw [run_bind_eq_ok]
  refine ⟨_, tables, hread, ?_⟩
  rw [run_bind_eq_ok]
  refine ⟨[], tables, run_loadIncluded hincludes _ _ _, ?_⟩
  rw [run_pureStep_bind_eq_ok]
  refine ⟨page, ?_, rfl⟩
  exact (congrArg _ hdata).trans hpage

include hconditions hcheck in
/-- The pages by number of any size. -/
theorem exists_numberedPages (hsize : (q.allRecords g tables conditions).length ≤ 2 ^ 53)
    (perPage : Int) :
    ∃ page count, (∀ number, (q.paginate (some (.ofNumber number perPage))).runPage g.database schema
      tables = (.ok (page number), tables)) ∧
      ArePages ((q.allRecords g tables conditions).map q.delivered) page count := by
  obtain ⟨n, hn⟩ : ∃ n : Nat, Page.clampPerPage perPage Page.maxPerPage = n :=
    ⟨_, (Int.toNat_of_nonneg (by rw [Page.clampPerPage]; omega)).symm⟩
  have hbounds : 1 ≤ n ∧ n ≤ 100 := by
    rw [Page.clampPerPage, Page.maxPerPage] at hn
    omega
  have hcount : pageCount (q.allRecords g tables conditions).length n = .ok _ :=
    pageCount_eq hsize (by omega) (by omega)
  have hpage : ∀ number : Int, ∃ page,
      (q.paginate (some (.ofNumber number perPage))).runPage g.database schema tables =
        (.ok page, tables) ∧ _ := fun number =>
    have hp : (q.paginate (some (.ofNumber number perPage))).effectivePage =
        .offset (max 1 number) n := by
      rw [← hn]
      rfl
    exists_numberedPage (q := q.paginate (some (.ofNumber number perPage))) hincludes hconditions
      hcheck hp hcount
  choose page hrun hdata htotal hpages using hpage
  have hcut : ∀ number, (page number).data =
      (((q.allRecords g tables conditions).map q.delivered).drop
        ((max 1 number - 1).toNat * n)).take n := by
    intro number
    rw [hdata, Engine.cut, List.map_take, List.map_drop, Option.getD_some, Int.toNat_natCast]
    rw [Int.toNat_mul (by omega) (Int.natCast_nonneg n), Int.toNat_natCast]
    rfl
  refine ⟨page, _, hrun, ?_, hpages, flatMap_pages hbounds.1 (List.length_map _) hcut, ?_⟩
  · intro number
    rw [htotal, List.length_map]
    rfl
  · exact fun number hnumber => data_beyond hbounds.1 (List.length_map _) hcut hnumber

-- ---------------------------------------------------------------------------
-- All ways
-- ---------------------------------------------------------------------------

end

/-- Tables through which a walk by cursor can go: keys that an engine compares as it orders them and
that a cursor can hold, and one row to each primary key. -/
structure IsWalkable (q : Query) (g : Engine) (tables : Tables) : Prop where
  follows : ∀ key ∈ q.keys, g.Follows (q.entity.columnNamed key.field)
  keyed   : ∀ r ∈ tables q.entity.table, Keyset.IsKeyed q.entity q.keys r
  short   : ∀ r ∈ tables q.entity.table, Keyset.HasShortIntegers q.keys r
  unique  : (tables q.entity.table).Pairwise fun a b => ¬q.sameKey g a b

/-- All rows, their number, the first one, the pages by number and those by cursor agree. -/
theorem entryPoints_agree {c : Compiled} (hincludes : q.includes = [])
    (hc : q.compile schema false = .ok c) (hcheck : c.select.check = .ok ()) (tables : Tables) :
    ∃ all, q.runAll g.database schema tables = (.ok all, tables) ∧
      q.runCount g.database schema tables = (.ok (all.length : Int), tables) ∧
      q.runFirst g.database schema tables = (.ok all.head?, tables) ∧
      (all.length ≤ 2 ^ 53 → ∀ perPage, ∃ page count,
        (∀ number, (q.paginate (some (.ofNumber number perPage))).runPage g.database schema tables =
          (.ok (page number), tables)) ∧ ArePages all page count) ∧
      (q.IsWalkable g tables → ∀ perPage calls, all.length < calls →
        ∃ pages, q.walk g schema (List.replicate calls (tables, perPage)) .null = .ok pages ∧
          (∃ page, pages.getLast? = some page ∧ page.info.nextCursor = none) ∧
          (pages.flatMap (·.data)).Perm all) := by
  obtain ⟨joined, conditions, hjoined, hconditions, rfl⟩ := compile_all_eq_ok.mp hc
  obtain rfl : joined = [] :=
    (Except.ok.inj ((joinedTables_eq_nil (includes_plain hincludes)).symm.trans hjoined)).symm
  have hrows : ∀ limit, (q.rowsWork g.database schema limit).run tables = _ :=
    run_rowsWork hincludes hconditions hcheck
  have hcount : (q.countWork g.database schema).run tables = _ :=
    run_countWork hincludes hconditions hcheck
  refine ⟨(q.allRecords g tables conditions).map q.delivered, ?_, ?_, ?_, ?_, ?_⟩
  · exact withConnection_eq_ok g.database |>.mpr ⟨tables, hrows none, rfl⟩
  · rw [List.length_map]
    exact withConnection_eq_ok g.database |>.mpr ⟨tables, hcount, rfl⟩
  · refine withConnection_eq_ok g.database |>.mpr ⟨tables, ?_, rfl⟩
    refine run_map_eq_ok.mpr ⟨_, hrows (some 1), ?_⟩
    rw [List.head?_map, List.head?_map]
    exact congrArg (Option.map _) List.head?_take
  · intro hsize
    rw [List.length_map] at hsize
    exact exists_numberedPages hincludes hconditions hcheck hsize
  · intro h perPage calls hcalls
    have hperm : (q.allRecords g tables conditions).Perm
        (g.matching tables q.entity.table conditions) := List.mergeSort_perm _ _
    rw [List.length_map, hperm.length_eq] at hcalls
    obtain ⟨pages, hwalk, hlast, hdata⟩ := exists_complete_walk hincludes hconditions hcheck
      h.follows h.keyed h.short h.unique perPage hcalls
    exact ⟨pages, hwalk, hlast, hdata.trans (hperm.map _).symm⟩

theorem isWalkable_ranked {items : List (Int × Option Int)} (hunique : (items.map (·.1)).Nodup)
    (hshort : ∀ item ∈ items, IsShortItem item) :
    ranked.IsWalkable .integers (.ranked items) where
  follows := Engine.follows_ranked
  keyed := by
    intro r hr
    obtain ⟨item, -, rfl⟩ := List.mem_map.mp hr
    exact Keyset.isKeyed_ranked item
  short := by
    intro r hr
    obtain ⟨item, hitem, rfl⟩ := List.mem_map.mp hr
    exact (hshort item hitem).hasShortIntegers
  unique := by
    have h := List.pairwise_map.mp hunique
    refine List.pairwise_map.mpr (h.imp fun {a b} hab hsame => hab ?_)
    exact (sameKey_ranked a b).mp hsame

def sharedRanks : List (Int × Option Int) := [(1, some 7), (2, none), (3, some 7)]

theorem entryPoints_agree_sharedRanks :
    ∃ all : List Row,
      ranked.runAll Engine.integers.database [] (.ranked sharedRanks) =
        (.ok all, .ranked sharedRanks) ∧
      ranked.runCount Engine.integers.database [] (.ranked sharedRanks) =
        (.ok (all.length : Int), .ranked sharedRanks) ∧
      ∃ pages, ranked.walk .integers [] (List.replicate (all.length + 1) (.ranked sharedRanks, 2))
        .null = .ok pages ∧ (pages.flatMap (·.data)).Perm all := by
  have hc : ranked.compile [] false = .ok (ranked.compiledWith [] [] [] []) := compile_all rfl rfl
  obtain ⟨all, hall, hcount, -, -, hpages⟩ :=
    entryPoints_agree (g := .integers) rfl hc rfl (.ranked sharedRanks)
  obtain ⟨pages, hwalk, -, hdata⟩ := hpages (isWalkable_ranked (by decide) (by decide)) 2
    (all.length + 1) (Nat.lt_succ_self _)
  exact ⟨all, hall, hcount, pages, hwalk, hdata⟩

end Query

end ListQuery
