import ListQuery.Proofs.Execution.SideBySide

/-!
# Includes that are kept

What is delivered under an include when the query gets a further one. All rows have the same under
it, each once for every row that the further include joins to it, and so have the rows of a page as
long as the further include joins one row at most. Under an include that is displaced, however, all
rows have the list of what its relations lead to: a joined relation is no longer one nested row, and
an audit trail no longer one.

* `runPage_tables` — the parts of a page;
* `matching_delivered` — rows with what was loaded for them;
* `includePath_keeps` — what becomes of an include.
-/

namespace ListQuery

open Sql Database

namespace Row

variable {included included' : Included} {key r : String} {row row' mid mid' : Row}
  {taken hidden : List String}

/-- What a row has once the loaded rows are attached. -/
theorem get?_attach_eq (hn : included.keys.Nodup) (h : attach key included row = .ok mid) :
    mid.get? r = ((included.get? r).map Grouped.rowsOf).elim (row.get? r)
      fun rows => some (.list ((rows (row.at key)).map .record)) := by
  cases hr : included.get? r with
  | some grouped => exact get?_attach hn hr h
  | none =>
    refine get?_attach_of_notMem (fun hmem => ?_) h
    obtain ⟨e, he, rfl⟩ := List.mem_map.mp hmem
    cases hr.symm.trans (Entries.get?_eq_some_of_mem hn he)

/-- Rows that agree, and get the same attached. -/
theorem get?_attach_congr (hn : included.keys.Nodup) (hn' : included'.keys.Nodup)
    (hincluded : included.AgreeAt r included') (hrow : AgreeOff taken row row')
    (hkey : key ∉ taken) (hr : r ∉ taken) (h : attach key included row = .ok mid)
    (h' : attach key included' row' = .ok mid') : mid'.get? r = mid.get? r := by
  have hat : row'.at key = row.at key := by rw [Row.at, Row.at, hrow key hkey]
  rw [get?_attach_eq hn h, get?_attach_eq hn' h', hincluded, hrow r hr, hat]

theorem get?_stripHidden_congr (h : row'.get? r = row.get? r) :
    (stripHidden hidden row').get? r = (stripHidden hidden row).get? r := by
  by_cases hr : r ∈ hidden
  · rw [get?_stripHidden_of_mem hr, get?_stripHidden_of_mem hr]
  · rw [get?_stripHidden hr, get?_stripHidden hr, h]

end Row

namespace Query

variable {q : Query} {schema : Schema} {p r : String} {tables tables₁ tables₂ : Tables} {g : Engine}
  {all all' : List Row} {page page' : PageOf Row}

/-- The parts of a page that is read from tables, which stay as they are until then. -/
theorem runPage_tables (h : q.runPage g.database schema tables = (.ok page, tables₁)) :
    ∃ c read tables₂, q.compile schema true = .ok c ∧
      (fetch g.database c.joins c.select).run tables = (.ok read, tables) ∧
      (q.loadIncluded g.database schema (c.page.kept read)).run tables =
        (.ok page.included, tables₂) ∧
      page.data = (c.page.kept read).map (Row.stripHidden c.hidden) := by
  obtain ⟨c, read, st₁, st₂, st₃, hc, hopens, hread, hincluded, hdata, -⟩ := runPage_parts h
  have htables : st₁ = tables := by
    cases hopens with
    | numbered _ htotal => exact Engine.run_readNumber_tables htotal
    | byCursor => rfl
  subst htables
  obtain rfl := fetch_tables hread
  exact ⟨c, read, st₃, hc, hread, hincluded, hdata⟩

/-- What a further include makes of one that is there, in all rows. -/
structure KeepsInRows (q : Query) (schema : Schema) (tables : Tables) (g : Engine) (p r : String)
    (all all' : List Row) : Prop where
  repeats   : q.TakesNew schema p → ¬q.Displaces schema p r →
    Repeats (fun row row' => row'.get? r = row.get? r) all all'
  inPlace   : q.TakesNew schema p → ¬q.Displaces schema p r → q.SinglePartners schema p tables →
    List.Forall₂ (fun row row' => row'.get? r = row.get? r) all all'
  displaced : q.Displaces schema p r → r ∉ q.hiddenFor [] →
    ∃ c' read', (q.includePath p).compile schema false = .ok c' ∧
      (fetch g.database c'.joins c'.select).run tables = (.ok read', tables) ∧
      List.Forall₂ (fun row' record => record.get? r = some (.list ((Loading.attached tables schema
        q.entity (read'.map (·.at q.entity.primaryKey)) r (row'.at q.entity.primaryKey)).map
          .record))) read' all'
  differs   : q.Displaces schema p r → r ∉ q.hiddenFor [] → q.entity.joinsEagerly r = true →
    ∀ row ∈ all, ∀ row' ∈ all', row'.get? r ≠ row.get? r

/-- What a further include makes of one that is there, in a page. -/
structure KeepsInPage (q : Query) (schema : Schema) (tables : Tables) (g : Engine) (p r : String)
    (page page' : PageOf Row) : Prop where
  data      : q.TakesNew schema p → q.SinglePartners schema p tables →
    List.Forall₂ (fun row row' => row'.get? r = row.get? r) page.data page'.data
  included  : q.TakesNew schema p → q.SinglePartners schema p tables → ¬q.Displaces schema p r →
    page.included.AgreeAt r page'.included
  displaced : q.Displaces schema p r →
    ∃ c' read', (q.includePath p).compile schema true = .ok c' ∧
      (fetch g.database c'.joins c'.select).run tables = (.ok read', tables) ∧
      page'.data = (c'.page.kept read').map (Row.stripHidden c'.hidden) ∧
      (page'.data ≠ [] → (page'.included.get? r).map Grouped.rowsOf =
        some (Loading.attached tables schema q.entity
          ((c'.page.kept read').map (·.at q.entity.primaryKey)) r))
  differs   : q.Displaces schema p r → q.entity.joinsEagerly r = true → page.included.get? r = none

theorem primaryKey_notMem_takenNames (h : q.TakesNew schema p) :
    q.entity.primaryKey ∉ q.takenNames schema p := fun hmem => (h _ hmem).1 rfl

theorem include_notMem_takenNames (h : q.TakesNew schema p) (hr : r ∈ q.includes) :
    r ∉ q.takenNames schema p := fun hmem => (h r hmem).2 hr

/-- Where no row has two partners the rows that are read keep their places. -/
theorem forall₂_read (hg : g.ComparesKeys) (hq : q.Reachable) {paginate : Bool} {c c' : Compiled}
    {read read' : List Row} (hnew : q.TakesNew schema p)
    (hsingle : q.SinglePartners schema p tables) (hc : q.compile schema paginate = .ok c)
    (hmore : Compiled.JoinsMore q.entity p (q.newJoin? schema p) c c')
    (h : (fetch g.database c.joins c.select).run tables = (.ok read, tables₁))
    (h' : (fetch g.database c'.joins c'.select).run tables = (.ok read', tables₂)) :
    List.Forall₂ (Row.AgreeOff (q.takenNames schema p)) read read' := by
  obtain ⟨htable, os, hplain⟩ := isPlain_compile hq.hasColumns hc
  refine matching_read isMatching_forall₂ hnew hc hmore (fun j t hj ht hlabels => ?_) h h'
  exact Engine.forall₂_rows_joining hplain hlabels (EagerJoin.outer_of_join ht) fun s hs =>
    length_partners_le hg htable (fetch_parts h).1 hlabels ht (hsingle j hj) hs

/-- Without a cut the rows that are read come once for each partner. -/
theorem repeats_read (hq : q.Reachable) {c c' : Compiled} {read read' : List Row}
    (hnew : q.TakesNew schema p) (hc : q.compile schema false = .ok c)
    (hmore : Compiled.JoinsMore q.entity p (q.newJoin? schema p) c c')
    (h : (fetch g.database c.joins c.select).run tables = (.ok read, tables₁))
    (h' : (fetch g.database c'.joins c'.select).run tables = (.ok read', tables₂)) :
    Repeats (Row.AgreeOff (q.takenNames schema p)) read read' := by
  obtain ⟨-, os, hplain⟩ := isPlain_compile hq.hasColumns hc
  refine matching_read isMatching_repeats hnew hc hmore (fun j t hj ht hlabels => ?_) h h'
  refine Engine.repeats_rows_joining hplain hlabels (EagerJoin.outer_of_join ht) ?_
  obtain ⟨joined, conditions, -, -, rfl⟩ := compile_all_eq_ok.mp hc
  rfl

/-- Rows that are read alike, and get the same attached, are delivered alike. -/
theorem matching_delivered {L : (Row → Row → Prop) → List Row → List Row → Prop} (hL : IsMatching L)
    (hg : g.ComparesKeys) (hr : r ∈ q.includes) (hnew : q.TakesNew schema p)
    (hkept : ¬q.Displaces schema p r) {read read' rows rows' : List Row}
    {included included' : Included} {hidden : List String}
    (hread : L (Row.AgreeOff (q.takenNames schema p)) read read')
    (h : (q.loadIncluded g.database schema read).run tables = (.ok included, tables₁))
    (h' : ((q.includePath p).loadIncluded g.database schema read').run tables =
      (.ok included', tables₂))
    (hattach : read.mapM (Row.attach q.entity.primaryKey included) = .ok rows)
    (hattach' : read'.mapM (Row.attach q.entity.primaryKey included') = .ok rows') :
    L (fun row row' => row'.get? r = row.get? r) (rows.map (Row.stripHidden hidden))
      (rows'.map (Row.stripHidden hidden)) := by
  have hkey := primaryKey_notMem_takenNames hnew
  have hincluded := agreeAt_loadIncluded hg hL hkey hread hr hkept h h'
  have hdelivered : ∀ {read rows : List Row} {included : Included},
      read.mapM (Row.attach q.entity.primaryKey included) = .ok rows →
        List.Forall₂ (fun row record => ∃ mid,
          Row.attach q.entity.primaryKey included row = .ok mid ∧
            record = Row.stripHidden hidden mid) read (rows.map (Row.stripHidden hidden)) := by
    intro read rows included hrows
    rw [List.forall₂_map_right_iff]
    exact (mapM_eq_ok.mp hrows).imp fun row mid hmid => ⟨mid, hmid, rfl⟩
  refine hL.trans hread (hdelivered hattach) (hdelivered hattach') ?_
  rintro row row' _ _ hagree ⟨mid, hmid, rfl⟩ ⟨mid', hmid', rfl⟩
  exact Row.get?_stripHidden_congr (Row.get?_attach_congr (nodup_loadIncluded hg h)
    (nodup_loadIncluded hg h') hincluded hagree hkey (include_notMem_takenNames hnew hr) hmid hmid')

-- ---------------------------------------------------------------------------
-- What becomes of an include
-- ---------------------------------------------------------------------------

/-- Under an include that is displaced the rows have what its relations lead to. -/
theorem get?_of_displaces (hg : g.ComparesKeys) (h : q.Displaces schema p r) {hidden : List String}
    (hr : r ∉ hidden) {read' rows' : List Row} {included' : Included}
    (h' : ((q.includePath p).loadIncluded g.database schema read').run tables =
      (.ok included', tables₂))
    (hattach' : read'.mapM (Row.attach q.entity.primaryKey included') = .ok rows') :
    List.Forall₂ (fun row' record => record.get? r = some (.list ((Loading.attached tables schema
      q.entity (read'.map (·.at q.entity.primaryKey)) r (row'.at q.entity.primaryKey)).map
        .record))) read' (rows'.map (Row.stripHidden hidden)) := by
  rw [List.forall₂_map_right_iff]
  have hmem : ∀ row' ∈ read', row' ∈ read' := fun _ hrow => hrow
  have hattached := (List.forall₂_and_left _ _).mpr ⟨hmem, mapM_eq_ok.mp hattach'⟩
  refine hattached.imp fun row' mid hrow => ?_
  rw [Row.get?_stripHidden hr, Row.get?_attach_eq (nodup_loadIncluded hg h') hrow.2,
    rowsOf_of_displaces hg (List.ne_nil_of_mem hrow.1) h h']
  rfl

/-- A joined relation whose relations are not loaded is no list. -/
theorem ne_list_of_eager (hg : g.ComparesKeys) (hr : r ∈ q.includes)
    (heager : q.entity.joinsEagerly r = true)
    (hnot : ¬Loading.LoadsRelation schema q.entity q.includes r) {c : Compiled} {paginate : Bool}
    {read rows : List Row} {included : Included} (hc : q.compile schema paginate = .ok c)
    (hread : (fetch g.database c.joins c.select).run tables = (.ok read, tables₁))
    (h : (q.loadIncluded g.database schema read).run tables = (.ok included, tables₂))
    (hattach : read.mapM (Row.attach q.entity.primaryKey included) = .ok rows) {row : Row}
    (hrow : row ∈ rows.map (Row.stripHidden c.hidden)) (vs : List Value) :
    row.get? r ≠ some (.list vs) := by
  obtain ⟨mid, hmid, rfl⟩ := List.mem_map.mp hrow
  obtain ⟨folded, hfolded, hmid⟩ := exists_of_mem_forall₂ (mapM_eq_ok.mp hattach) hmid
  obtain ⟨answer, -, hfold⟩ :=
    exists_of_mem_forall₂ (mapM_eq_ok.mp (fetch_parts hread).2.1) hfolded
  by_cases hhidden : r ∈ c.hidden
  · rw [Row.get?_stripHidden_of_mem hhidden]
    exact fun h => by cases h
  · have hjoined : r ∈ c.joins.map (·.1) := by
      rw [joins_compile hc]
      exact mem_map_eagerJoins.mpr ⟨hr, heager⟩
    rw [Row.get?_stripHidden hhidden, Row.get?_attach_eq (nodup_loadIncluded hg h) hmid,
      get?_loadIncluded_eager hg hr heager hnot h]
    exact Row.ne_list_of_fold (.inl hjoined) hfold vs

theorem keepsInRows (hg : g.ComparesKeys) (hq : q.Reachable) (hr : r ∈ q.includes)
    (h : q.runAll g.database schema tables = (.ok all, tables₁))
    (h' : (q.includePath p).runAll g.database schema tables = (.ok all', tables₂)) :
    q.KeepsInRows schema tables g p r all all' := by
  obtain ⟨c, read, included, rows, st, hc, hread, hincluded, hattach, rfl⟩ := runAll_parts h
  obtain ⟨c', read', included', rows', st', hc', hread', hincluded', hattach', rfl⟩ :=
    runAll_parts h'
  rw [entity_includePath] at hattach'
  have hmore := joinsMore_compile (List.ne_nil_of_mem hr) hc hc'
  have hhidden : c.hidden = q.hiddenFor [] := by
    obtain ⟨joined, conditions, -, -, rfl⟩ := compile_all_eq_ok.mp hc
    rfl
  rw [hmore.hidden]
  refine ⟨fun hnew hkept => ?_, fun hnew hkept hsingle => ?_, fun hdisplaces hshown => ?_,
    fun hdisplaces hshown heager => ?_⟩
  · exact matching_delivered isMatching_repeats hg hr hnew hkept
      (repeats_read hq hnew hc hmore hread hread') hincluded hincluded' hattach hattach'
  · exact matching_delivered isMatching_forall₂ hg hr hnew hkept
      (forall₂_read hg hq hnew hsingle hc hmore hread hread') hincluded hincluded' hattach hattach'
  · refine ⟨c', read', hc', hread', ?_⟩
    exact get?_of_displaces hg hdisplaces (hhidden ▸ hshown) hincluded' hattach'
  · intro row hrow row' hrow' hsame
    obtain ⟨_, -, hlist⟩ := exists_of_mem_forall₂
      (get?_of_displaces hg hdisplaces (hhidden ▸ hshown) hincluded' hattach') hrow'
    exact ne_list_of_eager hg hr heager hdisplaces.1 hc hread hincluded hattach hrow _
      (hsame.symm.trans hlist)

theorem keepsInPage (hg : g.ComparesKeys) (hq : q.Reachable) (hr : r ∈ q.includes)
    (h : q.runPage g.database schema tables = (.ok page, tables₁))
    (h' : (q.includePath p).runPage g.database schema tables = (.ok page', tables₂)) :
    q.KeepsInPage schema tables g p r page page' := by
  obtain ⟨c, read, st, hc, hread, hincluded, hdata⟩ := runPage_tables h
  obtain ⟨c', read', st', hc', hread', hincluded', hdata'⟩ := runPage_tables h'
  have hmore := joinsMore_compile (List.ne_nil_of_mem hr) hc hc'
  have hkept : q.TakesNew schema p → q.SinglePartners schema p tables →
      List.Forall₂ (Row.AgreeOff (q.takenNames schema p)) (c.page.kept read)
        (c'.page.kept read') := by
    intro hnew hsingle
    have hall := forall₂_read hg hq hnew hsingle hc hmore hread hread'
    rw [hmore.page]
    cases c.page with
    | offset number n => exact hall
    | cursor token n => exact List.forall₂_take n.toNat hall
  refine ⟨fun hnew hsingle => ?_, fun hnew hsingle hnot => ?_, fun hdisplaces => ?_,
    fun hdisplaces heager => ?_⟩
  · rw [hdata, hdata', hmore.hidden, List.forall₂_map_left_iff, List.forall₂_map_right_iff]
    refine (hkept hnew hsingle).imp fun row row' hagree => ?_
    exact Row.get?_stripHidden_congr (hagree r (include_notMem_takenNames hnew hr))
  · exact agreeAt_loadIncluded hg isMatching_forall₂ (primaryKey_notMem_takenNames hnew)
      (hkept hnew hsingle) hr hnot hincluded hincluded'
  · refine ⟨c', read', hc', hread', hdata', fun hsome => ?_⟩
    have hrows : c'.page.kept read' ≠ [] := by
      intro hnil
      rw [hdata', hnil] at hsome
      exact hsome rfl
    exact rowsOf_of_displaces hg hrows hdisplaces hincluded'
  · exact get?_loadIncluded_eager hg hr heager hdisplaces.1 hincluded

/-- An include is delivered as before when the query gets a further one, unless this one displaces
it: then the rows have under it what its relations lead to, and a page of rows that had nothing
loaded under it has now. -/
theorem includePath_keeps (hg : g.ComparesKeys) (hq : q.Reachable) (hr : r ∈ q.includes)
    (schema : Schema) (p : String) (tables : Tables) :
    (q.Displaces schema p r → (q.entity.allowsInclude p = true ∧ p ∉ q.includes) ∧
      segments r <+: segments p ∧ (q.entity.joinsEagerly r = true ∨ Audit.handles r = true)) ∧
    (∀ all all' tables₁ tables₂, q.runAll g.database schema tables = (.ok all, tables₁) →
      (q.includePath p).runAll g.database schema tables = (.ok all', tables₂) →
        q.KeepsInRows schema tables g p r all all') ∧
    ∀ page page' tables₁ tables₂, q.runPage g.database schema tables = (.ok page, tables₁) →
      (q.includePath p).runPage g.database schema tables = (.ok page', tables₂) →
        q.KeepsInPage schema tables g p r page page' :=
  ⟨displaces_only hr, fun _ _ _ _ => keepsInRows hg hq hr, fun _ _ _ _ => keepsInPage hg hq hr⟩

end Query

-- ---------------------------------------------------------------------------
-- Posts, their authors and the companies of these
-- ---------------------------------------------------------------------------

/-- The author of a post is joined. -/
def Relation.author : Relation where
  table           := "users"
  kind            := .belongsTo
  foreignKey      := some "author_id"
  ownerKey        := "id"
  columns         := some ["id"]
  eager           := true
  target          := some "user"
  pivot           := none
  pivotForeignKey := none
  pivotRelatedKey := none

def Schema.posts : Schema :=
  [("user", .keyed "users" [("companies", .manyIn "companies" "owner_id" "company")]),
    ("company", .keyed "companies" [])]

/-- Posts with their authors. -/
def Query.posts : Query :=
  includePath
    { entity := { Entity.keyed "posts" [("author", .author)] with
        includePaths := ["author", "author.companies"] } } "author"

/-- A post, its author and the author's company. -/
def Sql.Tables.posts : Tables
  | "posts"     => [.ofInts [("id", 1), ("author_id", 7)]]
  | "users"     => [.ofInts [("id", 7)]]
  | "companies" => [.ofInts [("id", 5), ("owner_id", 7)]]
  | _           => []

namespace Query

theorem displaces_posts : posts.Displaces .posts "author.companies" "author" := by
  refine ⟨?_, ⟨_, rfl, rfl⟩, "author.companies", by decide, by decide⟩
  rintro ⟨-, p', hp', -⟩
  have hothers : Loading.others posts.entity posts.includes = [] := by decide
  rw [hothers] at hp'
  exact List.not_mem_nil hp'

/-- Here the runs can be evaluated, and each gives one row. -/
theorem exists_runAll_posts {q : Query} (hq : q = posts ∨ q = posts.includePath "author.companies") :
    ∃ row tables', q.runAll Engine.integers.database .posts .posts = (.ok [row], tables') := by
  have hone : (q.runAll Engine.integers.database .posts .posts).1.toOption.any
      (·.length == 1) = true := by
    rw [Engine.database_eq]
    rcases hq with rfl | rfl <;> decide +kernel
  generalize q.runAll Engine.integers.database .posts .posts = result at hone
  obtain ⟨_ | all, tables'⟩ := result
  · cases hone
  · obtain ⟨row, rfl⟩ := List.length_eq_one_iff.mp (eq_of_beq hone)
    exact ⟨row, tables', rfl⟩

/-- With the companies of the author its author is another one. -/
theorem includePath_keeps_posts :
    ∃ row row' tables₁ tables₂,
      posts.runAll Engine.integers.database .posts .posts = (.ok [row], tables₁) ∧
      (posts.includePath "author.companies").runAll Engine.integers.database .posts .posts =
        (.ok [row'], tables₂) ∧
      row'.get? "author" ≠ row.get? "author" := by
  obtain ⟨row, tables₁, hrun⟩ := exists_runAll_posts (.inl rfl)
  obtain ⟨row', tables₂, hrun'⟩ := exists_runAll_posts (.inr rfl)
  have hkeeps := (includePath_keeps Engine.comparesKeys_integers
    (.includePath "author" (.fresh _ _)) (r := "author") (by decide) .posts "author.companies"
    .posts).2.1 _ _ _ _ hrun hrun'
  refine ⟨row, row', tables₁, tables₂, hrun, hrun', ?_⟩
  exact hkeeps.differs displaces_posts (by decide) (by decide) row List.mem_cons_self row'
    List.mem_cons_self

end Query

end ListQuery
