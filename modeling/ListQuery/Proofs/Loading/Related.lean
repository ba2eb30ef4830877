import ListQuery.Proofs.Loading.Group

/-!
# Related rows

What a relation means: the rows of its table that hold the key of a row, or whose key the row holds,
or that a table of pairs puts next to it. Read for many rows at once and grouped, the related rows of
each of them are just these.

* `related` — the related rows of one row, by its key;
* `relation_holds` — what is read of a relation.
-/

namespace ListQuery.Loading

open Sql Database Text

variable (tables : Tables) (schema : Schema) (e : Entity) (name : String) (r : Relation)

-- ---------------------------------------------------------------------------
-- The meaning of a relation
-- ---------------------------------------------------------------------------

/-- What is delivered of a related row. -/
def relatedRow (x : Record) : Row :=
  Entries.ofList (((readColumns schema r).filter (· ≠ parentKey)).map fun c => (c, x c))

/-- A declared column of a table of pairs, or the one of the usual name. -/
def pivotColumn (given : Option String) (usual : String) : String :=
  match given with
  | some n => if n = "" then usual else n
  | none   => usual

/-- The column of a table of pairs that holds the key of the row. -/
def pivotParent : String := pivotColumn r.pivotForeignKey (singular (snakeCase e.table) ++ "_id")

/-- The column of a table of pairs that holds the key of the related row. -/
def pivotRelated : String := pivotColumn r.pivotRelatedKey (e.foreignKey name)

/-- The records of a relation's table that belong to the row with a key. -/
def relatedRecords (k : Value) : List Record :=
  match r.kind with
  | .hasMany | .hasOne => (tables r.table).filter fun x => (x (e.foreignKey name)).links k
  | .belongsTo =>
    ((tables e.table).filter fun o => (o e.primaryKey).links k).flatMap fun o =>
      (tables r.table).filter fun x => (o (e.foreignKey name)).links (x r.ownerKey)
  | .belongsToMany =>
    match r.pivot with
    | none       => []
    | some pivot =>
      (tables r.table).flatMap fun x =>
        ((tables pivot).filter fun y =>
          (y (pivotRelated e name r)).links (x r.ownerKey) &&
            (y (pivotParent e r)).links k).map fun _ => x

/-- The related rows of the row with a key; there are none without a relation. -/
def related (k : Value) : List Row :=
  match e.relation? name with
  | none   => []
  | some r => (relatedRecords tables e name r k).map (relatedRow schema r)

section
variable {tables schema e name r} {k i : Value}

/-- What is the same key has the same related rows. -/
theorem related_congr (h : i.same k = true) :
    related tables schema e name i = related tables schema e name k := by
  have hlinks : ∀ v : Value, v.links i = v.links k := by
    intro v
    rw [Value.links_comm v, Value.links_comm v, Value.links_congr h]
  simp only [related, relatedRecords, hlinks]

/-- Only a key that can be linked to has related rows. -/
theorem any_links_of_mem_relatedRecords {x : Record} (h : x ∈ relatedRecords tables e name r k) :
    ∃ v : Value, v.links k = true := by
  rw [relatedRecords] at h
  split at h
  case h_1 => exact ⟨_, (List.mem_filter.mp h).2⟩
  case h_2 => exact ⟨_, (List.mem_filter.mp h).2⟩
  case h_3 =>
    obtain ⟨o, ho, -⟩ := List.mem_flatMap.mp h
    exact ⟨_, (List.mem_filter.mp ho).2⟩
  case h_4 =>
    split at h
    case h_1 => exact absurd h List.not_mem_nil
    case h_2 =>
      obtain ⟨o, -, ho⟩ := List.mem_flatMap.mp h
      obtain ⟨y, hy, -⟩ := List.mem_map.mp ho
      exact ⟨_, (Bool.and_eq_true_iff.mp (List.mem_filter.mp hy).2).2⟩

theorem links_self_of_mem_related {row : Row} (h : row ∈ related tables schema e name k) :
    k.links k = true := by
  rw [related] at h
  split at h
  case h_1 => exact absurd h List.not_mem_nil
  case h_2 =>
    obtain ⟨x, hx, -⟩ := List.mem_map.mp h
    obtain ⟨v, hv⟩ := any_links_of_mem_relatedRecords hx
    exact Value.links_self_of_links hv

end

-- ---------------------------------------------------------------------------
-- The statement of a relation
-- ---------------------------------------------------------------------------

/-- Where a relation is read: the column with the key of the row, and the tables. -/
structure Source where
  parent : Column
  table  : TableRef
  joins  : List Join := []

def source? : Option Source :=
  match r.kind with
  | .hasMany | .hasOne =>
    some { parent := plainColumn r.table (e.foreignKey name), table := ⟨r.table, none⟩ }
  | .belongsTo =>
    some
      { parent := e.columnNamed e.primaryKey
        table  := ⟨e.table, none⟩
        joins  :=
          [{ table := ⟨r.table, none⟩, left := e.columnNamed (e.foreignKey name),
             right := plainColumn r.table r.ownerKey, outer := false }] }
  | .belongsToMany => r.pivot.map fun pivot =>
    { parent := plainColumn pivot (pivotParent e r)
      table  := ⟨r.table, none⟩
      joins  :=
        [{ table := ⟨pivot, none⟩, left := plainColumn pivot (pivotRelated e name r),
           right := plainColumn r.table r.ownerKey, outer := false }] }

/-- What is read: the columns of the related rows, and the key of the row. -/
def sourceOutputs (parent : Column) : List Output :=
  (readColumns schema r).map (fun c => { column := plainColumn r.table c }) ++
    [{ column := parent, label := some parentKey }]

def sourceStatement (s : Source) (ids : List Value) : Statement :=
  { projection := .columns (sourceOutputs schema r s.parent), table := s.table, joins := s.joins,
    conditions := [isAnyOf s.parent ids] }

theorem reader?_eq :
    reader? schema e name =
      (e.relation? name).bind fun r => (source? e name r).map (sourceStatement schema r) := by
  rw [reader?]
  cases e.relation? name with
  | none => rfl
  | some r =>
    show _ = (source? e name r).map (sourceStatement schema r)
    rw [source?]
    dsimp only [bind, Option.bind]
    cases r.kind with
    | hasMany => rfl
    | hasOne => rfl
    | belongsTo => rfl
    | belongsToMany => cases r.pivot <;> rfl

/-- No two of the tables through which a relation is read are one. -/
def TablesApart : Prop :=
  (r.kind = .belongsTo → r.table ≠ e.table) ∧ (r.kind = .belongsToMany → r.pivot ≠ some r.table)

instance : Decidable (TablesApart e r) :=
  inferInstanceAs (Decidable ((r.kind = .belongsTo → r.table ≠ e.table) ∧
    (r.kind = .belongsToMany → r.pivot ≠ some r.table)))

variable {tables schema e name r}

/-- The tables of a relation have different names just if they are apart. -/
theorem nodup_labels_sourceStatement (schema : Schema) {source : Source}
    (hsource : source? e name r = some source) (ids : List Value) :
    (sourceStatement schema r source ids).labels.Nodup ↔ TablesApart e r := by
  have htwo : ∀ base joined : String, [base, joined].Nodup ↔ joined ≠ base := by
    intro base joined
    rw [List.nodup_cons, List.mem_singleton, and_iff_left (List.nodup_singleton joined)]
    exact ne_comm
  rw [source?] at hsource
  unfold TablesApart
  split at hsource
  case h_1 hkind | h_2 hkind =>
    obtain rfl := Option.some.inj hsource
    rw [hkind]
    refine iff_of_true (List.nodup_singleton _) ⟨fun h => ?_, fun h => ?_⟩
    · cases h
    · cases h
  case h_3 hkind =>
    obtain rfl := Option.some.inj hsource
    refine (htwo e.table r.table).trans ⟨fun h => ⟨fun _ => h, fun hmany => ?_⟩, fun h => h.1 hkind⟩
    cases hkind.symm.trans hmany
  case h_4 hkind =>
    obtain ⟨pivot, hpivot, rfl⟩ := Option.map_eq_some_iff.mp hsource
    rw [hpivot]
    refine (htwo r.table pivot).trans ⟨fun h => ⟨fun hone => ?_, fun _ heq => ?_⟩, fun h heq => ?_⟩
    · cases hkind.symm.trans hone
    · exact h (Option.some.inj heq)
    · exact h.2 hkind (congrArg some heq)

-- ---------------------------------------------------------------------------
-- What the statement reads
-- ---------------------------------------------------------------------------

variable {g : Engine}

theorem project_sourceOutputs (parent : Column) (s : Scene) :
    Engine.project (sourceOutputs schema r parent) s =
      Entries.ofList (((readColumns schema r).map fun c => (c, s r.table c)) ++
        [(parentKey, s.at parent)]) := by
  rw [Engine.project, sourceOutputs, List.map_append, List.map_map]
  rfl

theorem drop_project (parent : Column) (s : Scene) :
    (Engine.project (sourceOutputs schema r parent) s).drop parentKey =
      relatedRow schema r (s r.table) := by
  rw [project_sourceOutputs, Entries.drop, Entries.filter_ofList fun n => decide (n ≠ parentKey),
    List.filter_append, List.filter_map, relatedRow]
  exact congrArg Entries.ofList (List.append_nil _)

/-- The rows of one table that are linked to a key. -/
theorem map_linked_single {st : Statement} {table fk : String} (ht : st.table = ⟨table, none⟩)
    (hj : st.joins = []) (k : Value) :
    (g.linked tables st (plainColumn table fk) k).map (· table) =
      (tables table).filter fun x => (x fk).links k := by
  have hscenes : g.scenes tables st = (tables table).map (Scene.single table) := by
    rw [Engine.scenes_eq_flatMap, ht, hj]
    exact List.map_eq_flatMap.symm
  have hat : ∀ x : Record, Scene.single table x table = x := fun x => Scene.put_self table x _
  rw [Engine.linked, hscenes, List.filter_map, List.map_map]
  calc _ = ((tables table).filter fun x => (x fk).links k).map id := by
        refine congrArg₂ List.map (funext hat) (List.filter_congr fun x _ => ?_)
        show ((Scene.single table x table) fk).links k = _
        rw [hat]
    _ = _ := List.map_id _

/-- The rows of two joined tables that are linked to a key. -/
theorem linked_inner (hg : g.ComparesKeys) {st : Statement} {base table : String} {j : Join}
    (ht : st.table = ⟨base, none⟩) (hj : st.joins = [j]) (hjt : j.table = ⟨table, none⟩)
    (houter : j.outer = false) (key : Column) (k : Value) :
    g.linked tables st key k = (tables base).flatMap fun o =>
      (((tables table).map fun x => (Scene.single base o).put table x).filter fun s =>
        (s.at j.left).links (s.at j.right)).filter fun s => (s.at key).links k := by
  rw [Engine.linked, Engine.scenes_eq_flatMap, ht, hj, List.filter_flatMap]
  refine List.flatMap_congr fun o _ => ?_
  have hfollow : g.follow tables [j] (Scene.single base o) =
      g.partners tables (Scene.single base o) j := by
    show (g.extend tables j (Scene.single base o)).flatMap (g.follow tables []) = _
    rw [Engine.extend, houter]
    exact List.flatMap_singleton' _
  show (g.follow tables [j] (Scene.single base o)).filter _ = _
  rw [hfollow, Engine.partners, hjt]
  refine congrArg _ (List.filter_congr fun s _ => ?_)
  exact hg.joins _ _ _ _

section
variable {base table : String}

theorem row_base (hne : base ≠ table) (o x : Record) :
    (Scene.single base o).put table x base = o := by
  rw [Scene.put_of_ne _ _ hne, Scene.single, Scene.put_self]

theorem at_base (hne : base ≠ table) (o x : Record) (name : String) (t : ColumnType) :
    ((Scene.single base o).put table x).at ⟨base, name, t⟩ = o name :=
  congrFun (row_base hne o x) name

theorem at_joined (s : Scene) (x : Record) (name : String) (t : ColumnType) :
    (s.put table x).at ⟨table, name, t⟩ = x name := by
  rw [Scene.at, Scene.put_self]

end

theorem ne_of_nodup_labels {base table : String} (h : [base, table].Nodup) : base ≠ table := by
  rintro rfl
  exact (List.nodup_cons.mp h).1 List.mem_cons_self

/-- What is kept and taken of rows that are put into a scene can be said of the rows alone. -/
theorem map_filter_put {put : Record → Scene} {p q : Scene → Bool} {f : Scene → Record}
    {p' q' : Record → Bool} {f' : Record → Record} (hp : ∀ x, p (put x) = p' x)
    (hq : ∀ x, q (put x) = q' x) (hf : ∀ x, f (put x) = f' x) (xs : List Record) :
    (((xs.map put).filter p).filter q).map f = ((xs.filter p').filter q').map f' := by
  have hp' : p ∘ put = p' := funext hp
  have hq' : q ∘ put = q' := funext hq
  have hf' : f ∘ put = f' := funext hf
  rw [List.filter_map, List.filter_map, List.map_map, hp', hq', hf']

/-- The records that the tables of a relation link to a key are those that belong to it. -/
theorem map_linked (hg : g.ComparesKeys) {source : Source} (hsource : source? e name r = some source)
    {ids : List Value} (hlabels : (sourceStatement schema r source ids).labels.Nodup) (k : Value) :
    (g.linked tables (sourceStatement schema r source ids) source.parent k).map (· r.table) =
      relatedRecords tables e name r k := by
  rw [relatedRecords]
  rw [source?] at hsource
  split at hsource
  case h_1 =>
    obtain rfl := Option.some.inj hsource
    exact map_linked_single rfl rfl k
  case h_2 =>
    obtain rfl := Option.some.inj hsource
    exact map_linked_single rfl rfl k
  case h_3 =>
    obtain rfl := Option.some.inj hsource
    have hne : e.table ≠ r.table := ne_of_nodup_labels hlabels
    rw [linked_inner hg rfl rfl rfl rfl, List.map_flatMap, flatMap_filter_left]
    refine List.flatMap_congr fun o _ => ?_
    rw [← List.map_id (((tables r.table).filter _).filter _)]
    refine map_filter_put (fun x => ?_) (fun x => ?_) (fun x => Scene.put_self _ _ _) _
    · exact congrArg₂ Value.links (at_base hne o x _ _) (at_joined _ x _ _)
    · exact congrArg (Value.links · k) (at_base hne o x _ _)
  case h_4 =>
    obtain ⟨pivot, hpivot, rfl⟩ := Option.map_eq_some_iff.mp hsource
    have hne : r.table ≠ pivot := ne_of_nodup_labels hlabels
    rw [linked_inner hg rfl rfl rfl rfl, List.map_flatMap]
    dsimp only
    rw [hpivot]
    refine List.flatMap_congr fun x _ => ?_
    refine (map_filter_put
      (fun y => congrArg₂ Value.links (at_joined _ y _ _) (at_base hne x y _ _))
      (fun y => congrArg (Value.links · k) (at_joined _ y _ _)) (row_base hne x) _).trans ?_
    rw [List.filter_filter]
    exact congrArg _ (List.filter_congr fun y _ => Bool.and_comm _ _)

/-- A relation that cannot be read has no related rows. -/
theorem related_of_reader?_eq_none (h : reader? schema e name = none) (k : Value) :
    related tables schema e name k = [] := by
  rw [reader?_eq] at h
  rw [related]
  cases hr : e.relation? name with
  | none => rfl
  | some r =>
    rw [hr] at h
    have hsource : source? e name r = none := Option.map_eq_none_iff.mp h
    rw [source?] at hsource
    dsimp only
    rw [relatedRecords]
    split at hsource
    case h_4 => rw [Option.map_eq_none_iff.mp hsource]; rfl
    all_goals cases hsource

/-- What is read of a relation for a key, without the key. -/
theorem map_drop_linked (hg : g.ComparesKeys) {source : Source}
    (hr : e.relation? name = some r) (hsource : source? e name r = some source) {ids : List Value}
    (hlabels : (sourceStatement schema r source ids).labels.Nodup) (k : Value) :
    ((g.linked tables (sourceStatement schema r source ids) source.parent k).filter fun s =>
      Grouped.counts none
        ((Engine.project (sourceOutputs schema r source.parent) s).drop parentKey)).map (fun s =>
          (Engine.project (sourceOutputs schema r source.parent) s).drop parentKey) =
      related tables schema e name k := by
  have hall : ∀ ss : List Scene, (ss.filter fun s => Grouped.counts none
      ((Engine.project (sourceOutputs schema r source.parent) s).drop parentKey)) = ss := fun ss =>
    List.filter_eq_self.mpr fun _ _ => rfl
  rw [hall, related, hr]
  dsimp only
  rw [← map_linked hg hsource hlabels, List.map_map]
  exact List.map_congr_left fun s _ => drop_project _ s

theorem get?_parentKey (parent : Column) (s : Scene) :
    (Engine.project (sourceOutputs schema r parent) s).get? parentKey = some (s.at parent) := by
  rw [project_sourceOutputs, Entries.ofList, List.foldl_append]
  exact Entries.get?_put_self _ _ _

/-- The related rows of each of some rows are read together. -/
theorem relation_holds (hg : g.ComparesKeys) {tables' : Tables} {ids : List Value}
    {grouped : Grouped}
    (h : (relation g.database schema e name (.list ids)).run tables = (.ok grouped, tables')) :
    tables' = tables ∧ grouped.Holds ids (related tables schema e name) := by
  rw [relation] at h
  split at h
  case isTrue hvoid =>
    obtain ⟨hgrouped, rfl⟩ := Prod.mk.inj h
    obtain rfl := Except.ok.inj hgrouped
    obtain rfl : ids = [] := List.isEmpty_iff.mp hvoid
    exact ⟨rfl, Grouped.holds_nil _⟩
  case isFalse =>
    rw [run_pureStep_bind_eq_ok] at h
    obtain ⟨found, hfound, h⟩ := h
    rw [statement?] at hfound
    cases hreader : reader? schema e name with
    | none =>
      rw [hreader] at hfound
      obtain rfl := Except.ok.inj hfound
      obtain ⟨hgrouped, rfl⟩ := Prod.mk.inj h
      obtain rfl := Except.ok.inj hgrouped
      rw [funext (related_of_reader?_eq_none hreader)]
      exact ⟨rfl, Grouped.holds_empty ids⟩
    | some read =>
      rw [hreader] at hfound
      obtain rfl := Except.ok.inj hfound
      rw [reader?_eq] at hreader
      obtain ⟨r, hr, hmade⟩ := Option.bind_eq_some_iff.mp hreader
      obtain ⟨source, hsource, rfl⟩ := Option.map_eq_some_iff.mp hmade
      dsimp only at h
      rw [run_bind_eq_ok] at h
      obtain ⟨rows, st₁, hread, hgrouped⟩ := h
      obtain ⟨hlabels, rfl, rfl⟩ := Engine.run_readRows_eq_ok hread
      rw [run_pureStep] at hgrouped
      obtain ⟨hrows, rfl⟩ := Prod.mk.inj hgrouped
      have hholds := holds_ofRows hg rfl rfl rfl rfl (get?_parentKey source.parent) hrows
      rw [funext (map_drop_linked hg hr hsource hlabels)] at hholds
      exact ⟨rfl, hholds⟩

end ListQuery.Loading
