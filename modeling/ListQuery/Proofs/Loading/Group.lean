import ListQuery.Loading.Group
import ListQuery.Proofs.Value.Entries
import ListQuery.Proofs.Value.Same
import ListQuery.Loading.Relations
import ListQuery.Proofs.Execution.Session
import ListQuery.Proofs.Sql.Engine

/-!
# Groups of related rows

Under a key stand the rows that came with the same key, in the order in which they came. Rows that do
not count are left out, and no row is lost.

* `rowsOf_ofRows` — the rows under a key;
* `mem_allRows_ofRows` — all rows;
* `exists_ofRows` — rows that can be grouped;
* `isApart_ofRows`, `exists_of_mem_ofRows` — the keys of the groups.
-/

namespace ListQuery.Grouped

variable {g g' : Grouped} {keyColumn : String} {present : Option String} {rows : List Row}

-- ---------------------------------------------------------------------------
-- One more row
-- ---------------------------------------------------------------------------

theorem rowsOf_cons (e : Value × List Row) (g : Grouped) (k : Value) :
    rowsOf (e :: g) k = if e.1.same k then e.2 else rowsOf g k := by
  rw [rowsOf, List.find?_cons]
  cases e.1.same k <;> rfl

/-- A row is added to the group of its key. -/
theorem rowsOf_add (g : Grouped) (key k : Value) (row : Row) (hkey : key.same k = true) :
    (g.add key row).rowsOf k = g.rowsOf k ++ [row] := by
  induction g with
  | nil =>
    rw [add, rowsOf_cons, if_pos hkey]
    rfl
  | cons e g ih =>
    obtain ⟨key', rs⟩ := e
    have hsame : key'.same key = key'.same k := by
      rw [Value.same_comm, Value.same_comm key', Value.same_congr (Value.keyForm_of_same hkey)]
    rw [add, rowsOf_cons]
    cases h : key'.same k with
    | true =>
      rw [if_pos (hsame.trans h), rowsOf_cons, if_pos h]
      rfl
    | false =>
      rw [if_neg (by rw [hsame, h]; exact Bool.false_ne_true), rowsOf_cons, h, ih]
      rfl

theorem rowsOf_add_of_not_same (g : Grouped) (key k : Value) (row : Row)
    (hkey : key.same k = false) : (g.add key row).rowsOf k = g.rowsOf k := by
  induction g with
  | nil =>
    rw [add, rowsOf_cons, hkey]
    rfl
  | cons e g ih =>
    obtain ⟨key', rs⟩ := e
    rw [add]
    split
    case isTrue h =>
      have hk : key'.same k = false := by
        rw [Value.same_congr (Value.keyForm_of_same h), hkey]
      rw [rowsOf_cons, rowsOf_cons, hk]
      rfl
    case isFalse h => rw [rowsOf_cons, rowsOf_cons, ih]

theorem mem_allRows_add (g : Grouped) (key : Value) (row other : Row) :
    other ∈ (g.add key row).allRows ↔ other ∈ g.allRows ∨ other = row := by
  induction g with
  | nil =>
    rw [add, allRows, allRows, List.flatMap_singleton, List.flatMap_nil, List.mem_singleton]
    exact (or_iff_right List.not_mem_nil).symm
  | cons e g ih =>
    obtain ⟨key', rs⟩ := e
    rw [allRows] at ih
    rw [add]
    split
    · rw [allRows, allRows, List.flatMap_cons, List.flatMap_cons, List.mem_append, List.mem_append,
        List.mem_append, List.mem_singleton]
      exact or_right_comm
    · rw [allRows, allRows, List.flatMap_cons, List.flatMap_cons, List.mem_append, List.mem_append,
        ih, allRows, or_assoc]

-- ---------------------------------------------------------------------------
-- All rows
-- ---------------------------------------------------------------------------

theorem addRow_eq_ok {row : Row} :
    addRow keyColumn present g row = .ok g' ↔
      ∃ key, row.get? keyColumn = some key ∧
        if counts present (row.drop keyColumn) then
          key.isKey = true ∧ g' = g.add key (row.drop keyColumn)
        else g' = g := by
  rw [addRow]
  cases row.get? keyColumn with
  | none =>
    constructor
    · intro h
      cases h
    · rintro ⟨key, h, -⟩
      cases h
  | some key =>
    dsimp only
    constructor
    · intro h
      refine ⟨key, rfl, ?_⟩
      split at h
      case isTrue hcounts =>
        rw [if_pos hcounts]
        split at h
        case isTrue hkey => exact ⟨hkey, (Except.ok.inj h).symm⟩
        case isFalse => cases h
      case isFalse hcounts =>
        rw [if_neg hcounts]
        exact (Except.ok.inj h).symm
    · rintro ⟨key', hkey', h⟩
      obtain rfl := Option.some.inj hkey'
      split at h
      case isTrue hcounts =>
        obtain ⟨hkey, rfl⟩ := h
        rw [if_pos hcounts, if_pos hkey]
      case isFalse hcounts =>
        obtain rfl := h
        rw [if_neg hcounts]

/-- The rows that came with a key and count, without the key. -/
def belonging (keyColumn : String) (present : Option String) (rows : List Row) (k : Value) :
    List Row :=
  (rows.filter fun row =>
    (row.at keyColumn).same k && counts present (row.drop keyColumn)).map (·.drop keyColumn)

theorem belonging_append (rows more : List Row) (k : Value) :
    belonging keyColumn present (rows ++ more) k =
      belonging keyColumn present rows k ++ belonging keyColumn present more k := by
  rw [belonging, List.filter_append, List.map_append]
  rfl

theorem rowsOf_addRow {row : Row} (h : addRow keyColumn present g row = .ok g') (k : Value) :
    g'.rowsOf k = g.rowsOf k ++ belonging keyColumn present [row] k := by
  obtain ⟨key, hkey, hadded⟩ := addRow_eq_ok.mp h
  rw [belonging, List.filter_cons, Row.at_of_get? hkey]
  cases hcounts : counts present (row.drop keyColumn) with
  | false =>
    rw [if_neg (Bool.eq_false_iff.mp hcounts)] at hadded
    rw [hadded, Bool.and_false]
    exact (List.append_nil _).symm
  | true =>
    rw [if_pos hcounts] at hadded
    obtain ⟨-, rfl⟩ := hadded
    rw [Bool.and_true]
    cases hsame : key.same k with
    | true => exact rowsOf_add g key k _ hsame
    | false => exact (rowsOf_add_of_not_same g key k _ hsame).trans (List.append_nil _).symm

/-- Under a key stand the rows that came with it. -/
theorem rowsOf_ofRows (h : ofRows keyColumn present rows = .ok g) (k : Value) :
    g.rowsOf k = belonging keyColumn present rows k := by
  refine of_foldlM_eq_ok (P := fun done g => g.rowsOf k = belonging keyColumn present done k)
    (fun row _ done g g' hdone hadd => ?_) rfl h
  rw [rowsOf_addRow hadd, hdone, belonging_append]

theorem mem_allRows_addRow {row : Row} (h : addRow keyColumn present g row = .ok g')
    (other : Row) :
    other ∈ g'.allRows ↔ other ∈ g.allRows ∨
      counts present (row.drop keyColumn) = true ∧ other = row.drop keyColumn := by
  obtain ⟨key, -, hadded⟩ := addRow_eq_ok.mp h
  cases hcounts : counts present (row.drop keyColumn) with
  | false =>
    rw [if_neg (Bool.eq_false_iff.mp hcounts)] at hadded
    rw [hadded]
    exact (or_iff_left fun h => absurd h.1 Bool.false_ne_true).symm
  | true =>
    rw [if_pos hcounts] at hadded
    obtain ⟨-, rfl⟩ := hadded
    rw [mem_allRows_add]
    exact or_congr_right (and_iff_right rfl).symm

/-- No row that counts is lost, and none comes from elsewhere. -/
theorem mem_allRows_ofRows (h : ofRows keyColumn present rows = .ok g) (other : Row) :
    other ∈ g.allRows ↔
      ∃ row ∈ rows, counts present (row.drop keyColumn) = true ∧ other = row.drop keyColumn := by
  refine of_foldlM_eq_ok (P := fun done g => other ∈ g.allRows ↔
      ∃ row ∈ done, counts present (row.drop keyColumn) = true ∧ other = row.drop keyColumn)
    (fun row _ done g g' hdone hadd => ?_) ?_ h
  · rw [mem_allRows_addRow hadd, hdone]
    simp only [List.mem_append, List.mem_singleton, or_and_right, exists_or, exists_eq_left]
  · exact iff_of_false List.not_mem_nil fun ⟨_, hrow, _⟩ => absurd hrow List.not_mem_nil

/-- In whatever order rows come, under a key stand the same ones. -/
theorem belonging_perm {rows' : List Row} (h : rows.Perm rows') (k : Value) :
    (belonging keyColumn present rows k).Perm (belonging keyColumn present rows' k) :=
  (h.filter _).map _

-- ---------------------------------------------------------------------------
-- Groups
-- ---------------------------------------------------------------------------

/-- The group under a key, if there is one. -/
def group? (g : Grouped) (key : Value) : Option (List Row) :=
  (g.find? fun e => e.1.same key).map (·.2)

/-- Groups under keys of which no two are the same; none of them is empty. -/
structure IsApart (g : Grouped) : Prop where
  keys     : g.Pairwise fun a b => a.1.same b.1 = false
  nonempty : ∀ e ∈ g, e.2 ≠ []

theorem isApart_nil : IsApart [] := ⟨.nil, List.forall_mem_nil _⟩

/-- There is no group under a key where there are no rows. -/
theorem group?_eq_none_iff (h : g.IsApart) (k : Value) : g.group? k = none ↔ g.rowsOf k = [] := by
  rw [rowsOf, group?]
  cases hfind : g.find? fun e => e.1.same k with
  | none => exact iff_of_true rfl rfl
  | some e =>
    refine iff_of_false (fun hnone => ?_) (h.nonempty e (List.mem_of_find?_eq_some hfind))
    cases hnone

/-- The groups with one more row: that of its key is new or longer, and the others stay. -/
theorem exists_of_mem_add {key : Value} {row : Row} {e : Value × List Row} (he : e ∈ g.add key row) :
    e.2 ≠ [] ∧ (e.1 = key ∨ ∃ e' ∈ g, e'.1 = e.1) ∨ e ∈ g := by
  induction g with
  | nil =>
    obtain rfl := List.mem_singleton.mp he
    exact .inl ⟨List.cons_ne_nil _ _, .inl rfl⟩
  | cons e' g ih =>
    obtain ⟨key', rs⟩ := e'
    rw [add] at he
    split at he
    case isTrue =>
      rcases List.mem_cons.mp he with rfl | he
      · exact .inl ⟨List.append_ne_nil_of_right_ne_nil _ (List.cons_ne_nil _ _),
          .inr ⟨_, List.mem_cons_self, rfl⟩⟩
      · exact .inr (List.mem_cons_of_mem _ he)
    case isFalse =>
      rcases List.mem_cons.mp he with rfl | he
      · exact .inr List.mem_cons_self
      · refine (ih he).imp (fun ⟨hne, hkey⟩ => ⟨hne, hkey.imp_right fun ⟨e', he', heq⟩ => ?_⟩)
          (List.mem_cons_of_mem _)
        exact ⟨e', List.mem_cons_of_mem _ he', heq⟩

theorem IsApart.add (h : g.IsApart) (key : Value) (row : Row) : (g.add key row).IsApart := by
  refine ⟨?_, fun e he => (exists_of_mem_add he).elim (·.1) (h.nonempty e)⟩
  have hkeys := h.keys
  clear h
  induction g with
  | nil => exact List.pairwise_singleton _ _
  | cons e g ih =>
    obtain ⟨key', rs⟩ := e
    obtain ⟨hhead, htail⟩ := List.pairwise_cons.mp hkeys
    rw [Grouped.add]
    split
    case isTrue => exact List.pairwise_cons.mpr ⟨hhead, htail⟩
    case isFalse hkey =>
      refine List.pairwise_cons.mpr ⟨fun e he => ?_, ih htail⟩
      rcases exists_of_mem_add he with ⟨-, heq | ⟨e', he', heq⟩⟩ | he
      · rw [heq]
        exact Bool.eq_false_iff.mpr hkey
      · rw [← heq]
        exact hhead e' he'
      · exact hhead e he

theorem IsApart.addRow {row : Row} (h : g.IsApart)
    (hadd : addRow keyColumn present g row = .ok g') : g'.IsApart := by
  obtain ⟨key, -, hadded⟩ := addRow_eq_ok.mp hadd
  split at hadded
  · exact hadded.2 ▸ h.add key _
  · exact hadded ▸ h

theorem isApart_ofRows (h : ofRows keyColumn present rows = .ok g) : g.IsApart :=
  of_foldlM_eq_ok (P := fun _ g => IsApart g) (fun _ _ _ _ _ hdone hadd => hdone.addRow hadd)
    isApart_nil h

theorem exists_of_mem_addRow {row : Row} (h : addRow keyColumn present g row = .ok g')
    {e : Value × List Row} (he : e ∈ g') :
    (∃ e' ∈ g, e'.1 = e.1) ∨ row.get? keyColumn = some e.1 := by
  obtain ⟨key, hkey, hadded⟩ := addRow_eq_ok.mp h
  split at hadded
  · obtain ⟨-, rfl⟩ := hadded
    rcases exists_of_mem_add he with ⟨-, hhere | hthere⟩ | he
    · exact .inr (by rw [hkey, hhere])
    · exact .inl hthere
    · exact .inl ⟨e, he, rfl⟩
  · exact .inl ⟨e, hadded ▸ he, rfl⟩

/-- Each group stands under the key of a row. -/
theorem exists_of_mem_ofRows (h : ofRows keyColumn present rows = .ok g) {e : Value × List Row}
    (he : e ∈ g) : ∃ row ∈ rows, row.get? keyColumn = some e.1 := by
  refine of_foldlM_eq_ok
    (P := fun done g => ∀ e ∈ g, ∃ row ∈ done, row.get? keyColumn = some e.1)
    (fun row _ done g g' hdone hadd e he => ?_) (List.forall_mem_nil _) h e he
  rcases exists_of_mem_addRow hadd he with ⟨e', he', heq⟩ | hkey
  · obtain ⟨row', hrow', hkey⟩ := hdone e' he'
    exact ⟨row', List.mem_append_left _ hrow', heq ▸ hkey⟩
  · exact ⟨row, List.mem_append_right _ List.mem_cons_self, hkey⟩

/-- Rows with keys can be grouped. -/
theorem exists_ofRows (present : Option String)
    (h : ∀ row ∈ rows, ∃ key, row.get? keyColumn = some key ∧ key.isKey = true) :
    ∃ g, ofRows keyColumn present rows = .ok g := by
  rw [ofRows]
  generalize ([] : Grouped) = g
  induction rows generalizing g with
  | nil => exact ⟨g, rfl⟩
  | cons row rows ih =>
    obtain ⟨⟨key, hkey, hisKey⟩, hrest⟩ := List.forall_mem_cons.mp h
    obtain ⟨g₁, hadd⟩ : ∃ g₁, addRow keyColumn present g row = .ok g₁ := by
      cases hcounts : counts present (row.drop keyColumn) with
      | true =>
        exact ⟨_, addRow_eq_ok.mpr ⟨key, hkey, by rw [if_pos hcounts]; exact ⟨hisKey, rfl⟩⟩⟩
      | false =>
        exact ⟨_, addRow_eq_ok.mpr ⟨key, hkey, by rw [if_neg (Bool.eq_false_iff.mp hcounts)]⟩⟩
    obtain ⟨g', hg'⟩ := ih hrest g₁
    exact ⟨g', bind_eq_ok.mpr ⟨g₁, hadd, hg'⟩⟩

end ListQuery.Grouped

/-!
## Reading for many keys at once

A statement reads the related rows of many rows at once and says with each of them to which key it
belongs. Grouped by that key, the rows of one key are those that the joined tables link to it, as if
it had been read for alone; a key for which was not read has none.

* `Engine.ComparesKeys` — what is asked of the engine;
* `Grouped.Holds` — groups that hold for some keys what belongs to each;
* `holds_ofRows` — the rows that a statement reads;
* `Grouped.Gathers`, `gathers_ofRows` — the same in whatever order they come.
-/

namespace ListQuery

open Sql

/-- An engine that tells keys apart as the program does. -/
structure Sql.Engine.ComparesKeys (g : Engine) : Prop where
  joins  : ∀ (c d : Column) (v w : Value), g.joins c d v w = v.links w
  member : ∀ (c : Column) (ids : List Value) (v : Value),
    g.meets (Loading.isAnyOf c ids) v = ids.any v.links

/-- The joined rows that a key links to. -/
def Sql.Engine.linked (g : Engine) (tables : Tables) (st : Statement) (key : Column) (k : Value) :
    List Scene :=
  (g.scenes tables st).filter fun s => (s.at key).links k

/-- Groups that hold for each of some keys the rows that belong to it, and nothing for others. -/
structure Grouped.Holds (grouped : Grouped) (keys : List Value) (related : Value → List Row) :
    Prop where
  rowsOf  : ∀ k, grouped.rowsOf k = if keys.any k.links then related k else []
  allRows : ∀ row, row ∈ grouped.allRows ↔ ∃ k ∈ keys, row ∈ related k

/-- For no keys nothing is held. -/
theorem Grouped.holds_nil (related : Value → List Row) : Grouped.Holds [] [] related where
  rowsOf _ := rfl
  allRows _ := iff_of_false List.not_mem_nil fun ⟨_, hk, _⟩ => absurd hk List.not_mem_nil

/-- Where nothing belongs to any key nothing is held. -/
theorem Grouped.holds_empty (keys : List Value) : Grouped.Holds [] keys fun _ => [] where
  rowsOf _ := (ite_self _).symm
  allRows _ := iff_of_false List.not_mem_nil fun ⟨_, _, hrow⟩ => absurd hrow List.not_mem_nil

variable {g : Engine} {tables tables' : Tables} {st : Statement} {key : Column} {ids : List Value}

/-- A statement that was answered could be written, and names no table twice. -/
theorem Sql.Engine.run_readRows_eq_ok {rows : List Row}
    (h : (g.database.readRows st).run tables = (.ok rows, tables')) :
    st.labels.Nodup ∧ rows = g.rows tables st ∧ tables' = tables := by
  rw [Database.run_readRows] at h
  split at h
  case h_2 => cases (Prod.mk.inj h).1
  case h_1 =>
    obtain ⟨hrows, htables⟩ := Prod.mk.inj h
    split at hrows
    case isTrue hlabels => exact ⟨hlabels, (Except.ok.inj hrows).symm, htables.symm⟩
    case isFalse => cases hrows

/-- Counting leaves the tables as they are. -/
theorem Sql.Engine.run_readNumber_tables {n : Int}
    (h : (g.database.readNumber st).run tables = (.ok n, tables')) : tables' = tables := by
  rw [Database.run_readNumber] at h
  split at h
  case h_1 => exact (Prod.mk.inj h).2.symm
  case h_2 => cases (Prod.mk.inj h).1

/-- What only the kept elements lead to. -/
theorem flatMap_filter_left {α β : Type} (l : List α) (p : α → Bool) (f : α → List β) :
    (l.filter p).flatMap f = l.flatMap fun a => (f a).filter fun _ => p a := by
  induction l with
  | nil => rfl
  | cons a l ih =>
    rw [List.filter_cons, List.flatMap_cons]
    cases hp : p a with
    | true =>
      rw [if_pos rfl, List.flatMap_cons, ih]
      congr 1
      exact (List.filter_eq_self.mpr fun _ _ => rfl).symm
    | false =>
      rw [if_neg Bool.false_ne_true, ih, List.filter_eq_nil_iff.mpr fun _ _ => Bool.false_ne_true]
      rfl

/-- The rows that are found for some keys. -/
theorem found_isAnyOf (hg : g.ComparesKeys) (hst : st.conditions = [Loading.isAnyOf key ids]) :
    g.found tables st = (g.scenes tables st).filter fun s => ids.any (s.at key).links := by
  rw [Engine.found, hst]
  refine List.filter_congr fun s _ => ?_
  rw [Engine.acceptsAll_singleton]
  show g.meets (Loading.isAnyOf key ids) (s.at key) = _
  exact hg.member key ids (s.at key)

/-- The rows that were found for some keys and belong to one of them. -/
theorem filter_linked (ss : List Scene) (p : Scene → Bool) (k : Value) :
    (ss.filter fun s => ids.any (s.at key).links).filter (fun s => (s.at key).same k && p s) =
      if ids.any k.links then (ss.filter fun s => (s.at key).links k).filter p else [] := by
  rw [List.filter_filter]
  split
  case isTrue hk =>
    obtain ⟨i, -, hi⟩ := List.any_eq_true.mp hk
    rw [List.filter_filter]
    refine List.filter_congr fun s _ => ?_
    rw [Value.links]
    cases hsame : (s.at key).same k with
    | false => rw [Bool.and_false, Bool.false_and, Bool.false_and, Bool.and_false]
    | true =>
      have hlinks : (s.at key).links = k.links := funext (Value.links_congr hsame)
      rw [hlinks, hk, Value.isNull_of_same hsame, Value.isNull_of_links hi, Bool.and_true,
        Bool.true_and, Bool.not_false, Bool.true_and, Bool.and_true]
  case isFalse hk =>
    refine List.filter_eq_nil_iff.mpr fun s _ h => hk ?_
    obtain ⟨hboth, hany⟩ := Bool.and_eq_true_iff.mp h
    obtain ⟨hsame, -⟩ := Bool.and_eq_true_iff.mp hboth
    have hlinks : (s.at key).links = k.links := funext (Value.links_congr hsame)
    rwa [hlinks] at hany

/-- The rows that a statement reads for some keys, grouped by them. -/
theorem holds_ofRows {os : List Output} {keyColumn : String} {present : Option String}
    {grouped : Grouped} (hg : g.ComparesKeys) (hst : st.conditions = [Loading.isAnyOf key ids])
    (hos : st.projection = .columns os) (horder : st.order = []) (hlimit : st.limit = none)
    (hkey : ∀ s, (Engine.project os s).get? keyColumn = some (s.at key))
    (hgrouped : Grouped.ofRows keyColumn present (g.rows tables st) = .ok grouped) :
    grouped.Holds ids fun k =>
      ((g.linked tables st key k).filter fun s =>
        Grouped.counts present ((Engine.project os s).drop keyColumn)).map fun s =>
          (Engine.project os s).drop keyColumn := by
  have hrows : g.rows tables st = ((g.scenes tables st).filter fun s =>
      ids.any (s.at key).links).map (Engine.project os) := by
    rw [Engine.rows_of_unordered hos horder hlimit, found_isAnyOf hg hst]
  rw [hrows] at hgrouped
  refine ⟨fun k => ?_, fun row => ?_⟩
  · have hbelongs := Grouped.rowsOf_ofRows hgrouped k
    have hat : (fun row : Row => (row.at keyColumn).same k &&
        Grouped.counts present (row.drop keyColumn)) ∘ Engine.project os = fun s : Scene =>
          (s.at key).same k && Grouped.counts present ((Engine.project os s).drop keyColumn) := by
      funext s
      rw [Function.comp_apply, Row.at_of_get? (hkey s)]
    rw [hbelongs, Grouped.belonging, List.filter_map, List.map_map, hat, filter_linked]
    split <;> rfl
  · rw [Grouped.mem_allRows_ofRows hgrouped row]
    constructor
    · rintro ⟨row', hrow', hcounts, rfl⟩
      obtain ⟨s, hs, rfl⟩ := List.mem_map.mp hrow'
      obtain ⟨hscene, hany⟩ := List.mem_filter.mp hs
      obtain ⟨i, hi, hlinks⟩ := List.any_eq_true.mp hany
      exact ⟨i, hi, List.mem_map.mpr ⟨s, List.mem_filter.mpr
        ⟨List.mem_filter.mpr ⟨hscene, hlinks⟩, hcounts⟩, rfl⟩⟩
    · rintro ⟨i, hi, hrow⟩
      obtain ⟨s, hs, rfl⟩ := List.mem_map.mp hrow
      obtain ⟨hlinked, hcounts⟩ := List.mem_filter.mp hs
      obtain ⟨hscene, hlinks⟩ := List.mem_filter.mp hlinked
      exact ⟨_, List.mem_map.mpr ⟨s, List.mem_filter.mpr
        ⟨hscene, List.any_eq_true.mpr ⟨i, hi, hlinks⟩⟩, rfl⟩, hcounts, rfl⟩

/-- Groups that hold, in whatever order, what belongs to each of some keys: every group is under one
of the keys, no two are under the same one, and none is empty. -/
structure Grouped.Gathers (grouped : Grouped) (ids : List Value) (related : Value → List Row) :
    Prop where
  keys    : ∀ entry ∈ grouped, ∃ i ∈ ids, entry.1.same i = true
  apart   : grouped.IsApart
  rowsOf  : ∀ i ∈ ids, (grouped.rowsOf i).Perm (related i)
  allRows : ∀ row, row ∈ grouped.allRows ↔ ∃ i ∈ ids, row ∈ related i

/-- There is no group under a key without rows. -/
theorem Grouped.Gathers.group?_eq_none_iff {grouped : Grouped} {related : Value → List Row}
    (h : grouped.Gathers ids related) {i : Value} (hi : i ∈ ids) :
    grouped.group? i = none ↔ related i = [] := by
  rw [Grouped.group?_eq_none_iff h.apart, ← List.perm_nil, ← List.perm_nil]
  exact ⟨(h.rowsOf i hi).symm.trans, (h.rowsOf i hi).trans⟩

section
variable {os : List Output} {keyColumn : String} {rows : List Row} (hg : g.ComparesKeys)
  (hst : st.conditions = [Loading.isAnyOf key ids]) (hos : st.projection = .columns os)
  (horder : st.order = []) (hlimit : st.limit = none)
  (hkey : ∀ s, (Engine.project os s).get? keyColumn = some (s.at key))
  (hperm : rows.Perm (g.rows tables st))

include hg hst hos horder hlimit hkey hperm

/-- The rows that a statement finds for some keys come with keys that are linked to one of them. -/
theorem exists_key_of_mem_found {row : Row} (hrow : row ∈ rows) :
    ∃ k, row.get? keyColumn = some k ∧ ∃ i ∈ ids, k.links i = true := by
  rw [hperm.mem_iff, Engine.rows_of_unordered hos horder hlimit, found_isAnyOf hg hst] at hrow
  obtain ⟨s, hs, rfl⟩ := List.mem_map.mp hrow
  obtain ⟨i, hi, hlinks⟩ := List.any_eq_true.mp (List.mem_filter.mp hs).2
  exact ⟨_, hkey s, i, hi, hlinks⟩

/-- What a statement finds for some keys can be grouped, in whatever order it comes. -/
theorem exists_ofRows_found (present : Option String) :
    ∃ grouped, Grouped.ofRows keyColumn present rows = .ok grouped := by
  refine Grouped.exists_ofRows present fun row hrow => ?_
  obtain ⟨k, hk, i, -, hlinks⟩ :=
    exists_key_of_mem_found hg hst hos horder hlimit hkey hperm hrow
  exact ⟨k, hk, Value.isKey_of_same (Value.same_of_links hlinks)⟩

/-- What a statement finds for some keys, grouped in whatever order it comes. -/
theorem gathers_ofRows {present : Option String} {grouped : Grouped}
    (h : Grouped.ofRows keyColumn present rows = .ok grouped) :
    grouped.Gathers ids fun k =>
      ((g.linked tables st key k).filter fun s =>
        Grouped.counts present ((Engine.project os s).drop keyColumn)).map fun s =>
          (Engine.project os s).drop keyColumn := by
  obtain ⟨asRead, hasRead⟩ := exists_ofRows_found hg hst hos horder hlimit hkey (.refl _) present
  have hholds := holds_ofRows hg hst hos horder hlimit hkey hasRead
  refine ⟨?keys, Grouped.isApart_ofRows h, ?rowsOf, ?allRows⟩
  case keys =>
    intro entry hentry
    obtain ⟨row, hrow, hentryKey⟩ := Grouped.exists_of_mem_ofRows h hentry
    obtain ⟨k, hk, i, hi, hlinks⟩ :=
      exists_key_of_mem_found hg hst hos horder hlimit hkey hperm hrow
    obtain rfl := Option.some.inj (hentryKey.symm.trans hk)
    exact ⟨i, hi, Value.same_of_links hlinks⟩
  case rowsOf =>
    intro i hi
    rw [Grouped.rowsOf_ofRows h]
    refine (Grouped.belonging_perm hperm i).trans ?_
    rw [← Grouped.rowsOf_ofRows hasRead, hholds.rowsOf i]
    split
    case isTrue => exact .refl _
    case isFalse hnone =>
      -- a key that links to none of them, not even to itself, has no rows
      refine .of_eq (List.eq_nil_iff_forall_not_mem.mpr fun row hrow => hnone ?_).symm
      obtain ⟨s, hs, -⟩ := List.mem_map.mp hrow
      have hlinks := (List.mem_filter.mp (List.mem_filter.mp hs).1).2
      exact List.any_eq_true.mpr ⟨i, hi, Value.links_self_of_links hlinks⟩
  case allRows =>
    intro row
    rw [← hholds.allRows row, Grouped.mem_allRows_ofRows h, Grouped.mem_allRows_ofRows hasRead]
    simp only [hperm.mem_iff]

end

end ListQuery
