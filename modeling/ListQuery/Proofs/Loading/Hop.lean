import ListQuery.Proofs.Loading.Paths

/-!
# Hops

Each relation on a path is one hop: its rows are read for the keys of the rows that the hop before it
gave. Where it is known how statements are answered, the path to a hop and the keys at its start tell
what it gives, whatever else is loaded.

* `KeysEachOnce` — the keys that a hop goes on from;
* `Hop`, `lastHop?` — the hop at the end of a path;
* `valueAt`, `statementAt?` — what stands under a path, and the statement that it takes;
* `isSome_valueAt_iff` — under which paths something stands.
-/

namespace ListQuery.Loading

open Sql Database Text

-- ---------------------------------------------------------------------------
-- Keys of rows
-- ---------------------------------------------------------------------------

/-- The keys that stand in a column of some rows: all but those that are nothing, each once. -/
structure KeysEachOnce (column : String) (rows : List Row) (keys : List Value) : Prop where
  found : ∀ k ∈ keys, k.isNull = false ∧ ∃ row ∈ rows, row.get? column = some k
  apart : keys.Pairwise fun k later => k.equal later = .ok false
  all   : ∀ row ∈ rows, ∀ v, row.get? column = some v → v.isNull = true ∨
    v ∈ keys ∨ ∃ k ∈ keys, k.equal v = .ok true

theorem isAmong_eq_false {v : Value} {seen : List Value} (h : isAmong v seen = .ok false) :
    ∀ w ∈ seen, w.equal v = .ok false := by
  induction seen with
  | nil => exact List.forall_mem_nil _
  | cons w seen ih =>
    rw [isAmong] at h
    obtain ⟨b, hb, h⟩ := bind_eq_ok.mp h
    cases b with
    | true => cases h
    | false => exact List.forall_mem_cons.mpr ⟨hb, ih h⟩

/-- Keys that stand for some values: all but those that are nothing, each once. -/
structure EachOnce (values keys : List Value) : Prop where
  found : ∀ k ∈ keys, k.isNull = false ∧ k ∈ values
  apart : keys.Pairwise fun k later => k.equal later = .ok false
  all   : ∀ v ∈ values, v.isNull = true ∨ v ∈ keys ∨ ∃ k ∈ keys, k.equal v = .ok true

/-- One more value that no further key has to stand for. -/
theorem EachOnce.same {values keys : List Value} {v : Value} (h : EachOnce values keys)
    (hv : v.isNull = true ∨ v ∈ keys ∨ ∃ k ∈ keys, k.equal v = .ok true) :
    EachOnce (values ++ [v]) keys where
  found k hk := (h.found k hk).imp_right (List.mem_append_left _)
  apart := h.apart
  all := List.forall_mem_append.mpr ⟨h.all, List.forall_mem_singleton.mpr hv⟩

/-- One more value with its own key. -/
theorem EachOnce.concat {values keys : List Value} {v : Value} (h : EachOnce values keys)
    (hnull : v.isNull = false) (hnew : ∀ k ∈ keys, k.equal v = .ok false) :
    EachOnce (values ++ [v]) (keys ++ [v]) where
  found := List.forall_mem_append.mpr
    ⟨fun k hk => (h.found k hk).imp_right (List.mem_append_left _),
      List.forall_mem_singleton.mpr ⟨hnull, List.mem_append_right _ List.mem_cons_self⟩⟩
  apart := List.pairwise_append.mpr ⟨h.apart, List.pairwise_singleton _ _, fun k hk =>
    List.forall_mem_singleton.mpr (hnew k hk)⟩
  all := List.forall_mem_append.mpr
    ⟨fun w hw => (h.all w hw).imp_right fun hall =>
        hall.imp (List.mem_append_left _) (.imp fun _ => .imp_left (List.mem_append_left _)),
      List.forall_mem_singleton.mpr (.inr (.inl (List.mem_append_right _ List.mem_cons_self)))⟩

theorem EachOnce.addKey {values keys keys' : List Value} {v : Value} (h : EachOnce values keys)
    (hadd : addKey keys v = .ok keys') : EachOnce (values ++ [v]) keys' := by
  rw [Loading.addKey] at hadd
  split at hadd
  case isTrue hnull =>
    obtain rfl := Except.ok.inj hadd
    exact h.same (.inl hnull)
  case isFalse hnull =>
    obtain ⟨b, hb, hadd⟩ := bind_eq_ok.mp hadd
    cases b with
    | true =>
      obtain rfl := Except.ok.inj hadd
      exact h.same (.inr (.inr (mem_of_isAmong hb)))
    | false =>
      obtain rfl := Except.ok.inj hadd
      exact h.concat (Bool.eq_false_iff.mpr hnull) (isAmong_eq_false hb)

theorem keysEachOnce_of_keysOf {column : String} {rows : List Row} {keys : List Value}
    (h : keysOf column rows = .ok keys) : KeysEachOnce column rows keys := by
  have hvalues : EachOnce (keysIn column rows) keys :=
    of_foldlM_eq_ok (P := EachOnce) (fun _ _ _ _ _ hdone hadd => hdone.addKey hadd)
      ⟨List.forall_mem_nil _, List.Pairwise.nil, List.forall_mem_nil _⟩ h
  refine ⟨fun k hk => ?_, hvalues.apart, fun row hrow v hv => ?_⟩
  · obtain ⟨hnull, hmem⟩ := hvalues.found k hk
    exact ⟨hnull, List.mem_filterMap.mp hmem⟩
  · exact hvalues.all v (List.mem_filterMap.mpr ⟨row, hrow, hv⟩)

-- ---------------------------------------------------------------------------
-- Hops
-- ---------------------------------------------------------------------------

/-- A relation of an entity that is read for some keys. -/
structure Hop where
  entity : Entity
  name   : String
  keys   : List Value

section
variable (answer : Statement → Except Failure (List Row)) (schema : Schema)

/-- The statement of a hop. There is none without keys, or if the relation cannot be read. -/
def Hop.statement? (h : Hop) : Option Statement :=
  if h.keys.isEmpty then none else (reader? schema h.entity h.name).map (· h.keys)

/-- What a hop gives where statements are answered in this way. -/
def Hop.value (h : Hop) : Except Failure Grouped :=
  match h.statement? schema with
  | none    => .ok []
  | some st => do
    st.check
    let rows ← answer st
    Grouped.ofRows parentKey none rows

/-- The hop at the end of some names, if all of them lead on. -/
def lastHop? : Entity → List Value → List String → Except Failure (Option Hop)
  | _, _,    []            => .ok none
  | e, keys, name :: names =>
    match e.relation? name with
    | none   => .ok none
    | some r =>
      match names with
      | []     => .ok (some ⟨e, name, keys⟩)
      | _ :: _ => do
        let grouped ← Hop.value answer schema ⟨e, name, keys⟩
        match r.target.bind schema.get? with
        | none        => .ok none
        | some target => do
          let keys ← keysOf target.primaryKey grouped.allRows
          lastHop? target keys names

/-- What stands under some names, if all of them lead on. -/
def valueOf (e : Entity) (keys : List Value) (names : List String) :
    Except Failure (Option Grouped) := do
  match ← lastHop? answer schema e keys names with
  | none     => .ok none
  | some hop => (hop.value answer schema).map some

/-- What stands under a path. -/
def valueAt (e : Entity) (keys : List Value) (p : String) : Except Failure (Option Grouped) :=
  valueOf answer schema e keys (segments p)

/-- The statement that a path takes beyond those of the paths before it. -/
def statementAt? (e : Entity) (keys : List Value) (p : String) : Option Statement :=
  match lastHop? answer schema e keys (segments p) with
  | .ok (some hop) => hop.statement? schema
  | _              => none

end

section
variable {answer : Statement → Except Failure (List Row)} {schema : Schema} {e : Entity}
  {keys : List Value} {name : String} {names : List String} {r : Relation} {grouped : Grouped}

theorem lastHop?_of_unknown (hr : e.relation? name = none) :
    lastHop? answer schema e keys (name :: names) = .ok none := by
  rw [lastHop?, hr]

theorem lastHop?_singleton (hr : e.relation? name = some r) :
    lastHop? answer schema e keys [name] = .ok (some ⟨e, name, keys⟩) := by
  rw [lastHop?, hr]

theorem lastHop?_cons (hr : e.relation? name = some r) (hne : names ≠ []) :
    lastHop? answer schema e keys (name :: names) = (do
      let grouped ← Hop.value answer schema ⟨e, name, keys⟩
      match r.target.bind schema.get? with
      | none        => .ok none
      | some target => do
        let keys ← keysOf target.primaryKey grouped.allRows
        lastHop? answer schema target keys names) := by
  obtain ⟨next, rest, rfl⟩ := List.exists_cons_of_ne_nil hne
  rw [lastHop?, hr]

theorem valueOf_of_unknown (hr : e.relation? name = none) :
    valueOf answer schema e keys (name :: names) = .ok none := by
  rw [valueOf, lastHop?_of_unknown hr]
  rfl

theorem valueOf_singleton (hr : e.relation? name = some r) :
    valueOf answer schema e keys [name] = (Hop.value answer schema ⟨e, name, keys⟩).map some := by
  rw [valueOf, lastHop?_singleton hr]
  rfl

theorem valueOf_cons_error (hr : e.relation? name = some r) {failure : Failure}
    (hvalue : Hop.value answer schema ⟨e, name, keys⟩ = .error failure) :
    valueOf answer schema e keys (name :: names) = .error failure := by
  cases names with
  | nil => rw [valueOf_singleton hr, hvalue]; rfl
  | cons next names =>
    rw [valueOf, lastHop?_cons hr (List.cons_ne_nil _ _), hvalue]
    rfl

theorem valueOf_cons_untargeted (hr : e.relation? name = some r) (hne : names ≠ [])
    (hvalue : Hop.value answer schema ⟨e, name, keys⟩ = .ok grouped)
    (htarget : r.target.bind schema.get? = none) :
    valueOf answer schema e keys (name :: names) = .ok none := by
  rw [valueOf, lastHop?_cons hr hne, hvalue, htarget]
  rfl

theorem lastHop?_cons_targeted (hr : e.relation? name = some r) (hne : names ≠ [])
    (hvalue : Hop.value answer schema ⟨e, name, keys⟩ = .ok grouped) {target : Entity}
    (htarget : r.target.bind schema.get? = some target) :
    lastHop? answer schema e keys (name :: names) = (do
      let keys ← keysOf target.primaryKey grouped.allRows
      lastHop? answer schema target keys names) := by
  rw [lastHop?_cons hr hne, hvalue, htarget]
  rfl

theorem valueOf_cons_targeted (hr : e.relation? name = some r) (hne : names ≠ [])
    (hvalue : Hop.value answer schema ⟨e, name, keys⟩ = .ok grouped) {target : Entity}
    (htarget : r.target.bind schema.get? = some target) :
    valueOf answer schema e keys (name :: names) = (do
      let keys ← keysOf target.primaryKey grouped.allRows
      valueOf answer schema target keys names) := by
  rw [valueOf, lastHop?_cons_targeted hr hne hvalue htarget]
  exact bind_assoc _ _ _

/-- The first hop of a path that can be followed. -/
theorem exists_value_of_valueOf (hr : e.relation? name = some r) {found : Option Grouped}
    (h : valueOf answer schema e keys (name :: names) = .ok found) :
    ∃ grouped, Hop.value answer schema ⟨e, name, keys⟩ = .ok grouped := by
  cases hvalue : Hop.value answer schema ⟨e, name, keys⟩ with
  | ok grouped => exact ⟨grouped, rfl⟩
  | error failure =>
    rw [valueOf_cons_error hr hvalue] at h
    cases h

/-- The first names of a path that can be followed can be followed. -/
theorem exists_valueOf_of_prefix {more : List String} (hbegins : more <+: names)
    {found : Option Grouped} (h : valueOf answer schema e keys names = .ok found) :
    ∃ found, valueOf answer schema e keys more = .ok found := by
  induction names generalizing e keys more with
  | nil =>
    obtain rfl := List.prefix_nil.mp hbegins
    exact ⟨found, h⟩
  | cons name names ih =>
    cases more with
    | nil => exact ⟨none, rfl⟩
    | cons name' more =>
      obtain ⟨rfl, hrest⟩ := List.cons_prefix_cons.mp hbegins
      cases hr : e.relation? name' with
      | none => exact ⟨none, valueOf_of_unknown hr⟩
      | some r =>
        obtain ⟨grouped, hvalue⟩ := exists_value_of_valueOf hr h
        by_cases hmore : more = []
        · rw [hmore, valueOf_singleton hr, hvalue]
          exact ⟨some grouped, rfl⟩
        · have hnames : names ≠ [] := fun hnil => hmore (List.prefix_nil.mp (hnil ▸ hrest))
          cases htarget : r.target.bind schema.get? with
          | none => exact ⟨none, valueOf_cons_untargeted hr hmore hvalue htarget⟩
          | some target =>
            rw [valueOf_cons_targeted hr hnames hvalue htarget] at h
            obtain ⟨keys', hkeys, h⟩ := bind_eq_ok.mp h
            obtain ⟨found', hfound⟩ := ih hrest h
            exact ⟨found', by
              rw [valueOf_cons_targeted hr hmore hvalue htarget, hkeys]
              exact hfound⟩

-- ---------------------------------------------------------------------------
-- Paths that resolve
-- ---------------------------------------------------------------------------

theorem entityAt?_of_unknown (hr : e.relation? name = none) (names : List String) :
    entityAt? schema e (name :: names) = none := by
  show ((e.relation? name).bind fun r => r.target.bind schema.get?).bind _ = none
  rw [hr]
  rfl

/-- A path goes on from the target of its first relation. -/
theorem entityAt?_cons (hr : e.relation? name = some r) (names : List String) :
    entityAt? schema e (name :: names) =
      (r.target.bind schema.get?).bind fun target => entityAt? schema target names := by
  show ((e.relation? name).bind fun r => r.target.bind schema.get?).bind _ = _
  rw [hr]
  rfl

/-- There is a last hop just if the entity before it has the relation. -/
theorem isSome_lastHop?_iff {found : Option Hop} (hne : names ≠ [])
    (h : lastHop? answer schema e keys names = .ok found) :
    found.isSome = true ↔ ∃ target, entityAt? schema e names.dropLast = some target ∧
      (target.relation? (names.getLastD "")).isSome = true := by
  induction names generalizing e keys with
  | nil => exact absurd rfl hne
  | cons name names ih =>
    by_cases hlast : names = []
    · subst hlast
      have hhere : (∃ target, entityAt? schema e ([name].dropLast) = some target ∧
          (target.relation? ([name].getLastD "")).isSome = true) ↔
            (e.relation? name).isSome = true := by
        constructor
        · rintro ⟨target, htarget, hsome⟩
          obtain rfl := Option.some.inj htarget
          exact hsome
        · exact fun hsome => ⟨e, rfl, hsome⟩
      rw [hhere]
      cases hr : e.relation? name with
      | none =>
        rw [lastHop?_of_unknown hr] at h
        obtain rfl := Except.ok.inj h
        exact Iff.rfl
      | some r =>
        rw [lastHop?_singleton hr] at h
        obtain rfl := Except.ok.inj h
        exact Iff.rfl
    · have hgetLast : (name :: names).getLastD "" = names.getLastD "" := by
        obtain ⟨next, rest, rfl⟩ := List.exists_cons_of_ne_nil hlast
        rfl
      rw [List.dropLast_cons_of_ne_nil hlast, hgetLast]
      cases hr : e.relation? name with
      | none =>
        rw [lastHop?_of_unknown hr] at h
        obtain rfl := Except.ok.inj h
        refine iff_of_false Bool.false_ne_true ?_
        rintro ⟨target, htarget, -⟩
        rw [entityAt?_of_unknown hr] at htarget
        cases htarget
      | some r =>
        rw [lastHop?_cons hr hlast] at h
        obtain ⟨grouped, hvalue, h⟩ := bind_eq_ok.mp h
        rw [entityAt?_cons hr]
        cases htarget : r.target.bind schema.get? with
        | none =>
          rw [htarget] at h
          obtain rfl := Except.ok.inj h
          refine iff_of_false Bool.false_ne_true ?_
          rintro ⟨target, htarget, -⟩
          cases htarget
        | some target =>
          rw [htarget] at h
          obtain ⟨keys', -, h⟩ := bind_eq_ok.mp h
          exact ih hlast h

theorem valueOf_eq_ok {found : Option Grouped} :
    valueOf answer schema e keys names = .ok found ↔
      ∃ hop?, lastHop? answer schema e keys names = .ok hop? ∧
        match hop? with
        | none     => found = none
        | some hop => ∃ grouped, hop.value answer schema = .ok grouped ∧ found = some grouped := by
  rw [valueOf, bind_eq_ok]
  refine exists_congr fun hop? => and_congr_right fun _ => ?_
  cases hop? with
  | none => exact ⟨fun h => (Except.ok.inj h).symm, fun h => congrArg Except.ok h.symm⟩
  | some hop =>
    refine map_eq_ok.trans (exists_congr fun grouped => and_congr_right fun _ => eq_comm)

/-- Something stands under a path that can be followed just if its relations resolve. -/
theorem isSome_valueAt_iff {p : String} {found : Option Grouped}
    (h : valueAt answer schema e keys p = .ok found) :
    found.isSome = true ↔ Resolves schema e p := by
  obtain ⟨hop?, hhop, hfound⟩ := valueOf_eq_ok.mp h
  rw [Resolves, ← isSome_lastHop?_iff (segments_ne_nil p) hhop]
  cases hop? with
  | none =>
    rw [hfound]
    exact Iff.rfl
  | some hop =>
    obtain ⟨grouped, -, rfl⟩ := hfound
    exact Iff.rfl

theorem exists_lastHop?_of_valueAt (h : valueAt answer schema e keys p = .ok (some grouped)) :
    ∃ hop, lastHop? answer schema e keys (segments p) = .ok (some hop) := by
  obtain ⟨hop?, hhop, hvalue⟩ := valueOf_eq_ok.mp h
  cases hop? with
  | none => cases hvalue
  | some hop => exact ⟨hop, hhop⟩

/-- The hop at the end of a path goes on from the rows of the path before it. -/
theorem lastHop?_concat (hne : names ≠ []) {hop : Hop}
    (h : lastHop? answer schema e keys (names ++ [name]) = .ok (some hop)) :
    ∃ grouped target keys', valueOf answer schema e keys names = .ok (some grouped) ∧
      entityAt? schema e names = some target ∧
      keysOf target.primaryKey grouped.allRows = .ok keys' ∧ hop = ⟨target, name, keys'⟩ := by
  induction names generalizing e keys with
  | nil => exact absurd rfl hne
  | cons first names ih =>
    rw [List.cons_append] at h
    have hlast : names ++ [name] ≠ [] := List.append_ne_nil_of_right_ne_nil _ (List.cons_ne_nil _ _)
    cases hr : e.relation? first with
    | none =>
      rw [lastHop?_of_unknown hr] at h
      cases h
    | some r =>
      rw [lastHop?_cons hr hlast] at h
      obtain ⟨grouped, hvalue, h⟩ := bind_eq_ok.mp h
      cases htarget : r.target.bind schema.get? with
      | none =>
        rw [htarget] at h
        cases h
      | some target =>
        rw [htarget] at h
        obtain ⟨keys', hkeys, h⟩ := bind_eq_ok.mp h
        have hentity : ∀ names,
            entityAt? schema e (first :: names) = entityAt? schema target names := by
          intro names
          rw [entityAt?_cons hr, htarget, Option.bind_some]
        by_cases hnil : names = []
        · subst hnil
          cases hr' : target.relation? name with
          | none =>
            rw [List.nil_append, lastHop?_of_unknown hr'] at h
            cases h
          | some r' =>
            rw [List.nil_append, lastHop?_singleton hr'] at h
            obtain rfl := Option.some.inj (Except.ok.inj h)
            refine ⟨grouped, target, keys', ?_, hentity [], hkeys, rfl⟩
            rw [valueOf_singleton hr, hvalue]
            rfl
        · obtain ⟨grouped', target', keys'', hvalue', hentity', hkeys', rfl⟩ := ih hnil h
          refine ⟨grouped', target', keys'', ?_, (hentity names).trans hentity', hkeys', rfl⟩
          rw [valueOf_cons_targeted hr hnil hvalue htarget, hkeys]
          exact hvalue'

end

end ListQuery.Loading
