import ListQuery.Proofs.Execution.Attached
import ListQuery.Proofs.Loading.Hop

/-!
# Loading hop by hop

On a database that answers a statement always alike it does not matter which paths are loaded, nor
in which order: paths that share their first hops share what was read, and what stands under a path
is what its own hops give.

* `IsMemo` — what was loaded so far, as what stands under the paths;
* `pathFrom_ok`, `pathFrom_error` — one path;
* `LoadsHopByHop`, `RunsHopByHop` — what is loaded along some paths, and what becomes of it;
* `paths_compose` — paths that are loaded together and apart.
-/

namespace ListQuery

open Sql Database Text

/-- The state in which a statement leaves the database. -/
def Database.after {σ : Type} (db : Database σ) (s : σ) (st : Statement) : σ := (db.rows st s).2

namespace Loading

-- ---------------------------------------------------------------------------
-- One hop
-- ---------------------------------------------------------------------------

variable {σ : Type} {db : Database σ} {answer : Statement → Except Failure (List Row)}
  {schema : Schema} {e e₀ : Entity} {keys keys₀ : List Value} {name p : String}
  {before names : List String} {r : Relation} {grouped : Grouped} {loaded loaded' : Included}
  {s s' s₀ : σ}

section
variable (hdb : ∀ st s, (db.rows st s).1 = answer st)

include hdb

/-- What a hop does: at most one statement is asked. -/
theorem run_relation (e : Entity) (name : String) (keys : List Value) (s : σ) :
    (relation db schema e name (.list keys)).run s =
      match Hop.statement? schema ⟨e, name, keys⟩ with
      | none    => (.ok [], s)
      | some st =>
        match st.check with
        | .ok ()         => (answer st >>= Grouped.ofRows parentKey none, db.after s st)
        | .error failure => (.error failure, s) := by
  rw [relation, Hop.statement?]
  show (if keys.isEmpty = true then _ else _ : Session σ Grouped).run s = _
  split
  case isTrue => rfl
  case isFalse =>
    rw [run_bind, run_pureStep, statement?]
    cases reader? schema e name with
    | none => rfl
    | some read =>
      show ((db.readRows (read keys)) >>= fun rows => pureStep (Grouped.ofRows parentKey none rows)).run
        s = match (read keys).check with | .ok () => _ | .error failure => _
      rw [run_bind, run_readRows]
      cases (read keys).check with
      | error failure => rfl
      | ok u =>
        have hanswer : db.rows (read keys) s = (answer (read keys), db.after s (read keys)) :=
          Prod.ext (hdb _ _) rfl
        cases u
        dsimp only
        rw [hanswer]
        cases answer (read keys) <;> rfl

theorem run_relation_ok (hvalue : Hop.value answer schema ⟨e, name, keys⟩ = .ok grouped) (s : σ) :
    (relation db schema e name (.list keys)).run s =
      (.ok grouped, (Hop.statement? schema ⟨e, name, keys⟩).toList.foldl db.after s) := by
  rw [run_relation hdb]
  rw [Hop.value] at hvalue
  cases hst : Hop.statement? schema ⟨e, name, keys⟩ with
  | none =>
    rw [hst] at hvalue
    obtain rfl := Except.ok.inj hvalue
    rfl
  | some st =>
    rw [hst] at hvalue
    obtain ⟨⟨⟩, hcheck, hvalue⟩ := bind_eq_ok.mp hvalue
    dsimp only
    rw [hcheck]
    exact Prod.ext hvalue rfl

theorem run_relation_error {failure : Failure}
    (hvalue : Hop.value answer schema ⟨e, name, keys⟩ = .error failure) (s : σ) :
    ∃ s', (relation db schema e name (.list keys)).run s = (.error failure, s') ∧
      (s' = s ∨ s' = (Hop.statement? schema ⟨e, name, keys⟩).toList.foldl db.after s) := by
  rw [run_relation hdb]
  rw [Hop.value] at hvalue
  cases hst : Hop.statement? schema ⟨e, name, keys⟩ with
  | none =>
    rw [hst] at hvalue
    cases hvalue
  | some st =>
    rw [hst] at hvalue
    dsimp only at hvalue ⊢
    cases hcheck : st.check with
    | error failure' =>
      rw [hcheck] at hvalue
      exact ⟨s, Prod.ext hvalue rfl, .inl rfl⟩
    | ok u =>
      rw [hcheck] at hvalue
      exact ⟨db.after s st, Prod.ext hvalue rfl, .inr rfl⟩

end

-- ---------------------------------------------------------------------------
-- What was read before
-- ---------------------------------------------------------------------------

/-- From the entity and the keys at the start some names lead to an entity and its keys. -/
def Arrives (answer : Statement → Except Failure (List Row)) (schema : Schema) (e₀ : Entity)
    (keys₀ : List Value) (before : List String) (e : Entity) (keys : List Value) : Prop :=
  ∀ names, names ≠ [] →
    lastHop? answer schema e₀ keys₀ (before ++ names) = lastHop? answer schema e keys names

theorem arrives_nil : Arrives answer schema e keys [] e keys := fun _ _ => rfl

theorem Arrives.hop (h : Arrives answer schema e₀ keys₀ before e keys)
    (hr : e.relation? name = some r)
    (hvalue : Hop.value answer schema ⟨e, name, keys⟩ = .ok grouped) {target : Entity}
    (htarget : r.target.bind schema.get? = some target) {keys' : List Value}
    (hkeys : keysOf target.primaryKey grouped.allRows = .ok keys') :
    Arrives answer schema e₀ keys₀ (before ++ [name]) target keys' := by
  intro names hne
  rw [← List.append_cons, h _ (List.cons_ne_nil _ _), lastHop?_cons_targeted hr hne hvalue htarget,
    hkeys]
  rfl

theorem Arrives.valueAt (h : Arrives answer schema e₀ keys₀ before e keys) (hne : names ≠ [])
    (hp : segments p = before ++ names) :
    valueAt answer schema e₀ keys₀ p = valueOf answer schema e keys names := by
  rw [Loading.valueAt, valueOf, valueOf, hp, h names hne]

theorem Arrives.statementAt? (h : Arrives answer schema e₀ keys₀ before e keys)
    (hr : e.relation? name = some r) (hp : segments p = before ++ [name]) :
    statementAt? answer schema e₀ keys₀ p = Hop.statement? schema ⟨e, name, keys⟩ := by
  rw [Loading.statementAt?, hp, h _ (List.cons_ne_nil _ _), lastHop?_singleton hr]

/-- Between two states the statements of some paths were asked for, that of each path once. -/
structure Asked (db : Database σ) (answer : Statement → Except Failure (List Row))
    (schema : Schema) (e : Entity) (keys : List Value) (s₀ : σ) (asked : List String) (s : σ) :
    Prop where
  nodup  : asked.Nodup
  issued : s = (asked.filterMap (statementAt? answer schema e keys)).foldl db.after s₀

theorem asked_nil : Asked db answer schema e keys s₀ [] s₀ where
  nodup  := List.nodup_nil
  issued := rfl

theorem Asked.concat {asked : List String} (h : Asked db answer schema e keys s₀ asked s)
    (hnew : p ∉ asked) :
    Asked db answer schema e keys s₀ (asked ++ [p])
      ((statementAt? answer schema e keys p).toList.foldl db.after s) where
  nodup  := List.nodup_append.mpr ⟨h.nodup, List.nodup_singleton p, by
    intro p' hp' p'' hp'' heq
    rw [List.mem_singleton.mp hp''] at heq
    exact hnew (heq ▸ hp')⟩
  issued := by
    have hone : [p].filterMap (statementAt? answer schema e keys) =
        (statementAt? answer schema e keys p).toList := by
      cases hst : statementAt? answer schema e keys p <;> simp [hst]
    rw [h.issued, List.filterMap_append, List.foldl_append, hone]

/-- What was loaded is what stands under the paths, and took their statements. -/
structure IsMemo (db : Database σ) (answer : Statement → Except Failure (List Row))
    (schema : Schema) (e : Entity) (keys : List Value) (s₀ : σ) (loaded : Included) (s : σ) :
    Prop where
  asked : Asked db answer schema e keys s₀ loaded.keys s
  value : ∀ p grouped, loaded.get? p = some grouped →
    valueAt answer schema e keys p = .ok (some grouped)

theorem isMemo_nil : IsMemo db answer schema e keys s₀ [] s₀ where
  asked := asked_nil
  value := by
    intro p grouped h
    cases h

theorem notMem_keys (hnew : loaded.get? p = none) : p ∉ loaded.keys := by
  rw [← Entries.isSome_get?_iff, hnew]
  exact Bool.false_ne_true

/-- One path more, with its statement. -/
theorem IsMemo.put (hmemo : IsMemo db answer schema e keys s₀ loaded s)
    (hnew : loaded.get? p = none) (hvalue : valueAt answer schema e keys p = .ok (some grouped)) :
    IsMemo db answer schema e keys s₀ (loaded.put p grouped)
      ((statementAt? answer schema e keys p).toList.foldl db.after s) where
  asked := by
    have hmem := notMem_keys hnew
    rw [Entries.put_of_notMem _ hmem, Entries.keys, List.map_append]
    exact hmemo.asked.concat hmem
  value := by
    intro p' grouped' h
    by_cases heq : p' = p
    · rw [heq, Entries.get?_put_self] at h
      obtain rfl := Option.some.inj h
      rw [heq, hvalue]
    · rw [Entries.get?_put_of_ne _ _ heq] at h
      exact hmemo.value p' grouped' h

-- ---------------------------------------------------------------------------
-- One path
-- ---------------------------------------------------------------------------

/-- Beyond what was loaded there are the paths along some names, as far as they resolve. -/
def Gains (answer : Statement → Except Failure (List Row)) (schema : Schema) (e : Entity)
    (keys : List Value) (before names : List String) (loaded loaded' : Included) : Prop :=
  ∀ p, (loaded'.get? p).isSome = true ↔ (loaded.get? p).isSome = true ∨
    ∃ more grouped, more <+: names ∧ segments p = before ++ more ∧
      valueOf answer schema e keys more = .ok (some grouped)

theorem gains_none (h : ∀ more grouped, more <+: names →
    valueOf answer schema e keys more ≠ .ok (some grouped)) :
    Gains answer schema e keys before names loaded loaded := fun _ =>
  (or_iff_left fun ⟨more, grouped, hmore, _, hvalue⟩ => h more grouped hmore hvalue).symm

/-- Along an unknown relation there is nothing. -/
theorem gains_of_unknown (hr : e.relation? name = none) :
    Gains answer schema e keys before (name :: names) loaded loaded := by
  refine gains_none fun more grouped hmore hfound => ?_
  cases more with
  | nil => cases hfound
  | cons name' more =>
    obtain ⟨rfl, -⟩ := List.cons_prefix_cons.mp hmore
    rw [valueOf_of_unknown hr] at hfound
    cases hfound

/-- What is found behind a relation is what is found from its target on. -/
theorem exists_behind_iff {target : Entity} {keys' : List Value} (hr : e.relation? name = some r)
    (hhop : Hop.value answer schema ⟨e, name, keys⟩ = .ok grouped)
    (htarget : r.target.bind schema.get? = some target)
    (hkeys : keysOf target.primaryKey grouped.allRows = .ok keys') :
    (∃ more found, more <+: names ∧ segments p = before ++ [name] ++ more ∧
        valueOf answer schema target keys' more = .ok (some found)) ↔
      ∃ more found, more ≠ [] ∧ more <+: names ∧ segments p = before ++ name :: more ∧
        valueOf answer schema e keys (name :: more) = .ok (some found) := by
  refine exists_congr fun more => exists_congr fun found => ?_
  rw [← List.append_cons]
  constructor
  · rintro ⟨hmore, hp, hfound⟩
    have hne : more ≠ [] := by
      rintro rfl
      cases hfound
    refine ⟨hne, hmore, hp, ?_⟩
    rw [valueOf_cons_targeted hr hne hhop htarget, hkeys]
    exact hfound
  · rintro ⟨hne, hmore, hp, hfound⟩
    rw [valueOf_cons_targeted hr hne hhop htarget, hkeys] at hfound
    exact ⟨hmore, hp, hfound⟩

/-- The first name of a path, and what is gained along the others. -/
theorem gains_cons {loaded₁ : Included} (hpath : segments p = before ++ [name])
    (hhere : (loaded₁.get? p).isSome = true)
    (hothers : ∀ p', p' ≠ p → loaded₁.get? p' = loaded.get? p')
    (hvalue : ∃ grouped, valueOf answer schema e keys [name] = .ok (some grouped))
    (hrest : ∀ p', (loaded'.get? p').isSome = true ↔ (loaded₁.get? p').isSome = true ∨
      ∃ more grouped, more ≠ [] ∧ more <+: names ∧ segments p' = before ++ name :: more ∧
        valueOf answer schema e keys (name :: more) = .ok (some grouped)) :
    Gains answer schema e keys before (name :: names) loaded loaded' := by
  obtain ⟨grouped, hvalue⟩ := hvalue
  intro p'
  rw [hrest]
  constructor
  · rintro (hknown | ⟨more, grouped', -, hmore, hp', hmoreValue⟩)
    · by_cases heq : p' = p
      · exact .inr ⟨[name], grouped, List.cons_prefix_cons.mpr ⟨rfl, List.nil_prefix⟩,
          heq ▸ hpath, hvalue⟩
      · exact .inl (hothers p' heq ▸ hknown)
    · exact .inr ⟨name :: more, grouped', List.cons_prefix_cons.mpr ⟨rfl, hmore⟩, hp', hmoreValue⟩
  · rintro (hknown | ⟨more, grouped', hmore, hp', hmoreValue⟩)
    · by_cases heq : p' = p
      · exact .inl (heq ▸ hhere)
      · exact .inl (by rwa [hothers p' heq])
    · cases more with
      | nil => cases hmoreValue
      | cons name' more =>
        obtain ⟨rfl, hrestPrefix⟩ := List.cons_prefix_cons.mp hmore
        by_cases hlast : more = []
        · have heq : p' = p := by
            rw [← join_segments p', ← join_segments p, hp', hpath, hlast]
          exact .inl (heq ▸ hhere)
        · exact .inr ⟨more, grouped', hlast, hrestPrefix, hp', hmoreValue⟩

section
variable (hdb : ∀ st s, (db.rows st s).1 = answer st)

include hdb

/-- What one hop of a path adds, unless it was read before. -/
theorem addPath_ok (harrives : Arrives answer schema e₀ keys₀ before e keys)
    (hr : e.relation? name = some r) (hpath : segments p = before ++ [name])
    (hvalue : Hop.value answer schema ⟨e, name, keys⟩ = .ok grouped)
    (hmemo : IsMemo db answer schema e₀ keys₀ s₀ loaded s) :
    ∃ loaded' s', (addPath db schema e keys name p loaded).run s = (.ok loaded', s') ∧
      IsMemo db answer schema e₀ keys₀ s₀ loaded' s' ∧ loaded'.get? p = some grouped ∧
      ∀ p', p' ≠ p → loaded'.get? p' = loaded.get? p' := by
  have hhere : valueAt answer schema e₀ keys₀ p = .ok (some grouped) := by
    rw [harrives.valueAt (List.cons_ne_nil _ _) hpath, valueOf_singleton hr, hvalue]
    rfl
  rw [addPath]
  cases hknown : loaded.get? p with
  | some known =>
    obtain rfl : known = grouped :=
      Option.some.inj (Except.ok.inj ((hmemo.value p known hknown).symm.trans hhere))
    exact ⟨loaded, s, rfl, hmemo, hknown, fun _ _ => rfl⟩
  | none =>
    have hstatement := harrives.statementAt? hr hpath
    refine ⟨loaded.put p grouped, _, ?_, hstatement ▸ hmemo.put hknown hhere,
      Entries.get?_put_self _ _ _, fun p' hne => Entries.get?_put_of_ne _ _ hne⟩
    rw [run_bind, run_relation_ok hdb hvalue]
    rfl

theorem addPath_error (harrives : Arrives answer schema e₀ keys₀ before e keys)
    (hr : e.relation? name = some r) (hpath : segments p = before ++ [name]) {failure : Failure}
    (hvalue : Hop.value answer schema ⟨e, name, keys⟩ = .error failure)
    (hmemo : IsMemo db answer schema e₀ keys₀ s₀ loaded s) :
    ∃ s' asked, (addPath db schema e keys name p loaded).run s = (.error failure, s') ∧
      Asked db answer schema e₀ keys₀ s₀ asked s' ∧ ∀ p' ∈ asked, p' ∈ loaded.keys ∨ p' = p := by
  rw [addPath]
  cases hknown : loaded.get? p with
  | some known =>
    have hhere := hmemo.value p known hknown
    rw [harrives.valueAt (List.cons_ne_nil _ _) hpath, valueOf_singleton hr, hvalue] at hhere
    cases hhere
  | none =>
    obtain ⟨s', hrun, hs'⟩ := run_relation_error hdb hvalue s
    rw [run_bind, hrun]
    rcases hs' with rfl | hs'
    · exact ⟨s', loaded.keys, rfl, hmemo.asked, fun p' hp' => .inl hp'⟩
    · refine ⟨s', loaded.keys ++ [p], rfl, ?_, fun p' hp' => ?_⟩
      · rw [hs', ← harrives.statementAt? hr hpath]
        exact hmemo.asked.concat (notMem_keys hknown)
      · exact (List.mem_append.mp hp').imp_right List.mem_singleton.mp

omit hdb in
/-- The path to the first of the names that are left. -/
theorem segments_first (hsegments : ∀ n ∈ before ++ name :: names, IsSegment n) :
    segments (join "." (before ++ [name])) = before ++ [name] := by
  refine segments_join (List.append_ne_nil_of_right_ne_nil _ (List.cons_ne_nil _ _)) ?_
  intro n hn
  refine hsegments n ?_
  rw [List.append_cons]
  exact List.mem_append_left _ hn

/-- A path that can be followed is loaded, as far as it resolves. -/
theorem pathFrom_ok (hsegments : ∀ n ∈ before ++ names, IsSegment n)
    (harrives : Arrives answer schema e₀ keys₀ before e keys)
    (hmemo : IsMemo db answer schema e₀ keys₀ s₀ loaded s) {found : Option Grouped}
    (hvalue : valueOf answer schema e keys names = .ok found) :
    ∃ loaded' s', (pathFrom db schema e keys before loaded names).run s = (.ok loaded', s') ∧
      IsMemo db answer schema e₀ keys₀ s₀ loaded' s' ∧
      Gains answer schema e keys before names loaded loaded' := by
  induction names generalizing e keys before loaded s with
  | nil =>
    refine ⟨loaded, s, rfl, hmemo, gains_none fun more grouped hmore hfound => ?_⟩
    obtain rfl := List.prefix_nil.mp hmore
    cases hfound
  | cons name names ih =>
    cases hr : e.relation? name with
    | none =>
      refine ⟨loaded, s, ?_, hmemo, gains_of_unknown hr⟩
      rw [pathFrom, hr]
      rfl
    | some r =>
      have hpath := segments_first hsegments
      obtain ⟨grouped, hhop⟩ := exists_value_of_valueOf hr hvalue
      have hhere : valueOf answer schema e keys [name] = .ok (some grouped) := by
        rw [valueOf_singleton hr, hhop]
        rfl
      obtain ⟨loaded₁, s₁, hadd, hmemo₁, hknown, hothers⟩ :=
        addPath_ok hdb harrives hr hpath hhop hmemo
      rw [pathFrom_cons db hr, run_bind, hadd]
      by_cases hlast : names = []
      · subst hlast
        refine ⟨loaded₁, s₁, rfl, hmemo₁, gains_cons hpath (by rw [hknown]; rfl) hothers
          ⟨grouped, hhere⟩ fun p' => (or_iff_left ?_).symm⟩
        rintro ⟨more, -, hne, hmore, -⟩
        exact hne (List.prefix_nil.mp hmore)
      · cases htarget : r.target.bind schema.get? with
        | none =>
          refine ⟨loaded₁, s₁, ?_, hmemo₁, gains_cons hpath (by rw [hknown]; rfl) hothers
            ⟨grouped, hhere⟩ fun p' => (or_iff_left ?_).symm⟩
          · obtain ⟨next, rest, rfl⟩ := List.exists_cons_of_ne_nil hlast
            rfl
          · rintro ⟨more, grouped', hne, -, -, hmore⟩
            rw [valueOf_cons_untargeted hr hne hhop htarget] at hmore
            cases hmore
        | some target =>
          rw [valueOf_cons_targeted hr hlast hhop htarget] at hvalue
          obtain ⟨keys', hkeys, hvalue⟩ := bind_eq_ok.mp hvalue
          obtain ⟨loaded', s', hrun, hmemo', hgains⟩ :=
            ih (by rwa [← List.append_cons]) (harrives.hop hr hhop htarget hkeys) hmemo₁ hvalue
          refine ⟨loaded', s', ?_, hmemo', gains_cons hpath (by rw [hknown]; rfl) hothers
            ⟨grouped, hhere⟩ fun p' =>
              (hgains p').trans (or_congr_right (exists_behind_iff hr hhop htarget hkeys))⟩
          obtain ⟨next, rest, rfl⟩ := List.exists_cons_of_ne_nil hlast
          dsimp only
          rw [hknown, Option.getD_some, hkeys]
          exact hrun

/-- A path that cannot be followed stops everything. -/
theorem pathFrom_error (hsegments : ∀ n ∈ before ++ names, IsSegment n)
    (harrives : Arrives answer schema e₀ keys₀ before e keys)
    (hmemo : IsMemo db answer schema e₀ keys₀ s₀ loaded s) {failure : Failure}
    (hvalue : valueOf answer schema e keys names = .error failure) :
    ∃ s' asked, (pathFrom db schema e keys before loaded names).run s = (.error failure, s') ∧
      Asked db answer schema e₀ keys₀ s₀ asked s' ∧
      ∀ p ∈ asked, p ∈ loaded.keys ∨ segments p <+: before ++ names := by
  induction names generalizing e keys before loaded s with
  | nil => cases hvalue
  | cons name names ih =>
    cases hr : e.relation? name with
    | none =>
      rw [valueOf_of_unknown hr] at hvalue
      cases hvalue
    | some r =>
      have hpath := segments_first hsegments
      have hfirst : before ++ [name] <+: before ++ name :: names :=
        List.append_cons before name names ▸ List.prefix_append _ _
      rw [pathFrom_cons db hr, run_bind]
      cases hhop : Hop.value answer schema ⟨e, name, keys⟩ with
      | error failure' =>
        obtain rfl : failure' = failure :=
          Except.error.inj ((valueOf_cons_error hr hhop).symm.trans hvalue)
        obtain ⟨s', asked, hadd, hasked, hmem⟩ := addPath_error hdb harrives hr hpath hhop hmemo
        rw [hadd]
        refine ⟨s', asked, rfl, hasked, fun p hp => (hmem p hp).imp_right fun heq => ?_⟩
        rwa [heq, hpath]
      | ok grouped =>
        obtain ⟨loaded₁, s₁, hadd, hmemo₁, hknown, hothers⟩ :=
          addPath_ok hdb harrives hr hpath hhop hmemo
        have hkeys₁ : ∀ p ∈ loaded₁.keys,
            p ∈ loaded.keys ∨ segments p <+: before ++ name :: names := by
          intro p hp
          by_cases heq : p = join "." (before ++ [name])
          · rw [heq, hpath]
            exact .inr hfirst
          · left
            rwa [← Entries.isSome_get?_iff, ← hothers p heq, Entries.isSome_get?_iff]
        rw [hadd]
        by_cases hlast : names = []
        · subst hlast
          rw [valueOf_singleton hr, hhop] at hvalue
          cases hvalue
        · cases htarget : r.target.bind schema.get? with
          | none =>
            rw [valueOf_cons_untargeted hr hlast hhop htarget] at hvalue
            cases hvalue
          | some target =>
            rw [valueOf_cons_targeted hr hlast hhop htarget] at hvalue
            obtain ⟨next, rest, rfl⟩ := List.exists_cons_of_ne_nil hlast
            dsimp only
            rw [hknown, Option.getD_some]
            cases hkeys : keysOf target.primaryKey grouped.allRows with
            | error failure' =>
              rw [hkeys] at hvalue
              obtain rfl := Except.error.inj hvalue
              exact ⟨s₁, loaded₁.keys, rfl, hmemo₁.asked, hkeys₁⟩
            | ok keys' =>
              rw [hkeys] at hvalue
              obtain ⟨s', asked, hrun, hasked, hmem⟩ := ih (by rwa [← List.append_cons])
                (harrives.hop hr hhop htarget hkeys) hmemo₁ hvalue
              refine ⟨s', asked, hrun, hasked, fun p hp => ?_⟩
              rcases hmem p hp with hp | hp
              · exact hkeys₁ p hp
              · rw [← List.append_cons] at hp
                exact .inr hp

-- ---------------------------------------------------------------------------
-- All paths
-- ---------------------------------------------------------------------------

omit hdb in
/-- The prefixes of one path that are gained from the start on. -/
theorem gains_iff (h : Gains answer schema e keys [] (segments p) loaded loaded') (p' : String) :
    (loaded'.get? p').isSome = true ↔ (loaded.get? p').isSome = true ∨ segments p' <+: segments p ∧
      ∃ grouped, valueAt answer schema e keys p' = .ok (some grouped) := by
  refine (h p').trans (or_congr_right ?_)
  constructor
  · rintro ⟨more, grouped, hmore, rfl, hfound⟩
    exact ⟨hmore, grouped, hfound⟩
  · rintro ⟨hbegins, grouped, hfound⟩
    exact ⟨segments p', grouped, hbegins, rfl, hfound⟩

/-- Paths that can all be followed are loaded, as far as they resolve. -/
theorem foldlM_ok {ps : List String} (hmemo : IsMemo db answer schema e keys s₀ loaded s)
    (hps : ∀ p ∈ ps, ∃ found, valueAt answer schema e keys p = .ok found) :
    ∃ loaded' s', (ps.foldlM (fun loaded p => pathFrom db schema e keys [] loaded (segments p))
        loaded).run s = (.ok loaded', s') ∧
      IsMemo db answer schema e keys s₀ loaded' s' ∧
      ∀ p, (loaded'.get? p).isSome = true ↔ (loaded.get? p).isSome = true ∨
        (∃ p' ∈ ps, segments p <+: segments p') ∧
          ∃ grouped, valueAt answer schema e keys p = .ok (some grouped) := by
  induction ps generalizing loaded s with
  | nil => exact ⟨loaded, s, rfl, hmemo, fun p => (or_iff_left (by simp)).symm⟩
  | cons p ps ih =>
    obtain ⟨⟨found, hfound⟩, hps⟩ := List.forall_mem_cons.mp hps
    obtain ⟨loaded₁, s₁, hrun₁, hmemo₁, hgains⟩ := pathFrom_ok hdb
      (fun n hn => isSegment_of_mem_segments hn) arrives_nil hmemo hfound
    obtain ⟨loaded', s', hrun, hmemo', hgained⟩ := ih hmemo₁ hps
    refine ⟨loaded', s', ?_, hmemo', fun p' => ?_⟩
    · rw [List.foldlM_cons, run_bind, hrun₁]
      exact hrun
    · rw [hgained, gains_iff hgains, List.exists_mem_cons_iff, or_and_right, or_assoc]

/-- One path that cannot be followed stops everything. -/
theorem foldlM_error {ps : List String} (hmemo : IsMemo db answer schema e keys s₀ loaded s)
    (hps : ¬ ∀ p ∈ ps, ∃ found, valueAt answer schema e keys p = .ok found) :
    ∃ failure s' asked, (ps.foldlM
        (fun loaded p => pathFrom db schema e keys [] loaded (segments p)) loaded).run s =
        (.error failure, s') ∧
      Asked db answer schema e keys s₀ asked s' ∧
      ∀ p ∈ asked, p ∈ loaded.keys ∨ ∃ p' ∈ ps, segments p <+: segments p' := by
  induction ps generalizing loaded s with
  | nil => exact absurd (List.forall_mem_nil _) hps
  | cons p ps ih =>
    have hsegments : ∀ n ∈ [] ++ segments p, IsSegment n := fun n hn => isSegment_of_mem_segments hn
    rw [List.foldlM_cons, run_bind]
    cases hvalue : valueAt answer schema e keys p with
    | error failure =>
      obtain ⟨s', asked, hrun, hasked, hmem⟩ :=
        pathFrom_error hdb hsegments arrives_nil hmemo hvalue
      rw [hrun]
      exact ⟨failure, s', asked, rfl, hasked, fun p' hp' => (hmem p' hp').imp_right
        fun hbegins => ⟨p, List.mem_cons_self, hbegins⟩⟩
    | ok found =>
      obtain ⟨loaded₁, s₁, hrun, hmemo₁, hgains⟩ :=
        pathFrom_ok hdb hsegments arrives_nil hmemo hvalue
      have hrest : ¬ ∀ p ∈ ps, ∃ found, valueAt answer schema e keys p = .ok found := fun hrest =>
        hps (List.forall_mem_cons.mpr ⟨⟨found, hvalue⟩, hrest⟩)
      obtain ⟨failure, s', asked, hfold, hasked, hmem⟩ := ih hmemo₁ hrest
      rw [hrun]
      refine ⟨failure, s', asked, hfold, hasked, fun p' hp' => ?_⟩
      rcases hmem p' hp' with hknown | ⟨p'', hp'', hbegins⟩
      · rw [← Entries.isSome_get?_iff, gains_iff hgains, Entries.isSome_get?_iff] at hknown
        exact hknown.imp_right fun hhere => ⟨p, List.mem_cons_self, hhere.1⟩
      · exact .inr ⟨p'', List.mem_cons_of_mem p hp'', hbegins⟩

end

/-- The keys at the start are the members of a value. -/
theorem paths_eq {ids : Value} (hids : ids.members = .ok keys) (db : Database σ) (schema : Schema)
    (e : Entity) (ps : List String) :
    paths db schema e ids ps =
      ps.foldlM (fun loaded p => pathFrom db schema e keys [] loaded (segments p)) [] := by
  rw [paths, hids]
  rfl

-- ---------------------------------------------------------------------------
-- Together and apart
-- ---------------------------------------------------------------------------

/-- What is loaded along some paths from the rows with some keys on: their prefixes that resolve,
each with what stands under it; and the statements by which it is read. -/
structure LoadsHopByHop (answer : Statement → Except Failure (List Row)) (schema : Schema)
    (e : Entity) (keys : List Value) (ps : List String) (loaded : Included) : Prop where
  known  : ∀ p, (loaded.get? p).isSome = true ↔
    Resolves schema e p ∧ ∃ p' ∈ ps, segments p <+: segments p'
  value  : ∀ p grouped, loaded.get? p = some grouped →
    valueAt answer schema e keys p = .ok (some grouped)
  /-- The first relation is read for the keys at the start. -/
  first  : ∀ p name, (loaded.get? p).isSome = true → segments p = [name] →
    statementAt? answer schema e keys p = Hop.statement? schema ⟨e, name, keys⟩
  /-- Every other one is read for the keys of the rows before it. -/
  nested : ∀ p names name, (loaded.get? p).isSome = true → segments p = names ++ [name] →
    names ≠ [] → ∃ earlier target keys', loaded.get? (join "." names) = some earlier ∧
      entityAt? schema e names = some target ∧
      KeysEachOnce target.primaryKey earlier.allRows keys' ∧
      statementAt? answer schema e keys p = Hop.statement? schema ⟨target, name, keys'⟩

theorem IsMemo.loadsHopByHop {ps : List String}
    (hmemo : IsMemo db answer schema e keys s₀ loaded s)
    (hknown : ∀ p, (loaded.get? p).isSome = true ↔
      Resolves schema e p ∧ ∃ p' ∈ ps, segments p <+: segments p') :
    LoadsHopByHop answer schema e keys ps loaded where
  known := hknown
  value := hmemo.value
  first := by
    intro p name hp hname
    obtain ⟨grouped, hp⟩ := Option.isSome_iff_exists.mp hp
    obtain ⟨hop, hhop⟩ := exists_lastHop?_of_valueAt (hmemo.value p grouped hp)
    rw [statementAt?, hhop]
    rw [hname] at hhop
    cases hr : e.relation? name with
    | none =>
      rw [lastHop?_of_unknown hr] at hhop
      cases hhop
    | some r =>
      rw [lastHop?_singleton hr] at hhop
      obtain rfl := Option.some.inj (Except.ok.inj hhop)
      rfl
  nested := by
    intro p names name hp hnames hne
    have hsegments : segments (join "." names) = names := by
      refine segments_join hne fun n hn => isSegment_of_mem_segments (p := p) ?_
      rw [hnames]
      exact List.mem_append_left _ hn
    obtain ⟨-, p', hp', hbegins⟩ := (hknown p).mp hp
    obtain ⟨grouped, hp⟩ := Option.isSome_iff_exists.mp hp
    obtain ⟨hop, hhop⟩ := exists_lastHop?_of_valueAt (hmemo.value p grouped hp)
    rw [statementAt?, hhop]
    rw [hnames] at hhop hbegins
    obtain ⟨earlier, target, keys', hvalue, htarget, hkeys, rfl⟩ := lastHop?_concat hne hhop
    have hearlier : valueAt answer schema e keys (join "." names) = .ok (some earlier) := by
      rw [valueAt, hsegments, hvalue]
    have hisSome : (loaded.get? (join "." names)).isSome = true := by
      refine (hknown _).mpr ⟨(isSome_valueAt_iff hearlier).mp rfl, p', hp', ?_⟩
      rw [hsegments]
      exact (List.prefix_append _ _).trans hbegins
    obtain ⟨earlier', hget⟩ := Option.isSome_iff_exists.mp hisSome
    obtain rfl : earlier' = earlier :=
      Option.some.inj (Except.ok.inj ((hmemo.value _ _ hget).symm.trans hearlier))
    exact ⟨earlier', target, keys', hget, htarget, keysEachOnce_of_keysOf hkeys, rfl⟩

/-- Two loads from the same rows agree, and together they are a load of the paths of both. -/
theorem LoadsHopByHop.get?_append {ps qs : List String} {loadedP loadedQ : Included}
    (hP : LoadsHopByHop answer schema e keys ps loadedP)
    (hQ : LoadsHopByHop answer schema e keys qs loadedQ)
    (h : LoadsHopByHop answer schema e keys (ps ++ qs) loaded) (p : String) :
    loaded.get? p = (loadedP.get? p).or (loadedQ.get? p) := by
  have hsplit : (loaded.get? p).isSome = true ↔
      (loadedP.get? p).isSome = true ∨ (loadedQ.get? p).isSome = true := by
    rw [h.known, hP.known, hQ.known, ← and_or_left]
    refine and_congr_right fun _ => ?_
    simp only [List.mem_append, or_and_right, exists_or]
  cases hp : loadedP.get? p with
  | some grouped =>
    obtain ⟨grouped', hget⟩ := Option.isSome_iff_exists.mp (hsplit.mpr (.inl (by rw [hp]; rfl)))
    rw [hget]
    exact Except.ok.inj ((h.value p grouped' hget).symm.trans (hP.value p grouped hp))
  | none =>
    rw [Option.none_or]
    cases hq : loadedQ.get? p with
    | some grouped =>
      obtain ⟨grouped', hget⟩ := Option.isSome_iff_exists.mp (hsplit.mpr (.inr (by rw [hq]; rfl)))
      rw [hget]
      exact Except.ok.inj ((h.value p grouped' hget).symm.trans (hQ.value p grouped hq))
    | none =>
      rw [hp, hq, or_self_iff] at hsplit
      cases hget : loaded.get? p with
      | none => rfl
      | some grouped => cases hsplit.mp (by rw [hget]; rfl)

/-- What becomes of loading some paths. -/
structure RunsHopByHop (db : Database σ) (answer : Statement → Except Failure (List Row))
    (schema : Schema) (e : Entity) (keys : List Value) (ps : List String) (s : σ)
    (run : Except Failure Included × σ) : Prop where
  /-- Each prefix is asked for once at most, also where loading fails. -/
  asked : ∃ asked, Asked db answer schema e keys s asked run.2 ∧
    (∀ p ∈ asked, ∃ p' ∈ ps, segments p <+: segments p') ∧
    ∀ loaded, run.1 = .ok loaded → asked = loaded.keys
  isOk : (∃ loaded, run.1 = .ok loaded) ↔
    ∀ p ∈ ps, ∃ found, valueAt answer schema e keys p = .ok found
  loads : ∀ loaded, run.1 = .ok loaded → LoadsHopByHop answer schema e keys ps loaded

theorem runsHopByHop_of_error {ps : List String} {asked : List String} {failure : Failure}
    (hasked : Asked db answer schema e keys s₀ asked s)
    (hmem : ∀ p ∈ asked, ∃ p' ∈ ps, segments p <+: segments p')
    (hps : ¬ ∀ p ∈ ps, ∃ found, valueAt answer schema e keys p = .ok found) :
    RunsHopByHop db answer schema e keys ps s₀ (.error failure, s) where
  asked := ⟨asked, hasked, hmem, by
    intro loaded heq
    cases heq⟩
  isOk := iff_of_false (by
    rintro ⟨loaded, heq⟩
    cases heq) hps
  loads := by
    intro loaded heq
    cases heq

theorem IsMemo.runsHopByHop {ps : List String}
    (hmemo : IsMemo db answer schema e keys s₀ loaded s)
    (hgained : ∀ p, (loaded.get? p).isSome = true ↔ (∃ p' ∈ ps, segments p <+: segments p') ∧
      ∃ grouped, valueAt answer schema e keys p = .ok (some grouped))
    (hps : ∀ p ∈ ps, ∃ found, valueAt answer schema e keys p = .ok found) :
    RunsHopByHop db answer schema e keys ps s₀ (.ok loaded, s) where
  asked := ⟨loaded.keys, hmemo.asked,
    fun p hp => ((hgained p).mp (Entries.isSome_get?_iff.mpr hp)).1, by
    intro loaded' heq
    rw [Except.ok.inj heq]⟩
  isOk := iff_of_true ⟨loaded, rfl⟩ hps
  loads := by
    intro loaded' heq
    obtain rfl := Except.ok.inj heq
    refine hmemo.loadsHopByHop fun p => ?_
    rw [hgained p, and_comm, and_congr_left_iff]
    rintro ⟨p', hp', hbegins⟩
    obtain ⟨found', hfound'⟩ := hps p' hp'
    obtain ⟨found, hfound⟩ := exists_valueOf_of_prefix hbegins hfound'
    rw [← isSome_valueAt_iff hfound, valueAt, hfound]
    constructor
    · rintro ⟨grouped, heq⟩
      rw [Except.ok.inj heq]
      rfl
    · intro hsome
      obtain ⟨grouped, rfl⟩ := Option.isSome_iff_exists.mp hsome
      exact ⟨grouped, rfl⟩

theorem paths_runsHopByHop (hdb : ∀ st s, (db.rows st s).1 = answer st) {ids : Value}
    (hids : ids.members = .ok keys) (ps : List String) (s : σ) :
    RunsHopByHop db answer schema e keys ps s ((paths db schema e ids ps).run s) := by
  rw [paths_eq hids]
  have hmemo : IsMemo db answer schema e keys s [] s := isMemo_nil
  by_cases hps : ∀ p ∈ ps, ∃ found, valueAt answer schema e keys p = .ok found
  · obtain ⟨loaded, s', hrun, hloaded, hgained⟩ := foldlM_ok hdb hmemo hps
    rw [hrun]
    exact hloaded.runsHopByHop (fun p => (hgained p).trans (or_iff_right Bool.false_ne_true)) hps
  · obtain ⟨failure, s', asked, hrun, hasked, hmem⟩ := foldlM_error hdb hmemo hps
    rw [hrun]
    exact runsHopByHop_of_error hasked
      (fun p hp => (hmem p hp).resolve_left List.not_mem_nil) hps

/-- On a database that answers equal statements equally, loading some paths succeeds just if each of
them can be followed, and asks for each of their prefixes once at most. What it gives under a prefix
depends on nothing but the keys at the start: paths that are loaded together give what they give
apart. -/
theorem paths_compose (hdb : ∀ st s, (db.rows st s).1 = answer st) {ids : Value}
    (hids : ids.members = .ok keys) :
    (∀ ps s, RunsHopByHop db answer schema e keys ps s ((paths db schema e ids ps).run s)) ∧
    ∀ ps qs s s₁ s₂ loadedP loadedQ, ((paths db schema e ids ps).run s₁).1 = .ok loadedP →
      ((paths db schema e ids qs).run s₂).1 = .ok loadedQ →
      ∃ loaded, ((paths db schema e ids (ps ++ qs)).run s).1 = .ok loaded ∧
        (∀ p, loaded.get? p = (loadedP.get? p).or (loadedQ.get? p)) ∧
        ∀ p, (loadedP.get? p).isSome = true → (loadedQ.get? p).isSome = true →
          loadedP.get? p = loadedQ.get? p := by
  have hrun : ∀ ps s, RunsHopByHop db answer schema e keys ps s ((paths db schema e ids ps).run s) :=
    paths_runsHopByHop hdb hids
  refine ⟨hrun, fun ps qs s s₁ s₂ loadedP loadedQ hP hQ => ?_⟩
  have hokP := (hrun ps s₁).isOk.mp ⟨loadedP, hP⟩
  have hokQ := (hrun qs s₂).isOk.mp ⟨loadedQ, hQ⟩
  have hok := (hrun (ps ++ qs) s).isOk.mpr fun p hp =>
    (List.mem_append.mp hp).elim (hokP p) (hokQ p)
  obtain ⟨loaded, hloaded⟩ := hok
  have hloadsP := (hrun ps s₁).loads loadedP hP
  have hloadsQ := (hrun qs s₂).loads loadedQ hQ
  refine ⟨loaded, hloaded, hloadsP.get?_append hloadsQ ((hrun (ps ++ qs) s).loads loaded hloaded), ?_⟩
  intro p hp hq
  obtain ⟨groupedP, hp⟩ := Option.isSome_iff_exists.mp hp
  obtain ⟨groupedQ, hq⟩ := Option.isSome_iff_exists.mp hq
  rw [hp, hq]
  exact Except.ok.inj ((hloadsP.value p groupedP hp).symm.trans (hloadsQ.value p groupedQ hq))

/-- A database that answers equal statements equally and keeps what it was asked. -/
def recording (answer : Statement → Except Failure (List Row)) : Database (List Statement) where
  connect      := id
  close        := id
  rows st log  := (answer st, log ++ [st])
  number _ log := (.error .missing, log)

/-- The library as a database that keeps what it was asked. -/
def libraryDatabase : Database (List Statement) :=
  recording fun st => .ok (Engine.integers.rowsAsAsked .library st)

/-- Loading paths of two authors' books and their reviews. -/
def runLibrary (ps : List String) : Except Failure Included × List Statement :=
  (paths libraryDatabase .library Query.library.entity (.list [.int 1, .int 2]) ps).run []

/-- The paths share their first hop, which is read once, and one of them leads nowhere. -/
theorem paths_compose_library :
    (runLibrary ["books.reviews", "books.missing"]).1.toOption.map Entries.keys =
      some ["books", "books.reviews"] ∧
    (runLibrary ["books.reviews", "books.missing"]).2.length = 2 ∧
    ∃ loadedP loadedQ loaded, (runLibrary ["books.reviews", "books.missing"]).1 = .ok loadedP ∧
      (runLibrary ["books"]).1 = .ok loadedQ ∧
      (runLibrary ["books.reviews", "books.missing", "books"]).1 = .ok loaded ∧
      ∀ p, loaded.get? p = (loadedP.get? p).or (loadedQ.get? p) := by
  have hkeys : (runLibrary ["books.reviews", "books.missing"]).1.toOption.map Entries.keys =
      some ["books", "books.reviews"] := by decide +kernel
  have hlog : (runLibrary ["books.reviews", "books.missing"]).2.length = 2 := by decide +kernel
  have hisOk : (runLibrary ["books"]).1.isOk = true := by decide +kernel
  refine ⟨hkeys, hlog, ?_⟩
  cases hP : (runLibrary ["books.reviews", "books.missing"]).1 with
  | error failure =>
    rw [hP] at hkeys
    cases hkeys
  | ok loadedP =>
    cases hQ : (runLibrary ["books"]).1 with
    | error failure =>
      rw [hQ] at hisOk
      cases hisOk
    | ok loadedQ =>
      have hcompose := (@paths_compose _ libraryDatabase _ .library Query.library.entity
        [.int 1, .int 2] (fun _ _ => rfl) (.list [.int 1, .int 2]) rfl).2
      obtain ⟨loaded, hloaded, hor, -⟩ := hcompose _ _ [] [] [] loadedP loadedQ hP hQ
      exact ⟨loadedP, loadedQ, loaded, rfl, rfl, hloaded, hor⟩

end Loading

end ListQuery
