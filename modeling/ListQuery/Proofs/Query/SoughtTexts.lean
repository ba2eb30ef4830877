import ListQuery.Proofs.Condition.Search
import ListQuery.Proofs.Query.PathValues
import ListQuery.Proofs.Sql.Sought
import ListQuery.Proofs.Query.Meaning

/-!
# Filters and searches for texts

A filter may seek a text anywhere in the text of a column or of a path, at its start or at its end,
and a search seeks its term anywhere in the text of a column. Every sign of what is sought stands for
itself, letter case aside, whatever it would mean in a pattern.

* `Operator.affix?` — where filters seek;
* `IsColumn.places_affix`, `IsPath.places_affix`, `Column.searchCondition?_sought` — their conditions;
* `sought_literally` — the rows of these conditions.
-/

namespace ListQuery

open Sql

/-- Where the operator seeks a text, if it seeks one. -/
def Operator.affix? : Operator → Option Affix
  | .contains   => some .anywhere
  | .startsWith => some .atStart
  | .endsWith   => some .atEnd
  | _           => none

/-- The text of an expression in a value of its column. -/
def Sql.Expr.textIn? (r : DocumentReader) : Expr → Value → Option String
  | .pathText _ path, v => r.textAt? path v
  | _,                v => r.textOf? v

theorem Column.subject_sought (c : Column) : c.sought.subject = c := by
  unfold sought
  cases c.type.isText <;> rfl

/-- A column of texts is searched for every term. -/
theorem Column.searchCondition?_sought {c : Column} (h : c.holdsTexts = true) (term : String) :
    c.searchCondition? term = .ok (some (.affix c.sought .anywhere term)) := by
  have hreadable : ¬(c.type.isInteger = true ∧ IsUnreadableTerm term) := by
    rintro ⟨hinteger, -⟩
    rw [Column.holdsTexts, hinteger] at h
    cases h
  obtain ⟨found, hfound, hsearched⟩ := Column.searchCondition?_of_readable hreadable
  rw [hfound, (hsearched _).mpr (.text h)]

namespace Query

variable {q : Query} {field path : String} {c : Column} {op : Operator} {kind : Affix}

theorem IsColumn.places_affix (h : q.IsColumn field c) (hop : op.affix? = some kind)
    (operand : Operand) (alternative : Bool) :
    q.Places ⟨field, op, operand, alternative⟩
      (.affix (.column c) kind operand.first.display) := by
  have hplain : op.category ≠ .json ∧ op.category.comparesValues = false ∧
      c.condition op operand = .ok (.affix (.column c) kind operand.first.display) := by
    cases op <;> cases hop <;> exact ⟨nofun, rfl, rfl⟩
  obtain ⟨hjson, hvalues, hcondition⟩ := hplain
  refine ⟨⟨field, op, operand, alternative⟩, ?_, ?_⟩
  · unfold Query.accept
    rw [if_pos h.allowed, h.noPath, h.column]
    dsimp only
    rw [acceptOnColumn_plain hjson]
    exact if_neg (Bool.not_eq_true _ ▸ hvalues)
  · unfold Entity.condition?
    rw [h.noPath, h.column]
    exact map_eq_ok.mpr ⟨_, hcondition, rfl⟩

theorem IsPath.places_affix (h : q.IsPath field c path) (hop : op.affix? = some kind)
    (operand : Operand) (alternative : Bool) :
    q.Places ⟨field, op, operand, alternative⟩
      (.affix (.pathText c (segments path)) kind operand.first.display) := by
  have hworks : op.worksOnPath = true ∧ op.isOrdering = false ∧
      c.pathCondition (segments path) op operand =
        .ok (.affix (.pathText c (segments path)) kind operand.first.display) := by
    cases op <;> cases hop <;> exact ⟨rfl, rfl, rfl⟩
  obtain ⟨hworks, hordering, hcondition⟩ := hworks
  refine ⟨⟨field, op, operand, alternative⟩, ?_, ?_⟩
  · unfold Query.accept
    rw [if_pos h.allowed, h.path]
    simp only [acceptOnPath, hworks, hordering]
    rfl
  · unfold Entity.condition?
    rw [h.path]
    exact map_eq_ok.mpr ⟨_, hcondition, rfl⟩

/-- Filters that seek a text match the rows whose text has it where it is sought, and a search for it
the rows whose text has it anywhere. The signs that have a meaning in a pattern have none here. -/
theorem sought_literally (q : Query) {d : Dialect} {f : CaseFolding} {j : Judge}
    {text : Value → Option String} :
    (∀ {field : String} {c : Column} {op : Operator} {kind : Affix}, q.IsColumn field c →
      op.affix? = some kind → ∀ (operand : Operand) (alternative : Bool),
        let filter : Filter := ⟨field, op, operand, alternative⟩
        q.HasConditionFor filter ∧ (j.Seeks d f (.column c) text → ∀ s : Scene,
          (q.Matches j s filter ↔
            kind.IsInText f.fold operand.first.display (text (s.at c))))) ∧
    (∀ {field path : String} {c : Column} {op : Operator} {kind : Affix}, q.IsPath field c path →
      op.affix? = some kind → ∀ (operand : Operand) (alternative : Bool),
        let filter : Filter := ⟨field, op, operand, alternative⟩
        q.HasConditionFor filter ∧
          (j.Seeks d f (.pathText c (segments path)) text → ∀ s : Scene,
            (q.Matches j s filter ↔
              kind.IsInText f.fold operand.first.display (text (s.at c))))) ∧
    (∀ {c : Column}, c.holdsTexts = true → ∀ term : String,
      ∃ p, c.searchCondition? term = .ok (some p) ∧
      (j.Seeks d f c.sought text → ∀ s : Scene,
        (truth j s p = .holds ↔ Affix.anywhere.IsInText f.fold term (text (s.at c))))) := by
  refine ⟨?_, ?_, ?_⟩
  · intro field c op kind h hop operand alternative
    have hplaces := h.places_affix hop operand alternative
    exact ⟨hasConditionFor_iff_places.mpr ⟨_, hplaces⟩,
      fun hj s => hplaces.matches_iff.trans (hj.truth_affix_iff kind _)⟩
  · intro field path c op kind h hop operand alternative
    have hplaces := h.places_affix hop operand alternative
    exact ⟨hasConditionFor_iff_places.mpr ⟨_, hplaces⟩,
      fun hj s => hplaces.matches_iff.trans (hj.truth_affix_iff kind _)⟩
  · intro c htexts term
    refine ⟨_, Column.searchCondition?_sought htexts term, fun hj s => ?_⟩
    rw [hj.truth_affix_iff, c.subject_sought]

/-- A part of a label, the start of one, the end of a place, and a search: a percent sign is looked
for as such, and so are a slash and an underscore. -/
theorem sought_literally_parcels :
    let q : Query := { entity := .parcels }
    let j : Judge := .seeking .ofLetters (Expr.textIn? .bare) .alike
    let labelled (op : Operator) (t label : String) :=
      q.Matches j (.filledWith (.text label)) ⟨"label", op, .single (.text t), false⟩
    let sent (op : Operator) (t origin : String) :=
      q.Matches j (.filledWith (documentHolding ["from"] (.text origin)))
        ⟨"way.from", op, .single (.text t), true⟩
    labelled .contains "5%/_" "Now 5%/_ OFF" ∧ ¬labelled .contains "5%/_" "now 500/x off" ∧
      labelled .startsWith "_BOX" "_box 1" ∧ ¬labelled .startsWith "_BOX" "a box 1" ∧
      sent .endsWith "/%" "air/%" ∧ ¬sent .endsWith "/%" "air/sea" ∧
      ∃ p, Column.searchCondition? ⟨"parcels", "label", .string⟩ "%" = .ok (some p) ∧
        truth j (.filledWith (.text "5%")) p = .holds ∧
        truth j (.filledWith (.text "50")) p ≠ .holds := by
  intro q j labelled sent
  have hseeks := seeks_seeking .sqlite .ofLetters (Expr.textIn? .bare) .alike
  have hcolumn : q.IsColumn "label" ⟨"parcels", "label", .string⟩ := ⟨rfl, rfl, rfl⟩
  have hpath : q.IsPath "way.from" ⟨"parcels", "way", .json⟩ "from" := ⟨rfl, rfl⟩
  obtain ⟨hlabel, -, hsearch⟩ := @sought_literally q .sqlite .ofLetters j
    (Expr.textIn? .bare (.column ⟨"parcels", "label", .string⟩))
  obtain ⟨-, hway, -⟩ := @sought_literally q .sqlite .ofLetters j
    (Expr.textIn? .bare (.pathText ⟨"parcels", "way", .json⟩ (segments "from")))
  have hlabelled {op : Operator} {kind : Affix} (hop : op.affix? = some kind) (t label : String) :
      labelled op t label ↔ kind.IsInText Char.toLower t (some label) :=
    (hlabel hcolumn hop (.single (.text t)) false).2 (hseeks _) _
  have hsent {op : Operator} {kind : Affix} (hop : op.affix? = some kind) (t origin : String) :
      sent op t origin ↔ kind.IsInText Char.toLower t (some origin) :=
    (hway hpath hop (.single (.text t)) true).2 (hseeks _) _
  obtain ⟨p, hp, hfound⟩ := hsearch (c := ⟨"parcels", "label", .string⟩) rfl "%"
  simp only [@hlabelled .contains .anywhere rfl, @hlabelled .startsWith .atStart rfl,
    @hsent .endsWith .atEnd rfl]
  refine ⟨by decide +kernel, by decide +kernel, by decide +kernel, by decide +kernel,
    by decide +kernel, by decide +kernel, p, hp, (hfound (hseeks _) _).mpr ?_,
    mt (hfound (hseeks _) _).mp ?_⟩
  · show Affix.anywhere.IsInText Char.toLower "%" (some "5%")
    decide +kernel
  · show ¬Affix.anywhere.IsInText Char.toLower "%" (some "50")
    decide +kernel

end Query

end ListQuery

/-!
## Rows that a search finds

Of the rows for which a query asks without its search, the search keeps those that bear the term in
some searchable column: in a text, as the number that it spells or as the truth value. This holds as
long as some searchable column can bear the term. If none can, there is no condition for the search,
and every row is kept.

* `Column.CanBear`, `Column.Bears` — columns that can bear a term, and values that do;
* `Judge.Searches`, `exists_searchedBy_iff` — the conditions for the term are true of these values;
* `exists_compile_unsearched` — a query without its search;
* `search_keeps` — the rows of its statements.
-/

namespace ListQuery

open Sql Text Number

namespace Column

/-- Some value of the column bears the term. -/
def CanBear (c : Column) (term : String) : Prop :=
  c.holdsTexts = true ∨
    c.type.isInteger = true ∧ (∃ n, SpellsNumber term.toList n) ∨
    c.type.isBoolean = true ∧ ∃ b, SpellsTruth term b

/-- A value bears the term in its text, letter case aside, or as the number or the truth value that
the term spells. -/
inductive Bears (c : Column) (f : CaseFolding) (text : Expr → Value → Option String)
    (term : String) : Value → Prop
  | text (h : c.holdsTexts = true) {v : Value}
    (hv : Affix.anywhere.IsInText f.fold term (text c.sought v)) : Bears c f text term v
  | integer (h : c.type.isInteger = true) {n : Nat} (hn : SpellsNumber term.toList n) :
    Bears c f text term (.int n)
  | truth (h : c.type.isBoolean = true) {b : Bool} (hb : SpellsTruth term b) :
    Bears c f text term (.bool b)

variable {c : Column} {f : CaseFolding} {text : Expr → Value → Option String} {term : String}

theorem Bears.canBear {v : Value} (h : c.Bears f text term v) : c.CanBear term := by
  cases h with
  | text htexts => exact .inl htexts
  | integer hinteger hn => exact .inr (.inl ⟨hinteger, _, hn⟩)
  | truth hboolean hb => exact .inr (.inr ⟨hboolean, _, hb⟩)

/-- The columns that can bear the term are those that have a condition for it. -/
theorem exists_searchedBy_iff_canBear : (∃ p, c.SearchedBy term p) ↔ c.CanBear term := by
  constructor
  · rintro ⟨p, htexts | ⟨hinteger, hn⟩ | ⟨hboolean, hb⟩⟩
    · exact .inl htexts
    · exact .inr (.inl ⟨hinteger, _, hn⟩)
    · exact .inr (.inr ⟨hboolean, _, hb⟩)
  · rintro (htexts | ⟨hinteger, n, hn⟩ | ⟨hboolean, b, hb⟩)
    · exact ⟨_, .text htexts⟩
    · exact ⟨_, .integer hinteger hn⟩
    · exact ⟨_, .truth hboolean hb⟩

end Column

-- ---------------------------------------------------------------------------
-- Judges
-- ---------------------------------------------------------------------------

/-- A judge finds texts on the column as they are sought, and integers and truth values where they
are. -/
structure Sql.Judge.Searches (j : Judge) (d : Dialect) (f : CaseFolding)
    (text : Expr → Value → Option String) (c : Column) : Prop where
  texts    : c.holdsTexts = true → j.Seeks d f c.sought (text c.sought)
  integers : c.type.isInteger = true → ∀ (n : Int) v,
    j (.compare (.column c) .eq (c.bind (.int n))) v = .holds ↔ v = .int n
  truths   : c.type.isBoolean = true → ∀ b v,
    j (.isTruth (.column c) false b) v = .holds ↔ v = .bool b

section
variable {j : Judge} {d : Dialect} {f : CaseFolding} {text : Expr → Value → Option String}
  {c : Column} (h : j.Searches d f text c) {term : String} {s : Scene}

include h

/-- The condition for the term is true where the value of the column bears it. -/
theorem exists_searchedBy_iff :
    (∃ p, c.SearchedBy term p ∧ truth j s p = .holds) ↔ c.Bears f text term (s.at c) := by
  have hcompare (n : Int) : truth j s (.compare (.column c) .eq (c.bind (.int n))) =
      j (.compare (.column c) .eq (c.bind (.int n))) (s.at c) := by
    simp only [truth, Predicate.subject?, Option.elim_some, Expr.subject]
  have hisTruth (b : Bool) : truth j s (.isTruth (.column c) false b) =
      j (.isTruth (.column c) false b) (s.at c) := by
    simp only [truth, Predicate.subject?, Option.elim_some, Expr.subject]
  constructor
  · rintro ⟨p, htexts | ⟨hinteger, hn⟩ | ⟨hboolean, hb⟩, hp⟩
    · rw [(h.texts htexts).truth_affix_iff, c.subject_sought] at hp
      exact .text htexts hp
    · rw [hcompare, h.integers hinteger] at hp
      exact hp ▸ .integer hinteger hn
    · rw [hisTruth, h.truths hboolean] at hp
      exact hp ▸ .truth hboolean hb
  · intro hbears
    generalize hv : s.at c = v at hbears
    cases hbears with
    | text htexts hown =>
      refine ⟨_, .text htexts, ?_⟩
      rw [(h.texts htexts).truth_affix_iff, c.subject_sought, hv]
      exact hown
    | integer hinteger hn =>
      exact ⟨_, .integer hinteger hn, by rw [hcompare, h.integers hinteger, hv]⟩
    | truth hboolean hb =>
      exact ⟨_, .truth hboolean hb, by rw [hisTruth, h.truths hboolean, hv]⟩

end

-- ---------------------------------------------------------------------------
-- Queries
-- ---------------------------------------------------------------------------

namespace Query

/-- The query without its search. -/
def unsearched (q : Query) : Query := { q with search := none }

variable {q : Query} {schema : Schema} {paginate : Bool} {c : Compiled}

/-- The conditions of a search are added to those of the query without it. -/
theorem conditions_searched {ps : List Predicate} (hps : q.conditions = .ok ps) :
    ∃ rest searched, q.unsearched.conditions = .ok rest ∧ q.searchConditions = .ok searched ∧
      ps = rest ++ searched.flatMap Predicate.conjuncts := by
  obtain ⟨filtered, searched, hfiltered, hsearched, rfl⟩ := conditions_eq_ok.mp hps
  refine ⟨q.unsearched.conditionsOf filtered [], searched,
    conditions_eq_ok.mpr ⟨filtered, [], hfiltered, rfl, rfl⟩, hsearched, ?_⟩
  rw [conditionsOf, conditionsOf, List.append_nil, List.flatMap_append]
  rfl

/-- A query that can be compiled can be compiled without its search, and has then the same conditions
apart from those of the search. -/
theorem exists_compile_unsearched (hc : q.compile schema paginate = .ok c) :
    ∃ c₀ searched, q.unsearched.compile schema paginate = .ok c₀ ∧
      q.searchConditions = .ok searched ∧
      ∀ j s,
        (Keeps j s c.count.conditions ↔
          Keeps j s c₀.count.conditions ∧ ∀ p ∈ searched, truth j s p = .holds) ∧
        (Keeps j s c.select.conditions ↔
          Keeps j s c₀.select.conditions ∧ ∀ p ∈ searched, truth j s p = .holds) := by
  obtain ⟨conditions, after, hconditions, hcount, hselect, -, hchanged⟩ := exists_conditions hc
  obtain ⟨rest, searched, hrest, hsearched, rfl⟩ := conditions_searched hconditions
  obtain ⟨c₀, hc₀, hcount₀, hselect₀⟩ := hchanged q.filters none rest hrest
  refine ⟨c₀, searched, hc₀, hsearched, fun j s => ⟨?_, ?_⟩⟩
  · rw [hcount, hcount₀, keeps_append, keeps_flatMap_conjuncts]
  · rw [hselect, hselect₀, keeps_append, keeps_append, keeps_append, keeps_flatMap_conjuncts]
    exact and_right_comm

/-- Without conditions for the search, its term makes no difference. -/
theorem compile_unsearched (h : q.searchConditions = .ok []) :
    q.unsearched.compile schema paginate = q.compile schema paginate := by
  have hnone : q.unsearched.searchConditions = .ok [] := rfl
  have hconditions : q.unsearched.conditions = q.conditions := by
    rw [conditions, conditions, h, hnone]
    rfl
  unfold compile
  rw [hconditions]
  rfl

/-- The conditions of the search of a query that can be compiled. -/
theorem exists_searchConditions {term : String} (hterm : q.search = some term) (hsome : term ≠ "")
    {searched : List Predicate} (hsearched : q.searchConditions = .ok searched) :
    ∃ ps, searched = anyOf ps ∧
      ∀ p, p ∈ ps ↔ ∃ c ∈ q.entity.searchColumns, c.SearchedBy term p := by
  rw [searchConditions, hterm] at hsearched
  dsimp only at hsearched
  rw [if_neg hsome] at hsearched
  obtain ⟨ps, hps, rfl⟩ := map_eq_ok.mp hsearched
  have hcan : ¬q.entity.CannotSearch term := fun h => by
    cases hps.symm.trans (Entity.searchConditions_of_cannotSearch h)
  obtain ⟨ps', hps', hmem⟩ := Entity.searchConditions_of_canSearch hcan
  obtain rfl := Except.ok.inj (hps.symm.trans hps')
  exact ⟨ps, rfl, hmem⟩

/-- If some searchable column can bear the term, a search keeps the rows of the query without it that
bear the term. If none can, no row bears it, and the search keeps all of them. -/
theorem search_keeps (hc : q.compile schema paginate = .ok c) {term : String}
    (hterm : q.search = some term) (hsome : term ≠ "") :
    ∃ c₀, q.unsearched.compile schema paginate = .ok c₀ ∧
      ((∃ x ∈ q.entity.searchColumns, x.CanBear term) →
        ∀ {j : Judge} {d : Dialect} {f : CaseFolding} {text : Expr → Value → Option String},
          (∀ x ∈ q.entity.searchColumns, j.Searches d f text x) → ∀ s : Scene,
            let bears := ∃ x ∈ q.entity.searchColumns, x.Bears f text term (s.at x)
            (Keeps j s c.count.conditions ↔ Keeps j s c₀.count.conditions ∧ bears) ∧
            (Keeps j s c.select.conditions ↔ Keeps j s c₀.select.conditions ∧ bears)) ∧
      ((¬∃ x ∈ q.entity.searchColumns, x.CanBear term) →
        c = c₀ ∧ ∀ (f : CaseFolding) (text : Expr → Value → Option String) (s : Scene),
          ¬∃ x ∈ q.entity.searchColumns, x.Bears f text term (s.at x)) := by
  obtain ⟨c₀, searched, hc₀, hsearched, hkeeps⟩ := exists_compile_unsearched hc
  obtain ⟨ps, rfl, hmem⟩ := exists_searchConditions hterm hsome hsearched
  refine ⟨c₀, hc₀, ?_, ?_⟩
  · rintro ⟨x, hx, hcan⟩ j d f text hj s bears
    have hfound : ps ≠ [] := by
      obtain ⟨p, hp⟩ := Column.exists_searchedBy_iff_canBear.mpr hcan
      exact List.ne_nil_of_mem ((hmem p).mpr ⟨x, hx, hp⟩)
    have hbears : (∀ p ∈ anyOf ps, truth j s p = .holds) ↔ bears := by
      rw [forall_anyOf, forall_prop_of_true hfound]
      constructor
      · rintro ⟨p, hp, htrue⟩
        obtain ⟨x, hx, hsearchedBy⟩ := (hmem p).mp hp
        exact ⟨x, hx, (exists_searchedBy_iff (hj x hx)).mp ⟨p, hsearchedBy, htrue⟩⟩
      · rintro ⟨x, hx, hbears⟩
        obtain ⟨p, hsearchedBy, htrue⟩ := (exists_searchedBy_iff (hj x hx)).mpr hbears
        exact ⟨p, (hmem p).mpr ⟨x, hx, hsearchedBy⟩, htrue⟩
    rw [(hkeeps j s).1, (hkeeps j s).2, hbears]
    exact ⟨Iff.rfl, Iff.rfl⟩
  · intro hnone
    have hempty : ps = [] := by
      refine List.eq_nil_iff_forall_not_mem.mpr fun p hp => ?_
      obtain ⟨x, hx, hsearchedBy⟩ := (hmem p).mp hp
      exact hnone ⟨x, hx, Column.exists_searchedBy_iff_canBear.mp ⟨p, hsearchedBy⟩⟩
    subst hempty
    refine ⟨?_, fun f text s ⟨x, hx, hbears⟩ => hnone ⟨x, hx, hbears.canBear⟩⟩
    exact Except.ok.inj (hc.symm.trans ((compile_unsearched hsearched).symm.trans hc₀))

end Query

-- ---------------------------------------------------------------------------
-- Rooms
-- ---------------------------------------------------------------------------

/-- Integers and truth values are compared with their like. -/
def Sql.Judge.likeValues : Judge
  | .compare _ .eq ⟨.int m, _⟩, .int n  => .ofBool (n == m)
  | .isTruth _ false t,         .bool b => .ofBool (b == t)
  | _,                          _       => .unknown

theorem Sql.Judge.searches_likeValues (d : Dialect) (f : CaseFolding)
    (text : Expr → Value → Option String) (c : Column) :
    (Judge.likeValues.seeking f text).Searches d f text c where
  texts _ := seeks_seeking d f text _ _
  integers _ n v := by
    show Judge.likeValues (.compare (.column c) .eq (c.bind (.int n))) v = .holds ↔ _
    cases v <;> simp [Judge.likeValues, Column.bind, Bind.ofValue, Truth.ofBool_eq_holds]
  truths _ b v := by
    show Judge.likeValues (.isTruth (.column c) false b) v = .holds ↔ _
    cases v <;> simp [Judge.likeValues, Truth.ofBool_eq_holds]

/-- A room with its name and its floor, and whether it is free. -/
def Sql.Record.room (name : String) (floor : Int) (free : Bool) : Record := fun column =>
  if column = "name" then .text name
  else if column = "floor" then .int floor
  else if column = "free" then .bool free
  else .null

/-- The judge of texts, integers and truth values. -/
def Sql.Judge.ofRooms : Judge := Judge.likeValues.seeking .ofLetters (Expr.textIn? .bare)

/-- Rooms are found by a number in their names and by their floors. Where only floors are searched,
a word makes no difference. -/
theorem Query.search_keeps_rooms :
    let found (q : Query) (r : Record) := ∃ c, q.compile [] false = .ok c ∧
      Keeps .ofRooms (.single "rooms" r) c.count.conditions
    let q : Query := Query.searchFor { entity := .rooms } (some " 3 ")
    let floors : Entity := { Entity.rooms with searchFields := ["floor"] }
    found q (.room "Attic" 3 true) ∧ found q (.room "ROOM 3" 1 false) ∧
      ¬found q (.room "Hall" 2 true) ∧
      found (Query.searchFor { entity := floors } (some "attic")) (.room "Hall" 2 true) := by
  intro found q floors
  have hrows (r : Record) : found q r ↔ ∃ x ∈ Entity.rooms.searchColumns,
      x.Bears .ofLetters (Expr.textIn? .bare) "3" ((Scene.single "rooms" r).at x) := by
    obtain ⟨c, hc⟩ : ∃ c, q.compile [] false = .ok c := ⟨_, rfl⟩
    have hterm : q.search = some "3" := rfl
    obtain ⟨c₀, hc₀, hkeeps, -⟩ := search_keeps hc hterm (by decide)
    have hcan : ∃ x ∈ q.entity.searchColumns, x.CanBear "3" :=
      ⟨⟨"rooms", "name", .string⟩, by decide, .inl rfl⟩
    obtain ⟨hbears, -⟩ := hkeeps hcan (fun x _ => Judge.searches_likeValues .sqlite .ofLetters
      (Expr.textIn? .bare) x) (.single "rooms" r)
    have hall : Keeps .ofRooms (.single "rooms" r) c₀.count.conditions := by
      obtain rfl := Except.ok.inj (hc₀.symm.trans rfl)
      rfl
    constructor
    · rintro ⟨c', hc', hkept⟩
      obtain rfl := Except.ok.inj (hc.symm.trans hc')
      exact (hbears.mp hkept).2
    · exact fun h => ⟨c, hc, hbears.mpr ⟨hall, h⟩⟩
  refine ⟨(hrows _).mpr ?_, (hrows _).mpr ?_, ?_, ?_⟩
  · have hspells : SpellsNumber "3".toList 3 := ⟨[3], .cons (by decide) .nil, nofun, by decide⟩
    exact ⟨⟨"rooms", "floor", .integer⟩, by decide, .integer rfl hspells⟩
  · have hname : Affix.anywhere.IsInText Char.toLower "3" (some "ROOM 3") := by decide +kernel
    exact ⟨⟨"rooms", "name", .string⟩, by decide, .text rfl hname⟩
  · rintro ⟨c, hc, hkept⟩
    obtain rfl := Except.ok.inj (hc.symm.trans rfl)
    unfold Keeps at hkept
    exact absurd hkept (by decide +kernel)
  · obtain ⟨c, hc⟩ : ∃ c, (Query.searchFor { entity := floors } (some "attic")).compile [] false =
        .ok c := ⟨_, rfl⟩
    have hterm : (Query.searchFor { entity := floors } (some "attic")).search = some "attic" := rfl
    obtain ⟨c₀, hc₀, -, hsame⟩ := search_keeps hc hterm (by decide)
    have hfloors : floors.searchColumns = [⟨"rooms", "floor", .integer⟩] := by decide
    have hcannot : ¬∃ x ∈ floors.searchColumns, x.CanBear "attic" := by
      rw [hfloors]
      rintro ⟨x, hx, hcan⟩
      cases List.mem_singleton.mp hx
      rcases hcan with htexts | ⟨-, n, hn⟩ | ⟨hboolean, -⟩
      · cases htexts
      · exact absurd hn.all_isDigitSign.2 (by decide)
      · cases hboolean
    obtain ⟨rfl, -⟩ := hsame hcannot
    refine ⟨c, hc, ?_⟩
    obtain rfl := Except.ok.inj (hc₀.symm.trans rfl)
    rfl

end ListQuery
