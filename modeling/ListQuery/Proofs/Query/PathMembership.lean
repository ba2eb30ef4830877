import ListQuery.Proofs.Query.Independence
import ListQuery.Proofs.Query.Interleaved
import ListQuery.Proofs.Query.Matching

/-!
# Lists on paths inside documents

On a path, the operators for lists are met by the texts of the list, as they are on a column. A key
that repeats equality gives a list, too; but there only its first text is compared.

* `IsPath.matches_display_iff`, `IsPath.matches_displays_iff` — single values and lists;
* `repeated_onPath` — a repeated key, and when it asks for a list.
-/

namespace ListQuery

open Sql ItemParams

namespace Query

/-- The field may be filtered, and is a path into the documents of a column. -/
structure IsPath (q : Query) (field : String) (c : Column) (path : String) : Prop where
  allowed : q.entity.allowsFilter field = true
  path    : q.entity.jsonPath? field = some (c, path)

namespace IsPath

variable {q : Query} {field path : String} {c : Column} (h : q.IsPath field c path)
  {op : Operator}

include h

/-- Operators that take no order are accepted with any operand, and the condition is on the path. -/
theorem condition_given (op : Operator) (hworks : op.worksOnPath = true)
    (hordering : op.isOrdering = false) (operand : Operand) {p : Predicate}
    (hp : c.pathCondition (segments path) op operand = .ok p) :
    q.HasConditionFor ⟨field, op, operand, false⟩ ∧
      ∀ {j : Judge} {s : Scene}, q.Matches j s ⟨field, op, operand, false⟩ ↔
        truth j s p = .holds := by
  have haccept : q.accept ⟨field, op, operand, false⟩ = .ok ⟨field, op, operand, false⟩ := by
    unfold Query.accept
    rw [if_pos h.allowed, h.path]
    simp only [acceptOnPath, hworks, hordering]
    rfl
  have hcondition : q.entity.condition? ⟨field, op, operand, false⟩ = .ok (some p) := by
    unfold Entity.condition?
    rw [h.path]
    exact map_eq_ok.mpr ⟨p, hp, rfl⟩
  have hplaces : q.Places ⟨field, op, operand, false⟩ p := ⟨_, haccept, hcondition⟩
  exact ⟨hasConditionFor_iff_places.mpr ⟨p, hplaces⟩, hplaces.matches_iff⟩

/-- Equality and inequality compare the text of the first value of an operand, whatever comes after
it. -/
theorem matches_display_iff {cmp : Comparison}
    (hop : op = .eq ∧ cmp = .eq ∨ op = .ne ∧ cmp = .ne) (operand : Operand) :
    q.HasConditionFor ⟨field, op, operand, false⟩ ∧
      ∀ {j : Judge} {place : Placing} {s : Scene},
        j.IsStandard (.pathText c (segments path)) place →
          (q.Matches j s ⟨field, op, operand, false⟩ ↔
            cmp.Meets place (s.at c) ⟨.text operand.first.display, .string⟩) := by
  have hcondition : c.pathCondition (segments path) op operand =
      .ok (c.pathText (segments path) cmp operand.first) := by
    rcases hop with ⟨rfl, rfl⟩ | ⟨rfl, rfl⟩ <;> rfl
  have hworks : op.worksOnPath = true ∧ op.isOrdering = false := by
    rcases hop with ⟨rfl, -⟩ | ⟨rfl, -⟩ <;> exact ⟨rfl, rfl⟩
  obtain ⟨hhas, hmatches⟩ := h.condition_given op hworks.1 hworks.2 operand hcondition
  exact ⟨hhas, fun hj => hmatches.trans hj.truth_compare_iff⟩

/-- A first value that is a text is compared as it is. -/
theorem matches_first_iff {cmp : Comparison}
    (hop : op = .eq ∧ cmp = .eq ∨ op = .ne ∧ cmp = .ne) {operand : Operand} {a : String}
    (hfirst : operand.first = .text a) :
    q.HasConditionFor ⟨field, op, operand, false⟩ ∧
      ∀ {j : Judge} {place : Placing} {s : Scene},
        j.IsStandard (.pathText c (segments path)) place →
          (q.Matches j s ⟨field, op, operand, false⟩ ↔
            cmp.Meets place (s.at c) ⟨.text a, .string⟩) := by
  have hfirst' : operand.first.display = a := congrArg Value.display hfirst
  exact hfirst' ▸ h.matches_display_iff hop operand

/-- The operators for lists compare the texts of all values of an operand. -/
theorem matches_displays_iff (operand : Operand) :
    let filter (op : Operator) : Filter := ⟨field, op, operand, false⟩
    q.HasConditionFor (filter .isIn) ∧ q.HasConditionFor (filter .notIn) ∧
      ∀ {j : Judge} {place : Placing} {s : Scene},
        j.IsStandard (.pathText c (segments path)) place →
          (q.Matches j s (filter .isIn) ↔
            ∃ v ∈ operand.values, Comparison.eq.Meets place (s.at c) ⟨.text v.display, .string⟩) ∧
          (q.Matches j s (filter .notIn) ↔
            ∀ v ∈ operand.values, Comparison.ne.Meets place (s.at c) ⟨.text v.display, .string⟩) := by
  intro filter
  let texts : BindList := ⟨operand.values.map fun v => .text v.display, .string⟩
  have hbinds : texts.binds = operand.values.map fun v => ⟨.text v.display, .string⟩ := by
    simp [texts, BindList.binds, Function.comp_def]
  obtain ⟨hin, hinMatches⟩ := h.condition_given .isIn rfl rfl operand rfl
  obtain ⟨hnotIn, hnotInMatches⟩ := h.condition_given .notIn rfl rfl operand rfl
  refine ⟨hin, hnotIn, fun {j place s} hj => ?_⟩
  obtain ⟨hmember, hnot⟩ := hj.truth_member_iff (s := s) texts
  rw [hbinds] at hmember hnot
  refine ⟨hinMatches.trans (hmember.trans ?_), hnotInMatches.trans (hnot.trans List.forall_mem_map)⟩
  simp only [List.mem_map, exists_exists_and_eq_and]
  exact Iff.rfl

/-- Texts in a list are compared as they are. -/
theorem matches_members_iff (as : List String) :
    q.HasConditionFor (.listed .isIn field as) ∧ q.HasConditionFor (.listed .notIn field as) ∧
      ∀ {j : Judge} {place : Placing} {s : Scene},
        j.IsStandard (.pathText c (segments path)) place →
          (q.Matches j s (.listed .isIn field as) ↔
            ∃ a ∈ as, Comparison.eq.Meets place (s.at c) ⟨.text a, .string⟩) ∧
          (q.Matches j s (.listed .notIn field as) ↔
            ∀ a ∈ as, Comparison.ne.Meets place (s.at c) ⟨.text a, .string⟩) := by
  obtain ⟨hin, hnotIn, hrows⟩ := h.matches_displays_iff (.multiple (as.map .text))
  refine ⟨hin, hnotIn, fun {j place s} hj => ?_⟩
  obtain ⟨hmember, hnot⟩ := hrows hj (s := s)
  refine ⟨hmember.trans ?_, hnot.trans List.forall_mem_map⟩
  simp only [Operand.values, List.mem_map, exists_exists_and_eq_and]
  exact Iff.rfl

end IsPath

end Query

-- ---------------------------------------------------------------------------
-- Documents with a text
-- ---------------------------------------------------------------------------

/-- A document with nothing but a text at a path. -/
def Value.documentWith (path : List String) (s : String) : Value :=
  path.foldr (fun key v => .map [(.text key, v)]) (.text s)

theorem textAt_documentWith (path : List String) (s : String) :
    textAt path (.documentWith path s) = .text s := by
  induction path with
  | nil => rfl
  | cons key path ih =>
    show (((Entries.get? key [(key, Value.documentWith path s)]).map (textAt path)).getD .null) = _
    simp [Entries.get?, ih]

/-- A row with a document with a text at a path. -/
def Sql.Scene.withText (path : List String) (s : String) : Scene := fun _ _ => .documentWith path s

/-- The text at the path is equal to itself and to no other text. -/
theorem Sql.meets_withText_iff (c : Column) (path : List String) (a b : String) :
    let meets (cmp : Comparison) :=
      cmp.Meets (Expr.pathText c path).placing ((Scene.withText path b).at c) ⟨.text a, .string⟩
    (meets .eq ↔ b = a) ∧ (meets .ne ↔ b ≠ a) := by
  have hplace : (Expr.pathText c path).placing ((Scene.withText path b).at c) ⟨.text a, .string⟩ =
      some (compare b a) := by
    show placeAlike (textAt path (.documentWith path b)) (.text a) = _
    rw [textAt_documentWith]
    rfl
  unfold Comparison.Meets
  rw [hplace, ne_eq, ← Std.compare_eq_iff_eq]
  cases compare b a <;> simp [Comparison.agrees]

namespace Query

-- ---------------------------------------------------------------------------
-- Repeated keys
-- ---------------------------------------------------------------------------

variable {q : Query} {field path : String} {c : Column}

section
variable (h : q.IsPath field c path) (a : String) (as : List String)

include h

/-- The rows of a list of texts, by the rows of its single texts. -/
theorem listed_onPath {j : Judge} {place : Placing} {s : Scene}
    (hj : j.IsStandard (.pathText c (segments path)) place) :
    let compared (op : Operator) (b : String) : Filter := .compare op field (.text b)
    let listed (op : Operator) : Filter := .listed op field (a :: as)
    (q.Matches j s (listed .eq) ↔ q.Matches j s (compared .eq a)) ∧
    (q.Matches j s (listed .ne) ↔ q.Matches j s (compared .ne a)) ∧
    (q.Matches j s (listed .isIn) ↔ ∃ b ∈ a :: as, q.Matches j s (compared .eq b)) ∧
    (q.Matches j s (listed .notIn) ↔ ∀ b ∈ a :: as, q.Matches j s (compared .ne b)) := by
  intro compared listed
  have heq (b : String) : q.Matches j s (compared .eq b) ↔ _ :=
    (h.matches_first_iff (.inl ⟨rfl, rfl⟩) rfl).2 hj
  have hne (b : String) : q.Matches j s (compared .ne b) ↔ _ :=
    (h.matches_first_iff (.inr ⟨rfl, rfl⟩) rfl).2 hj
  obtain ⟨-, -, hmembers⟩ := h.matches_members_iff (a :: as)
  obtain ⟨hisIn, hnotIn⟩ := hmembers hj (s := s)
  refine ⟨?_, ?_, ?_, ?_⟩
  · rw [heq]
    exact (h.matches_first_iff (.inl ⟨rfl, rfl⟩) rfl).2 hj
  · rw [hne]
    exact (h.matches_first_iff (.inr ⟨rfl, rfl⟩) rfl).2 hj
  · simp only [listed, hisIn, heq]
  · simp only [listed, hnotIn, hne]

/-- Equality with a list asks for the same rows as the operator for lists only if all texts of the
list are the same: where another one comes after the first, a document with that other text tells
the two apart. -/
theorem listed_onPath_iff_allSame {op listOp : Operator}
    (hop : op = .eq ∧ listOp = .isIn ∨ op = .ne ∧ listOp = .notIn) :
    (∀ {j : Judge} {place : Placing} {s : Scene},
      j.IsStandard (.pathText c (segments path)) place →
        (q.Matches j s (.listed op field (a :: as)) ↔
          q.Matches j s (.listed listOp field (a :: as)))) ↔
      ∀ b ∈ as, b = a := by
  constructor
  · intro hsame b hb
    have hj := isStandard_alike (.pathText c (segments path))
    have hsame := hsame hj (s := .withText (segments path) b)
    obtain ⟨-, -, hmembers⟩ := h.matches_members_iff (a :: as)
    obtain ⟨hisIn, hnotIn⟩ := hmembers hj (s := .withText (segments path) b)
    obtain ⟨heq, hne⟩ := meets_withText_iff c (segments path) a b
    obtain ⟨heqSelf, hneSelf⟩ := meets_withText_iff c (segments path) b b
    rcases hop with ⟨rfl, rfl⟩ | ⟨rfl, rfl⟩
    · have hin := hisIn.mpr ⟨b, List.mem_cons_of_mem a hb, heqSelf.mpr rfl⟩
      exact heq.mp (((h.matches_first_iff (.inl ⟨rfl, rfl⟩) rfl).2 hj).mp (hsame.mpr hin))
    · by_contra hdiffer
      have hfirst : q.Matches .alike _ (.listed .ne field (a :: as)) :=
        ((h.matches_first_iff (.inr ⟨rfl, rfl⟩) rfl).2 hj).mpr (hne.mpr hdiffer)
      have hnone := hnotIn.mp (hsame.mp hfirst) b (List.mem_cons_of_mem a hb)
      exact hneSelf.mp hnone rfl
  · intro hsame j place s hj
    obtain ⟨heq, hne, hisIn, hnotIn⟩ := listed_onPath h a as hj (s := s)
    have hall : ∀ b ∈ a :: as, b = a := List.forall_mem_cons.mpr ⟨rfl, hsame⟩
    rcases hop with ⟨rfl, rfl⟩ | ⟨rfl, rfl⟩
    · rw [heq, hisIn]
      constructor
      · exact fun hfirst => ⟨a, List.mem_cons_self, hfirst⟩
      · rintro ⟨b, hb, hmatch⟩
        exact hall b hb ▸ hmatch
    · rw [hne, hnotIn]
      constructor
      · exact fun hfirst b hb => (hall b hb).symm ▸ hfirst
      · exact fun hmatch => hmatch a List.mem_cons_self

end

/-- A key that repeats equality on a path, or inequality, gives one filter with all of its texts.
The filter has a condition, but the condition compares the first text only. So it asks for the same
rows as the operator for lists if all texts are the same, and not otherwise. -/
theorem repeated_onPath (h : q.IsPath field c path) (a : String) (as : List String) :
    let compared (op : Operator) (b : String) : Filter := .compare op field (.text b)
    let listed (op : Operator) : Filter := .listed op field (a :: as)
    (∀ op, op.includes = true ∨ op.excludes = true → q.HasConditionFor (listed op)) ∧
    (∀ op, op = .eq ∨ op = .ne → ∀ b, q.HasConditionFor (compared op b)) ∧
    (∀ op, op = .eq ∨ op = .ne → ∀ items spelling, Operator.parse? spelling = some op →
      partsFor field items = (a :: as).map (some spelling, ·) → as ≠ [] →
      ∃ parsed, (ofItems items).toRequest.parsedFilters = .ok parsed ∧
        ∀ f, f.field = field → (f ∈ parsed.filters ↔ f = listed op)) ∧
    (∀ {j : Judge} {place : Placing} {s : Scene},
      j.IsStandard (.pathText c (segments path)) place →
        (q.Matches j s (listed .eq) ↔ q.Matches j s (compared .eq a)) ∧
        (q.Matches j s (listed .ne) ↔ q.Matches j s (compared .ne a)) ∧
        (q.Matches j s (listed .isIn) ↔ ∃ b ∈ a :: as, q.Matches j s (compared .eq b)) ∧
        (q.Matches j s (listed .notIn) ↔ ∀ b ∈ a :: as, q.Matches j s (compared .ne b))) ∧
    ∀ op listOp, op = .eq ∧ listOp = .isIn ∨ op = .ne ∧ listOp = .notIn →
      ((∀ {j : Judge} {place : Placing} {s : Scene},
        j.IsStandard (.pathText c (segments path)) place →
          (q.Matches j s (listed op) ↔ q.Matches j s (listed listOp))) ↔
        ∀ b ∈ as, b = a) := by
  intro compared listed
  refine ⟨?_, fun op hop b => ?_, ?_, fun hj => listed_onPath h a as hj,
    fun op listOp hop => listed_onPath_iff_allSame h a as hop⟩
  · rintro op hop
    obtain ⟨hisIn, hnotIn, -⟩ := h.matches_members_iff (a :: as)
    cases op with
    | eq => exact (h.matches_first_iff (.inl ⟨rfl, rfl⟩) rfl).1
    | ne => exact (h.matches_first_iff (.inr ⟨rfl, rfl⟩) rfl).1
    | isIn => exact hisIn
    | notIn => exact hnotIn
    | _ => simp [Operator.includes, Operator.excludes] at hop
  · rcases hop with rfl | rfl
    · exact (h.matches_first_iff (.inl ⟨rfl, rfl⟩) rfl).1
    · exact (h.matches_first_iff (.inr ⟨rfl, rfl⟩) rfl).1
  · intro op hop items spelling hspelling hparts hmore
    have hrange : op.takesRange = false := by
      rcases hop with rfl | rfl <;> rfl
    have hlength : 2 ≤ (a :: as).length := Nat.succ_le_succ (List.length_pos_iff.mpr hmore)
    exact exists_parsedFilters_repeated hparts hspelling hrange hlength

/-- A request for the parcels from the air or the sea finds only those from the air. -/
theorem repeated_onPath_parcels :
    let q : Query := { entity := .parcels }
    let found := q.Matches .alike (.withText ["from"] "sea")
    let items := [("filter[way.from][eq]", "air"), ("filter[way.from][eq]", "sea")]
    (∃ parsed, (ofItems items).toRequest.parsedFilters = .ok parsed ∧
      .listed .eq "way.from" ["air", "sea"] ∈ parsed.filters) ∧
      ¬found (.listed .eq "way.from" ["air", "sea"]) ∧
      found (.listed .isIn "way.from" ["air", "sea"]) ∧
      found (.listed .ne "way.from" ["air", "sea"]) ∧
      ¬found (.listed .notIn "way.from" ["air", "sea"]) := by
  intro q found items
  have hpath : IsPath q "way.from" ⟨"parcels", "way", .json⟩ "from" := ⟨rfl, rfl⟩
  have hj := isStandard_alike (.pathText ⟨"parcels", "way", .json⟩ (segments "from"))
  have hparts : partsFor "way.from" items = ["air", "sea"].map (some "eq", ·) := by decide +kernel
  obtain ⟨-, -, hrequest, hrows, -⟩ := repeated_onPath hpath "air" ["sea"]
  obtain ⟨parsed, hparsed, hfilters⟩ :=
    hrequest .eq (.inl rfl) items "eq" rfl hparts (List.cons_ne_nil _ _)
  obtain ⟨heq, hne, hisIn, hnotIn⟩ := hrows hj (s := .withText ["from"] "sea")
  have hmeets (a : String) := meets_withText_iff ⟨"parcels", "way", .json⟩ ["from"] a "sea"
  have hequal (a : String) : found (.compare .eq "way.from" (.text a)) ↔ "sea" = a :=
    ((hpath.matches_first_iff (.inl ⟨rfl, rfl⟩) rfl).2 hj).trans (hmeets a).1
  have hunequal (a : String) : found (.compare .ne "way.from" (.text a)) ↔ "sea" ≠ a :=
    ((hpath.matches_first_iff (.inr ⟨rfl, rfl⟩) rfl).2 hj).trans (hmeets a).2
  refine ⟨⟨parsed, hparsed, (hfilters _ rfl).mpr rfl⟩, fun h => ?_, hisIn.mpr ⟨"sea", by simp, ?_⟩,
    hne.mpr ?_, fun h => ?_⟩
  · exact absurd ((hequal "air").mp (heq.mp h)) (by decide)
  · exact (hequal "sea").mpr rfl
  · exact (hunequal "air").mpr (by decide)
  · exact (hunequal "sea").mp (hnotIn.mp h "sea" (by simp)) rfl

end Query

end ListQuery
