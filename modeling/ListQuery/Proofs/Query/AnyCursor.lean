import ListQuery.Query.Steps
import ListQuery.Proofs.Compiled
import ListQuery.Proofs.Condition.Keyset
import ListQuery.Proofs.Paging.Token
import ListQuery.Proofs.Schema.Coercion

/-!
# Whatever stands in a cursor

A client can send any text as a cursor. One that cannot be read leaves the statements as they are
without it and a warning; one that can be read adds the condition after its key values. Only a truth
value among these makes a query fail that is compiled without the cursor: it has no order.

* `Keyset.exists_ofCursor?` — reading a cursor is no failure, but for a document that is too deep;
* `compile_withCursor` — what is compiled.
-/

namespace ListQuery

open Sql

-- ---------------------------------------------------------------------------
-- Reading
-- ---------------------------------------------------------------------------

theorem Cursor.exists_decode? {token : String} (h : decode? token ≠ .error .tooDeep) :
    ∃ r, decode? token = .ok r := by
  unfold decode? at h ⊢
  split_ifs at h ⊢
  · exact ⟨none, rfl⟩
  cases hchars : (Codec.readToken token.toList).bind Codec.strictUtf8? with
  | none => exact ⟨none, rfl⟩
  | some cs =>
    simp only [hchars, valuesOf?] at h ⊢
    split
    case h_3 hread => exact absurd (by rw [hread]) h
    all_goals exact ⟨_, rfl⟩

namespace Keyset

variable (e : Entity) (keys : List SortKey)

/-- Whatever a cursor holds for a key, it is a value of the column or it is passed over. -/
theorem exists_keyValue? (decoded : Entries Value) (key : SortKey) :
    ∃ r, keyValue? e decoded key = .ok r := by
  unfold keyValue?
  cases hget : decoded.get? key.field with
  | none => exact ⟨none, rfl⟩
  | some raw =>
    cases hcoerce : coerce (e.typeOf key.field) raw with
    | ok v => simp [hcoerce]
    | error fail => simp [hcoerce, isReading_of_coerce hcoerce]

theorem exists_ofDecoded? (decoded : Entries Value) : ∃ r, ofDecoded? e keys decoded = .ok r := by
  obtain ⟨values, hvalues⟩ := exists_mapM_eq_ok.mpr fun key (_ : key ∈ keys) =>
    exists_keyValue? e decoded key
  refine exists_bind_eq_ok.mpr ⟨values, hvalues, ?_⟩
  cases hall : values.mapM id with
  | none => exact ⟨none, rfl⟩
  | some found =>
    dsimp only
    split <;> exact ⟨_, rfl⟩

/-- A text whose document does not nest too deep has key values or none. -/
theorem exists_ofCursor? {token : String} (h : Cursor.decode? token ≠ .error .tooDeep) :
    ∃ r, ofCursor? e keys (.text token) = .ok r := by
  unfold ofCursor? Cursor.ofValue?
  split_ifs
  · exact ⟨none, rfl⟩
  obtain ⟨decoded, hdecoded⟩ := Cursor.exists_decode? h
  refine exists_bind_eq_ok.mpr ⟨decoded, hdecoded, ?_⟩
  cases decoded with
  | none => exact ⟨none, rfl⟩
  | some decoded => exact exists_ofDecoded? e keys decoded

end Keyset

-- ---------------------------------------------------------------------------
-- Compiling
-- ---------------------------------------------------------------------------

namespace Query

variable {q : Query} {schema : Schema} {c : Compiled} {token : String} {n : Int}

/-- The cursor holds key values, and one of them is a truth value. -/
def HoldsTruthValue (q : Query) (token : String) : Prop :=
  ∃ values, Keyset.ofCursor? q.entity q.keys (.text token) = .ok (some values) ∧
    ∃ key ∈ q.keys, ∃ b, Keyset.valueOf values key = .bool b

/-- What a cursor adds to the statement that is compiled without it, and with which warnings: nothing
if it is empty, a warning if it cannot be read, and otherwise the condition after its key values. -/
inductive CursorEffect (q : Query) (s : Statement) (token : String) : Statement → List String → Prop
  | empty (h : token = "") : CursorEffect q s token s []
  | ignored (h : token ≠ "")
      (hunread : Keyset.ofCursor? q.entity q.keys (.text token) = .ok none) :
      CursorEffect q s token s [undecodable]
  | resumed {values : Entries Value} {after : Predicate}
      (hvalues : Keyset.ofCursor? q.entity q.keys (.text token) = .ok (some values))
      (hafter : Keyset.predicate q.entity q.keys values = .ok after) :
      CursorEffect q s token (s.restrict after) []

/-- A truth value among the key values fails the query. -/
theorem cursorConditions_of_holdsTruthValue (h : q.HoldsTruthValue token) :
    q.cursorConditions q.keys (.text token) = .error .badOperand := by
  obtain ⟨values, hvalues, key, hkey, b, hb⟩ := h
  rw [cursorConditions, isVoid_of_values hvalues, if_neg Bool.false_ne_true, hvalues]
  simp only [bind, Except.bind, Keyset.predicate_eq_error hkey hb]

/-- Any other text has its effect. -/
theorem exists_cursorConditions (hdeep : Cursor.decode? token ≠ .error .tooDeep)
    (h : ¬q.HoldsTruthValue token) (s : Statement) :
    ∃ after warnings, q.cursorConditions q.keys (.text token) = .ok (after, warnings) ∧
      q.CursorEffect s token (after.foldl Statement.restrict s) warnings := by
  by_cases htoken : token = ""
  · subst htoken
    exact ⟨[], [], rfl, .empty rfl⟩
  obtain ⟨r, hr⟩ := Keyset.exists_ofCursor? q.entity q.keys hdeep
  cases r with
  | none =>
    have hvoid : (Value.text token).isVoid = false := by simpa [Value.isVoid] using htoken
    refine ⟨[], [undecodable], ?_, .ignored htoken hr⟩
    rw [cursorConditions, hvoid, if_neg Bool.false_ne_true, hr]
    rfl
  | some values =>
    have hafter : Keyset.predicate q.entity q.keys values =
        .ok (.disj (Keyset.branchesOf q.entity values [] q.keys)) := by
      refine Keyset.predicate_eq_ok fun key hkey hnull => Keyset.isOrdered_iff.mpr ⟨hnull, ?_⟩
      exact fun b hb => h ⟨values, hr, key, hkey, b, hb⟩
    exact ⟨[_], [], cursorConditions_of_values hr hafter, .resumed hr hafter⟩

/-- The conditions after a cursor can also be added to the statement that is cut already. -/
theorem foldl_restrict_cursorCut (after : List Predicate) (s : Statement) :
    after.foldl Statement.restrict (cursorCut s [] n) = cursorCut s after n := by
  simp [cursorCut, foldl_restrict]

/-- When the rest of a query is compiled, its cursor decides. -/
theorem compile_cursor_eq_map {token : Value} {tables : List Join} {conditions : List Predicate}
    (hp : q.effectivePage = .cursor token n) (htables : q.joinedTables schema = .ok tables)
    (hconditions : q.conditions = .ok conditions) :
    q.compile schema true = (q.cursorConditions q.keys token).map fun found =>
      q.compiledCursor schema tables conditions found.1 found.2 n := by
  rw [compile_cursor_eq hp, htables, hconditions]
  cases q.cursorConditions q.keys token <;> rfl

/-- Whatever stands in the cursor of a query that is compiled without it: the cursor has its effect,
or it holds a truth value. -/
theorem compile_withCursor
    (hc : (q.paginate (some (.cursor .null n))).compile schema true = .ok c)
    (hdeep : Cursor.decode? token ≠ .error .tooDeep) :
    (q.HoldsTruthValue token →
      (q.paginate (some (.cursor (.text token) n))).compile schema true = .error .badOperand) ∧
    (¬q.HoldsTruthValue token →
      ∃ select warnings, q.CursorEffect c.select token select warnings ∧
        (q.paginate (some (.cursor (.text token) n))).compile schema true =
          .ok { c with page := .cursor (.text token) n, select, warnings }) := by
  obtain ⟨tables, conditions, after₀, warnings₀, htables, hconditions, hafter₀, rfl⟩ :=
    (compile_cursor_eq_ok rfl).mp hc
  obtain ⟨rfl, rfl⟩ : [] = after₀ ∧ [] = warnings₀ := Prod.mk.inj (Except.ok.inj hafter₀)
  have hcompile : (q.paginate (some (.cursor (.text token) n))).compile schema true =
      (q.cursorConditions q.keys (.text token)).map fun found =>
        (q.paginate (some (.cursor (.text token) n))).compiledCursor schema tables conditions
          found.1 found.2 n :=
    compile_cursor_eq_map rfl htables hconditions
  rw [hcompile]
  constructor
  · intro htruth
    rw [cursorConditions_of_holdsTruthValue htruth]
    rfl
  · intro htruth
    obtain ⟨after, warnings, hafter, heffect⟩ := exists_cursorConditions hdeep htruth
      ((q.paginate (some (.cursor .null n))).compiledCursor schema tables conditions [] [] n).select
    refine ⟨_, warnings, heffect, ?_⟩
    rw [hafter]
    simp only [compiledCursor, foldl_restrict_cursorCut]
    rfl

end Query

-- ---------------------------------------------------------------------------
-- Cursors that no page has given
-- ---------------------------------------------------------------------------

/-- Contacts by name. -/
def Entity.contacts : Entity where
  table            := "contacts"
  filterFields     := []
  sortFields       := ["name"]
  selectFields     := ["id", "name"]
  includePaths     := []
  defaultSort      := some ⟨"name", .ascending⟩
  defaultSelection := none
  searchFields     := []
  primaryKey       := "id"
  softDelete       := none
  types            := [("id", .integer), ("name", .string)]
  relations        := []

/-- The entries of a cursor that a client made up: the name is a truth value. -/
def trueName : Entries Value := [("id", .int 1), ("name", .bool true)]

/-- The client's cursor fails the query; one that is no token at all is ignored. -/
theorem Query.compile_withCursor_contacts :
    ∃ c token, Query.compile { entity := .contacts, page := some (.cursor .null 2) } [] true = .ok c ∧
      Cursor.encode (.record trueName) = .ok token ∧
      Query.compile { entity := .contacts, page := some (.cursor (.text token) 2) } [] true =
        .error .badOperand ∧
      Query.compile { entity := .contacts, page := some (.cursor (.text "!") 2) } [] true =
        .ok { c with page := .cursor (.text "!") 2, warnings := [Query.undecodable] } := by
  obtain ⟨c, hc⟩ : ∃ c,
      Query.compile { entity := .contacts, page := some (.cursor .null 2) } [] true = .ok c := ⟨_, rfl⟩
  obtain ⟨token, htoken⟩ : ∃ token, Cursor.encode (.record trueName) = .ok token := by
    have hdigit : ∃ cs, Json.chars (.int 1) = .ok cs :=
      Json.exists_chars trivial fun n hn => Value.int.inj hn ▸ by decide
    exact Cursor.exists_encode (by simpa [trueName, Json.chars] using hdigit)
  obtain ⟨hne, decoded, hdecoded, hget⟩ := Cursor.decode?_encode
    (by simp [trueName, Json.IsScalar]) (by decide) htoken
  refine ⟨c, token, hc, htoken, ?_, ?_⟩
  · refine (Query.compile_withCursor (q := { entity := .contacts }) hc (by simp [hdecoded])).1 ?_
    have hname : decoded.get? "name" = some (.bool true) := hget "name"
    have hid : decoded.get? "id" = some (.int 1) := hget "id"
    have hvalues : Keyset.ofDecoded? .contacts (Query.keys { entity := .contacts }) decoded =
        .ok (some [("name", .bool true), ("id", .int 1)]) := by
      have hkeys : Query.keys { entity := .contacts } =
        [⟨"name", .ascending⟩, ⟨"id", .ascending⟩] := rfl
      simp only [hkeys, Keyset.ofDecoded?, List.mapM_cons, Keyset.keyValue?, hname, hid]
      rfl
    refine ⟨[("name", .bool true), ("id", .int 1)], ?_, ⟨"name", .ascending⟩, List.mem_cons_self,
      true, rfl⟩
    rw [Keyset.ofCursor?, Cursor.ofValue?, if_neg (by simpa [Value.isVoid] using hne), hdecoded]
    exact hvalues
  · have hdecoded : Cursor.decode? "!" = .ok none := rfl
    have hnone : Keyset.ofCursor? Entity.contacts (Query.keys { entity := .contacts }) (.text "!") =
        .ok none := rfl
    have hdeep : Cursor.decode? "!" ≠ .error .tooDeep := by simp [hdecoded]
    have htruth : ¬Query.HoldsTruthValue { entity := .contacts } "!" := by
      rintro ⟨values, hvalues, -⟩
      cases hnone.symm.trans hvalues
    obtain ⟨select, warnings, heffect, hcompile⟩ :=
      (Query.compile_withCursor (q := { entity := .contacts }) hc hdeep).2 htruth
    cases heffect with
    | empty h => simp at h
    | ignored => exact hcompile
    | resumed hvalues => cases hnone.symm.trans hvalues

end ListQuery
