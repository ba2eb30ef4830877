import ListQuery.Query.Steps
import ListQuery.Proofs.Condition.Keyset
import ListQuery.Execution.Script
import ListQuery.Proofs.Execution.CursorPage

/-!
# Resuming after a page

The cursor of a page is there for the next call. With it the query can be compiled, without a
warning and with the condition after the last row of the page, exactly when no key of that row is a
truth value, a time of day or a timestamp with an offset of less than a second: a truth value has no
order, and the other two do not come back from the cursor as they were.

* `Query.Resumes` — what the next call is meant to find;
* `nextCursor_resumes_iff` — when the next call finds it.
-/

namespace ListQuery

open Sql

namespace Query

variable {q : Query} {schema : Schema}

/-- The query with the cursor is compiled without a warning, and to its own conditions it adds the
one after the row with the given key values. -/
def Resumes (q : Query) (schema : Schema) (token : String) (values : Entries Value) (n : Int) :
    Prop :=
  ∃ c conditions after,
    (q.paginate (some (.cursor (.text token) n))).compile schema true = .ok c ∧ c.warnings = [] ∧
      Keyset.ofCursor? q.entity q.keys (.text token) = .ok (some values) ∧
      Keyset.predicate q.entity q.keys values = .ok after ∧
      q.conditions = .ok conditions ∧ c.select.conditions = conditions ++ after.conjuncts

/-- A cursor that was read leaves the rest of the statement as it was. -/
theorem compile_of_values {token : String} {n : Int} {values : Entries Value} {after : Predicate}
    {tables : List Join} {conditions : List Predicate}
    (hvalues : Keyset.ofCursor? q.entity q.keys (.text token) = .ok (some values))
    (hafter : Keyset.predicate q.entity q.keys values = .ok after)
    (htables : q.joinedTables schema = .ok tables) (hconditions : q.conditions = .ok conditions) :
    ∃ c, (q.paginate (some (.cursor (.text token) n))).compile schema true = .ok c ∧
      c.warnings = [] ∧ c.select.conditions = conditions ++ after.conjuncts := by
  have hp : (q.paginate (some (.cursor (.text token) n))).effectivePage = .cursor (.text token) n :=
    rfl
  have hfound : (q.paginate (some (.cursor (.text token) n))).cursorConditions q.keys (.text token) =
      .ok ([after], []) := cursorConditions_of_values hvalues hafter
  exact ⟨_, (compile_cursor_eq_ok hp).mpr ⟨tables, conditions, [after], [], htables, hconditions,
    hfound, rfl⟩, rfl, rfl⟩

end Query

open Database

variable {σ : Type} {db : Database σ} {schema : Schema} {q : Query} {st st₁ st' : σ}
  {c : Compiled} {read : List Row} {page : PageOf Row} {token : Value} {text : String} {n : Int}

/-- The cursor of a page resumes after its last row exactly when each key of that row comes back as
it was and has an order. -/
theorem nextCursor_resumes_iff (hp : q.effectivePage = .cursor token n)
    (hc : q.compile schema true = .ok c)
    (hread : (Query.fetch db c.joins c.select).run (db.connect st) = (.ok read, st₁))
    (htyped : ∀ row ∈ read, ∀ key ∈ q.keys, (q.entity.typeOf key.field).Admits (row.at key.field))
    (hpk : ∀ row ∈ read, row.at q.entity.primaryKey ≠ .null)
    (hrun : q.runPage db schema st = (.ok page, st')) (hnext : page.info.nextCursor = some text)
    (m : Int) :
    ∃ last ∈ read, page.data.getLast? = some (Row.stripHidden c.hidden last) ∧
      (q.Resumes schema text (Keyset.valuesOf q.keys last.at) m ↔
        ∀ key ∈ q.keys, IsKept (last.at key.field) ∧ ∀ b, last.at key.field ≠ .bool b) := by
  -- the last row of the page is the one that the cursor was made of
  obtain ⟨c', read', st₂, hc', hread', hparts, -⟩ := runPage_cursor hp hrun
  obtain rfl : c = c' := Except.ok.inj (hc.symm.trans hc')
  obtain rfl : read = read' := Except.ok.inj (Prod.mk.inj (hread.symm.trans hread')).1
  obtain ⟨tables, conditions, after, warnings, htables, hconditions, hafter, rfl⟩ :=
    (Query.compile_cursor_eq_ok hp).mp hc
  have hcursor := hparts.next
  rw [hnext] at hcursor
  split at hcursor
  case isFalse => cases Except.ok.inj hcursor
  case isTrue =>
  obtain ⟨last, hlast, hencode⟩ := nextCursor_eq_some hcursor
  have hmem : last ∈ read := List.mem_of_mem_take (List.mem_of_getLast? hlast)
  have hvalues := Keyset.ofCursor?_encode (htyped last hmem)
    q.primaryKey_mem_keys (hpk last hmem) hencode
  refine ⟨last, hmem, by rw [hparts.data, List.getLast?_map, hlast]; rfl, ?_⟩
  constructor
  · rintro ⟨c'', conditions', after', -, -, hvalues', hafter', -, -⟩ key hkey
    -- the values that were read are those of the row
    have hsame : Keyset.valuesOf q.keys (returned ∘ last.at) = Keyset.valuesOf q.keys last.at :=
      Option.some.inj (Except.ok.inj (hvalues.symm.trans hvalues'))
    constructor
    · rw [← returned_eq_iff]
      have h := Keyset.valueOf_valuesOf (returned ∘ last.at) hkey
      rw [hsame, Keyset.valueOf_valuesOf last.at hkey] at h
      exact h.symm
    · intro b hb
      have h := Keyset.predicate_eq_error (e := q.entity)
        hkey ((Keyset.valueOf_valuesOf last.at hkey).trans hb)
      cases hafter'.symm.trans h
  · intro hkept
    have hsame : Keyset.valuesOf q.keys (returned ∘ last.at) = Keyset.valuesOf q.keys last.at := by
      have hmap : (q.keys.map fun key => (key.field, (returned ∘ last.at) key.field)) =
          q.keys.map fun key => (key.field, last.at key.field) :=
        List.map_congr_left fun key hkey =>
          congrArg (key.field, ·) (returned_eq_iff.mpr (hkept key hkey).1)
      rw [Keyset.valuesOf, Keyset.valuesOf, hmap]
    rw [hsame] at hvalues
    have hordered : ∀ key ∈ q.keys, Keyset.valueOf (Keyset.valuesOf q.keys last.at) key ≠ .null →
        Keyset.IsOrdered (Keyset.valueOf (Keyset.valuesOf q.keys last.at) key) := by
      intro key hkey hnull
      rw [Keyset.valueOf_valuesOf last.at hkey] at hnull ⊢
      have hbool := (hkept key hkey).2
      generalize last.at key.field = v at hnull hbool
      cases v with
      | null => exact absurd rfl hnull
      | bool b => exact absurd rfl (hbool b)
      | _ => trivial
    have hafter' := Keyset.predicate_eq_ok (e := q.entity) hordered
    obtain ⟨c'', hc'', hwarnings, hselect⟩ :=
      Query.compile_of_values (n := m) hvalues hafter' htables hconditions
    exact ⟨c'', conditions, _, hc'', hwarnings, hvalues, hafter', hconditions, hselect⟩

/-- Items of which only the key is known. -/
def Entity.numbered : Entity where
  table            := "items"
  filterFields     := []
  sortFields       := []
  selectFields     := ["id"]
  includePaths     := []
  defaultSort      := none
  defaultSelection := some ["id"]
  searchFields     := []
  primaryKey       := "id"
  softDelete       := none
  types            := [("id", .integer)]
  relations        := []

def Query.numbered : Query := { entity := .numbered, page := some (.ofCursor .null 1) }

/-- One item more than the page of the query holds. -/
def Script.numbered : Script := { answers := [{ rows := [[("id", .int 1)], [("id", .int 2)]] }] }

theorem nextCursor_resumes_numbered :
    ∃ page st text last, Query.numbered.runPage Script.database [] .numbered = (.ok page, st) ∧
      page.info.nextCursor = some text ∧ page.data.getLast? = some last ∧
      Query.numbered.Resumes [] text (Keyset.valuesOf Query.numbered.keys last.at) 1 := by
  obtain ⟨text, htext⟩ : ∃ text, Cursor.encode (.record [("id", .int 1)]) = .ok text := by
    refine Cursor.exists_encode fun e he => ?_
    obtain rfl := List.mem_singleton.mp he
    refine Json.exists_chars trivial fun n hn => ?_
    obtain rfl := Value.int.inj hn
    decide
  have hp : Query.numbered.effectivePage = .cursor .null 1 := rfl
  obtain ⟨c, hc, st₁, hread⟩ : ∃ c, Query.numbered.compile [] true = .ok c ∧ ∃ st₁,
      (Query.fetch Script.database c.joins c.select).run (Script.database.connect .numbered) =
        (.ok [[("id", .int 1)], [("id", .int 2)]], st₁) := ⟨_, rfl, _, rfl⟩
  obtain rfl : c = _ := (Except.ok.inj hc).symm
  have hnext : nextCursor ["id"] [[("id", .int 1)]] = .ok (some text) := map_eq_ok.mpr ⟨_, htext, rfl⟩
  have hrows : ∀ row ∈ ([[("id", .int 1)], [("id", .int 2)]] : List Row),
      ∃ n, row.at "id" = .int n := by
    intro row hrow
    rcases List.mem_cons.mp hrow with rfl | hrow
    · exact ⟨1, rfl⟩
    · obtain rfl := List.mem_singleton.mp hrow
      exact ⟨2, rfl⟩
  obtain ⟨page, hpage, hcursor⟩ := exists_runPage_cursor hp rfl hc hread hnext rfl
  obtain ⟨last, hlast, hdata, hresumes⟩ := nextCursor_resumes_iff hp hc hread
    (by
      intro row hrow key hkey
      obtain rfl := List.mem_singleton.mp hkey
      obtain ⟨n, hn⟩ := hrows row hrow
      exact .inr (hn ▸ rfl))
    (by
      intro row hrow hnull
      obtain ⟨n, hn⟩ := hrows row hrow
      cases hn.symm.trans hnull)
    hpage hcursor 1
  refine ⟨page, _, text, last, hpage, hcursor, hdata, hresumes.mpr ?_⟩
  intro key hkey
  obtain rfl := List.mem_singleton.mp hkey
  obtain ⟨n, hn⟩ := hrows last hlast
  show IsKept (last.at "id") ∧ ∀ b, last.at "id" ≠ .bool b
  rw [hn]
  exact ⟨trivial, fun b h => by cases h⟩

end ListQuery
