import ListQuery.Filter.Basic
import ListQuery.Proofs.Failure

/-!
# Operands that are converted

An operand is converted value by value and keeps its shape. A conversion succeeds where it does in
every place, and it fails as it does in one of them.

* `Operand.Related` — operands of one shape, compared in every place;
* `mapM_eq_ok_iff`, `exists_given_of_mapM_eq_error` — when a conversion succeeds, and how it fails;
* `exists_related_iff` — operands that are related to one.
-/

namespace ListQuery

namespace Operand

/-- The values of an operand, in their places. -/
def given : Operand → List Value
  | single v       => [v]
  | multiple vs    => vs
  | range low high => [low, high]

/-- Operands of one shape, with related values in every place. -/
inductive Related (R : Value → Value → Prop) : Operand → Operand → Prop
  | single {v w : Value} (h : R v w) : Related R (single v) (single w)
  | multiple {vs ws : List Value} (h : List.Forall₂ R vs ws) : Related R (multiple vs) (multiple ws)
  | range {low low' high high' : Value} (hlow : R low low') (hhigh : R high high') :
    Related R (range low high) (range low' high')

variable {ε : Type} {R S : Value → Value → Prop} {f : Value → Except ε Value} {o o' : Operand}

theorem Related.imp (h : o.Related R o') (hRS : ∀ v w, R v w → S v w) : o.Related S o' := by
  cases h with
  | single h => exact .single (hRS _ _ h)
  | multiple h => exact .multiple (h.imp fun v w => hRS v w)
  | range hlow hhigh => exact .range (hRS _ _ hlow) (hRS _ _ hhigh)

/-- A conversion succeeds where it does in every place. -/
theorem mapM_eq_ok_iff : o.mapM f = .ok o' ↔ o.Related (fun v w => f v = .ok w) o' := by
  constructor
  · intro h
    cases o with
    | single v =>
      obtain ⟨w, hw, rfl⟩ := map_eq_ok.mp h
      exact .single hw
    | multiple vs =>
      obtain ⟨ws, hws, rfl⟩ := map_eq_ok.mp h
      exact .multiple (mapM_eq_ok.mp hws)
    | range low high =>
      obtain ⟨low', hlow, h⟩ := bind_eq_ok.mp h
      obtain ⟨high', hhigh, h⟩ := bind_eq_ok.mp h
      obtain rfl := Except.ok.inj h
      exact .range hlow hhigh
  · intro h
    cases h with
    | single h => exact map_eq_ok.mpr ⟨_, h, rfl⟩
    | multiple h => exact map_eq_ok.mpr ⟨_, mapM_eq_ok.mpr h, rfl⟩
    | range hlow hhigh => exact bind_eq_ok.mpr ⟨_, hlow, bind_eq_ok.mpr ⟨_, hhigh, rfl⟩⟩

/-- A conversion fails as it does in some place. -/
theorem exists_given_of_mapM_eq_error {e : ε} (h : o.mapM f = .error e) :
    ∃ v ∈ o.given, f v = .error e := by
  have hmap {α : Type} {x : Except ε α} {g : α → Operand} (h : x.map g = .error e) :
      x = .error e := by
    cases x with
    | error e' => exact congrArg _ (Except.error.inj h)
    | ok a => cases h
  cases o with
  | single v => exact ⟨v, List.mem_singleton_self v, hmap h⟩
  | multiple vs => exact exists_of_mapM_eq_error (hmap h)
  | range low high =>
    cases hlow : f low with
    | error e' =>
      rw [mapM, hlow] at h
      exact ⟨low, by simp [given], hlow.trans (congrArg _ (Except.error.inj h))⟩
    | ok low' =>
      cases hhigh : f high with
      | error e' =>
        rw [mapM, hlow, hhigh] at h
        exact ⟨high, by simp [given], hhigh.trans (congrArg _ (Except.error.inj h))⟩
      | ok high' =>
        rw [mapM, hlow, hhigh] at h
        cases h

/-- What is given counts as a value, unless it is nothing. -/
theorem eq_null_or_mem_values {v : Value} (h : v ∈ o.given) : v = .null ∨ v ∈ o.values := by
  cases o with
  | single w =>
    cases List.mem_singleton.mp h
    cases v with
    | null => exact .inl rfl
    | _ => exact .inr (List.mem_singleton_self _)
  | multiple vs => exact .inr h
  | range low high => exact .inr h

/-- Each place can be filled by itself. -/
theorem exists_related_iff : (∃ o', o.Related R o') ↔ ∀ v ∈ o.given, ∃ w, R v w := by
  constructor
  · rintro ⟨o', h⟩ v hv
    cases h with
    | single h =>
      cases List.mem_singleton.mp hv
      exact ⟨_, h⟩
    | multiple h =>
      obtain ⟨w, -, hw⟩ := exists_of_mem_forall₂ h.flip hv
      exact ⟨w, hw⟩
    | range hlow hhigh =>
      simp only [given, List.mem_cons, List.not_mem_nil, or_false] at hv
      rcases hv with rfl | rfl
      · exact ⟨_, hlow⟩
      · exact ⟨_, hhigh⟩
  · intro h
    cases o with
    | single v =>
      obtain ⟨w, hw⟩ := h v (by simp [given])
      exact ⟨_, .single hw⟩
    | multiple vs =>
      obtain ⟨ws, hws⟩ := exists_forall₂ h
      exact ⟨_, .multiple hws⟩
    | range low high =>
      obtain ⟨low', hlow⟩ := h low (by simp [given])
      obtain ⟨high', hhigh⟩ := h high (by simp [given])
      exact ⟨_, .range hlow hhigh⟩

end Operand

end ListQuery
