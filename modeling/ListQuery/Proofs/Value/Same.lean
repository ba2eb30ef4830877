import ListQuery.Value.Equal
import ListQuery.Proofs.Failure

/-!
# Sameness of keys

Values that are the same key as some value are the same key as one another, and nothing tells them
apart as keys. A value links to a row if it is the same key as the one that the row holds; nothing
links to no row.

* `same_comm`, `same_congr` — sameness is symmetric and transitive;
* `links_comm`, `links_congr` — links;
* `keyForm_of_equal` — values that are equal are the same keys.
-/

namespace ListQuery.Value

variable {u v w : Value}

-- ---------------------------------------------------------------------------
-- Keys
-- ---------------------------------------------------------------------------

theorem same_iff : v.same w = true ↔ ∃ f, v.keyForm? = some f ∧ w.keyForm? = some f := by
  rw [same]
  constructor
  · intro h
    split at h
    case h_1 a b hv hw =>
      obtain rfl : a = b := of_decide_eq_true h
      exact ⟨a, hv, hw⟩
    case h_2 => cases h
  · rintro ⟨f, hv, hw⟩
    rw [hv, hw]
    exact decide_eq_true rfl

theorem same_comm (v w : Value) : v.same w = w.same v := by
  rw [Bool.eq_iff_iff, same_iff, same_iff]
  exact ⟨fun ⟨f, hv, hw⟩ => ⟨f, hw, hv⟩, fun ⟨f, hw, hv⟩ => ⟨f, hv, hw⟩⟩

/-- Values of one form are the same as the same values. -/
theorem same_congr (h : v.keyForm? = w.keyForm?) (u : Value) : v.same u = w.same u := by
  rw [same, same, h]

theorem keyForm_of_same (h : v.same w = true) : v.keyForm? = w.keyForm? := by
  obtain ⟨f, hv, hw⟩ := same_iff.mp h
  rw [hv, hw]

theorem same_self_of_same (h : v.same w = true) : v.same v = true := by
  obtain ⟨f, hv, -⟩ := same_iff.mp h
  exact same_iff.mpr ⟨f, hv, hv⟩

theorem isNull_of_same (h : v.same w = true) : v.isNull = w.isNull := by
  have hform : ∀ x : Value, x.isNull = true ↔ x.keyForm? = some .null := by
    intro x
    cases x with
    | float d => cases d <;> exact iff_of_false Bool.false_ne_true (fun h => by cases h)
    | decimal d => cases d <;> exact iff_of_false Bool.false_ne_true (fun h => by cases h)
    | null => exact iff_of_true rfl rfl
    | _ => exact iff_of_false Bool.false_ne_true (fun h => by cases h)
  rw [Bool.eq_iff_iff, hform, hform, keyForm_of_same h]

/-- What is the same as some value can stand as a key. -/
theorem isKey_of_same (h : v.same w = true) : v.isKey = true := by
  obtain ⟨f, hform, -⟩ := same_iff.mp h
  cases v with
  | list vs => cases hform
  | map es => cases hform
  | decimal d =>
    cases d with
    | nan => cases hform
    | _ => rfl
  | _ => rfl

-- ---------------------------------------------------------------------------
-- Links
-- ---------------------------------------------------------------------------

/-- Whether a value leads to the rows that hold another one. -/
def links (v w : Value) : Bool := !v.isNull && v.same w

theorem links_comm (v w : Value) : v.links w = w.links v := by
  rw [links, links, same_comm w v]
  cases h : v.same w with
  | false => rw [Bool.and_false, Bool.and_false]
  | true => rw [isNull_of_same h]

/-- The same keys link to the same rows. -/
theorem links_congr (h : v.same w = true) (u : Value) : v.links u = w.links u := by
  rw [links, links, isNull_of_same h, same_congr (keyForm_of_same h)]

theorem same_of_links (h : v.links w = true) : v.same w = true := (Bool.and_eq_true_iff.mp h).2

theorem isNull_of_links (h : v.links w = true) : v.isNull = false :=
  Bool.not_eq_true' _ |>.mp (Bool.and_eq_true_iff.mp h).1

/-- What is linked to links to itself. -/
theorem links_self_of_links (h : v.links w = true) : w.links w = true := by
  rw [links_comm] at h
  rw [links, same_self_of_same (same_of_links h), isNull_of_links h]
  rfl

-- ---------------------------------------------------------------------------
-- Equal values
-- ---------------------------------------------------------------------------

/-- Equal values have one form, if any. -/
theorem keyForm_of_equal (h : v.equal w = .ok true) : v.keyForm? = w.keyForm? := by
  have hscalars : ∀ {v w : Value}, v.equalScalars w = .ok true → v.keyForm? = w.keyForm? := by
    intro v w h
    rw [equalScalars] at h
    split at h
    · cases h
    · exact keyForm_of_same (Except.ok.inj h)
  unfold equal at h
  split at h
  · rfl
  · rfl
  · exact hscalars h

end ListQuery.Value
