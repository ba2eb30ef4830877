import ListQuery.Schema.Coercion
import ListQuery.Proofs.Condition.Keyset

/-!
# What coercion gives

What a type makes of a raw value was read from its text, and what it refuses could not be read;
coercion has no other failure.
-/

namespace ListQuery

open Calendar

theorem map_readText_eq_ok {α : Type} {read : String → Option α} {raw v : Value}
    {failure : Failure} {f : α → Value} (h : (readText read raw failure).map f = .ok v) :
    ∃ a, read (Text.trim raw.display) = some a ∧ v = f a := by
  unfold readText at h
  cases hread : read (Text.trim raw.display) with
  | none =>
    rw [hread] at h
    cases h
  | some a =>
    rw [hread] at h
    exact ⟨a, rfl, (Except.ok.inj h).symm⟩

theorem isReading_of_readText {α : Type} {read : String → Option α} {raw : Value}
    {failure e : Failure} {f : α → Value} (hreading : failure.isReading = true)
    (h : (readText read raw failure).map f = .error e) : e.isReading = true := by
  unfold readText at h
  cases hread : read (Text.trim raw.display) with
  | some a =>
    rw [hread] at h
    cases h
  | none =>
    rw [hread] at h
    cases h
    exact hreading

/-- What a type refuses could not be read. -/
theorem isReading_of_coerce {t : ColumnType} {raw : Value} {e : Failure}
    (h : coerce t raw = .error e) : e.isReading = true := by
  unfold coerce at h
  cases hnative : t.native? with
  | some kind =>
    simp only [hnative] at h
    cases kind with
    | boolean =>
      cases raw with
      | null | bool => cases h
      | _ => exact isReading_of_readText rfl h
    | integer =>
      cases raw with
      | null | int => cases h
      | bool =>
        cases h
        rfl
      | _ => exact isReading_of_readText rfl h
    | float | decimal =>
      cases raw with
      | null => cases h
      | _ => exact isReading_of_readText rfl h
  | none =>
    simp only [hnative] at h
    cases t with
    | dateTime zoned =>
      cases raw with
      | null | timestamp => cases h
      | _ => exact isReading_of_readText rfl h
    | date =>
      cases raw with
      | null | timestamp | date => cases h
      | _ => exact isReading_of_readText rfl h
    | _ => cases raw <;> cases h

end ListQuery

/-!
## Coerced values

A value that a type has given is a value that it keeps. What was read as a number of the type is
read from its own text as the same number, and truth values, dates and timestamps are recognised as
they are. The zero that stands in for an unreadable value is kept as well.

* `admits_of_coerce`, `coerce_of_admits` — types with a reading of their own;
* `coerce_of_coerce`, `coerce_of_zero?` — all types.
-/

namespace ListQuery

open Number

/-- A decimal number that is read has an exponent that decimals can have. -/
theorem Number.Decimal.inRange_of_readDecimal {s : String} {d : Decimal}
    (h : readDecimal s = some d) : d.InRange := by
  unfold readDecimal readDecimalChars at h
  split at h
  case _ negative body hsign =>
    split_ifs at h
    · obtain rfl := Option.some.inj h
      trivial
    · obtain ⟨payload, -, rfl⟩ := Option.map_eq_some_iff.mp h
      trivial
    · obtain ⟨payload, -, rfl⟩ := Option.map_eq_some_iff.mp h
      trivial
    · obtain ⟨⟨c, k⟩, -, h⟩ := Option.bind_eq_some_iff.mp h
      dsimp only at h
      split_ifs at h with hrange
      obtain rfl := Option.some.inj h
      exact hrange

variable {t : ColumnType} {kind : NativeKind} {v w : Value}

/-- A type with a reading of its own gives its own kind of values, and nothing for nothing. -/
theorem admits_of_coerce (hkind : t.native? = some kind) (h : coerce t v = .ok w) :
    t.Admits w := by
  by_cases hnull : v = .null
  · subst hnull
    exact .inl (Except.ok.inj h).symm
  refine .inr ?_
  unfold coerce at h
  rw [hkind] at h
  cases kind with
  | boolean =>
    have hread : ∃ b, w = .bool b := by
      cases v with
      | null => exact absurd rfl hnull
      | bool b => exact ⟨b, (Except.ok.inj h).symm⟩
      | _ =>
        obtain ⟨b, -, rfl⟩ := map_readText_eq_ok h
        exact ⟨b, rfl⟩
    obtain ⟨b, rfl⟩ := hread
    exact hkind
  | integer =>
    have hread : ∃ n, w = .int n := by
      cases v with
      | null => exact absurd rfl hnull
      | bool b => cases h
      | int n => exact ⟨n, (Except.ok.inj h).symm⟩
      | _ =>
        obtain ⟨n, -, rfl⟩ := map_readText_eq_ok h
        exact ⟨n, rfl⟩
    obtain ⟨n, rfl⟩ := hread
    exact hkind
  | float =>
    have hread : ∃ d, w = .float d := by
      cases v with
      | null => exact absurd rfl hnull
      | _ =>
        obtain ⟨d, -, rfl⟩ := map_readText_eq_ok h
        exact ⟨d, rfl⟩
    obtain ⟨d, rfl⟩ := hread
    exact hkind
  | decimal =>
    have hread : ∃ d : Decimal, d.InRange ∧ w = .decimal d := by
      cases v with
      | null => exact absurd rfl hnull
      | _ =>
        obtain ⟨d, hd, rfl⟩ := map_readText_eq_ok h
        exact ⟨d, Decimal.inRange_of_readDecimal hd, rfl⟩
    obtain ⟨d, hrange, rfl⟩ := hread
    exact ⟨hkind, hrange⟩

/-- A decimal number is read from its own text. -/
theorem coerce_decimal {d : Decimal} (hkind : t.native? = some .decimal) (h : d.InRange) :
    coerce t (.decimal d) = .ok (.decimal d) := by
  have htrim : Text.trim (Value.decimal d).display = d.text := trim_of_isPlain d.isPlain_text
  unfold coerce
  rw [hkind]
  dsimp only
  rw [readText, htrim, Decimal.readDecimal_text h]
  rfl

/-- A value of the type's own kind is kept. -/
theorem coerce_of_admits (hkind : t.native? = some kind) (h : t.Admits v) :
    coerce t v = .ok v := by
  have hjson := coerce_jsonForm h
  rcases h with rfl | h
  · rfl
  cases v with
  | null => rfl
  | list | map => exact absurd h id
  | bool | int | float => simpa only [Json.jsonForm, returned] using hjson
  | decimal d => exact coerce_decimal h.1 h.2
  | text s =>
    have htext : t.isText = true := h
    cases t <;> simp_all [ColumnType.native?, ColumnType.isText]
  | date d =>
    obtain rfl : t = .date := h
    cases hkind
  | time x =>
    obtain rfl : t = .time := h
    cases hkind
  | timestamp x =>
    obtain ⟨zoned, rfl⟩ : ∃ zoned, t = .dateTime zoned := h
    cases hkind

/-- A value that a type has given is accepted again unchanged. -/
theorem coerce_of_coerce (h : coerce t v = .ok w) : coerce t w = .ok w := by
  cases hkind : t.native? with
  | some kind => exact coerce_of_admits hkind (admits_of_coerce hkind h)
  | none =>
    have hcoerce := h
    unfold coerce at h
    simp only [hkind] at h
    cases t with
    | dateTime zoned =>
      cases v with
      | null | timestamp => exact Except.ok.inj h ▸ hcoerce
      | _ =>
        obtain ⟨x, -, rfl⟩ := map_readText_eq_ok h
        rfl
    | date =>
      cases v with
      | null | timestamp | date => exact Except.ok.inj h ▸ hcoerce
      | _ =>
        obtain ⟨d, -, rfl⟩ := map_readText_eq_ok h
        rfl
    | time | string | text | json | jsonb | enum | untyped =>
      -- these take every value as it is
      have hsame : v = w := by cases v <;> exact Except.ok.inj h
      exact hsame ▸ hsame ▸ hcoerce
    | _ => cases hkind

/-- What stands in for a value that cannot be read is a value of the type. -/
theorem coerce_of_zero? (h : zero? t = some w) : coerce t w = .ok w := by
  obtain ⟨kind, hkind, rfl⟩ := Option.map_eq_some_iff.mp h
  refine coerce_of_admits hkind (.inr ?_)
  cases kind with
  | decimal => exact ⟨hkind, by decide⟩
  | _ => exact hkind

end ListQuery
