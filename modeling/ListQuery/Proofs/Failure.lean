import Mathlib.Data.List.Forall2
import ListQuery.Failure

/-!
# Work that succeeds, and work that fails

What a succeeding chain of steps consists of: each step succeeded, and a list of steps gave a list of
results, one for each. A chain fails as one of its steps does.

* `bind_eq_ok`, `map_eq_ok` — two steps, and a step whose result is converted;
* `mapM_eq_ok`, `exists_mapM_eq_ok`, `of_foldlM_eq_ok` — a list of steps;
* `Ensures`, `OnlyFails` — what the result of a step is, if there is one, and how it fails if not;
* `bind_map_of_map_eq`, `foldlM_map_of_map_eq` — steps whose results are seen through a map;
* `SameOutcome` — two runs with related results.
-/

namespace ListQuery

variable {α β : Type}

theorem bind_eq_ok {ε : Type} {x : Except ε α} {f : α → Except ε β} {b : β} :
    x >>= f = .ok b ↔ ∃ a, x = .ok a ∧ f a = .ok b := by
  cases x with
  | error e =>
    constructor
    · intro h
      cases h
    · rintro ⟨a, h, -⟩
      cases h
  | ok a =>
    constructor
    · exact fun h => ⟨a, rfl, h⟩
    · rintro ⟨a', h, hb⟩
      obtain rfl := Except.ok.inj h
      exact hb

theorem map_eq_ok {ε : Type} {x : Except ε α} {f : α → β} {b : β} :
    x.map f = .ok b ↔ ∃ a, x = .ok a ∧ f a = b := by
  cases x with
  | error e =>
    constructor
    · intro h
      cases h
    · rintro ⟨a, h, -⟩
      cases h
  | ok a =>
    constructor
    · exact fun h => ⟨a, rfl, Except.ok.inj h⟩
    · rintro ⟨a', h, hb⟩
      obtain rfl := Except.ok.inj h
      exact congrArg Except.ok hb

theorem exists_bind_eq_ok {x : Except Failure α} {f : α → Except Failure β} :
    (∃ b, x >>= f = .ok b) ↔ ∃ a, x = .ok a ∧ ∃ b, f a = .ok b := by
  simp only [bind_eq_ok]
  exact ⟨fun ⟨b, a, ha, hb⟩ => ⟨a, ha, b, hb⟩, fun ⟨a, ha, b, hb⟩ => ⟨b, a, ha, hb⟩⟩

theorem exists_map_eq_ok {x : Except Failure α} {f : α → β} :
    (∃ b, x.map f = .ok b) ↔ ∃ a, x = .ok a := by
  simp only [map_eq_ok]
  exact ⟨fun ⟨_, a, ha, _⟩ => ⟨a, ha⟩, fun ⟨a, ha⟩ => ⟨f a, a, ha, rfl⟩⟩

theorem mapM_eq_ok {ε : Type} {f : α → Except ε β} {l : List α} {rs : List β} :
    l.mapM f = .ok rs ↔ List.Forall₂ (fun a r => f a = .ok r) l rs := by
  induction l generalizing rs with
  | nil =>
    rw [List.mapM_nil, List.forall₂_nil_left_iff]
    exact ⟨fun h => (Except.ok.inj h).symm, fun h => congrArg Except.ok h.symm⟩
  | cons a l ih =>
    rw [List.mapM_cons, List.forall₂_cons_left_iff, bind_eq_ok]
    constructor
    · rintro ⟨r, hr, h⟩
      obtain ⟨rs', hrs, heq⟩ := bind_eq_ok.mp h
      exact ⟨r, rs', hr, ih.mp hrs, (Except.ok.inj heq).symm⟩
    · rintro ⟨r, rs', hr, hrs, rfl⟩
      exact ⟨r, hr, bind_eq_ok.mpr ⟨rs', ih.mpr hrs, rfl⟩⟩

/-- A counterpart for each element of a list. -/
theorem exists_forall₂ {R : α → β → Prop} {l : List α} (h : ∀ a ∈ l, ∃ b, R a b) :
    ∃ bs, List.Forall₂ R l bs := by
  induction l with
  | nil => exact ⟨[], .nil⟩
  | cons a l ih =>
    obtain ⟨⟨b, hb⟩, hl⟩ := List.forall_mem_cons.mp h
    obtain ⟨bs, hbs⟩ := ih hl
    exact ⟨b :: bs, .cons hb hbs⟩

/-- A list of steps succeeds if each of them does. -/
theorem exists_mapM_eq_ok {f : α → Except Failure β} {l : List α} :
    (∃ rs, l.mapM f = .ok rs) ↔ ∀ a ∈ l, ∃ r, f a = .ok r := by
  constructor
  · rintro ⟨rs, hrs⟩
    have hrs := mapM_eq_ok.mp hrs
    clear * - hrs
    induction hrs with
    | nil => exact List.forall_mem_nil _
    | cons hr _ ih => exact List.forall_mem_cons.mpr ⟨⟨_, hr⟩, ih⟩
  · intro h
    obtain ⟨rs, hrs⟩ := exists_forall₂ h
    exact ⟨rs, mapM_eq_ok.mpr hrs⟩

/-- A list of steps fails as one of them does. -/
theorem exists_of_mapM_eq_error {ε : Type} {f : α → Except ε β} {l : List α} {e : ε}
    (h : l.mapM f = .error e) : ∃ a ∈ l, f a = .error e := by
  induction l with
  | nil => cases h
  | cons a l ih =>
    rw [List.mapM_cons] at h
    cases ha : f a with
    | error e' =>
      rw [ha] at h
      cases h
      exact ⟨a, List.mem_cons_self, ha⟩
    | ok b =>
      rw [ha] at h
      cases hl : l.mapM f with
      | error e' =>
        rw [hl] at h
        cases h
        obtain ⟨a', hmem, ha'⟩ := ih hl
        exact ⟨a', List.mem_cons_of_mem a hmem, ha'⟩
      | ok bs =>
        rw [hl] at h
        cases h

theorem exists_of_mem_forall₂ {R : α → β → Prop} {l : List α} {rs : List β}
    (h : List.Forall₂ R l rs) {r : β} (hr : r ∈ rs) : ∃ a ∈ l, R a r := by
  induction h with
  | nil => exact absurd hr List.not_mem_nil
  | @cons a r' l rs har _ ih =>
    rcases List.mem_cons.mp hr with rfl | hr
    · exact ⟨a, List.mem_cons_self, har⟩
    · obtain ⟨a', hmem, hR⟩ := ih hr
      exact ⟨a', List.mem_cons_of_mem a hmem, hR⟩

/-- What every step keeps, said about the elements that are done, holds after all of them. -/
theorem of_foldlM_eq_ok {P : List α → β → Prop} {step : β → α → Except Failure β} {l : List α}
    {b b' : β} (hstep : ∀ a ∈ l, ∀ done b b', P done b → step b a = .ok b' → P (done ++ [a]) b')
    (h : P [] b) (hl : l.foldlM step b = .ok b') : P l b' := by
  suffices hrest : ∀ rest done b, (∀ a ∈ rest, a ∈ l) → P done b →
      rest.foldlM step b = .ok b' → P (done ++ rest) b' from hrest l [] b (fun _ ha => ha) h hl
  intro rest
  induction rest with
  | nil =>
    intro done b _ hdone hb
    rw [List.append_nil]
    exact Except.ok.inj hb ▸ hdone
  | cons a rest ih =>
    intro done b hrest hdone hb
    obtain ⟨ha, hrest⟩ := List.forall_mem_cons.mp hrest
    rw [List.foldlM_cons] at hb
    obtain ⟨mid, hmid, hb⟩ := bind_eq_ok.mp hb
    rw [List.append_cons]
    exact ih (done ++ [a]) mid hrest (hstep a ha done b mid hdone hmid) hb

/-- Steps that all succeed. -/
theorem mapM_ok (f : α → β) (l : List α) :
    l.mapM (fun a => (.ok (f a) : Except Failure β)) = .ok (l.map f) :=
  List.mapM_pure

/-- Steps that succeed where a condition holds, and fail alike elsewhere. -/
theorem mapM_ite (p : α → Prop) [DecidablePred p] (f : α → β) (e : Failure) (l : List α) :
    l.mapM (fun a => if p a then .ok (f a) else .error e) =
      if ∀ a ∈ l, p a then (.ok (l.map f) : Except Failure (List β)) else .error e := by
  induction l with
  | nil => rw [if_pos (List.forall_mem_nil p)]; rfl
  | cons a l ih =>
    rw [List.mapM_cons, ih]
    by_cases ha : p a
    · by_cases hl : ∀ b ∈ l, p b
      · rw [if_pos ha, if_pos hl, if_pos (List.forall_mem_cons.mpr ⟨ha, hl⟩)]
        rfl
      · rw [if_pos ha, if_neg hl, if_neg fun h => hl (List.forall_mem_cons.mp h).2]
        rfl
    · rw [if_neg ha, if_neg fun h => ha (List.forall_mem_cons.mp h).1]
      rfl

-- ---------------------------------------------------------------------------
-- What work gives
-- ---------------------------------------------------------------------------

/-- What the work gives, if it succeeds, is as said. -/
def Ensures (P : α → Prop) (x : Except Failure α) : Prop := ∀ a, x = .ok a → P a

section
variable {P : α → Prop} {Q : β → Prop}

theorem ensures_ok {a : α} (h : P a) : Ensures P (.ok a) := fun _ ha => Except.ok.inj ha ▸ h

theorem ensures_error (e : Failure) : Ensures P (.error e) := by
  intro a h
  cases h

theorem ensures_map {x : Except Failure β} {f : β → α} (h : ∀ b, P (f b)) :
    Ensures P (x.map f) := by
  intro a ha
  obtain ⟨b, -, rfl⟩ := map_eq_ok.mp ha
  exact h b

theorem Ensures.bind {x : Except Failure β} {f : β → Except Failure α} (hx : Ensures Q x)
    (hf : ∀ b, Q b → Ensures P (f b)) : Ensures P (x >>= f) := by
  intro a ha
  obtain ⟨b, hb, hfb⟩ := bind_eq_ok.mp ha
  exact hf b (hx b hb) a hfb

theorem ensures_bind {x : Except Failure β} {f : β → Except Failure α} (h : ∀ b, Ensures P (f b)) :
    Ensures P (x >>= f) := by
  intro a ha
  obtain ⟨b, -, hfb⟩ := bind_eq_ok.mp ha
  exact h b a hfb

end

-- ---------------------------------------------------------------------------
-- How work fails
-- ---------------------------------------------------------------------------

/-- How the work fails, if it does, is as said. -/
def OnlyFails (P : Failure → Prop) (x : Except Failure α) : Prop := ∀ fail, x = .error fail → P fail

section
variable {P Q : Failure → Prop} {x : Except Failure α}

theorem onlyFails_ok (a : α) : OnlyFails P (.ok a : Except Failure α) := by
  intro fail h
  cases h

theorem onlyFails_error {fail : Failure} (h : P fail) :
    OnlyFails P (.error fail : Except Failure α) := fun _ hfail => Except.error.inj hfail ▸ h

theorem OnlyFails.imp (hx : OnlyFails P x) (h : ∀ fail, P fail → Q fail) : OnlyFails Q x :=
  fun fail hfail => h fail (hx fail hfail)

theorem OnlyFails.bind {f : α → Except Failure β} (hx : OnlyFails P x)
    (hf : ∀ a, OnlyFails P (f a)) : OnlyFails P (x >>= f) := by
  intro fail h
  cases x with
  | ok a => exact hf a fail h
  | error e => exact hx fail (congrArg Except.error (Except.error.inj h))

theorem OnlyFails.map (hx : OnlyFails P x) (f : α → β) : OnlyFails P (x.map f) := by
  intro fail h
  cases x with
  | ok a => cases h
  | error e => exact hx fail (congrArg Except.error (Except.error.inj h))

theorem onlyFails_mapM {f : α → Except Failure β} {l : List α} (hf : ∀ a ∈ l, OnlyFails P (f a)) :
    OnlyFails P (l.mapM f) := by
  intro fail h
  obtain ⟨a, hmem, ha⟩ := exists_of_mapM_eq_error h
  exact hf a hmem fail ha

end

-- ---------------------------------------------------------------------------
-- Two runs
-- ---------------------------------------------------------------------------

variable {γ δ : Type}

/-- A step whose result is seen through a map, before steps that go on with what is seen. -/
theorem bind_map_of_map_eq {x : Except Failure α} {f : α → γ} {y : Except Failure γ}
    {k : α → Except Failure β} {l : γ → Except Failure δ} {g : β → δ} (hx : x.map f = y)
    (hk : ∀ a, (k a).map g = l (f a)) : (x >>= k).map g = y >>= l := by
  subst hx
  cases x with
  | error e => rfl
  | ok a => exact hk a

theorem bind_map_congr {x : Except Failure α} {k : α → Except Failure β} {l : α → Except Failure δ}
    {g : β → δ} (hk : ∀ a, (k a).map g = l a) : (x >>= k).map g = x >>= l := by
  cases x with
  | error e => rfl
  | ok a => exact hk a

/-- Two runs whose results are seen through a map as the same. -/
theorem map_eq_map {x y : Except Failure α} {f : α → β} (h : y.map f = x.map f) :
    (∃ e, x = .error e ∧ y = .error e) ∨ ∃ a b, x = .ok a ∧ y = .ok b ∧ f b = f a := by
  cases x with
  | error e =>
    cases y with
    | error e' => exact .inl ⟨e, rfl, congrArg Except.error (Except.error.inj h)⟩
    | ok b => cases h
  | ok a =>
    obtain ⟨b, rfl, hb⟩ := map_eq_ok.mp h
    exact .inr ⟨a, b, rfl, rfl, hb⟩

theorem foldlM_map_of_map_eq {k : β → α → Except Failure β} {l : γ → α → Except Failure γ}
    {f : β → γ} (h : ∀ b a, (k b a).map f = l (f b) a) (as : List α) (b : β) :
    (as.foldlM k b).map f = as.foldlM l (f b) := by
  induction as generalizing b with
  | nil => rfl
  | cons a as ih =>
    rw [List.foldlM_cons, List.foldlM_cons]
    exact bind_map_of_map_eq (h b a) ih

/-- Two runs that fail in the same way, or whose results are related. -/
inductive SameOutcome {ε : Type} (R : α → β → Prop) : Except ε α → Except ε β → Prop
  | error (e : ε) : SameOutcome R (.error e) (.error e)
  | ok {a : α} {b : β} (h : R a b) : SameOutcome R (.ok a) (.ok b)

namespace SameOutcome

variable {ε : Type} {R : α → β → Prop} {S : γ → δ → Prop}

theorem refl {R : α → α → Prop} (h : ∀ a, R a a) (x : Except ε α) : SameOutcome R x x := by
  cases x with
  | error e => exact .error e
  | ok a => exact .ok (h a)

theorem imp {R' : α → β → Prop} {x : Except ε α} {y : Except ε β} (h : SameOutcome R x y)
    (hR : ∀ a b, R a b → R' a b) : SameOutcome R' x y := by
  cases h with
  | error e => exact .error e
  | ok h => exact .ok (hR _ _ h)

theorem bind {x : Except ε α} {y : Except ε β} {f : α → Except ε γ} {g : β → Except ε δ}
    (hx : SameOutcome R x y) (hf : ∀ a b, R a b → SameOutcome S (f a) (g b)) :
    SameOutcome S (x >>= f) (y >>= g) := by
  cases hx with
  | error e => exact .error e
  | ok h => exact hf _ _ h

theorem map {x : Except ε α} {y : Except ε β} {f : α → γ} {g : β → δ} (hx : SameOutcome R x y)
    (hf : ∀ a b, R a b → S (f a) (g b)) : SameOutcome S (x.map f) (y.map g) := by
  cases hx with
  | error e => exact .error e
  | ok h => exact .ok (hf _ _ h)

theorem mapM {l : List α} {l' : List β} {f : α → Except ε γ} {g : β → Except ε δ}
    (hl : List.Forall₂ R l l') (hf : ∀ a b, R a b → SameOutcome S (f a) (g b)) :
    SameOutcome (List.Forall₂ S) (l.mapM f) (l'.mapM g) := by
  induction hl with
  | nil => exact .ok .nil
  | cons hab _ ih =>
    rw [List.mapM_cons, List.mapM_cons]
    exact (hf _ _ hab).bind fun c d hcd => ih.bind fun cs ds hcds => .ok (.cons hcd hcds)

end SameOutcome

end ListQuery
