import ListQuery.Execution.Database
import ListQuery.Proofs.Failure

/-!
# Sessions that succeed

What a session did that gave a result: each of its steps gave one, in the state that the step before
left behind.

* `run_bind`, `run_bind_eq_ok`, `run_map_eq_ok`, `of_run_foldlM` — the steps of a session;
* `run_pureStep`, `run_readRows`, `run_readNumber` — single steps;
* `withConnection_eq_ok` — a whole run.
-/

namespace ListQuery.Database

open Sql

variable {σ α β : Type} {st st' : σ} {a : α} {b : β}

theorem run_bind (x : Session σ α) (f : α → Session σ β) (st : σ) :
    (x >>= f).run st =
      match x.run st with
      | (.ok a, st')    => (f a).run st'
      | (.error e, st') => (.error e, st') := by
  rw [ExceptT.run_bind]
  show StateT.bind x.run _ st = _
  unfold StateT.bind
  generalize x.run st = r
  obtain ⟨r, st'⟩ := r
  cases r <;> rfl

theorem run_bind_eq_ok {x : Session σ α} {f : α → Session σ β} :
    (x >>= f).run st = (.ok b, st') ↔
      ∃ a st₁, x.run st = (.ok a, st₁) ∧ (f a).run st₁ = (.ok b, st') := by
  rw [run_bind]
  constructor
  · intro h
    split at h
    case h_1 a st₁ heq => exact ⟨a, st₁, heq, h⟩
    case h_2 => exact absurd (congrArg Prod.fst h) (fun h => by cases h)
  · rintro ⟨a, st₁, hx, hf⟩
    rw [hx]
    exact hf

theorem run_map_eq_ok {x : Session σ α} {f : α → β} :
    (f <$> x).run st = (.ok b, st') ↔ ∃ a, x.run st = (.ok a, st') ∧ f a = b := by
  rw [← bind_pure_comp, run_bind_eq_ok]
  constructor
  · rintro ⟨a, st₁, hx, h⟩
    obtain ⟨hb, rfl⟩ := Prod.mk.inj h
    exact ⟨a, hx, Except.ok.inj hb⟩
  · rintro ⟨a, hx, rfl⟩
    exact ⟨a, st', hx, rfl⟩

theorem run_pure (a : α) (st : σ) : (pure a : Session σ α).run st = (.ok a, st) := rfl

/-- What every step keeps, said about the elements that are done, holds after all of them. -/
theorem of_run_foldlM {P : List α → β → σ → Prop} {step : β → α → Session σ β} {l : List α}
    {b b' : β}
    (hstep : ∀ a ∈ l, ∀ done b b' st st', P done b st → (step b a).run st = (.ok b', st') →
      P (done ++ [a]) b' st')
    (h : P [] b st) (hrun : (l.foldlM step b).run st = (.ok b', st')) : P l b' st' := by
  suffices hrest : ∀ rest done b st, (∀ a ∈ rest, a ∈ l) → P done b st →
      (rest.foldlM step b).run st = (.ok b', st') → P (done ++ rest) b' st' from
    hrest l [] b st (fun _ ha => ha) h hrun
  intro rest
  induction rest with
  | nil =>
    intro done b st _ hdone hb
    obtain ⟨hok, rfl⟩ := Prod.mk.inj hb
    rw [List.append_nil]
    exact Except.ok.inj hok ▸ hdone
  | cons a rest ih =>
    intro done b st hrest hdone hb
    obtain ⟨ha, hrest⟩ := List.forall_mem_cons.mp hrest
    rw [List.foldlM_cons, run_bind_eq_ok] at hb
    obtain ⟨mid, st₁, hmid, hb⟩ := hb
    rw [List.append_cons]
    exact ih (done ++ [a]) mid st₁ hrest (hstep a ha done b mid st st₁ hdone hmid) hb

theorem run_pureStep (r : Except Failure α) (st : σ) : (pureStep r : Session σ α).run st = (r, st) :=
  rfl

theorem run_pureStep_bind_eq_ok {r : Except Failure α} {f : α → Session σ β} :
    (pureStep r >>= f).run st = (.ok b, st') ↔ ∃ a, r = .ok a ∧ (f a).run st = (.ok b, st') := by
  rw [run_bind_eq_ok]
  constructor
  · rintro ⟨a, st₁, h, hf⟩
    obtain ⟨rfl, rfl⟩ := Prod.mk.inj h
    exact ⟨a, rfl, hf⟩
  · rintro ⟨a, rfl, hf⟩
    exact ⟨a, st, rfl, hf⟩

variable (db : Database σ)

/-- Only a statement that can be written reaches the database. -/
theorem run_readRows (s : Statement) (st : σ) :
    (db.readRows s).run st =
      match s.check with
      | .ok ()   => db.rows s st
      | .error e => (.error e, st) := by
  rw [readRows, run_bind, run_pureStep]
  cases s.check <;> rfl

theorem run_readNumber (s : Statement) (st : σ) :
    (db.readNumber s).run st =
      match s.check with
      | .ok ()   => db.number s st
      | .error e => (.error e, st) := by
  rw [readNumber, run_bind, run_pureStep]
  cases s.check <;> rfl

/-- A run that gave a result is work that gave it on the open connection. -/
theorem withConnection_eq_ok {table : String} {work : Session σ α} :
    db.withConnection table work st = (.ok a, st') ↔
      ∃ st₁, work.run (db.connect st) = (.ok a, st₁) ∧ st' = db.close st₁ := by
  rw [withConnection]
  generalize work.run (db.connect st) = r
  obtain ⟨r, st₁⟩ := r
  constructor
  · intro h
    obtain ⟨hr, hst⟩ := Prod.mk.inj h
    cases r with
    | error e => cases hr
    | ok a' => exact ⟨st₁, Prod.ext hr rfl, hst.symm⟩
  · rintro ⟨st₂, h, rfl⟩
    obtain ⟨rfl, rfl⟩ := Prod.mk.inj h
    rfl

end ListQuery.Database
