import ListQuery.Proofs.Request.Keys

/-!
# Parameters that a link can repeat

What items leave behind can be written as items again: names come back from between brackets, an
operand is one text or a list of texts, and texts that say nothing are not kept. A bare operand
after one for an operator is the only thing that spoils this, since it makes a list of a record and
a text; so the items are assumed to have none.

* `Added.isRepeatable` — one item;
* `isRepeatable_ofItems` — all items.
-/

namespace ListQuery

open Text FilterParams

-- ---------------------------------------------------------------------------
-- Operands
-- ---------------------------------------------------------------------------

/-- The texts that were given for one operand: a single one alone, several in a list. -/
def gathered : List String → Value
  | [t] => .text t
  | ts  => .list (ts.map .text)

theorem collect_gathered {ts : List String} (hne : ts ≠ []) (t : String) :
    ItemParams.collect (some (gathered ts)) (.text t) = gathered (ts ++ [t]) := by
  match ts with
  | []          => exact absurd rfl hne
  | [_]         => rfl
  | _ :: _ :: _ => simp [gathered, ItemParams.collect]

def IsGathered (v : Value) : Prop := ∃ ts ≠ [], v = gathered ts

theorem isGathered_collect {existing : Option Value} (h : ∀ v ∈ existing, IsGathered v)
    (t : String) : IsGathered (ItemParams.collect existing (.text t)) := by
  cases existing with
  | none => exact ⟨[t], List.cons_ne_nil _ _, rfl⟩
  | some v =>
    obtain ⟨ts, hne, rfl⟩ := h v rfl
    exact ⟨ts ++ [t], by simp, collect_gathered hne t⟩

/-- Operands under the names of operators. -/
def AreOperands (os : Entries Value) : Prop := os.Each fun op v => IsName op ∧ IsGathered v

theorem AreOperands.put {os : Entries Value} (h : AreOperands os) {op : String} (hop : IsName op)
    (t : String) :
    AreOperands (os.put op (ItemParams.collect (os.get? op) (.text t))) :=
  Entries.Each.put h ⟨hop, isGathered_collect (fun _ hv => (Entries.Each.get? h hv).2) t⟩

namespace FieldFilter

def IsRepeatable : FieldFilter → Prop
  | .byOperator os => os ≠ [] ∧ AreOperands os
  | .bare v        => IsGathered v

end FieldFilter

namespace ItemParams

theorem isName_eq : IsName "eq" := ⟨by decide, by decide⟩

section
variable {existing : Option FieldFilter} (h : ∀ f ∈ existing, f.IsRepeatable)
include h

theorem isRepeatable_addOperand {op : String} (hop : IsName op) (t : String) :
    (addOperand existing op t).IsRepeatable := by
  refine ⟨Entries.put_ne_nil _, AreOperands.put ?_ hop t⟩
  match existing with
  | none                  => exact Entries.each_nil
  | some (.byOperator os) => exact (h _ rfl).2
  | some (.bare w)        => exact Entries.Each.put Entries.each_nil ⟨isName_eq, h _ rfl⟩

theorem isRepeatable_addBare (hbare : ∀ os, existing ≠ some (.byOperator os)) (t : String) :
    (addBare existing t).IsRepeatable := by
  refine isGathered_collect (fun v hv => ?_) t
  match existing with
  | none                  => cases hv
  | some (.byOperator os) => exact absurd rfl (hbare os)
  | some (.bare w)        =>
    obtain rfl := Option.some.inj hv
    exact h _ rfl

end

/-- Parameters that items have left behind, and that can be written as items again. -/
structure IsRepeatable (p : ItemParams) : Prop where
  filter : p.filter.Each fun field f => IsName field ∧ field ≠ "" ∧ f.IsRepeatable
  fields : p.fields.Each fun key _ => IsPlain key
  append : p.append.Each fun key _ => IsPlain key
  paging : ∀ mode ∈ p.paging, mode = "cursor" ∨ mode = "offset"
  search : p.search ≠ some ""

variable {p : ItemParams}

theorem isRepeatable_empty : IsRepeatable {} where
  filter := Entries.each_nil
  fields := Entries.each_nil
  append := Entries.each_nil
  paging := by simp
  search := by simp

theorem nonEmpty_ne_blank (v : String) : nonEmpty v ≠ some "" := by
  unfold nonEmpty
  split <;> simp_all

theorem isRepeatable_addNumber (h : p.IsRepeatable) (name v : String) {put : Int → ItemParams}
    (hput : ∀ n, (put n).IsRepeatable) : (p.addNumber name v put).IsRepeatable := by
  unfold addNumber
  split
  · exact hput _
  · exact { h with }

theorem isRepeatable_addPlain (h : p.IsRepeatable) (name v : String) :
    (p.addPlain name v).IsRepeatable := by
  unfold addPlain
  dsimp only
  split_ifs with _ _ _ _ _ hmode
  · exact { h with }
  · exact { h with }
  · exact isRepeatable_addNumber h _ _ fun _ => { h with }
  · exact isRepeatable_addNumber h _ _ fun _ => { h with }
  · refine { h with paging := fun mode hm => ?_ }
    obtain rfl := Option.some.inj hm
    exact hmode
  · exact { h with }
  · exact { h with }
  · exact { h with search := nonEmpty_ne_blank v }
  · exact h

-- ---------------------------------------------------------------------------
-- One item
-- ---------------------------------------------------------------------------

/-- A bare operand does not come to a field that has operands for operators. -/
def Fits (p : ItemParams) (key : String) : Prop :=
  ∀ field os, filterTarget? key = some (field, none) → p.filter.get? field ≠ some (.byOperator os)

/-- A parameter without brackets has nothing to do with filters. -/
theorem addPlain_unfiltered (p : ItemParams) (name v : String) :
    { p.addPlain name v with filter := [] } = { p with filter := [] }.addPlain name v := by
  have hnumber : ∀ {put put' : Int → ItemParams} (field : String),
      (∀ n, { put n with filter := [] } = put' n) →
      { p.addNumber field v put with filter := [] } =
        { p with filter := [] }.addNumber field v put' := by
    intro put put' field hput
    unfold addNumber
    split
    · exact hput _
    · rfl
  unfold addPlain
  dsimp only
  split_ifs
  · rfl
  · rfl
  · exact hnumber _ fun _ => rfl
  · exact hnumber _ fun _ => rfl
  all_goals rfl

/-- One item keeps what holds of every filter, if its operand does. -/
theorem Added.each_filter {P : FieldFilter → Prop} {q : ItemParams} {key v : String}
    (hadded : Added p key v q)
    (h : p.filter.Each fun field f => IsName field ∧ field ≠ "" ∧ P f)
    (hbare : ∀ field, filterTarget? key = some (field, none) →
      (∀ f ∈ p.filter.get? field, P f) → P (addBare (p.filter.get? field) v))
    (hoperand : ∀ field op, IsName op →
      (∀ f ∈ p.filter.get? field, P f) → P (addOperand (p.filter.get? field) op v)) :
    q.filter.Each fun field f => IsName field ∧ field ≠ "" ∧ P f := by
  cases hadded with
  | @filtered field op htarget =>
    obtain ⟨hfield, hne, hop⟩ := isName_of_target htarget
    have hexisting : ∀ f ∈ p.filter.get? field, P f :=
      fun f hf => (Entries.Each.get? h hf).2.2
    have hpart : P (addPart (p.filter.get? field) (op, v)) := by
      cases op with
      | none => exact hbare field htarget hexisting
      | some o => exact hoperand field o (hop o rfl) hexisting
    exact Entries.Each.put h ⟨hfield, hne, hpart⟩
  | plain _ name =>
    rw [filter_addPlain]
    exact h
  | warned | fields | append => exact h

/-- One item keeps the parameters beside the filters repeatable. -/
theorem Added.others {q : ItemParams} {key v : String} (hadded : Added p key v q)
    (h : IsRepeatable { p with filter := [] }) : IsRepeatable { q with filter := [] } := by
  cases hadded with
  | filtered | warned => exact { h with }
  | plain _ name =>
    rw [addPlain_unfiltered]
    exact isRepeatable_addPlain h name v
  | fields _ hinner => exact { h with fields := Entries.Each.put h.fields hinner }
  | append _ hinner => exact { h with append := Entries.Each.put h.append hinner }

theorem Added.isRepeatable {q : ItemParams} {key v : String} (hadded : Added p key v q)
    (h : p.IsRepeatable) (hfits : p.Fits key) : q.IsRepeatable :=
  { hadded.others { h with filter := Entries.each_nil } with
    filter := hadded.each_filter h.filter
      (fun field htarget hexisting =>
        isRepeatable_addBare hexisting (fun os => hfits field os htarget) v)
      fun _ _ hop hexisting => isRepeatable_addOperand hexisting hop v }

/-- Operands for operators are there because some item gave one. -/
theorem byOperator_addItem {key v field : String} {os : Entries Value}
    (h : (p.addItem (key, v)).filter.get? field = some (.byOperator os)) :
    (∃ os', p.filter.get? field = some (.byOperator os')) ∨
      ∃ op, filterTarget? key = some (field, some op) := by
  cases htarget : filterTarget? key with
  | none =>
    rw [(added_addItem p key v).filter_eq htarget] at h
    exact .inl ⟨os, h⟩
  | some target =>
    obtain ⟨f, op⟩ := target
    rw [addItem_of_target htarget] at h
    dsimp only at h
    by_cases hfield : field = f
    · subst hfield
      cases op with
      | none =>
        rw [Entries.get?_put_self] at h
        cases h
      | some o => exact .inr ⟨o, rfl⟩
    · rw [Entries.get?_put_of_ne _ _ hfield] at h
      exact .inl ⟨os, h⟩

-- ---------------------------------------------------------------------------
-- All items
-- ---------------------------------------------------------------------------

/-- No field receives a bare operand after one for an operator; the other order is fine. -/
def IsOrderly (items : List (String × String)) : Prop :=
  items.Pairwise fun earlier later => ∀ target ∈ filterTarget? earlier.1,
    target.2.isSome → filterTarget? later.1 ≠ some (target.1, none)

instance (items : List (String × String)) : Decidable (IsOrderly items) :=
  inferInstanceAs (Decidable (items.Pairwise _))

theorem isRepeatable_foldl {items : List (String × String)} (h : p.IsRepeatable)
    (hfits : ∀ item ∈ items, p.Fits item.1) (horderly : IsOrderly items) :
    (items.foldl addItem p).IsRepeatable := by
  induction items generalizing p with
  | nil => exact h
  | cons item items ih =>
    obtain ⟨hitem, hitems⟩ := List.forall_mem_cons.mp hfits
    obtain ⟨hafter, hrest⟩ := List.pairwise_cons.mp horderly
    have hstep : (p.addItem item).IsRepeatable := (added_addItem p _ _).isRepeatable h hitem
    refine ih hstep (fun later hlater field os htarget hget => ?_) hrest
    rcases byOperator_addItem hget with ⟨os', hos⟩ | ⟨op, hop⟩
    · exact hitems later hlater field os' htarget hos
    · exact hafter later hlater (field, some op) hop rfl htarget

/-- The parameters that orderly items spell. -/
theorem isRepeatable_ofItems {items : List (String × String)} (h : IsOrderly items) :
    (ofItems items).IsRepeatable := by
  have hfold : (items.foldl addItem {}).IsRepeatable :=
    isRepeatable_foldl isRepeatable_empty (fun _ _ _ _ _ hget => nomatch hget) h
  exact { hfold with }

end ItemParams

end ListQuery
