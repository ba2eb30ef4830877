import ListQuery.Proofs.Request.Respelled

/-!
# Filters in any order

The items of one field as its parts, each with an operator or bare, and what they come to part by
part. A bare operand asks for equality. It does so too when operands for operators come after it;
but one that comes after them makes a list of what is there as a record, and of itself.

* `get?_ofItems` — the items of a field are its parts;
* `operandOf_stateAfter`, `operandOf_stateAfter_iff` — what is kept of parts in order;
* `differ_foldl` — states that differ in a record stay different;
* `operandOf_respelled` — a bare operand that is written with its operator.
-/

namespace ListQuery

open Text FilterParams

namespace ItemParams

-- ---------------------------------------------------------------------------
-- The parts of a field
-- ---------------------------------------------------------------------------

/-- What an item says about a field: an operator or none, and an operand. -/
def partFor? (field : String) (item : String × String) : Option (Option String × String) :=
  match filterTarget? item.1 with
  | some (name, op) => if name = field then some (op, item.2) else none
  | none            => none

/-- What items say about a field, in their order. -/
def partsFor (field : String) (items : List (String × String)) : List (Option String × String) :=
  items.filterMap (partFor? field)

/-- What is there of a field after one more part. -/
def addNext (existing : Option FieldFilter) (part : Option String × String) : Option FieldFilter :=
  some (addPart existing part)

/-- What parts leave behind. -/
def stateAfter (parts : List (Option String × String)) : Option FieldFilter :=
  parts.foldl addNext none

theorem stateAfter_concat (parts : List (Option String × String)) (part : Option String × String) :
    stateAfter (parts ++ [part]) = some (addPart (stateAfter parts) part) := by
  simp [stateAfter, addNext]

theorem stateAfter_append (before after : List (Option String × String))
    (part : Option String × String) : stateAfter (before ++ part :: after) =
      after.foldl addNext (some (addPart (stateAfter before) part)) := by
  simp [stateAfter, addNext]

theorem get?_addItem (p : ItemParams) (item : String × String) (field : String) :
    (p.addItem item).filter.get? field =
      (partFor? field item).elim (p.filter.get? field) (addNext (p.filter.get? field)) := by
  obtain ⟨key, v⟩ := item
  unfold partFor?
  cases htarget : filterTarget? key with
  | none => rw [(added_addItem p key v).filter_eq htarget]; rfl
  | some target =>
    obtain ⟨name, op⟩ := target
    rw [addItem_of_target htarget]
    dsimp only
    by_cases hname : name = field
    · subst hname
      rw [Entries.get?_put_self, if_pos rfl]
      rfl
    · rw [Entries.get?_put_of_ne _ _ (Ne.symm hname), if_neg hname]
      rfl

/-- What items leave of a field is what its parts leave. -/
theorem get?_ofItems (items : List (String × String)) (field : String) :
    (ofItems items).filter.get? field = stateAfter (partsFor field items) := by
  have hfold : ∀ p : ItemParams, (items.foldl addItem p).filter.get? field =
      (partsFor field items).foldl addNext (p.filter.get? field) := by
    unfold partsFor
    induction items with
    | nil => exact fun p => rfl
    | cons item items ih =>
      intro p
      rw [List.foldl_cons, ih, get?_addItem, List.filterMap_cons]
      cases partFor? field item <;> rfl
  exact hfold {}

-- ---------------------------------------------------------------------------
-- The operands of a field
-- ---------------------------------------------------------------------------

/-- The operand for an operator; a bare operand is one for equality. -/
def operandOf (state : Option FieldFilter) (op : String) : Option Value :=
  match state with
  | none                  => none
  | some (.byOperator os) => os.get? op
  | some (.bare v)        => if op = "eq" then some v else none

/-- The operand that parameters have of a field for an operator. -/
def operandFor (p : ItemParams) (field op : String) : Option Value :=
  operandOf (p.filter.get? field) op

/-- The texts that parts give for an operator. -/
def valuesFor (op : String) (parts : List (Option String × String)) : List String :=
  (parts.filter fun part => part.1.getD "eq" = op).map (·.2)

/-- Texts as they are kept for one operand, if there are any. -/
def gathered? (ts : List String) : Option Value := if ts = [] then none else some (gathered ts)

/-- No bare operand comes after one for an operator. -/
def BareFirst (parts : List (Option String × String)) : Prop :=
  parts.Pairwise fun earlier later => earlier.1.isSome → later.1.isSome

theorem collect_gathered? (ts : List String) (t : String) :
    some (collect (gathered? ts) (.text t)) = gathered? (ts ++ [t]) := by
  by_cases hts : ts = []
  · subst hts
    rfl
  · simp [gathered?, hts, collect_gathered hts]

theorem operandOf_bare (v : Value) (op : String) :
    operandOf (some (.byOperator [("eq", v)])) op = operandOf (some (.bare v)) op := by
  cases hop : op == "eq" with
  | true => simp [operandOf, Entries.get?, beq_iff_eq.mp hop]
  | false => simp [operandOf, Entries.get?, List.lookup_cons, hop, beq_eq_false_iff_ne.mp hop]

theorem operandOf_addOperand (state : Option FieldFilter) (op v other : String) :
    operandOf (some (addOperand state op v)) other =
      if other = op then some (collect (operandOf state op) (.text v))
      else operandOf state other := by
  have hput (os : Entries Value) (h : ∀ name, os.get? name = operandOf state name) :
      (os.put op (collect (os.get? op) (.text v))).get? other =
        if other = op then some (collect (operandOf state op) (.text v))
        else operandOf state other := by
    rw [← h, ← h]
    split
    case isTrue heq => rw [heq, Entries.get?_put_self]
    case isFalse hne => rw [Entries.get?_put_of_ne _ _ hne]
  match state with
  | none                  => exact hput [] fun _ => rfl
  | some (.byOperator os) => exact hput os fun _ => rfl
  | some (.bare w)        => exact hput [("eq", w)] (operandOf_bare w)

theorem operandOf_addBare (state : Option FieldFilter) (v other : String) :
    operandOf (some (addBare state v)) other =
      if other = "eq" then some (collect (state.map FieldFilter.toValue) (.text v)) else none := rfl

theorem isSome_of_bareFirst_concat {parts : List (Option String × String)}
    {part : Option String × String} (h : BareFirst (parts ++ [part])) :
    BareFirst parts ∧ ∀ earlier ∈ parts, earlier.1.isSome → part.1.isSome := by
  obtain ⟨hparts, -, hpart⟩ := List.pairwise_append.mp h
  exact ⟨hparts, fun earlier hearlier => hpart earlier hearlier part (List.mem_singleton.mpr rfl)⟩

theorem valuesFor_concat (op : String) (parts : List (Option String × String))
    (part : Option String × String) :
    valuesFor op (parts ++ [part]) =
      if part.1.getD "eq" = op then valuesFor op parts ++ [part.2] else valuesFor op parts := by
  unfold valuesFor
  rw [List.filter_append, List.map_append]
  by_cases hop : part.1.getD "eq" = op <;> simp [hop]

/-- As long as no operand for an operator is there, what is there is the operand for equality. -/
theorem toValue_stateAfter {parts : List (Option String × String)}
    (h : ∀ part ∈ parts, part.1 = none) :
    (stateAfter parts).map FieldFilter.toValue = operandOf (stateAfter parts) "eq" := by
  rcases List.eq_nil_or_concat parts with rfl | ⟨init, ⟨op, v⟩, rfl⟩
  · rfl
  · obtain rfl : op = none := h (op, v) (by simp)
    rw [List.concat_eq_append, stateAfter_concat]
    rfl

/-- Parts of which the bare ones come first leave the operands that they give. -/
theorem operandOf_stateAfter {parts : List (Option String × String)} (h : BareFirst parts)
    (op : String) : operandOf (stateAfter parts) op = gathered? (valuesFor op parts) := by
  induction parts using List.reverseRecOn generalizing op with
  | nil => rfl
  | append_singleton parts part ih =>
    obtain ⟨hparts, hpart⟩ := isSome_of_bareFirst_concat h
    rw [stateAfter_concat, valuesFor_concat]
    obtain ⟨_ | o, v⟩ := part
    · have hbare : ∀ earlier ∈ parts, earlier.1 = none := by
        intro earlier hearlier
        by_contra hsome
        exact absurd (hpart earlier hearlier (Option.isSome_iff_ne_none.mpr hsome)) (by simp)
      rw [addPart, operandOf_addBare, toValue_stateAfter hbare, ih hparts "eq", collect_gathered?]
      by_cases hop : op = "eq"
      · subst hop
        simp
      · have hnone : valuesFor op parts = [] := by
          simp only [valuesFor, List.map_eq_nil_iff, List.filter_eq_nil_iff]
          intro part hmem
          simpa [hbare part hmem] using Ne.symm hop
        simp [hop, Ne.symm hop, hnone, gathered?]
    · rw [addPart, operandOf_addOperand, ih hparts, ih hparts, collect_gathered?]
      by_cases hop : op = o
      · subst hop
        simp
      · simp [hop, Ne.symm hop]

/-- For any other operator than equality, what is kept is what comes after the last bare operand. -/
theorem operandOf_stateAfter_of_ne (parts : List (Option String × String)) {op : String}
    (hop : op ≠ "eq") : operandOf (stateAfter parts) op =
      gathered? (valuesFor op (parts.rtakeWhile fun part => part.1.isSome)) := by
  induction parts using List.reverseRecOn with
  | nil => rfl
  | append_singleton parts part ih =>
    rw [stateAfter_concat]
    obtain ⟨_ | o, v⟩ := part
    · rw [List.rtakeWhile_concat_neg _ _ _ (by simp), addPart, operandOf_addBare, if_neg hop]
      rfl
    · rw [List.rtakeWhile_concat_pos _ _ _ (by simp), addPart, operandOf_addOperand,
        valuesFor_concat]
      by_cases ho : op = o
      · subst ho
        rw [if_pos rfl, ih, collect_gathered?]
        simp
      · simp [ho, Ne.symm ho, ih]

-- ---------------------------------------------------------------------------
-- Records among operands
-- ---------------------------------------------------------------------------

/-- An operand that is a list with a record in it. -/
def HoldsRecord (operand : Option Value) : Prop :=
  ∃ vs es, operand = some (.list vs) ∧ .map es ∈ vs

theorem holdsRecord_collect {v : Value} (h : HoldsRecord (some v)) (w : Value) :
    HoldsRecord (some (collect (some v) w)) := by
  obtain ⟨vs, es, hv, hmem⟩ := h
  obtain rfl := Option.some.inj hv
  exact ⟨vs ++ [w], es, rfl, List.mem_append_left _ hmem⟩

theorem holdsRecord_addBare (os : Entries Value) (v : String) :
    HoldsRecord (operandOf (some (addBare (some (.byOperator os)) v)) "eq") :=
  ⟨_, _, rfl, List.mem_cons_self⟩

/-- A record stays where it is. -/
theorem holdsRecord_addPart {state : Option FieldFilter} (h : HoldsRecord (operandOf state "eq"))
    (part : Option String × String) :
    HoldsRecord (operandOf (some (addPart state part)) "eq") := by
  obtain ⟨_ | o, v⟩ := part
  · match state with
    | none                  => obtain ⟨_, _, hnone, -⟩ := h; cases hnone
    | some (.byOperator os) => exact holdsRecord_addBare os v
    | some (.bare w)        => exact holdsRecord_collect h _
  · rw [addPart, operandOf_addOperand]
    split
    case isFalse => exact h
    case isTrue heq =>
      rw [← heq]
      obtain ⟨vs, es, hv, hmem⟩ := h
      rw [hv]
      exact holdsRecord_collect ⟨vs, es, rfl, hmem⟩ _

/-- Where an operand for an operator was given, it is there or a record holds it. -/
theorem byOperator_or_holdsRecord {parts : List (Option String × String)}
    (h : ∃ part ∈ parts, part.1.isSome) :
    (∃ os, stateAfter parts = some (.byOperator os)) ∨
      HoldsRecord (operandOf (stateAfter parts) "eq") := by
  induction parts using List.reverseRecOn with
  | nil => simp at h
  | append_singleton parts part ih =>
    rw [stateAfter_concat]
    obtain ⟨_ | o, v⟩ := part
    · refine .inr ?_
      rcases ih (by simpa using h) with ⟨os, hos⟩ | hrecord
      · rw [hos]
        exact holdsRecord_addBare os v
      · exact holdsRecord_addPart hrecord _
    · exact .inl ⟨_, rfl⟩

/-- A bare operand after one for an operator leaves a record. -/
theorem holdsRecord_stateAfter {parts : List (Option String × String)} (h : ¬BareFirst parts) :
    HoldsRecord (operandOf (stateAfter parts) "eq") := by
  induction parts using List.reverseRecOn with
  | nil => exact absurd List.Pairwise.nil h
  | append_singleton parts part ih =>
    rw [stateAfter_concat]
    by_cases hparts : BareFirst parts
    · obtain ⟨earlier, hmem, hsome, hbare⟩ :
          ∃ earlier ∈ parts, earlier.1.isSome ∧ part.1 = none := by
        by_contra hnone
        refine h (List.pairwise_append.mpr ⟨hparts, List.pairwise_singleton _ _, ?_⟩)
        intro earlier hearlier later hlater hsome
        obtain rfl := List.mem_singleton.mp hlater
        by_contra hbare
        exact hnone ⟨earlier, hearlier, hsome, by simpa using hbare⟩
      rcases byOperator_or_holdsRecord ⟨earlier, hmem, hsome⟩ with ⟨os, hos⟩ | hrecord
      · obtain ⟨op, v⟩ := part
        obtain rfl : op = none := hbare
        rw [hos]
        exact holdsRecord_addBare os v
      · exact holdsRecord_addPart hrecord part
    · exact holdsRecord_addPart (ih hparts) part

theorem not_holdsRecord_gathered? (ts : List String) : ¬HoldsRecord (gathered? ts) := by
  rintro ⟨vs, es, hvs, hmem⟩
  match ts with
  | []          => cases hvs
  | [_]         => cases hvs
  | _ :: _ :: _ =>
    obtain rfl := Value.list.inj (Option.some.inj hvs)
    simp at hmem

/-- The operands that parts give are kept if and only if the bare ones come first. -/
theorem operandOf_stateAfter_iff (parts : List (Option String × String)) :
    (∀ op, operandOf (stateAfter parts) op = gathered? (valuesFor op parts)) ↔
      BareFirst parts := by
  refine ⟨fun h => ?_, operandOf_stateAfter⟩
  by_contra hnot
  exact not_holdsRecord_gathered? _ (h "eq" ▸ holdsRecord_stateAfter hnot)

-- ---------------------------------------------------------------------------
-- States that differ
-- ---------------------------------------------------------------------------

/-- The values that an operand was collected from. -/
def pieces : Option Value → List Value
  | none            => []
  | some (.list vs) => vs
  | some v          => [v]

/-- What can be there before one more text: nothing, an operand that items gave, or a record. -/
def IsGiven (existing : Option Value) : Prop :=
  ∀ v ∈ existing, ListQuery.IsCollected v ∨ ∃ es, v = .map es

theorem pieces_collect (existing : Option Value) (t : String) :
    pieces (some (collect existing (.text t))) = pieces existing ++ [.text t] := by
  match existing with
  | none   => rfl
  | some v => cases v <;> rfl

/-- Values as they are kept for one operand: a single one alone, several in a list. -/
def together : List Value → Option Value
  | []  => none
  | [v] => some v
  | vs  => some (.list vs)

theorem together_pieces {existing : Option Value} (h : IsGiven existing) :
    together (pieces existing) = existing := by
  match existing with
  | none   => rfl
  | some v =>
    rcases h v rfl with hv | ⟨es, rfl⟩
    · cases hv with
      | single t => rfl
      | @several vs hlength _ =>
        match vs with
        | _ :: _ :: _ => rfl
    · rfl

theorem collect_inj {a b : Option Value} (ha : IsGiven a) (hb : IsGiven b) {t : String}
    (h : collect a (.text t) = collect b (.text t)) : a = b := by
  have hpieces : pieces a ++ [.text t] = pieces b ++ [.text t] := by
    rw [← pieces_collect, ← pieces_collect, h]
  rw [← together_pieces ha, ← together_pieces hb, List.append_cancel_right hpieces]

/-- A state that parts can leave behind. -/
def IsLeft (state : Option FieldFilter) : Prop := ∀ f ∈ state, f.IsCollected

theorem isLeft_addPart {state : Option FieldFilter} (h : IsLeft state)
    (part : Option String × String) (hop : ∀ o ∈ part.1, IsName o) :
    IsLeft (some (addPart state part)) := by
  intro f hf
  obtain rfl := Option.some.inj hf
  obtain ⟨_ | o, v⟩ := part
  · exact FieldFilter.isCollected_addBare h v
  · exact FieldFilter.isCollected_addOperand h (hop o rfl) v

theorem isGiven_toValue {state : Option FieldFilter} (h : IsLeft state) :
    IsGiven (state.map FieldFilter.toValue) := by
  match state with
  | none                  => simp [IsGiven]
  | some (.byOperator os) => rintro v ⟨⟩; exact .inr ⟨_, rfl⟩
  | some (.bare w)        => rintro v ⟨⟩; exact .inl (h _ rfl)

theorem isCollected_of_operandOf {state : Option FieldFilter} (h : IsLeft state) {op : String}
    {v : Value} (hv : operandOf state op = some v) : ListQuery.IsCollected v := by
  match state with
  | none                  => cases hv
  | some (.byOperator os) => exact (Entries.Each.get? (h _ rfl).2 hv).2.1
  | some (.bare w)        =>
    obtain ⟨-, hw⟩ := Option.ite_none_right_eq_some.mp hv
    obtain rfl := Option.some.inj hw
    exact h _ rfl

theorem toValue_inj {a b : Option FieldFilter} (ha : IsLeft a) (hb : IsLeft b)
    (h : a.map FieldFilter.toValue = b.map FieldFilter.toValue) : a = b := by
  have hne {v : Value} {os : Entries Value} (hv : IsLeft (some (.bare v))) : v ≠ .record os :=
    IsCollected.ne_map (hv _ rfl) _
  match a, b with
  | none, none => rfl
  | none, some _ | some _, none => cases h
  | some (.byOperator os), some (.byOperator os') =>
    rw [Value.record_injective (Option.some.inj h)]
  | some (.bare v), some (.bare w) => rw [show v = w from Option.some.inj h]
  | some (.byOperator os), some (.bare w) => exact absurd (Option.some.inj h).symm (hne hb)
  | some (.bare v), some (.byOperator os) => exact absurd (Option.some.inj h) (hne ha)

/-- States of which one holds a record and the other does not hold the same. -/
def Differ (a b : Option FieldFilter) : Prop :=
  operandOf a "eq" ≠ operandOf b "eq" ∧
    (HoldsRecord (operandOf a "eq") ∨ HoldsRecord (operandOf b "eq"))

section
variable {a b : Option FieldFilter} (ha : IsLeft a) (hb : IsLeft b)
include ha hb

/-- Different states take a bare operand differently. -/
theorem operandOf_addBare_ne (hne : a ≠ b) (v : String) :
    operandOf (some (addBare a v)) "eq" ≠ operandOf (some (addBare b v)) "eq" := by
  intro h
  rw [operandOf_addBare, operandOf_addBare, if_pos rfl, if_pos rfl] at h
  exact hne (toValue_inj ha hb
    (collect_inj (isGiven_toValue ha) (isGiven_toValue hb) (Option.some.inj h)))

theorem differ_addPart (h : Differ a b) (part : Option String × String) :
    Differ (some (addPart a part)) (some (addPart b part)) := by
  refine ⟨?_, h.2.imp (holdsRecord_addPart · part) (holdsRecord_addPart · part)⟩
  obtain ⟨_ | o, v⟩ := part
  · refine operandOf_addBare_ne ha hb (fun heq => h.1 ?_) v
    rw [heq]
  · rw [addPart, addPart, operandOf_addOperand, operandOf_addOperand]
    split
    case isFalse => exact h.1
    case isTrue heq =>
      subst heq
      intro hcollect
      exact h.1 (collect_inj (fun w hw => .inl (isCollected_of_operandOf ha hw))
        (fun w hw => .inl (isCollected_of_operandOf hb hw)) (Option.some.inj hcollect))

end

/-- States that differ stay different, whatever parts come. -/
theorem differ_foldl {a b : Option FieldFilter} {parts : List (Option String × String)}
    (hparts : ∀ part ∈ parts, ∀ o ∈ part.1, IsName o) (ha : IsLeft a) (hb : IsLeft b)
    (h : Differ a b) : Differ (parts.foldl addNext a) (parts.foldl addNext b) := by
  induction parts generalizing a b with
  | nil => exact h
  | cons part parts ih =>
    obtain ⟨hpart, hrest⟩ := List.forall_mem_cons.mp hparts
    exact ih hrest (isLeft_addPart ha part hpart) (isLeft_addPart hb part hpart)
      (differ_addPart ha hb h part)

theorem isLeft_stateAfter {parts : List (Option String × String)}
    (hparts : ∀ part ∈ parts, ∀ o ∈ part.1, IsName o) : IsLeft (stateAfter parts) := by
  induction parts using List.reverseRecOn with
  | nil => simp [IsLeft, stateAfter]
  | append_singleton parts part ih =>
    obtain ⟨hinit, hpart⟩ := List.forall_mem_append.mp hparts
    rw [stateAfter_concat]
    exact isLeft_addPart (ih hinit) part (hpart part (List.mem_singleton.mpr rfl))

-- ---------------------------------------------------------------------------
-- A bare operand with its operator
-- ---------------------------------------------------------------------------

/-- Whether an operand for an operator was the last to come. -/
def endsWithOperator (parts : List (Option String × String)) : Bool :=
  parts.getLast?.any fun part => part.1.isSome

/-- Whether a bare operand is the first to come. -/
def beginsBare (parts : List (Option String × String)) : Bool :=
  parts.head?.any fun part => part.1.isNone

theorem endsWithOperator_iff (parts : List (Option String × String)) :
    endsWithOperator parts = true ↔ ∃ os, stateAfter parts = some (.byOperator os) := by
  rcases List.eq_nil_or_concat parts with rfl | ⟨init, ⟨_ | o, v⟩, rfl⟩
  · simp [endsWithOperator, stateAfter]
  · rw [List.concat_eq_append, stateAfter_concat]
    simp [endsWithOperator, addPart, addBare]
  · rw [List.concat_eq_append, stateAfter_concat]
    simp [endsWithOperator, addPart, addOperand]

/-- After an operand for an operator, a bare one makes a difference at once. -/
theorem differ_byOperator {os : Entries Value} (h : IsLeft (some (.byOperator os))) (v : String) :
    Differ (some (addPart (some (.byOperator os)) (none, v)))
      (some (addPart (some (.byOperator os)) (some "eq", v))) := by
  refine ⟨?_, .inl (holdsRecord_addBare os v)⟩
  rw [addPart, addPart, operandOf_addOperand, operandOf_addBare, if_pos rfl, if_pos rfl]
  intro hcollect
  have hsame : some (Value.record os) = os.get? "eq" :=
    collect_inj (isGiven_toValue h) (fun w hw => .inl (isCollected_of_operandOf h hw))
      (Option.some.inj hcollect)
  exact IsCollected.ne_map (isCollected_of_operandOf h hsame.symm) _ rfl

/-- Otherwise it is the operand for equality, with or without the operator. -/
theorem exists_addPart_bare {state : Option FieldFilter}
    (h : ¬∃ os, state = some (.byOperator os)) (v : String) :
    ∃ w, addPart state (none, v) = .bare w ∧
      addPart state (some "eq", v) = .byOperator [("eq", w)] := by
  match state with
  | none                  => exact ⟨_, rfl, rfl⟩
  | some (.bare w)        => exact ⟨_, rfl, rfl⟩
  | some (.byOperator os) => exact absurd ⟨os, rfl⟩ h

/-- A bare operand that is written with its operator: the same operands come of it, unless one for
an operator comes before it or a bare one after it. -/
theorem operandOf_respelled {before after : List (Option String × String)} (v : String)
    (hbefore : ∀ part ∈ before, ∀ o ∈ part.1, IsName o)
    (hafter : ∀ part ∈ after, ∀ o ∈ part.1, IsName o) :
    let bare := stateAfter (before ++ (none, v) :: after)
    let spelled := stateAfter (before ++ (some "eq", v) :: after)
    if endsWithOperator before || beginsBare after then Differ bare spelled
    else ∀ op, operandOf bare op = operandOf spelled op := by
  have hleft : IsLeft (stateAfter before) := isLeft_stateAfter hbefore
  have hbare := isLeft_addPart hleft (none, v) (by simp)
  have hspelled := isLeft_addPart hleft (some "eq", v) (by simpa using isName_eq)
  dsimp only
  rw [stateAfter_append, stateAfter_append]
  by_cases hlast : ∃ os, stateAfter before = some (.byOperator os)
  · obtain ⟨os, hos⟩ := hlast
    rw [(endsWithOperator_iff before).mpr ⟨os, hos⟩, Bool.true_or, if_pos rfl]
    refine differ_foldl hafter hbare hspelled ?_
    rw [hos] at hleft ⊢
    exact differ_byOperator hleft v
  · rw [Bool.eq_false_iff.mpr (mt (endsWithOperator_iff before).mp hlast), Bool.false_or]
    obtain ⟨w, hw, hw'⟩ := exists_addPart_bare hlast v
    rw [hw] at hbare ⊢
    rw [hw'] at hspelled ⊢
    match after with
    | []                   => exact fun op => (operandOf_bare w op).symm
    | (some o, t) :: after => exact fun op => rfl
    | (none, t) :: after   =>
      obtain ⟨-, hrest⟩ := List.forall_mem_cons.mp hafter
      have hdiffer : Differ (some (addBare (some (.bare w)) t))
          (some (addBare (some (.byOperator [("eq", w)])) t)) :=
        ⟨operandOf_addBare_ne hbare hspelled (by simp) t, .inr (holdsRecord_addBare _ t)⟩
      rw [List.foldl_cons, List.foldl_cons]
      exact differ_foldl hrest (isLeft_addPart hbare (none, t) (by simp))
        (isLeft_addPart hspelled (none, t) (by simp)) hdiffer

end ItemParams

end ListQuery
