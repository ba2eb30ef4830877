import ListQuery.Proofs.Failure
import ListQuery.Sql.Text

/-!
# Statements of one form

Two statements are alike if they differ in their bound values at most, which stand in a relation. They
are written as the same text, and with values that stand in that relation one by one: what is bound
never reaches the text, nor does it decide what is written.

* `Predicate.Alike`, `Statement.Alike` — conditions and statements of one form;
* `pieces_alike` — conditions of one form are written as pieces of one form;
* `Statement.Alike.outline_eq`, `Statement.Alike.write` — texts and values.
-/

namespace ListQuery.Sql

variable (R : Value → Value → Prop)

-- ---------------------------------------------------------------------------
-- Forms
-- ---------------------------------------------------------------------------

structure Bind.Alike (b b' : Bind) : Prop where
  type_eq : b.type = b'.type
  value   : R b.value b'.value

/-- Lists of values for one comparison. Values without a type may be rows, whose form depends on
them. -/
inductive BindList.Alike : BindList → BindList → Prop
  | refl (l : BindList) : BindList.Alike l l
  | values {vs vs' : List Value} {t : ColumnType} (ht : t ≠ .untyped)
      (h : List.Forall₂ R vs vs') : BindList.Alike ⟨vs, t⟩ ⟨vs', t⟩

mutual

/-- Conditions that differ in their bound values at most. -/
inductive Predicate.Alike : Predicate → Predicate → Prop
  | refl (p : Predicate) : Predicate.Alike p p
  | compare (e : Expr) (op : Comparison) {v v' : Bind} (h : v.Alike R v') :
      Predicate.Alike (.compare e op v) (.compare e op v')
  | between (e : Expr) (negated : Bool) {low low' high high' : Bind} (hlow : low.Alike R low')
      (hhigh : high.Alike R high') :
      Predicate.Alike (.between e negated low high) (.between e negated low' high')
  | member (e : Expr) (negated : Bool) {l l' : BindList} (h : l.Alike R l') :
      Predicate.Alike (.member e negated l) (.member e negated l')
  | like (e : Expr) (caseless negated : Bool) {v v' : Bind} (h : v.Alike R v') :
      Predicate.Alike (.like e caseless negated v) (.like e caseless negated v')
  | affix (e : Expr) (kind : Affix) {s s' : String}
      (h : R (.text (escapePattern s)) (.text (escapePattern s'))) :
      Predicate.Alike (.affix e kind s) (.affix e kind s')
  | fullText (e : Expr) {v v' : Bind} (h : v.Alike R v') :
      Predicate.Alike (.fullText e v) (.fullText e v')
  | all {ps ps' : List Predicate} (h : Predicate.AllAlike ps ps') :
      Predicate.Alike (.all ps) (.all ps')
  | any {ps ps' : List Predicate} (h : Predicate.AllAlike ps ps') :
      Predicate.Alike (.any ps) (.any ps')

inductive Predicate.AllAlike : List Predicate → List Predicate → Prop
  | nil : Predicate.AllAlike [] []
  | cons {p p' : Predicate} {ps ps' : List Predicate} (h : Predicate.Alike p p')
      (hs : Predicate.AllAlike ps ps') : Predicate.AllAlike (p :: ps) (p' :: ps')

end

inductive Piece.Alike : Piece → Piece → Prop
  | text (s : String) : Piece.Alike (.text s) (.text s)
  | bound (stem : String) {b b' : Bind} (h : b.Alike R b') :
      Piece.Alike (.bound stem b) (.bound stem b')
  | boundList (stem : String) (negated : Bool) {l l' : BindList} (h : l.Alike R l') :
      Piece.Alike (.boundList stem negated l) (.boundList stem negated l')
  | path (stem : String) (keys : List String) : Piece.Alike (.path stem keys) (.path stem keys)

/-- Statements that differ in the bound values of their conditions at most. -/
structure Statement.Alike (st st' : Statement) : Prop where
  projection : st.projection = st'.projection
  table      : st.table = st'.table
  joins      : st.joins = st'.joins
  conditions : Predicate.AllAlike R st.conditions st'.conditions
  order      : st.order = st'.order
  limit      : st.limit = st'.limit
  offset     : st.offset = st'.offset

/-- Texts that are the same, with values that stand in the relation. -/
structure Written.Alike (w w' : Written) : Prop where
  text_eq : w.text = w'.text
  values  : List.Forall₂ R w.values w'.values

variable {R}

-- ---------------------------------------------------------------------------
-- Lists of conditions
-- ---------------------------------------------------------------------------

theorem allAlike_iff {ps ps' : List Predicate} :
    Predicate.AllAlike R ps ps' ↔ List.Forall₂ (Predicate.Alike R) ps ps' := by
  constructor
  · intro h
    induction ps generalizing ps' with
    | nil =>
      cases h
      exact .nil
    | cons p ps ih =>
      cases h with
      | cons h hs => exact .cons h (ih hs)
  · intro h
    induction h with
    | nil => exact .nil
    | cons h _ ih => exact .cons h ih

theorem allAlike_refl (ps : List Predicate) : Predicate.AllAlike R ps ps :=
  allAlike_iff.mpr (List.forall₂_same.mpr fun p _ => .refl p)

theorem length_eq_of_allAlike {ps ps' : List Predicate} (h : Predicate.AllAlike R ps ps') :
    ps.length = ps'.length := (allAlike_iff.mp h).length_eq

theorem allAlike_append {ps ps' qs qs' : List Predicate} (h : Predicate.AllAlike R ps ps')
    (h' : Predicate.AllAlike R qs qs') : Predicate.AllAlike R (ps ++ qs) (ps' ++ qs') :=
  allAlike_iff.mpr (List.rel_append (allAlike_iff.mp h) (allAlike_iff.mp h'))

theorem conjuncts_alike {p p' : Predicate} (h : p.Alike R p') :
    Predicate.AllAlike R p.conjuncts p'.conjuncts := by
  have hself : Predicate.AllAlike R [p] [p'] := .cons h .nil
  cases h with
  | refl => exact allAlike_refl _
  | all h => exact h
  | _ => exact hself

theorem disjuncts_alike {p p' : Predicate} (h : p.Alike R p') :
    Predicate.AllAlike R p.disjuncts p'.disjuncts := by
  have hself : Predicate.AllAlike R [p] [p'] := .cons h .nil
  cases h with
  | refl => exact allAlike_refl _
  | any h => exact h
  | _ => exact hself

theorem flatMap_alike {f : Predicate → List Predicate} {ps ps' : List Predicate}
    (hf : ∀ {p p' : Predicate}, p.Alike R p' → Predicate.AllAlike R (f p) (f p'))
    (h : Predicate.AllAlike R ps ps') : Predicate.AllAlike R (ps.flatMap f) (ps'.flatMap f) := by
  induction ps generalizing ps' with
  | nil =>
    cases h
    exact .nil
  | cons p ps ih =>
    cases h with
    | cons h hs =>
      rw [List.flatMap_cons, List.flatMap_cons]
      exact allAlike_append (hf h) (ih hs)

/-- Disjunctions of conditions of one form. -/
theorem disj_alike {ps ps' : List Predicate} (h : Predicate.AllAlike R ps ps') :
    (Predicate.disj ps).Alike R (Predicate.disj ps') := by
  have hflat := flatMap_alike disjuncts_alike h
  unfold Predicate.disj
  generalize ps.flatMap Predicate.disjuncts = qs at hflat
  generalize ps'.flatMap Predicate.disjuncts = qs' at hflat
  cases hflat with
  | nil => exact .any .nil
  | cons h hs =>
    cases hs with
    | nil => exact h
    | cons h' hs => exact .any (.cons h (.cons h' hs))

-- ---------------------------------------------------------------------------
-- Pieces
-- ---------------------------------------------------------------------------

section
variable {ps ps' qs qs' : List Piece}

theorem separated_alike {parts parts' : List (List Piece)} (sep : String)
    (h : List.Forall₂ (List.Forall₂ (Piece.Alike R)) parts parts') :
    List.Forall₂ (Piece.Alike R) (separated sep parts) (separated sep parts') := by
  induction h with
  | nil => exact .nil
  | cons hpart hparts ih =>
    cases hparts with
    | nil => simpa [separated] using hpart
    | cons hnext hrest =>
      simp only [separated, List.intercalate_cons_cons] at ih ⊢
      exact List.rel_append (List.rel_append hpart (.cons (.text sep) .nil)) ih

theorem wrapped_alike (when : Bool) (h : List.Forall₂ (Piece.Alike R) ps ps') :
    List.Forall₂ (Piece.Alike R) (wrapped when ps) (wrapped when ps') := by
  cases when with
  | false => exact h
  | true => exact .cons (.text "(") (List.rel_append h (.cons (.text ")") .nil))

theorem lowered_alike (h : List.Forall₂ (Piece.Alike R) ps ps') :
    List.Forall₂ (Piece.Alike R) (lowered ps) (lowered ps') :=
  .cons (.text "lower(") (List.rel_append h (.cons (.text ")") .nil))

end

section
variable (hR : ∀ v, R v v)

include hR

theorem Bind.alike_refl (b : Bind) : b.Alike R b := ⟨rfl, hR b.value⟩

theorem Piece.alike_refl (p : Piece) : p.Alike R p := by
  cases p with
  | text s => exact .text s
  | bound stem b => exact .bound stem (b.alike_refl hR)
  | boundList stem negated l => exact .boundList stem negated (.refl l)
  | path stem keys => exact .path stem keys

theorem pieces_refl (ps : List Piece) : List.Forall₂ (Piece.Alike R) ps ps :=
  List.forall₂_same.mpr fun p _ => p.alike_refl hR

variable (d : Dialect)

theorem affixPieces_alike (place : Place) (e : Expr) (kind : Affix) {s s' : String}
    (h : R (.text (escapePattern s)) (.text (escapePattern s'))) :
    List.Forall₂ (Piece.Alike R) (affixPieces d place e kind s) (affixPieces d place e kind s') := by
  have hvalue : List.Forall₂ (Piece.Alike R)
      [.bound e.bindStem ⟨.text (escapePattern s), .string⟩]
      [.bound e.bindStem ⟨.text (escapePattern s'), .string⟩] := .cons (.bound _ ⟨rfl, h⟩) .nil
  have hpattern : List.Forall₂ (Piece.Alike R) (affixPattern d e.bindStem kind s)
      (affixPattern d e.bindStem kind s') := by
    unfold affixPattern
    refine List.rel_append (List.rel_append (List.rel_append (pieces_refl hR _) ?_)
      (pieces_refl hR _)) (pieces_refl hR _)
    cases d with
    | sqlite => exact lowered_alike hvalue
    | postgresql => exact hvalue
  unfold affixPieces
  cases d with
  | sqlite => exact List.rel_append (pieces_refl hR _) (.cons (.text _) hpattern)
  | postgresql => exact List.rel_append (pieces_refl hR _) (.cons (.text _) hpattern)

theorem likePieces_alike (e : List Piece) (caseless negated : Bool) {ps ps' : List Piece}
    (h : List.Forall₂ (Piece.Alike R) ps ps') :
    List.Forall₂ (Piece.Alike R) (likePieces d e caseless negated ps)
      (likePieces d e caseless negated ps') := by
  unfold likePieces
  cases caseless with
  | false => exact List.rel_append (pieces_refl hR e) (.cons (.text _) h)
  | true =>
    cases d with
    | sqlite => exact List.rel_append (pieces_refl hR _) (.cons (.text _) (lowered_alike h))
    | postgresql => exact List.rel_append (pieces_refl hR e) (.cons (.text _) h)

end

mutual

/-- Conditions of one form are written as pieces of one form, wherever they stand. -/
theorem pieces_alike (hR : ∀ v, R v v) (d : Dialect) :
    ∀ {p p' : Predicate} (place : Place), p.Alike R p' →
      List.Forall₂ (Piece.Alike R) (p.pieces d place) (p'.pieces d place)
  | _, _, place, .refl p => pieces_refl hR _
  | _, _, place, .compare e op h => by
    unfold Predicate.pieces
    exact List.rel_append (pieces_refl hR _) (.cons (.text _) (.cons (.bound _ h) .nil))
  | _, _, place, .between e negated hlow hhigh => by
    unfold Predicate.pieces
    exact List.rel_append (pieces_refl hR _)
      (.cons (.text _) (.cons (.bound _ hlow) (.cons (.text _) (.cons (.bound _ hhigh) .nil))))
  | _, _, place, .member e negated h => by
    unfold Predicate.pieces memberPieces
    exact wrapped_alike _ (List.rel_append (pieces_refl hR _)
      (.cons (.text _) (.cons (.boundList _ _ h) .nil)))
  | _, _, place, .like e caseless negated h => by
    unfold Predicate.pieces
    exact likePieces_alike hR d _ caseless negated (.cons (.bound _ h) .nil)
  | _, _, place, .affix e kind h => by
    unfold Predicate.pieces
    exact wrapped_alike _ (affixPieces_alike hR d place e kind h)
  | _, _, place, .fullText e h => by
    unfold Predicate.pieces
    cases d with
    | sqlite => exact List.rel_append (pieces_refl hR _) (.cons (.text _) (.cons (.bound _ h) .nil))
    | postgresql =>
      exact List.rel_append (pieces_refl hR _)
        (.cons (.text _) (.cons (.bound _ h) (.cons (.text _) .nil)))
  | _, _, place, .all h => by
    unfold Predicate.pieces
    have hlength := length_eq_of_allAlike h
    rw [memberPlace, hlength]
    exact separated_alike _ (listPieces_alike hR d _ h)
  | _, _, place, .any h => by
    unfold Predicate.pieces
    have hlength := length_eq_of_allAlike h
    rw [memberPlace, hlength]
    exact wrapped_alike _ (separated_alike _ (listPieces_alike hR d _ h))

theorem listPieces_alike (hR : ∀ v, R v v) (d : Dialect) :
    ∀ {ps ps' : List Predicate} (place : Place), Predicate.AllAlike R ps ps' →
      List.Forall₂ (List.Forall₂ (Piece.Alike R)) (Predicate.listPieces d place ps)
        (Predicate.listPieces d place ps')
  | _, _, _,     .nil       => .nil
  | _, _, place, .cons h hs => .cons (pieces_alike hR d place h) (listPieces_alike hR d place hs)

end

-- ---------------------------------------------------------------------------
-- Texts and values
-- ---------------------------------------------------------------------------

section
variable (hR : ∀ v, R v v) (d : Dialect)

include hR in
theorem Written.alike_refl (w : Written) : w.Alike R w :=
  ⟨rfl, List.forall₂_same.mpr fun v _ => hR v⟩

theorem concat_alike {ws ws' : List Written} (h : List.Forall₂ (Written.Alike R) ws ws') :
    (Written.concat ws).Alike R (Written.concat ws') := by
  have htexts : ws.map (·.text) = ws'.map (·.text) := by
    induction h with
    | nil => rfl
    | cons hw _ ih => rw [List.map_cons, List.map_cons, hw.text_eq, ih]
  refine ⟨congrArg String.join htexts, ?_⟩
  induction h with
  | nil => exact .nil
  | cons hw _ ih => exact List.rel_append hw.values (ih (List.cons.inj htexts).2)

theorem areRows_of_typed {vs : List Value} {t : ColumnType} (ht : t ≠ .untyped) :
    (BindList.mk vs t).areRows = false := by
  unfold BindList.areRows
  split
  case h_1 htype _ => exact absurd htype ht
  case h_2 => rfl

include hR in
theorem BindList.write_alike {l l' : BindList} (h : l.Alike R l') (name : String) (negated : Bool) :
    SameOutcome (Written.Alike R) (l.write d name negated) (l'.write d name negated) := by
  cases h with
  | refl => exact .refl (Written.alike_refl hR) _
  | @values vs vs' t ht hvs =>
    have hempty : vs.isEmpty = vs'.isEmpty := by cases hvs <;> rfl
    have hlength := hvs.length_eq
    unfold write
    rw [areRows_of_typed ht, areRows_of_typed ht]
    dsimp only
    rw [hempty]
    split
    · exact .ok ⟨rfl, .nil⟩
    split
    · exact .ok ⟨rfl, .nil⟩
    · refine .ok ⟨congrArg parenthesized ?_, hvs⟩
      -- a placeholder depends on the type of its value, which all have in common
      have hplaceholders : ∀ vs : List Value, (BindList.mk vs t).binds.map (Bind.placeholder d) =
          List.replicate vs.length (Bind.placeholder d ⟨.null, t⟩) := by
        intro vs
        rw [binds, List.map_map, ← List.map_const']
        rfl
      rw [hplaceholders, hplaceholders, hlength]

include hR in
theorem Piece.write_alike {p p' : Piece} (h : p.Alike R p') (name : String) :
    SameOutcome (Written.Alike R) (p.write d name) (p'.write d name) := by
  cases h with
  | text s => exact .ok ⟨rfl, .nil⟩
  | @bound stem b b' h => exact .ok ⟨by simp only [Bind.placeholder, h.type_eq], .cons h.value .nil⟩
  | boundList stem negated h => exact BindList.write_alike hR d h name negated
  | path stem keys => exact .refl (Written.alike_refl hR) _

theorem Piece.outline_eq {p p' : Piece} (h : p.Alike R p') (name : String) :
    p.outline d name = p'.outline d name := by
  cases h with
  | bound stem h => simp only [outline, Bind.placeholder, h.type_eq]
  | _ => rfl

theorem Piece.stem?_eq {p p' : Piece} (h : p.Alike R p') : p.stem? = p'.stem? := by
  cases h <;> rfl

variable {ps ps' : List Piece}

/-- The names of placeholders are for the forms to say. -/
theorem named_alike (h : List.Forall₂ (Piece.Alike R) ps ps') (used : DerivedNames) :
    List.Forall₂ (fun x x' : String × Piece => x.1 = x'.1 ∧ x.2.Alike R x'.2) (named d used ps)
      (named d used ps') := by
  induction h generalizing used with
  | nil => exact .nil
  | @cons p p' ps ps' hp _ ih =>
    rw [named, named, ← Piece.stem?_eq hp]
    cases p.stem? with
    | none => exact .cons ⟨rfl, hp⟩ (ih used)
    | some stem => exact .cons ⟨rfl, hp⟩ (ih (used.next d stem).2)

theorem outlinePieces_eq (h : List.Forall₂ (Piece.Alike R) ps ps') :
    outlinePieces d ps = outlinePieces d ps' := by
  have hnamed := named_alike d h {}
  unfold outlinePieces
  congr 1
  generalize named d {} ps = xs at hnamed
  generalize named d {} ps' = xs' at hnamed
  induction hnamed with
  | nil => rfl
  | cons hx _ ih =>
    rw [List.map_cons, List.map_cons, ih]
    dsimp only
    rw [hx.1, Piece.outline_eq d hx.2]

include hR in
theorem writePieces_alike (h : List.Forall₂ (Piece.Alike R) ps ps') :
    SameOutcome (Written.Alike R) (writePieces d ps) (writePieces d ps') := by
  refine SameOutcome.map (SameOutcome.mapM (named_alike d h {}) ?_) fun _ _ => concat_alike
  intro x x' hx
  have hwrite : SameOutcome (Written.Alike R) (x.2.write d x.1) (x'.2.write d x'.1) := by
    rw [hx.1]
    exact Piece.write_alike hR d hx.2 x'.1
  exact hwrite

include hR in
theorem wherePieces_alike {ps ps' : List Predicate} (h : Predicate.AllAlike R ps ps') :
    List.Forall₂ (Piece.Alike R) (wherePieces d ps) (wherePieces d ps') := by
  have hempty : ps.isEmpty = ps'.isEmpty := by cases h <;> rfl
  unfold wherePieces
  rw [memberPlace, memberPlace, hempty, length_eq_of_allAlike h]
  split
  · exact .nil
  · exact .cons (.text _) (separated_alike _ (listPieces_alike hR d _ h))

end

namespace Statement.Alike

variable {st st' : Statement} (hR : ∀ v, R v v) (h : st.Alike R st') (d : Dialect)

include h

theorem checkNames_eq : st.checkNames = st'.checkNames := by
  unfold checkNames
  rw [h.projection]

include hR

theorem pieces : List.Forall₂ (Piece.Alike R) (st.pieces d) (st'.pieces d) := by
  unfold Statement.pieces
  rw [h.projection, h.table, h.joins, h.order, h.limit, h.offset]
  exact .cons (.text _) (List.rel_append
    (List.rel_append (wherePieces_alike hR d h.conditions) (pieces_refl hR _)) (pieces_refl hR _))

/-- Statements of one form have the same text. -/
theorem outline_eq : st.outline d = st'.outline d := by
  unfold outline
  rw [h.checkNames_eq, outlinePieces_eq d (h.pieces hR d)]

/-- Statements of one form have the same text for a database, and values that stand in the relation
one by one. -/
theorem write : SameOutcome (Written.Alike R) (st.write d) (st'.write d) := by
  unfold Statement.write
  rw [h.checkNames_eq]
  cases st'.checkNames with
  | error e => exact .error e
  | ok u => exact writePieces_alike hR d (h.pieces hR d)

end Statement.Alike

end ListQuery.Sql
