import ListQuery.Sql.Text
import ListQuery.Proofs.Failure

/-!
# Statements that can be written

Whether a statement can be written depends on its projected columns and on the lists of values in
its conditions, and on nothing else: parentheses, the order, the cut and further conditions without
lists do not matter, since a piece keeps its name whatever follows it.

* `marks_pieces` — the values of a condition are the same wherever it stands;
* `check_eq` — when a statement can be written;
* `check_of_conditions` — another statement with these conditions, and further ones without lists.
-/

namespace ListQuery.Sql

namespace Piece

/-- Pieces that have a placeholder. -/
def isMark : Piece → Bool
  | text _ => false
  | _      => true

def isList : Piece → Bool
  | boundList _ _ _ => true
  | _               => false

end Piece

/-- The pieces that have a placeholder, in their order. -/
def marks (ps : List Piece) : List Piece := ps.filter Piece.isMark

section
variable {d : Dialect} {place place' : Place}

@[simp] theorem marks_nil : marks [] = [] := rfl

@[simp] theorem marks_text (s : String) (ps : List Piece) : marks (.text s :: ps) = marks ps := rfl

@[simp] theorem marks_bound (stem : String) (b : Bind) (ps : List Piece) :
    marks (.bound stem b :: ps) = .bound stem b :: marks ps := rfl

@[simp] theorem marks_boundList (stem : String) (negated : Bool) (l : BindList) (ps : List Piece) :
    marks (.boundList stem negated l :: ps) = .boundList stem negated l :: marks ps := rfl

@[simp] theorem marks_path (stem : String) (keys : List String) (ps : List Piece) :
    marks (.path stem keys :: ps) = .path stem keys :: marks ps := rfl

@[simp] theorem marks_append (ps qs : List Piece) : marks (ps ++ qs) = marks ps ++ marks qs :=
  List.filter_append ..

@[simp] theorem marks_wrapped (b : Bool) (ps : List Piece) : marks (wrapped b ps) = marks ps := by
  cases b <;> simp [wrapped]

@[simp] theorem marks_castAs (type : String) (ps : List Piece) :
    marks (castAs type ps) = marks ps := by
  simp [castAs]

@[simp] theorem marks_lowered (ps : List Piece) : marks (lowered ps) = marks ps := by
  simp [lowered]

@[simp] theorem marks_separated (sep : String) (parts : List (List Piece)) :
    marks (separated sep parts) = parts.flatMap marks := by
  induction parts with
  | nil => rfl
  | cons part parts ih =>
    rw [separated] at ih ⊢
    cases parts with
    | nil => simp
    | cons next parts => rw [List.intercalate_cons_cons, marks_append, marks_append, ih]; simp

-- ---------------------------------------------------------------------------
-- Conditions
-- ---------------------------------------------------------------------------

/-- The path of a text that is looked for shows wherever it is looked for. -/
theorem marks_soughtPieces (e : Expr) :
    marks (e.soughtPieces d place) = marks (e.soughtPieces d place') := by
  cases e with
  | pathText c keys =>
    unfold Expr.soughtPieces
    dsimp only
    split
    · simp
    · cases d <;> simp
  | _ => rfl

theorem marks_affixPieces (e : Expr) (kind : Affix) (s : String) :
    marks (affixPieces d place e kind s) = marks (affixPieces d place' e kind s) := by
  have h : marks (e.soughtPieces d place) = marks (e.soughtPieces d place') :=
    marks_soughtPieces e
  unfold affixPieces
  cases d
  · simp [h]
  · simp [h]

mutual

/-- The values of a condition are the same wherever it stands. -/
theorem marks_pieces (place place' : Place) :
    ∀ p : Predicate, marks (p.pieces d place) = marks (p.pieces d place')
  | .affix e kind s => by
    unfold Predicate.pieces
    rw [marks_wrapped, marks_wrapped]
    exact marks_affixPieces e kind s
  | .document e test v => by
    unfold Predicate.pieces
    rw [marks_wrapped, marks_wrapped]
  | .all ps => by
    unfold Predicate.pieces
    rw [marks_separated, marks_separated]
    exact marks_listPieces _ _ ps
  | .any ps => by
    unfold Predicate.pieces
    rw [marks_wrapped, marks_wrapped, marks_separated, marks_separated]
    exact marks_listPieces _ _ ps
  | .constant _ | .compare _ _ _ | .isTruth _ _ _ | .isNull _ _ | .between _ _ _ _ | .member _ _ _
  | .like _ _ _ _ | .fullText _ _ | .likeDocument _ _ => by
    simp [Predicate.pieces]

theorem marks_listPieces (place place' : Place) :
    ∀ ps : List Predicate, (Predicate.listPieces d place ps).flatMap marks =
      (Predicate.listPieces d place' ps).flatMap marks
  | []      => rfl
  | p :: ps => by
    rw [Predicate.listPieces, Predicate.listPieces, List.flatMap_cons, List.flatMap_cons,
      marks_pieces place place' p, marks_listPieces place place' ps]

end

/-- The values of some conditions. -/
def conditionMarks (d : Dialect) (ps : List Predicate) : List Piece :=
  (Predicate.listPieces d .bare ps).flatMap marks

theorem conditionMarks_append (ps qs : List Predicate) :
    conditionMarks d (ps ++ qs) = conditionMarks d ps ++ conditionMarks d qs := by
  induction ps with
  | nil => rfl
  | cons p ps ih =>
    rw [conditionMarks] at ih
    rw [List.cons_append, conditionMarks, Predicate.listPieces, List.flatMap_cons, ih,
      ← List.append_assoc]
    rfl

theorem conditionMarks_singleton (p : Predicate) :
    conditionMarks d [p] = marks (p.pieces d .bare) := by
  simp [conditionMarks, Predicate.listPieces]

theorem conditionMarks_conjuncts (p : Predicate) :
    conditionMarks d p.conjuncts = marks (p.pieces d .bare) := by
  cases p with
  | all ps =>
    unfold Predicate.pieces
    rw [marks_separated]
    exact marks_listPieces _ _ ps
  | _ => exact conditionMarks_singleton _

theorem conditionMarks_disjuncts (p : Predicate) :
    conditionMarks d p.disjuncts = marks (p.pieces d .bare) := by
  cases p with
  | any ps =>
    unfold Predicate.pieces
    rw [marks_wrapped, marks_separated]
    exact marks_listPieces _ _ ps
  | _ => exact conditionMarks_singleton _

theorem conditionMarks_flatMap {f : Predicate → List Predicate}
    (hf : ∀ p, conditionMarks d (f p) = marks (p.pieces d .bare)) (ps : List Predicate) :
    conditionMarks d (ps.flatMap f) = conditionMarks d ps := by
  induction ps with
  | nil => rfl
  | cons p ps ih =>
    rw [List.flatMap_cons, conditionMarks_append, ih, hf, ← conditionMarks_singleton,
      ← conditionMarks_append]
    rfl

/-- A conjunction has the values of its members. -/
theorem marks_conj (ps : List Predicate) :
    marks ((Predicate.conj ps).pieces d .bare) = conditionMarks d ps := by
  rw [← conditionMarks_flatMap conditionMarks_conjuncts ps, Predicate.conj]
  split
  case h_1 p heq => rw [heq, conditionMarks_singleton]
  case h_2 =>
    unfold Predicate.pieces
    rw [marks_separated]
    exact marks_listPieces _ _ _

/-- A disjunction has the values of its members. -/
theorem marks_disj (ps : List Predicate) :
    marks ((Predicate.disj ps).pieces d .bare) = conditionMarks d ps := by
  rw [← conditionMarks_flatMap conditionMarks_disjuncts ps, Predicate.disj]
  split
  case h_1 p heq => rw [heq, conditionMarks_singleton]
  case h_2 =>
    unfold Predicate.pieces
    rw [marks_wrapped, marks_separated]
    exact marks_listPieces _ _ _

end

-- ---------------------------------------------------------------------------
-- Writing pieces
-- ---------------------------------------------------------------------------

section
variable {d : Dialect} {used : DerivedNames} {ps qs : List Piece}

/-- What comes of writing each of some pieces under its name. -/
def writing (d : Dialect) (used : DerivedNames) (ps : List Piece) : Except Failure Unit :=
  ((named d used ps).mapM fun x : String × Piece => x.2.write d x.1).map fun _ => ()

/-- A piece without a placeholder can always be written, and takes no name. -/
theorem writing_text (s : String) : writing d used (.text s :: ps) = writing d used ps := by
  have hnamed : named d used (.text s :: ps) = ("", .text s) :: named d used ps := rfl
  rw [writing, writing, hnamed, List.mapM_cons]
  show Except.map _ (Except.bind (.ok _) _) = _
  cases (named d used ps).mapM fun x : String × Piece => x.2.write d x.1 <;> rfl

/-- A piece with a placeholder has to be written under its name, and the others after it. -/
theorem writing_mark {p : Piece} {stem : String} (hstem : p.stem? = some stem) :
    writing d used (p :: ps) =
      p.write d (placeholderName (used.next d stem).1) >>= fun _ =>
        writing d (used.next d stem).2 ps := by
  have hnamed : named d used (p :: ps) =
      (placeholderName (used.next d stem).1, p) :: named d (used.next d stem).2 ps := by
    rw [named, hstem]
  rw [writing, hnamed, List.mapM_cons]
  cases p.write d (placeholderName (used.next d stem).1) with
  | error e => rfl
  | ok w =>
    rw [writing]
    show Except.map _ (Except.bind _ _) = _
    cases (named d (used.next d stem).2 ps).mapM fun x : String × Piece => x.2.write d x.1 <;> rfl

/-- Whether pieces can be written, and if not why, is for those with a placeholder to say. -/
theorem writing_marks : writing d used (marks ps) = writing d used ps := by
  induction ps generalizing used with
  | nil => rfl
  | cons p ps ih =>
    cases p with
    | text s => rw [marks_text, writing_text, ih]
    | bound stem b => rw [marks_bound, writing_mark rfl, writing_mark rfl, ih]
    | boundList stem negated l => rw [marks_boundList, writing_mark rfl, writing_mark rfl, ih]
    | path stem keys => rw [marks_path, writing_mark rfl, writing_mark rfl, ih]

theorem exists_write_path (d : Dialect) (name stem : String) (keys : List String) :
    ∃ w, (Piece.path stem keys).write d name = .ok w := by
  rcases keys with _ | ⟨k, _ | ⟨k', keys⟩⟩
  · exact ⟨⟨"?", [.list []]⟩, rfl⟩
  · exact ⟨⟨"?", [.text k]⟩, rfl⟩
  · exact ⟨⟨"?", [.list ((k :: k' :: keys).map .text)]⟩, rfl⟩

theorem writing_of_plain (h : ∀ p ∈ ps, p.isList = false) : writing d used ps = .ok () := by
  induction ps generalizing used with
  | nil => rfl
  | cons p ps ih =>
    have hps : ∀ p ∈ ps, p.isList = false := fun p hp => h p (List.mem_cons_of_mem _ hp)
    cases p with
    | text s => rw [writing_text, ih hps]
    | bound stem b =>
      rw [writing_mark rfl]
      exact ih hps
    | path stem keys =>
      obtain ⟨w, hw⟩ := exists_write_path d (placeholderName (used.next d stem).1) stem keys
      rw [writing_mark rfl, hw]
      exact ih hps
    | boundList stem negated l => cases h _ List.mem_cons_self

/-- Further pieces without lists do not matter. -/
theorem writing_append (h : ∀ q ∈ qs, q.isList = false) :
    writing d used (ps ++ qs) = writing d used ps := by
  induction ps generalizing used with
  | nil => exact writing_of_plain h
  | cons p ps ih =>
    rw [List.cons_append]
    cases p with
    | text s => rw [writing_text, writing_text, ih]
    | bound stem b => rw [writing_mark rfl, writing_mark rfl, ih]
    | boundList stem negated l => rw [writing_mark rfl, writing_mark rfl, ih]
    | path stem keys => rw [writing_mark rfl, writing_mark rfl, ih]

end

-- ---------------------------------------------------------------------------
-- Statements
-- ---------------------------------------------------------------------------

namespace Statement

variable {st st' : Statement}

/-- The values of a statement are those of its conditions and those of its cut. -/
theorem marks_statement (d : Dialect) (st : Statement) :
    marks (st.pieces d) = conditionMarks d st.conditions ++ marks (cutPieces d st.limit st.offset) := by
  have hwhere : marks (wherePieces d st.conditions) = conditionMarks d st.conditions := by
    unfold wherePieces
    split
    case isTrue h =>
      rw [List.isEmpty_iff.mp h]
      rfl
    case isFalse =>
      rw [marks_text, marks_separated]
      exact marks_listPieces _ _ _
  have horder : marks (orderPieces d st.order) = [] := by
    unfold orderPieces
    split <;> rfl
  unfold pieces
  simp [hwhere, horder]

theorem isList_cutPieces (d : Dialect) (limit offset : Option Int) :
    ∀ p ∈ cutPieces d limit offset, p.isList = false := by
  cases limit with
  | none => exact fun p hp => absurd hp List.not_mem_nil
  | some n => cases d <;> cases offset <;> simp [cutPieces, countBind, Piece.isList]

/-- Whether a statement can be written, and if not why: a nameless column that is projected twice
comes first, and then the lists of values in its conditions. -/
theorem check_eq :
    st.check =
      st.checkNames >>= fun _ => writing .sqlite {} (conditionMarks .sqlite st.conditions) := by
  have hcut : ∀ p ∈ marks (cutPieces .sqlite st.limit st.offset), p.isList = false :=
    fun p hp => isList_cutPieces _ _ _ p (List.mem_of_mem_filter hp)
  rw [← writing_append hcut, ← marks_statement, writing_marks, check, write]
  cases st.checkNames with
  | error e => rfl
  | ok u =>
    show Except.map _ (Except.map _ _) = Except.map _ _
    cases (named .sqlite {} (st.pieces .sqlite)).mapM fun x : String × Piece =>
      x.2.write .sqlite x.1 <;> rfl

theorem checkNames_of_check (h : st.check = .ok ()) : st.checkNames = .ok () := by
  rw [check_eq] at h
  obtain ⟨⟨⟩, hnames, -⟩ := bind_eq_ok.mp h
  exact hnames

/-- A statement whose conditions have the values of those of another one can be written if that
can, and fails as that does. -/
theorem check_congr (hnames : st'.checkNames = st.checkNames)
    (hmarks : conditionMarks .sqlite st'.conditions = conditionMarks .sqlite st.conditions) :
    st'.check = st.check := by
  rw [check_eq, check_eq, hnames, hmarks]

/-- A statement with the conditions of one that can be written, and further ones without lists, can
be written as well. -/
theorem check_of_conditions (h : st.check = .ok ()) {extra : List Predicate}
    (hnames : st'.checkNames = .ok ()) (hconditions : st'.conditions = st.conditions ++ extra)
    (hextra : ∀ p ∈ conditionMarks .sqlite extra, p.isList = false) : st'.check = .ok () := by
  have hst : writing .sqlite {} (conditionMarks .sqlite st.conditions) = .ok () := by
    have hnames := checkNames_of_check h
    rwa [check_eq, hnames] at h
  rw [check_eq, hnames, hconditions, conditionMarks_append, writing_append hextra]
  exact hst

end Statement

end ListQuery.Sql
