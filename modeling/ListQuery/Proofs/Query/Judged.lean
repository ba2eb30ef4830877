import ListQuery.Proofs.Query.Outcome
import ListQuery.Proofs.Schema.Coercion

/-!
# Filters under strict and lenient rules

Strict rules reject a request where the lenient ones leave something out of it. The two judge every
filter alike, but for one with an operand that cannot be read: there the strict ones reject the
whole request at once.

* `reasonOf` — the reason in a warning, which is the message of a rejection;
* `accept_judged` — one filter under both rules;
* `follow_lenient`, `omissions_lenient` — a request without such an operand.
-/

namespace ListQuery

/-- The settings that leave out what these reject. -/
def Settings.lenient (s : Settings) : Settings := { s with strict := false, malformed := .drop }

-- ---------------------------------------------------------------------------
-- The reason in a warning
-- ---------------------------------------------------------------------------

/-- How a warning ends that a filter is left out for an operand of its. -/
def ignoredEnd : String := ", filter ignored"

/-- The reason that a warning gives: all of it but that end. -/
def reasonOf (warning : String) : String :=
  if ignoredEnd.toList.isSuffixOf warning.toList then
    String.ofList (warning.toList.take (warning.toList.length - ignoredEnd.toList.length))
  else warning

theorem reasonOf_ignored (message : String) :
    reasonOf (message ++ ", filter ignored") = message := by
  have hends : ignoredEnd.toList.isSuffixOf (message ++ ignoredEnd).toList = true := by
    rw [List.isSuffixOf_iff_suffix, String.toList_append]
    exact List.suffix_append _ _
  show reasonOf (message ++ ignoredEnd) = message
  unfold reasonOf
  rw [if_pos hends, String.toList_append, List.length_append, Nat.add_sub_cancel,
    List.take_left' rfl, String.ofList_toList]

/-- A message that ends otherwise is its own reason. -/
theorem reasonOf_append (message : String) {tail : String}
    (htail : ignoredEnd.toList.isSuffixOf tail.toList = false ∧
      tail.toList.isSuffixOf ignoredEnd.toList = false) :
    reasonOf (message ++ tail) = message ++ tail := by
  refine if_neg fun hends => ?_
  rw [List.isSuffixOf_iff_suffix, String.toList_append] at hends
  have htail' := List.suffix_append message.toList tail.toList
  rcases List.suffix_or_suffix_of_suffix hends htail' with h | h
  · exact absurd (List.isSuffixOf_iff_suffix.mpr h) (Bool.eq_false_iff.mp htail.1)
  · exact absurd (List.isSuffixOf_iff_suffix.mpr h) (Bool.eq_false_iff.mp htail.2)

/-- The reason in a warning, whatever it was given as. -/
def Value.reason : Value → Value
  | .text warning => .text (reasonOf warning)
  | v             => v

namespace Query

-- ---------------------------------------------------------------------------
-- One filter under both rules
-- ---------------------------------------------------------------------------

/-- A refusal on which both rules agree: a filter left out for a reason of its own, or a failure
that is no rejection. -/
def Agreed : Refusal → Prop
  | .dropped reason => reasonOf reason = reason
  | .failed fail    => ∀ errors, fail ≠ .rejected errors

/-- What strict rules make of something in a filter, and what the lenient ones do: the same, or they
reject the request where the filter is left out. -/
inductive Judged {α : Type} (f : Filter) : Except Refusal α → Except Refusal α → Prop
  | alike {x : Except Refusal α} (h : ∀ refusal, x = .error refusal → Agreed refusal) : Judged f x x
  | malformed (message : String) :
    Judged f (.error (.failed (.reject f.field message))) (.error (ignored message))

section
variable {α β : Type} {f : Filter}

theorem judged_ok (a : α) : Judged f (.ok a) (.ok a) := .alike fun _ h => nomatch h

theorem judged_dropped {reason : String} (h : reasonOf reason = reason) :
    Judged f (.error (.dropped reason) : Except Refusal α) (.error (.dropped reason)) := by
  refine .alike fun refusal hrefusal => ?_
  obtain rfl := Except.error.inj hrefusal
  exact h

theorem Judged.bind {x y : Except Refusal α} {k l : α → Except Refusal β} (h : Judged f x y)
    (hk : ∀ a, Judged f (k a) (l a)) : Judged f (x >>= k) (y >>= l) := by
  cases h with
  | malformed message => exact .malformed message
  | alike hx =>
    cases x with
    | ok a => exact hk a
    | error refusal =>
      refine .alike fun refusal' h' => hx refusal' ?_
      exact congrArg Except.error (Except.error.inj h')

theorem Judged.map {x y : Except Refusal α} (h : Judged f x y) (g : α → β) :
    Judged f (x.map g) (y.map g) :=
  h.bind fun a => judged_ok (g a)

theorem judged_mapM {k l : α → Except Refusal β} (h : ∀ a, Judged f (k a) (l a)) (as : List α) :
    Judged f (as.mapM k) (as.mapM l) := by
  induction as with
  | nil => exact judged_ok []
  | cons a as ih =>
    rw [List.mapM_cons, List.mapM_cons]
    exact (h a).bind fun b => ih.bind fun bs => judged_ok (b :: bs)

theorem judged_operand {k l : Value → Except Refusal Value} (h : ∀ v, Judged f (k v) (l v))
    (o : Operand) : Judged f (o.mapM k) (o.mapM l) := by
  cases o with
  | single v => exact (h v).map _
  | multiple vs => exact (judged_mapM h vs).map _
  | range low high => exact (h low).bind fun low => (h high).bind fun high => judged_ok _

end

/-- The query under the rules that leave out what its own reject. -/
def lenient (q : Query) : Query := { q with settings := q.settings.lenient }

section
variable {q : Query} (hs : q.settings.strict = true) (f : Filter)
include hs

theorem malformedPolicy_strict : q.settings.malformedPolicy = .reject := if_pos hs

theorem convertOperand_judged (t : ColumnType) (raw : Value) :
    Judged f (q.convertOperand f t raw) (q.lenient.convertOperand f t raw) := by
  unfold convertOperand
  cases hcoerce : coerce t raw with
  | ok v => exact judged_ok v
  | error fail =>
    dsimp only
    rw [if_pos (isReading_of_coerce hcoerce), if_pos (isReading_of_coerce hcoerce),
      malformedPolicy_strict hs]
    exact .malformed _

theorem convert_judged (t : ColumnType) : Judged f (q.convert f t) (q.lenient.convert f t) :=
  (judged_operand (convertOperand_judged hs f t) f.operand).map _

theorem checkDocument_judged (raw : Value) :
    Judged f (q.checkDocument f raw) (q.lenient.checkDocument f raw) := by
  unfold checkDocument
  cases raw with
  | text s =>
    dsimp only
    cases Json.read s.toList with
    | ok document => exact judged_ok _
    | error fail =>
      rw [hs]
      cases fail with
      | tooDeep =>
        refine .alike fun refusal h => ?_
        obtain rfl := Except.error.inj h
        exact fun _ h => nomatch h
      | _ => exact .malformed _
  | _ => exact judged_ok _

theorem checkDocuments_judged : Judged f (q.checkDocuments f) (q.lenient.checkDocuments f) :=
  (judged_operand (checkDocument_judged hs f) f.operand).map _

theorem acceptOnPath_judged : Judged f (q.acceptOnPath f) (q.lenient.acceptOnPath f) := by
  unfold acceptOnPath
  by_cases hworks : f.operator.worksOnPath = true
  · rw [if_pos hworks, if_pos hworks]
    split
    · exact convert_judged hs f .float
    · exact judged_ok f
  · rw [if_neg hworks, if_neg hworks]
    exact judged_dropped (reasonOf_append _ (by decide))

theorem acceptOnColumn_judged (c : Column) :
    Judged f (q.acceptOnColumn f c) (q.lenient.acceptOnColumn f c) := by
  unfold acceptOnColumn
  by_cases hjsonb : f.operator.category = .json ∧ (!c.type.isJsonb) = true
  · rw [if_pos hjsonb, if_pos hjsonb]
    exact judged_dropped (reasonOf_append _ (by decide))
  · rw [if_neg hjsonb, if_neg hjsonb]
    by_cases hdocument : f.operator.takesDocument = true
    · rw [if_pos hdocument, if_pos hdocument]
      exact checkDocuments_judged hs f
    · rw [if_neg hdocument, if_neg hdocument]
      split
      · exact convert_judged hs f c.type
      · exact judged_ok f

/-- Both rules judge a filter alike, or the strict ones reject the request for an operand of it. -/
theorem accept_judged : Judged f (q.accept f) (q.lenient.accept f) := by
  have hentity : q.lenient.entity = q.entity := rfl
  unfold accept
  rw [hentity]
  by_cases hallowed : q.entity.allowsFilter f.field = true
  · rw [if_pos hallowed, if_pos hallowed]
    cases q.entity.jsonPath? f.field with
    | some _ => exact acceptOnPath_judged hs f
    | none =>
      cases q.entity.column? f.field with
      | some c => exact acceptOnColumn_judged hs f c
      | none => exact judged_dropped (reasonOf_append _ (by decide))
  · rw [if_neg hallowed, if_neg hallowed]
    exact judged_dropped (reasonOf_append _ (by decide))

end

-- ---------------------------------------------------------------------------
-- Requests without an operand that cannot be read
-- ---------------------------------------------------------------------------

/-- Strict rules reject a request for an operand of the filter; the lenient ones leave the filter
out. -/
def Malformed (q : Query) (f : Filter) (message : String) : Prop :=
  q.accept f = .error (.failed (.reject f.field message)) ∧
    q.lenient.accept f = .error (ignored message)

/-- Both rules make the same of the filter. -/
def JudgedAlike (q : Query) (f : Filter) : Prop :=
  q.lenient.accept f = q.accept f ∧ ∀ refusal, q.accept f = .error refusal → Agreed refusal

section
variable {q : Query}

theorem alike_or_malformed (hs : q.settings.strict = true) (f : Filter) :
    q.JudgedAlike f ∨ ∃ message, q.Malformed f message := by
  have h := accept_judged hs f
  unfold JudgedAlike Malformed
  generalize q.accept f = x at h ⊢
  generalize q.lenient.accept f = y at h ⊢
  cases h with
  | alike hx => exact .inl ⟨rfl, hx⟩
  | malformed message => exact .inr ⟨message, rfl, rfl⟩

theorem JudgedAlike.not_malformed {f : Filter} (h : q.JudgedAlike f) (message : String) :
    ¬q.Malformed f message := fun hm => h.2 _ hm.1 _ rfl

theorem Malformed.not_admits {f : Filter} {message : String} (h : q.Malformed f message) :
    ¬q.Admits f := fun hf => hf _ h.1

theorem JudgedAlike.filter_lenient {f : Filter} (h : q.JudgedAlike f) :
    (q.filter f).map lenient = q.lenient.filter f := by
  unfold filter
  rw [h.1]
  cases q.accept f with
  | ok accepted => rfl
  | error refusal => cases refusal <;> rfl

theorem filterAll_lenient {fs : List Filter} (h : ∀ f ∈ fs, q.JudgedAlike f) :
    (q.filterAll fs).map lenient = q.lenient.filterAll fs := by
  induction fs generalizing q with
  | nil => rfl
  | cons f fs ih =>
    obtain ⟨hf, hfs⟩ := List.forall_mem_cons.mp h
    rw [filterAll_cons, filterAll_cons, ← hf.filter_lenient]
    cases hq₁ : q.filter f with
    | error fail => rfl
    | ok q₁ =>
      obtain ⟨-, rfl⟩ := filter_eq_ok.mp hq₁
      exact ih hfs

variable (q)

theorem sort_lenient (s : SortKey) : (q.sort s).lenient = q.lenient.sort s := by
  unfold sort
  show _ = if q.entity.allowsSort s.field then _ else _
  split <;> rfl

theorem includePath_lenient (path : String) :
    (q.includePath path).lenient = q.lenient.includePath path := by
  unfold includePath
  show _ = if q.entity.allowsInclude path && !q.includes.contains path then _ else _
  split <;> rfl

theorem select_lenient (names : List String) :
    (q.select names).lenient = q.lenient.select names := by
  have hentity : q.lenient.entity = q.entity := rfl
  unfold select
  rw [hentity]
  split <;> rfl

theorem paged_lenient (p : RequestParams) : (q.paged p).map lenient = q.lenient.paged p := by
  have hpaging : Draft.pagingOf q.lenient.settings p = Draft.pagingOf q.settings p := rfl
  unfold paged
  rw [hpaging]
  cases Draft.pagingOf q.settings p with
  | offset => exact bind_map_congr fun _ => bind_map_congr fun _ => rfl
  | cursor => exact bind_map_congr fun _ => rfl

theorem finish_lenient (p : RequestParams) : (q.finish p).map lenient = q.lenient.finish p := by
  have happended : ∀ (es : Mapping) (q : Query),
      (es.foldl (fun q a => q.append a.1 a.2) q).lenient =
        es.foldl (fun q a => q.append a.1 a.2) q.lenient :=
    fun es q => (List.foldl_hom lenient fun _ _ => rfl).symm
  have hsearched : (q.searchForAny p.search).map lenient = q.lenient.searchForAny p.search := by
    unfold searchForAny
    cases p.search.asTextIfAny with
    | error fail => rfl
    | ok term => cases term <;> rfl
  refine bind_map_of_map_eq hsearched fun q' => bind_map_congr fun appended => ?_
  rw [← happended]
  exact paged_lenient _ p

theorem followRest_lenient (p : RequestParams) (table : String) :
    (q.followRest p table).map lenient = q.lenient.followRest p table := by
  refine bind_map_congr fun keys => bind_map_congr fun paths => bind_map_congr fun choice => ?_
  have hlisted : (paths.foldl includePath (q.sortAll keys)).lenient =
      paths.foldl includePath (q.lenient.sortAll keys) := by
    unfold sortAll
    rw [List.foldl_hom lenient fun q s => (sort_lenient q s).symm,
      List.foldl_hom lenient fun q path => (includePath_lenient q path).symm]
  have hselected : ∀ q' : Query, (q'.selectChoice choice).map lenient =
      q'.lenient.selectChoice choice := by
    intro q'
    rw [selectChoice_eq, selectChoice_eq]
    cases RequestParams.chosenNames choice with
    | error fail => rfl
    | ok names => exact congrArg Except.ok (select_lenient q' names)
  rw [← hlisted]
  exact bind_map_of_map_eq (hselected _) fun q' => finish_lenient q' p

variable {q}

/-- Requests whose filters are judged alike do the same under both rules. -/
theorem follow_lenient {p : RequestParams}
    (h : ∀ parsed, p.parsedFilters = .ok parsed → ∀ f ∈ parsed.filters, q.JudgedAlike f) :
    (q.follow p).map lenient = q.lenient.follow p := by
  rw [follow_eq, follow_eq]
  cases hparsed : p.parsedFilters with
  | error fail => rfl
  | ok parsed =>
    have hfilters := filterAll_lenient (h parsed hparsed)
    show (q.filterAll parsed.filters >>= fun q' => q'.followRest p q.entity.table).map lenient =
      q.lenient.filterAll parsed.filters >>= fun q' => q'.followRest p q.entity.table
    exact bind_map_of_map_eq hfilters fun q' => followRest_lenient q' p q.entity.table

/-- Such requests leave the same out under both rules. -/
theorem omissions_lenient {asked : Asked} (h : ∀ f ∈ asked.parsed.filters, q.JudgedAlike f) :
    q.lenient.omissions asked = q.omissions asked := by
  have hfilters : asked.parsed.filters.filterMap q.lenient.omittedFilter? =
      asked.parsed.filters.filterMap q.omittedFilter? := by
    refine List.filterMap_congr fun f hf => ?_
    unfold omittedFilter?
    rw [(h f hf).1]
  unfold omissions
  rw [hfilters]
  rfl

end

end Query

end ListQuery
