import ListQuery.Proofs.Query.Whitelist

/-!
# What a request leaves out

A request that names something which its query does not take is answered with a warning for each
such thing. Here the warnings are told from the parameters alone, in their order, and so are the
rejections into which strict rules gather them.

* `RequestParams.asked`, `Query.omissions` — what a request asks for, and what is left out of it;
* `Omissions.gathered_perm` — gathering by parameter loses no message;
* `Draft.Continues` — how a draft goes on, with a lemma for each of its steps;
* `Draft.continues_addAll` — a whole request.
-/

namespace ListQuery

open Text

-- ---------------------------------------------------------------------------
-- Messages by parameter
-- ---------------------------------------------------------------------------

/-- What is left out, in order: the parameter, and what is said about it. -/
abbrev Omissions := List (String × String)

namespace Omissions

variable (log : Omissions)

/-- The warnings that say so. -/
def warnings : List Value := log.map fun o => .text o.2

/-- A message after those that a parameter has already. -/
def addMessage (existing : Option (List String)) (message : String) : List String :=
  existing.getD [] ++ [message]

/-- The messages by parameter. -/
def gathered : Rejections := log.foldl (Entries.addPiece addMessage) []

/-- All messages of rejections, whatever parameter they are about. -/
def messagesOf (errors : Rejections) : List String := errors.flatMap (·.2)

theorem messagesOf_addPiece (errors : Rejections) (o : String × String) :
    (messagesOf (Entries.addPiece addMessage errors o)).Perm (messagesOf errors ++ [o.2]) := by
  unfold messagesOf Entries.addPiece
  induction errors with
  | nil => exact .refl _
  | cons e errors ih =>
    obtain ⟨key, messages⟩ := e
    rw [Entries.put, Entries.get?, List.lookup_cons]
    by_cases hkey : key = o.1
    · rw [if_pos hkey, beq_iff_eq.mpr hkey.symm]
      show (messages ++ [o.2] ++ errors.flatMap (·.2)).Perm
        (messages ++ errors.flatMap (·.2) ++ [o.2])
      rw [List.append_assoc, List.append_assoc]
      exact List.perm_append_comm.append_left messages
    · rw [if_neg hkey, beq_eq_false_iff_ne.mpr (Ne.symm hkey), List.flatMap_cons, List.flatMap_cons,
        List.append_assoc]
      exact ih.append_left messages

theorem messagesOf_foldl (errors : Rejections) :
    (messagesOf (log.foldl (Entries.addPiece addMessage) errors)).Perm
      (messagesOf errors ++ log.map (·.2)) := by
  induction log generalizing errors with
  | nil => simp
  | cons o log ih =>
    rw [List.foldl_cons, List.map_cons]
    refine (ih _).trans ?_
    have hone := (messagesOf_addPiece errors o).append_right (log.map (·.2))
    rwa [List.append_assoc] at hone

/-- Gathering by parameter loses no message and adds none. -/
theorem gathered_perm : (messagesOf log.gathered).Perm (log.map (·.2)) := messagesOf_foldl log []

variable {log}

theorem gathered_eq_nil : log.gathered = [] ↔ log = [] := by
  constructor
  · intro h
    have hperm := gathered_perm log
    rw [h] at hperm
    exact List.map_eq_nil_iff.mp hperm.symm.eq_nil
  · rintro rfl
    rfl

end Omissions

-- ---------------------------------------------------------------------------
-- What a request asks for
-- ---------------------------------------------------------------------------

/-- What a request names: filters, sorts, includes and fields of the table, with what is said about
filters that cannot be parsed. -/
structure Asked where
  parsed : ParsedFilters
  keys   : List SortKey
  paths  : List String
  names  : List String

namespace RequestParams

variable (p : RequestParams)

/-- The warnings that the parameters bring along. -/
def ownWarnings : Except Failure (List Value) :=
  if p.warnings.isVoid then .ok [] else p.warnings.members

def parsedFilters : Except Failure ParsedFilters := p.filter.asMapping >>= FilterParams.parse

/-- The names of a choice of fields that are not blank. -/
def chosenNames (choice : Value) : Except Failure (List String) :=
  if choice.isVoid then .ok [] else (Query.namesOf choice).map trimmedNames

def asked (table : String) : Except Failure Asked := do
  let parsed ← p.parsedFilters
  let keys ← p.sortKeys
  let paths ← p.includePaths
  let names ← chosenNames (← p.fieldChoice table)
  .ok { parsed, keys, paths, names }

end RequestParams

namespace Query

variable (q : Query)

-- ---------------------------------------------------------------------------
-- What a query leaves out
-- ---------------------------------------------------------------------------

def omittedFilter? (f : Filter) : Option (String × String) :=
  match q.accept f with
  | .error (.dropped reason) => some ("filter[" ++ f.field ++ "]", reason)
  | _                        => none

def omittedSort? (s : SortKey) : Option (String × String) :=
  if q.entity.allowsSort s.field then none
  else some ("sort", "Sort on '" ++ s.field ++ "' is not allowed and was ignored")

def omittedInclude? (path : String) : Option (String × String) :=
  if q.entity.allowsInclude path then none
  else some ("include", "Include '" ++ path ++ "' is not allowed and was ignored")

def omittedField? (field : String) : Option (String × String) :=
  if q.entity.allowsField field then none
  else some ("fields", "Field '" ++ field ++ "' is not allowed and was ignored")

/-- What a query leaves out of what is asked for, in order. -/
def omissions (asked : Asked) : Omissions :=
  asked.parsed.warnings.map (fun message => ("filter", message)) ++
    asked.parsed.filters.filterMap q.omittedFilter? ++ asked.keys.filterMap q.omittedSort? ++
    asked.paths.filterMap q.omittedInclude? ++ asked.names.filterMap q.omittedField?

/-- A filter is accepted by the entity and the settings; what the query has does not count. -/
theorem accept_reset (f : Filter) : q.reset.accept f = q.accept f := rfl

theorem entity_reset : q.reset.entity = q.entity := rfl

theorem exists_sort_eq (s : SortKey) : ∃ sorts, q.sort s = { q with sorts } := by
  unfold sort
  split
  · exact ⟨_, rfl⟩
  · exact ⟨q.sorts, rfl⟩

theorem exists_includePath_eq (path : String) :
    ∃ includes, q.includePath path = { q with includes } := by
  unfold includePath
  split
  · exact ⟨_, rfl⟩
  · exact ⟨q.includes, rfl⟩

theorem exists_select_eq (names : List String) : ∃ fields, q.select names = { q with fields } := by
  unfold select
  split
  · exact ⟨q.fields, rfl⟩
  · exact ⟨_, rfl⟩

end Query

-- ---------------------------------------------------------------------------
-- How a draft goes on
-- ---------------------------------------------------------------------------

namespace Draft

open Query RequestParams

/-- The draft goes on from another, and leaves out what the log says on the way. -/
structure Continues (d : Draft) (log : Omissions) (d' : Draft) : Prop where
  reset      : d'.query.reset = d.query.reset
  warnings   : d'.query.warnings = d.query.warnings ++ log.warnings
  rejections : d'.rejections = log.foldl (Entries.addPiece Omissions.addMessage) d.rejections

variable {d d' d'' : Draft} {log log' : Omissions}

theorem Continues.refl (d : Draft) : d.Continues [] d := ⟨rfl, (List.append_nil _).symm, rfl⟩

theorem Continues.trans (h : d.Continues log d') (h' : d'.Continues log' d'') :
    d.Continues (log ++ log') d'' where
  reset := h'.reset.trans h.reset
  warnings := by
    rw [h'.warnings, h.warnings, List.append_assoc, Omissions.warnings, Omissions.warnings,
      ← List.map_append]
    rfl
  rejections := by rw [h'.rejections, h.rejections, List.foldl_append]

theorem continues_reject (d : Draft) (o : String × String) :
    d.Continues [o] (d.reject o.1 o.2) := ⟨rfl, rfl, rfl⟩

/-- A step that leaves the entity, the settings and the warnings of the query alone. -/
theorem continues_step {f : Query → Query} {q : Query} (h : f d.query = q)
    (hreset : q.reset = d.query.reset) (hwarnings : q.warnings = d.query.warnings) :
    d.Continues [] (d.step f) := by
  subst h
  exact ⟨hreset, hwarnings.trans (List.append_nil _).symm, rfl⟩

section
variable {α : Type} {omitted? : Query → α → Option (String × String)}

theorem Continues.cons {a : α} {as : List α} (h : d.Continues (omitted? d.query.reset a).toList d')
    (h' : d'.Continues (as.filterMap (omitted? d'.query.reset)) d'') :
    d.Continues ((a :: as).filterMap (omitted? d.query.reset)) d'' := by
  rw [h.reset] at h'
  have htrans := h.trans h'
  rw [List.filterMap_cons]
  cases ho : omitted? d.query.reset a with
  | none =>
    rw [ho] at htrans
    exact htrans
  | some o =>
    rw [ho] at htrans
    exact htrans

theorem continues_foldl {step : Draft → α → Draft}
    (h : ∀ (d : Draft) (a : α), d.Continues (omitted? d.query.reset a).toList (step d a))
    (d : Draft) (as : List α) :
    d.Continues (as.filterMap (omitted? d.query.reset)) (as.foldl step d) := by
  induction as generalizing d with
  | nil => exact .refl d
  | cons a as ih => exact (h d a).cons (ih (step d a))

theorem continues_foldlM {step : Draft → α → Except Failure Draft}
    (h : ∀ (d : Draft) (a : α), Ensures (d.Continues (omitted? d.query.reset a).toList) (step d a))
    (d : Draft)
    (as : List α) :
    Ensures (d.Continues (as.filterMap (omitted? d.query.reset))) (as.foldlM step d) := by
  induction as generalizing d with
  | nil => exact ensures_ok (.refl d)
  | cons a as ih =>
    rw [List.foldlM_cons]
    exact (h d a).bind fun d' hd' d'' hd'' => hd'.cons (ih d' d'' hd'')

end

-- ---------------------------------------------------------------------------
-- The steps of a draft
-- ---------------------------------------------------------------------------

theorem continues_addFilter (d : Draft) (f : Filter) :
    Ensures (d.Continues (d.query.reset.omittedFilter? f).toList) (d.addFilter f) := by
  unfold addFilter omittedFilter?
  rw [accept_reset]
  cases d.query.accept f with
  | ok accepted => exact ensures_ok (continues_step rfl rfl rfl)
  | error refusal =>
    cases refusal with
    | dropped reason => exact ensures_ok (continues_reject d ("filter[" ++ f.field ++ "]", reason))
    | failed fail => exact ensures_error fail

theorem continues_addSort (d : Draft) (s : SortKey) :
    d.Continues (d.query.reset.omittedSort? s).toList (d.addSort s) := by
  unfold addSort omittedSort?
  rw [entity_reset]
  split
  · obtain ⟨sorts, hsort⟩ := d.query.exists_sort_eq s
    exact continues_step hsort rfl rfl
  · exact continues_reject d _

theorem continues_addInclude (d : Draft) (path : String) :
    d.Continues (d.query.reset.omittedInclude? path).toList (d.addInclude path) := by
  unfold addInclude omittedInclude?
  rw [entity_reset]
  split
  · obtain ⟨includes, hincluded⟩ := d.query.exists_includePath_eq path
    exact continues_step hincluded rfl rfl
  · exact continues_reject d _

theorem continues_checkField (d : Draft) (field : String) :
    d.Continues (d.query.reset.omittedField? field).toList (d.checkField field) := by
  unfold checkField omittedField?
  rw [entity_reset]
  split
  · exact .refl d
  · exact continues_reject d _

theorem continues_addFilters (d : Draft) {params : Mapping} {parsed : ParsedFilters}
    (hparsed : FilterParams.parse params = .ok parsed) :
    Ensures (d.Continues (parsed.warnings.map (fun message => ("filter", message)) ++
      parsed.filters.filterMap d.query.reset.omittedFilter?)) (d.addFilters params) := by
  have hwarned : ∀ (messages : List String) (d : Draft),
      d.Continues (messages.map fun message => ("filter", message))
        (messages.foldl (·.reject "filter" ·) d) := by
    intro messages
    induction messages with
    | nil => exact Continues.refl
    | cons message messages ih =>
      exact fun d => (continues_reject d ("filter", message)).trans (ih (d.reject "filter" message))
  unfold addFilters
  rw [hparsed]
  intro d' hd'
  have hfilters := continues_foldlM continues_addFilter _ parsed.filters d' hd'
  rw [(hwarned parsed.warnings d).reset] at hfilters
  exact (hwarned parsed.warnings d).trans hfilters

theorem continues_addFields (d : Draft) {choice : Value} {names : List String}
    (hnames : chosenNames choice = .ok names) :
    Ensures (d.Continues (names.filterMap d.query.reset.omittedField?)) (d.addFields choice) := by
  unfold chosenNames at hnames
  unfold addFields
  split at hnames
  case isTrue hvoid =>
    obtain rfl := Except.ok.inj hnames
    rw [if_pos hvoid]
    exact ensures_ok (.refl d)
  case isFalse hvoid =>
    obtain ⟨spellings, hspellings, rfl⟩ := map_eq_ok.mp hnames
    rw [if_neg hvoid, hspellings]
    have hchecked := continues_foldl continues_checkField d (trimmedNames spellings)
    obtain ⟨fields, hselect⟩ := exists_select_eq
      ((trimmedNames spellings).foldl checkField d).query (trimmedNames spellings)
    have hselected := hchecked.trans
      (continues_step (f := (·.select (trimmedNames spellings))) hselect rfl rfl)
    rw [List.append_nil] at hselected
    exact ensures_ok hselected

theorem continues_addSearch (d : Draft) (term : Value) :
    Ensures (d.Continues []) (d.addSearch term) := by
  unfold addSearch
  refine ensures_map fun t => ?_
  cases t with
  | none => exact .refl d
  | some t => exact continues_step rfl rfl rfl

theorem continues_addAppends (d : Draft) (es : Mapping) : d.Continues [] (d.addAppends es) := by
  have hkept : ∀ q : Query, (es.foldl (fun q a => q.append a.1 a.2) q).reset = q.reset ∧
      (es.foldl (fun q a => q.append a.1 a.2) q).warnings = q.warnings := by
    induction es with
    | nil => exact fun q => ⟨rfl, rfl⟩
    | cons a es ih => exact fun q => ih (q.append a.1 a.2)
  exact continues_step rfl (hkept d.query).1 (hkept d.query).2

theorem continues_addPage (d : Draft) (p : RequestParams) :
    Ensures (d.Continues []) (d.addPage p) := by
  intro d' hd'
  unfold addPage at hd'
  obtain ⟨q, hq, rfl⟩ := map_eq_ok.mp hd'
  have hpaginated : ∃ page, q = d.query.paginate page := by
    split at hq
    · obtain ⟨size, -, hq⟩ := bind_eq_ok.mp hq
      obtain ⟨n, -, hq⟩ := bind_eq_ok.mp hq
      exact ⟨_, (Except.ok.inj hq).symm⟩
    · obtain ⟨size, -, hq⟩ := bind_eq_ok.mp hq
      exact ⟨_, (Except.ok.inj hq).symm⟩
  obtain ⟨page, rfl⟩ := hpaginated
  exact continues_step (f := (·.paginate page)) rfl rfl rfl

/-- A draft leaves out of a request what its query does not take. -/
theorem continues_addAll {d d' : Draft} {p : RequestParams} (h : d.addAll p = .ok d') :
    ∃ asked, p.asked d.query.entity.table = .ok asked ∧
      d.Continues (d.query.reset.omissions asked) d' := by
  unfold addAll at h
  obtain ⟨params, hparams, h⟩ := bind_eq_ok.mp h
  obtain ⟨d₁, hd₁, h⟩ := bind_eq_ok.mp h
  obtain ⟨keys, hkeys, h⟩ := bind_eq_ok.mp h
  obtain ⟨paths, hpaths, h⟩ := bind_eq_ok.mp h
  obtain ⟨choice, hchoice, h⟩ := bind_eq_ok.mp h
  obtain ⟨d₂, hd₂, h⟩ := bind_eq_ok.mp h
  obtain ⟨d₃, hd₃, h⟩ := bind_eq_ok.mp h
  obtain ⟨appended, happended, h⟩ := bind_eq_ok.mp h
  obtain ⟨parsed, hparsed, -⟩ := bind_eq_ok.mp hd₁
  obtain ⟨names, hnames⟩ : ∃ names, chosenNames choice = .ok names := by
    unfold chosenNames
    unfold addFields at hd₂
    split at hd₂
    case isTrue hvoid => exact ⟨[], if_pos hvoid⟩
    case isFalse hvoid =>
      obtain ⟨spellings, hspellings, -⟩ := map_eq_ok.mp hd₂
      rw [if_neg hvoid, hspellings]
      exact ⟨_, rfl⟩
  refine ⟨⟨parsed, keys, paths, names⟩, ?_, ?_⟩
  · unfold asked parsedFilters
    rw [hparams, hkeys, hpaths, hchoice]
    show FilterParams.parse params >>= _ = _
    rw [hparsed]
    show chosenNames choice >>= _ = _
    rw [hnames]
    rfl
  · have hfiltered := continues_addFilters d hparsed d₁ hd₁
    have hsorted := continues_foldl continues_addSort d₁ keys
    have hincluded := continues_foldl continues_addInclude (keys.foldl addSort d₁) paths
    have hselected := continues_addFields _ hnames d₂ hd₂
    have hsearched := continues_addSearch d₂ p.search d₃ hd₃
    have hfinished := continues_addPage (d₃.addAppends appended) p d' h
    rw [hincluded.reset, hsorted.reset, hfiltered.reset] at hselected
    rw [hsorted.reset, hfiltered.reset] at hincluded
    rw [hfiltered.reset] at hsorted
    have hnamed := ((hfiltered.trans hsorted).trans hincluded).trans hselected
    have hall := (hnamed.trans hsearched).trans
      ((continues_addAppends d₃ appended).trans hfinished)
    simp only [List.append_nil] at hall
    exact hall

end Draft

end ListQuery
