import ListQuery.Proofs.Query.MalformedOperands
import ListQuery.Proofs.Query.Outcome
import ListQuery.Proofs.Query.TextOperands
import ListQuery.Proofs.Query.WellFormed
import ListQuery.Proofs.Schema.Coercion

/-!
# What a query holds, asked for again

The filters, sorts and includes of a query can be asked for again, of a fresh query of the same
entity: all of them are accepted, each as it is, whatever the settings of the fresh query are. The
filters are the reason why this needs a proof, as their operands were converted when they were
accepted, and acceptance converts them once more.

* `checkDocument_of_checkDocument`, `convert_of_converted` — operands that have been accepted;
* `accept_of_accept` — filters that have been accepted;
* `sortAll_of_allowed`, `foldl_includePath_of_allowed` — sorts and includes;
* `Reachable.replay_eq` — all that a query holds.
-/

namespace ListQuery

theorem Operand.Related.diagonal {R S : Value → Value → Prop} {o o' : Operand}
    (h : o.Related R o') (hRS : ∀ v w, R v w → S w w) : o'.Related S o' := by
  cases h with
  | single h => exact .single (hRS _ _ h)
  | range hlow hhigh => exact .range (hRS _ _ hlow) (hRS _ _ hhigh)
  | multiple h =>
    refine .multiple (List.forall₂_same.mpr fun w hw => ?_)
    obtain ⟨v, -, hv⟩ := exists_of_mem_forall₂ h hw
    exact hRS v w hv

namespace Query

variable {q q' : Query} {raw f : Filter} {t : ColumnType}

-- ---------------------------------------------------------------------------
-- Filters
-- ---------------------------------------------------------------------------

/-- What was stored for a value is read as itself. -/
theorem coerce_of_convertOperand {v w : Value} (h : q.convertOperand f t v = .ok w) :
    coerce t w = .ok w := by
  rcases convertOperand_eq_ok h with hread | hzero
  · exact coerce_of_coerce hread
  · exact coerce_of_zero? hzero

/-- Operands that have been converted are converted to themselves. -/
theorem convert_of_converted {operand : Operand}
    (h : raw.operand.mapM (q.convertOperand raw t) = .ok operand) (q' : Query) :
    q'.convert { raw with operand } t = .ok { raw with operand } := by
  have hread : operand.Related (fun v w => coerce t v = .ok w) operand :=
    (Operand.mapM_eq_ok_iff.mp h).diagonal fun _ _ => coerce_of_convertOperand
  exact convert_of_readable hread

/-- A document that has passed the check passes it again. -/
theorem checkDocument_of_checkDocument {v w : Value} (h : q.checkDocument f v = .ok w)
    (q' : Query) : q'.checkDocument f v = .ok w := by
  cases v with
  | text s =>
    unfold checkDocument at h ⊢
    dsimp only at h ⊢
    split at h
    · exact h
    · cases h
    · cases h
  | _ => exact h

theorem checkDocuments_of_checkDocuments {operand : Operand}
    (h : raw.operand.mapM (q.checkDocument raw) = .ok operand) (q' : Query) :
    q'.checkDocuments raw = .ok raw := by
  have hagain : raw.operand.mapM (q'.checkDocument raw) = .ok operand :=
    Operand.mapM_eq_ok_iff.mpr <| (Operand.mapM_eq_ok_iff.mp h).imp fun _ _ hv =>
      checkDocument_of_checkDocument hv q'
  rw [checkDocuments, hagain]
  rfl

/-- A filter that has been accepted is accepted again as it is, under any settings. -/
theorem accept_of_accept (hentity : q'.entity = q.entity) (h : q.accept raw = .ok f) :
    q'.accept f = .ok f := by
  obtain ⟨hallowed, htaken⟩ := accept_eq_ok h
  rw [← htaken.field_eq] at hallowed
  unfold accept
  rw [hentity, if_pos hallowed]
  -- the filter goes the way that it went the first time, with the operand it then got
  cases htaken with
  | pathNumber hpath hworks hordering hoperand =>
    simp only [hpath, acceptOnPath, hworks, hordering, if_true]
    exact convert_of_converted hoperand q'
  | pathText hpath hworks hordering =>
    simp [hpath, acceptOnPath, hworks, hordering]
  | document hpath hcolumn hjsonb hdocument hoperand =>
    simp only [hpath, hcolumn, acceptOnColumn, hjsonb, hdocument]
    simpa using checkDocuments_of_checkDocuments hoperand q'
  | converted hpath hcolumn hvalues hoperand =>
    simp only [hpath, hcolumn]
    refine (acceptOnColumn_plain fun hjson => ?_).trans ((if_pos hvalues).trans ?_)
    · have hjson : raw.operator.category = .json := hjson
      simp [hjson, Category.comparesValues] at hvalues
    · exact convert_of_converted hoperand q'
  | asGiven hpath hcolumn hjsonb hdocument hvalues =>
    simpa [hpath, hcolumn, acceptOnColumn, hdocument, hvalues] using hjsonb

theorem filterAll_of_accepted {fs : List Filter} (h : ∀ f ∈ fs, q.accept f = .ok f) :
    q.filterAll fs = .ok { q with filters := q.filters ++ fs } := by
  have haccepted : ∀ f ∈ fs, q.accepted? f = some f := by
    intro f hf
    rw [accepted?, h f hf]
    rfl
  refine filterAll_eq_ok.mpr ⟨fun f hf fail => ?_, ?_⟩
  · simp [h f hf]
  · have hall : fs.filterMap q.accepted? = fs := by
      rw [List.filterMap_congr haccepted, List.filterMap_some]
    rw [hall]

-- ---------------------------------------------------------------------------
-- Sorts and includes
-- ---------------------------------------------------------------------------

theorem sortAll_of_allowed {ss : List SortKey} (h : ∀ s ∈ ss, q.entity.allowsSort s.field = true) :
    q.sortAll ss = { q with sorts := q.sorts ++ ss } := by
  induction ss generalizing q with
  | nil => simp [sortAll]
  | cons s ss ih =>
    obtain ⟨hs, hss⟩ := List.forall_mem_cons.mp h
    have hfirst : q.sort s = { q with sorts := q.sorts ++ [s] } := by simp [sort, hs]
    have hrest := ih (q := q.sort s) (by simpa [hfirst] using hss)
    simpa [sortAll, hfirst] using hrest

/-- Paths that are allowed and not there yet come behind those that are. -/
theorem foldl_includePath_of_allowed {paths : List String}
    (h : ∀ path ∈ paths, q.entity.allowsInclude path = true) (hnew : (q.includes ++ paths).Nodup) :
    paths.foldl includePath q = { q with includes := q.includes ++ paths } := by
  induction paths generalizing q with
  | nil => simp
  | cons path paths ih =>
    obtain ⟨hpath, hpaths⟩ := List.forall_mem_cons.mp h
    have hfresh : path ∉ q.includes := fun hmem =>
      List.disjoint_of_nodup_append hnew hmem List.mem_cons_self
    have hfirst : q.includePath path = { q with includes := q.includes ++ [path] } := by
      simp [includePath, hpath, hfresh]
    have hrest := ih (q := q.includePath path) (by simpa [hfirst] using hpaths)
      (by simpa [hfirst] using hnew)
    simpa [hfirst] using hrest

-- ---------------------------------------------------------------------------
-- Everything
-- ---------------------------------------------------------------------------

/-- The query with all that another one holds: its filters, its sorts and its includes. -/
def replay (fresh held : Query) : Except Failure Query :=
  (fresh.filterAll held.filters).map fun q => held.includes.foldl includePath (q.sortAll held.sorts)

/-- A query in which nothing of what the other one holds is refused or there already. -/
theorem replay_of_accepted {fresh held : Query}
    (hfilters : ∀ f ∈ held.filters, fresh.accept f = .ok f)
    (hsorts : ∀ s ∈ held.sorts, fresh.entity.allowsSort s.field = true)
    (hincludes : ∀ path ∈ held.includes, fresh.entity.allowsInclude path = true)
    (hnew : (fresh.includes ++ held.includes).Nodup) :
    replay fresh held =
      .ok { fresh with
        filters  := fresh.filters ++ held.filters
        sorts    := fresh.sorts ++ held.sorts
        includes := fresh.includes ++ held.includes } := by
  let filtered : Query := { fresh with filters := fresh.filters ++ held.filters }
  have hsorted : filtered.sortAll held.sorts =
      { filtered with sorts := fresh.sorts ++ held.sorts } := sortAll_of_allowed hsorts
  rw [replay, filterAll_of_accepted hfilters, Except.map, hsorted]
  exact congrArg Except.ok (foldl_includePath_of_allowed hincludes hnew)

/-- What a query holds comes to the same in a fresh query: each filter is accepted as it is, since a
value that a type gives is one that it keeps, and no sort and no include is left out. It needs no
particular settings, so strict rules reject nothing of it either. -/
theorem Reachable.replay_eq (h : q.Reachable) :
    (∀ (t : ColumnType) (v w : Value), coerce t v = .ok w → coerce t w = .ok w) ∧
    ∀ s : Settings,
      (∀ f ∈ q.filters, accept { entity := q.entity, settings := s } f = .ok f) ∧
      replay { entity := q.entity, settings := s } q =
        .ok { entity := q.entity, settings := s, filters := q.filters, sorts := q.sorts,
              includes := q.includes } := by
  refine ⟨fun t v w => coerce_of_coerce, fun s => ?_⟩
  have hwell := h.isWellFormed
  have haccepted : ∀ f ∈ q.filters, accept { entity := q.entity, settings := s } f = .ok f := by
    intro f hf
    obtain ⟨raw, hraw⟩ := h.hasAcceptedFilters f hf
    exact accept_of_accept (q := q) rfl hraw
  have hreplay := replay_of_accepted haccepted hwell.sorts hwell.includes
    (by simpa using hwell.distinct)
  exact ⟨haccepted, by simpa using hreplay⟩

end Query

-- ---------------------------------------------------------------------------
-- A query that was asked for with texts
-- ---------------------------------------------------------------------------

/-- Invoices with an amount, a discount, the day they are due, and notes in a document. -/
def Entity.invoices : Entity where
  table            := "invoices"
  filterFields     := ["amount", "discount", "paid", "due", "notes.level"]
  sortFields       := ["due"]
  selectFields     := ["id"]
  includePaths     := ["customer"]
  defaultSort      := none
  defaultSelection := none
  searchFields     := []
  primaryKey       := "id"
  softDelete       := none
  types            := [("id", .integer), ("amount", .numeric), ("discount", .float),
    ("paid", .boolean), ("due", .date), ("notes", .jsonb)]
  relations        := []

/-- Calls with texts only, the second one of which is no number. -/
def textCalls : List (String × List Value) :=
  [("where_gte", [.text "amount", .text " 1.50"]), ("where_ne", [.text "discount", .text "much"]),
    ("where_in", [.text "paid", .list [.text "YES", .text "0"]]),
    ("where_lt", [.text "due", .text "2024-02-28"]), ("where_gt", [.text "notes.level", .text "3"]),
    ("order_by_desc", [.text "due"]), ("with_", [.text " customer"])]

/-- What is stored for them. -/
def storedFilters : List Filter :=
  [.compare .gte "amount" (.decimal (.finite false 150 (-2))),
    .compare .ne "discount" (.float (Number.Double.zero false)),
    ⟨"paid", .isIn, .multiple [.bool true, .bool false], false⟩,
    .compare .lt "due" (.date ⟨2024, 2, 28, by decide⟩),
    .compare .gt "notes.level" (.float (Number.Double.ofScientific false 3 0))]

set_option maxRecDepth 4000 in
/-- A decimal with its last zero, a zero in the place of a text, truth values, a day and a number at a
path of a document: what was made of the texts stands as it is under strict rules. -/
theorem Query.Reachable.replay_eq_invoices :
    ∃ q, Query.callAll { entity := .invoices } textCalls = .ok q ∧ q.Reachable ∧
      q.filters = storedFilters ∧
      Query.replay { entity := .invoices, settings := { strict := true } } q =
        .ok { entity := .invoices, settings := { strict := true }, filters := storedFilters,
              sorts := [⟨"due", .descending⟩], includes := ["customer"] } := by
  obtain ⟨q, hq, hentity, hfilters, hsorts, hincludes⟩ : ∃ q,
      Query.callAll { entity := .invoices } textCalls = .ok q ∧ q.entity = .invoices ∧
      q.filters = storedFilters ∧ q.sorts = [⟨"due", .descending⟩] ∧ q.includes = ["customer"] :=
    ⟨_, rfl, rfl, rfl, rfl, rfl⟩
  have hreachable : q.Reachable := .callAll (.fresh .invoices .standard) hq
  have hreplay := ((Query.Reachable.replay_eq hreachable).2 { strict := true }).2
  rw [hentity, hfilters, hsorts, hincludes] at hreplay
  exact ⟨q, hq, hreachable, hfilters, hreplay⟩

end ListQuery
