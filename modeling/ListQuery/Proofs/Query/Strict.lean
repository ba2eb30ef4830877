import ListQuery.Proofs.Query.Judged

/-!
# Requests under strict rules

Strict rules give a query exactly where the lenient ones leave nothing out of the request, and then
it is the same query. An operand that cannot be read fails the request on the spot, everything else
is left out under both rules and counts at the end.

* `lenient_of_strict`, `strict_of_lenient` — what both rules take;
* `filterAll_rejected` — an operand that cannot be read;
* `ofRequest_strict` — requests under both rules.
-/

namespace ListQuery

namespace Query

-- ---------------------------------------------------------------------------
-- Requests under strict rules
-- ---------------------------------------------------------------------------

section
variable {e : Entity} {s : Settings} {p : RequestParams}

theorem fresh_lenient (e : Entity) (s : Settings) : fresh e s.lenient = (fresh e s).lenient := rfl

/-- A filter that strict rules let pass is judged alike. -/
theorem Admits.judgedAlike (hs : s.strict = true) {f : Filter} (h : (fresh e s).Admits f) :
    (fresh e s).JudgedAlike f := by
  rcases alike_or_malformed (q := fresh e s) hs f with hf | ⟨message, hm⟩
  · exact hf
  · exact absurd h hm.not_admits

/-- A filter of readable operands is judged alike. -/
theorem judgedAlike_of_readable (hs : s.strict = true) {f : Filter}
    (h : ∀ message, ¬(fresh e s).Malformed f message) : (fresh e s).JudgedAlike f :=
  (alike_or_malformed (q := fresh e s) hs f).resolve_right fun ⟨message, hm⟩ => h message hm

/-- A filter that the lenient rules do not leave out is judged alike. -/
theorem judgedAlike_of_omittedFilter? (hs : s.strict = true) {f : Filter}
    (h : (fresh e s).lenient.omittedFilter? f = none) : (fresh e s).JudgedAlike f := by
  rcases alike_or_malformed (q := fresh e s) hs f with hf | ⟨message, -, hm⟩
  · exact hf
  · unfold omittedFilter? at h
    rw [hm] at h
    cases h

theorem follow_fresh_lenient {asked : Asked} (hasked : p.asked e.table = .ok asked)
    (h : ∀ f ∈ asked.parsed.filters, (fresh e s).JudgedAlike f) :
    ((fresh e s).follow p).map lenient = (fresh e s).lenient.follow p := by
  refine follow_lenient fun parsed hparsed => ?_
  obtain rfl := Except.ok.inj ((parsedFilters_of_asked hasked).symm.trans hparsed)
  exact h

/-- What the lenient rules make of the filters of a request that they take. -/
theorem judgedAlike_of_follow (hs : s.strict = true) {asked : Asked}
    (hasked : p.asked e.table = .ok asked) {q : Query} (h : (fresh e s).follow p = .ok q) :
    ∀ f ∈ asked.parsed.filters, (fresh e s).JudgedAlike f := by
  obtain ⟨asked', hasked', q₁, hq₁, -⟩ := follow_eq_ok.mp h
  obtain rfl := Except.ok.inj (hasked.symm.trans hasked')
  exact fun f hf => Admits.judgedAlike hs ((filterAll_eq_ok.mp hq₁).1 f hf)

/-- What strict rules take, the lenient ones take with no more warnings than the request's own. -/
theorem lenient_of_strict (hs : s.strict = true) {q : Query} (h : ofRequest e s p = .ok q) :
    ofRequest e s.lenient p = .ok q.lenient ∧ p.ownWarnings = .ok q.warnings := by
  obtain ⟨own, asked, hown, hasked, hfollow, hwarnings, hnone⟩ := ofRequest_eq_ok.mp h
  have halike := judgedAlike_of_follow hs hasked hfollow
  have hfollow' : (fresh e s).lenient.follow p = .ok q.lenient.unwarned := by
    rw [← follow_fresh_lenient hasked halike, hfollow]
    rfl
  have homitted : (fresh e s).lenient.omissions asked = [] :=
    (omissions_lenient halike).trans (hnone hs)
  rw [hnone hs, Omissions.warnings, List.map_nil, List.append_nil] at hwarnings
  refine ⟨ofRequest_eq_ok.mpr ⟨own, asked, hown, hasked, hfollow', ?_, fun _ => homitted⟩, ?_⟩
  · rw [fresh_lenient, homitted, Omissions.warnings, List.map_nil, List.append_nil]
    exact hwarnings
  · rw [hwarnings, hown]

/-- What the lenient rules take with no more warnings than the request's own, strict ones take. -/
theorem strict_of_lenient (hs : s.strict = true) {q : Query} (h : ofRequest e s.lenient p = .ok q)
    (hown : p.ownWarnings = .ok q.warnings) :
    ofRequest e s p = .ok { q with settings := s } := by
  obtain ⟨own, asked, hown', hasked, hfollow, hwarnings, -⟩ := ofRequest_eq_ok.mp h
  obtain rfl := Except.ok.inj (hown'.symm.trans hown)
  rw [fresh_lenient] at hfollow hwarnings
  have hnone : (fresh e s).lenient.omissions asked = [] := by
    simpa [Omissions.warnings] using hwarnings
  have halike : ∀ f ∈ asked.parsed.filters, (fresh e s).JudgedAlike f := by
    intro f hf
    refine judgedAlike_of_omittedFilter? hs (List.filterMap_eq_nil_iff.mp ?_ f hf)
    unfold omissions at hnone
    simp only [List.append_eq_nil_iff] at hnone
    exact hnone.1.1.1.2
  rw [← follow_fresh_lenient hasked halike] at hfollow
  obtain ⟨r, hr, hlenient⟩ := map_eq_ok.mp hfollow
  have hsettings : r.settings = s := congrArg Query.settings (reset_follow hr)
  have hunwarned : r = { q.unwarned with settings := s } := by
    rw [← hlenient, ← hsettings]
    rfl
  have homitted : (fresh e s).omissions asked = [] := (omissions_lenient halike).symm.trans hnone
  refine ofRequest_eq_ok.mpr ⟨q.warnings, asked, hown, hasked, ?_, ?_, fun _ => homitted⟩
  · rw [hr, hunwarned]
    rfl
  · rw [homitted, Omissions.warnings, List.map_nil, List.append_nil]

/-- Filters that the lenient rules let pass are rejected by strict ones if an operand of any of them
cannot be read. -/
theorem filterAll_rejected (hs : s.strict = true) {fs : List Filter}
    (hadmits : ∀ f ∈ fs, (fresh e s).lenient.Admits f) {f : Filter} (hf : f ∈ fs) {message : String}
    (hm : (fresh e s).Malformed f message) :
    ∃ errors, (fresh e s).filterAll fs = .error (.rejected errors) := by
  cases hfilters : (fresh e s).filterAll fs with
  | ok q => exact absurd ((filterAll_eq_ok.mp hfilters).1 f hf) hm.not_admits
  | error fail =>
    obtain ⟨before, g, after, rfl, -, hg⟩ := filterAll_eq_error.mp hfilters
    rcases alike_or_malformed (q := fresh e s) hs g with halike | ⟨message', hm'⟩
    · exact absurd (halike.1.trans hg) (hadmits g (List.mem_append_right _ List.mem_cons_self) fail)
    · obtain rfl := Refusal.failed.inj (Except.error.inj (hg.symm.trans hm'.1))
      exact ⟨_, rfl⟩

/-- What the lenient rules leave something out of, strict ones reject. -/
theorem rejected_of_lenient (hs : s.strict = true) {q : Query} {own : List Value} {asked : Asked}
    (hown : p.ownWarnings = .ok own) (hasked : p.asked e.table = .ok asked)
    (hfollow : (fresh e s).lenient.follow p = .ok q)
    (hne : (fresh e s).lenient.omissions asked ≠ []) :
    ∃ errors, ofRequest e s p = .error (.rejected errors) := by
  by_cases halike : ∀ f ∈ asked.parsed.filters, (fresh e s).JudgedAlike f
  · rw [← follow_fresh_lenient hasked halike] at hfollow
    obtain ⟨r, hr, -⟩ := map_eq_ok.mp hfollow
    rw [omissions_lenient halike] at hne
    exact ⟨_, ofRequest_eq_rejected.mpr ⟨own, hown, .inr ⟨hs, asked, r, hasked, hr, hne, rfl⟩⟩⟩
  · simp only [not_forall] at halike
    obtain ⟨f, hf, hnot⟩ := halike
    obtain ⟨message, hm⟩ := (alike_or_malformed (q := fresh e s) hs f).resolve_left hnot
    obtain ⟨asked', hasked', q₁, hq₁, -⟩ := follow_eq_ok.mp hfollow
    obtain rfl := Except.ok.inj (hasked.symm.trans hasked')
    obtain ⟨errors, herrors⟩ := filterAll_rejected hs (filterAll_eq_ok.mp hq₁).1 hf hm
    have hrejected := follow_eq_rejected.mpr ⟨asked.parsed, parsedFilters_of_asked hasked, herrors⟩
    exact ⟨errors, ofRequest_eq_rejected.mpr ⟨own, hown, .inl hrejected⟩⟩

/-- Strict rules give a query exactly where the lenient ones add no warning to those of the request,
and it is the same query; where these leave something out, strict rules reject the request. -/
theorem ofRequest_strict (hs : s.strict = true) :
    (∀ q, ofRequest e s p = .ok q ↔ ∃ q', ofRequest e s.lenient p = .ok q' ∧
      p.ownWarnings = .ok q'.warnings ∧ q = { q' with settings := s }) ∧
    ∀ q', ofRequest e s.lenient p = .ok q' → ∃ own further, p.ownWarnings = .ok own ∧
      q'.warnings = own ++ further ∧
      (further ≠ [] → ∃ errors, ofRequest e s p = .error (.rejected errors)) := by
  refine ⟨fun q => ⟨fun h => ?_, ?_⟩, fun q' h => ?_⟩
  · obtain ⟨hlenient, hown⟩ := lenient_of_strict hs h
    have hback := strict_of_lenient hs hlenient hown
    exact ⟨q.lenient, hlenient, hown, Except.ok.inj (h.symm.trans hback)⟩
  · rintro ⟨q', h, hown, rfl⟩
    exact strict_of_lenient hs h hown
  · obtain ⟨own, asked, hown, hasked, hfollow, hwarnings, -⟩ := ofRequest_eq_ok.mp h
    refine ⟨own, _, hown, hwarnings, fun hfurther => ?_⟩
    refine rejected_of_lenient hs hown hasked hfollow fun hnone => hfurther ?_
    rw [fresh_lenient, hnone]
    rfl

end

end Query

-- ---------------------------------------------------------------------------
-- A request that strict rules reject
-- ---------------------------------------------------------------------------

/-- Tickets, which are known by their number. -/
def Entity.tickets : Entity where
  table            := "tickets"
  filterFields     := ["id"]
  sortFields       := ["id"]
  selectFields     := ["id"]
  includePaths     := []
  defaultSort      := none
  defaultSelection := none
  searchFields     := []
  primaryKey       := "id"
  softDelete       := none
  types            := [("id", .integer)]
  relations        := []

/-- The settings of a service that rejects what it does not take. -/
def Settings.rejecting : Settings := { Settings.standard with strict := true }

/-- Tickets of a number, in an order that is not allowed. -/
def ticketRequest (number : String) : RequestParams :=
  .ofItems [("filter[id]", number), ("sort", "opened_at")]

set_option maxRecDepth 4000 in
/-- Without the order, the ticket is asked for alike under both rules; with it, strict rules reject
the request. -/
theorem Query.ofRequest_strict_tickets :
    Settings.rejecting.strict = true ∧
    (∃ q, Query.ofRequest .tickets .rejecting (.ofItems [("filter[id]", "7")]) = .ok q ∧
      q.filters.length = 1 ∧ q.warnings = []) ∧
    (∃ q, Query.ofRequest .tickets (Settings.lenient .rejecting) (ticketRequest "7") = .ok q ∧
      q.warnings.length = 1) ∧
    ∃ errors, Query.ofRequest .tickets .rejecting (ticketRequest "7") =
      .error (.rejected errors) := by
  obtain ⟨q, hq, hfilters, hsilent⟩ : ∃ q, Query.ofRequest .tickets (Settings.lenient .rejecting)
      (.ofItems [("filter[id]", "7")]) = .ok q ∧ q.filters.length = 1 ∧ q.warnings = [] :=
    ⟨_, rfl, rfl, rfl⟩
  obtain ⟨q', hq', hwarned⟩ : ∃ q, Query.ofRequest .tickets (Settings.lenient .rejecting)
      (ticketRequest "7") = .ok q ∧ q.warnings.length = 1 := ⟨_, rfl, rfl⟩
  have htaken := ((Query.ofRequest_strict (s := .rejecting) rfl).1 _).mpr
    ⟨q, hq, congrArg Except.ok hsilent.symm, rfl⟩
  obtain ⟨own, further, hown, hwarnings, hrejected⟩ :=
    (Query.ofRequest_strict (s := .rejecting) rfl).2 q' hq'
  obtain rfl : [] = own := Except.ok.inj hown
  refine ⟨rfl, ⟨_, htaken, hfilters, hsilent⟩, ⟨q', hq', hwarned⟩, hrejected ?_⟩
  rintro rfl
  rw [hwarnings] at hwarned
  cases hwarned

end ListQuery
