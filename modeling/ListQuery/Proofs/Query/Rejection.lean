import ListQuery.Proofs.Query.Strict

/-!
# The errors of a rejection

Strict rules reject a request for all that they leave out of it together, each with the reason of
which the lenient ones warn. But an operand that cannot be read rejects it alone and at once, and
warnings that the request brings along are not repeated among the errors.

* `reasonOf_of_mem_omissions` — whatever else is left out, the warning is its reason;
* `StrictRejection` — the two ways in which a request is rejected;
* `ofRequest_strict_rejected` — the errors of a rejection, and when they name all that is left out.
-/

namespace ListQuery

namespace Query

variable {e : Entity} {s : Settings} {p : RequestParams}

/-- Filters that cannot be parsed are given reasons of their own. -/
theorem reasonOf_of_mem_warnings {parsed : ParsedFilters} (h : p.parsedFilters = .ok parsed)
    {warning : String} (hw : warning ∈ parsed.warnings) : reasonOf warning = warning := by
  obtain ⟨params, -, h⟩ := bind_eq_ok.mp h
  obtain ⟨results, hresults, h⟩ := bind_eq_ok.mp h
  obtain rfl := Except.ok.inj h
  have hunknown : ∀ field spelling operand (message : String),
      FilterParams.filterFor field spelling operand = .error message →
        reasonOf message = message := by
    intro field spelling operand message hmessage
    unfold FilterParams.filterFor at hmessage
    split at hmessage
    · cases hmessage
    · obtain rfl := Except.error.inj hmessage
      exact reasonOf_append _ (by decide)
  obtain ⟨result, hresult, hwarning⟩ := List.mem_filterMap.mp hw
  obtain ⟨rs, hrs, hresult⟩ := List.mem_flatten.mp hresult
  obtain ⟨param, -, hparam⟩ := exists_of_mem_forall₂ (mapM_eq_ok.mp hresults) hrs
  cases result with
  | ok f => cases hwarning
  | error message =>
    obtain rfl := Option.some.inj hwarning
    unfold FilterParams.ofField at hparam
    split at hparam
    · obtain rfl := Except.ok.inj hparam
      obtain ⟨operand, -, hoperand⟩ := List.mem_map.mp hresult
      exact hunknown _ _ _ _ hoperand
    · split at hparam
      · obtain rfl := Except.ok.inj hparam
        have hbare := List.mem_singleton.mp hresult
        unfold FilterParams.bareFilter at hbare
        split at hbare
        · exact hunknown _ _ _ _ hbare.symm
        · cases hbare
      · cases hparam

/-- When the filters are judged alike, every warning is its own reason. -/
theorem reasonOf_of_mem_omissions {table : String} {asked : Asked}
    (hasked : p.asked table = .ok asked) {q : Query}
    (h : ∀ f ∈ asked.parsed.filters, q.JudgedAlike f) {o : String × String}
    (ho : o ∈ q.omissions asked) : reasonOf o.2 = o.2 := by
  unfold omissions at ho
  simp only [List.mem_append, List.mem_map, List.mem_filterMap] at ho
  rcases ho with
    (((⟨warning, hw, rfl⟩ | ⟨f, hf, ho⟩) | ⟨key, -, ho⟩) | ⟨path, -, ho⟩) | ⟨name, -, ho⟩
  · exact reasonOf_of_mem_warnings (parsedFilters_of_asked hasked) hw
  · unfold omittedFilter? at ho
    split at ho
    case h_1 reason hreason =>
      obtain rfl := Option.some.inj ho
      exact (h f hf).2 _ hreason
    case h_2 => cases ho
  · unfold omittedSort? at ho
    split at ho
    · cases ho
    · obtain rfl := Option.some.inj ho
      exact reasonOf_append _ (by decide)
  · unfold omittedInclude? at ho
    split at ho
    · cases ho
    · obtain rfl := Option.some.inj ho
      exact reasonOf_append _ (by decide)
  · unfold omittedField? at ho
    split at ho
    · cases ho
    · obtain rfl := Option.some.inj ho
      exact reasonOf_append _ (by decide)

/-- How strict rules reject a request: at once, for an operand of the first filter with one that
cannot be read, or for everything together that it leaves out. -/
inductive StrictRejection (e : Entity) (s : Settings) (p : RequestParams) : Rejections → Prop
  | atOnce {own : List Value} {parsed : ParsedFilters} {before after : List Filter} {f : Filter}
      {message : String} (hown : p.ownWarnings = .ok own) (hparsed : p.parsedFilters = .ok parsed)
      (hfilters : parsed.filters = before ++ f :: after)
      (hbefore : ∀ g ∈ before, (fresh e s).Admits g)
      (hmalformed : (fresh e s).Malformed f message) :
      StrictRejection e s p [(f.field, [message])]
  | together {own : List Value} {asked : Asked} {q : Query} (hown : p.ownWarnings = .ok own)
      (hasked : p.asked e.table = .ok asked)
      (hreadable : ∀ f ∈ asked.parsed.filters, ∀ message, ¬(fresh e s).Malformed f message)
      (hlenient : ofRequest e s.lenient p = .ok q)
      (hwarnings : q.warnings = own ++ ((fresh e s).omissions asked).warnings)
      (hne : (fresh e s).omissions asked ≠ []) :
      StrictRejection e s p ((fresh e s).omissions asked).gathered

theorem ofRequest_eq_rejected_strict (hs : s.strict = true) {errors : Rejections} :
    ofRequest e s p = .error (.rejected errors) ↔ StrictRejection e s p errors := by
  rw [ofRequest_eq_rejected]
  constructor
  · rintro ⟨own, hown, hfollow | ⟨-, asked, q, hasked, hfollow, hne, rfl⟩⟩
    · obtain ⟨parsed, hparsed, hfilters⟩ := follow_eq_rejected.mp hfollow
      obtain ⟨before, f, after, hfs, hbefore, hf⟩ := filterAll_eq_error.mp hfilters
      rcases alike_or_malformed (q := fresh e s) hs f with halike | ⟨message, hm⟩
      · exact absurd rfl (halike.2 _ hf errors)
      · have hfail := Refusal.failed.inj (Except.error.inj (hf.symm.trans hm.1))
        obtain rfl := Failure.rejected.inj hfail
        exact .atOnce hown hparsed hfs hbefore hm
    · have halike := judgedAlike_of_follow hs hasked hfollow
      have homitted := omissions_lenient halike
      have hlenient : (fresh e s).lenient.follow p = .ok q.lenient := by
        rw [← follow_fresh_lenient hasked halike, hfollow]
        rfl
      have hunwarned : q.lenient = { q.lenient with warnings := [] } := by
        obtain ⟨d, -, rfl⟩ := map_eq_ok.mp ((map_core_draft hown).trans hfollow)
        rfl
      refine .together (q := { q.lenient with warnings := own ++ _ }) hown hasked
        (fun f hf => (halike f hf).not_malformed) ?_ rfl hne
      refine ofRequest_eq_ok.mpr ⟨own, asked, hown, hasked, ?_, ?_, fun h => (nomatch h)⟩
      · rw [fresh_lenient, hlenient]
        exact congrArg Except.ok hunwarned
      · rw [fresh_lenient, homitted]
  · intro h
    cases h with
    | @atOnce own parsed before after f message hown hparsed hfilters hbefore hm =>
      refine ⟨own, hown, .inl (follow_eq_rejected.mpr ⟨parsed, hparsed, ?_⟩)⟩
      exact filterAll_eq_error.mpr ⟨before, f, after, hfilters, hbefore, hm.1⟩
    | @together own asked q hown hasked hreadable hlenient hwarnings hne =>
      have halike := fun f hf => judgedAlike_of_readable hs (hreadable f hf)
      obtain ⟨own', asked', -, hasked', hfollow, -, -⟩ := ofRequest_eq_ok.mp hlenient
      obtain rfl := Except.ok.inj (hasked.symm.trans hasked')
      rw [fresh_lenient, ← follow_fresh_lenient hasked halike] at hfollow
      obtain ⟨r, hr, -⟩ := map_eq_ok.mp hfollow
      exact ⟨own, hown, .inr ⟨hs, asked, r, hasked, hr, hne, rfl⟩⟩

/-- The errors have the reason of each of the warnings, as often as it is given, and no other. -/
def Complete (errors : Rejections) (warnings : List Value) : Prop :=
  ((Omissions.messagesOf errors).map Value.text).Perm (warnings.map Value.reason)

theorem Complete.length_eq {errors : Rejections} {warnings : List Value}
    (h : Complete errors warnings) : (Omissions.messagesOf errors).length = warnings.length := by
  have hlength := List.Perm.length_eq h
  rwa [List.length_map, List.length_map] at hlength

/-- A single message names all that is left out if nothing else is. -/
theorem complete_single_iff {own : List Value} {log : Omissions} {field parameter message : String}
    (hmem : (parameter, message ++ ", filter ignored") ∈ log) :
    Complete [(field, [message])] (own ++ log.warnings) ↔
      own = [] ∧ (own ++ log.warnings).length = 1 := by
  have hlog : 0 < log.length := List.length_pos_of_mem hmem
  have hlength : (own ++ log.warnings).length = own.length + log.length := by
    rw [List.length_append, Omissions.warnings, List.length_map]
  constructor
  · intro h
    have hone : 1 = (own ++ log.warnings).length := h.length_eq
    exact ⟨List.length_eq_zero_iff.mp (by omega), hone.symm⟩
  · rintro ⟨rfl, hone⟩
    rw [List.nil_append, Omissions.warnings, List.length_map] at hone
    obtain ⟨o, rfl⟩ := List.length_eq_one_iff.mp hone
    obtain rfl := List.mem_singleton.mp hmem
    show List.Perm [Value.text message] [.text (reasonOf (message ++ ", filter ignored"))]
    rw [reasonOf_ignored]

/-- Messages that are gathered by parameter name all that is left out if there are no other
warnings. -/
theorem complete_gathered_iff {own : List Value} {log : Omissions}
    (hreason : ∀ o ∈ log, reasonOf o.2 = o.2) :
    Complete log.gathered (own ++ log.warnings) ↔ own = [] := by
  constructor
  · intro h
    have hlength := h.length_eq
    rw [(Omissions.gathered_perm log).length_eq, List.length_append, Omissions.warnings,
      List.length_map, List.length_map] at hlength
    exact List.length_eq_zero_iff.mp (by omega)
  · rintro rfl
    have hwarnings : log.warnings.map Value.reason = (log.map (·.2)).map Value.text := by
      rw [Omissions.warnings, List.map_map, List.map_map]
      exact List.map_congr_left fun o ho => congrArg Value.text (hreason o ho)
    unfold Complete
    rw [List.nil_append, hwarnings]
    exact (Omissions.gathered_perm log).map Value.text

/-- The errors of a rejection are either those of the first operand that cannot be read, alone, or
those of all that is left out. They name all that the lenient rules warn of if the request brings no
warnings of its own, and no operand is unreadable or nothing else is left out. -/
theorem ofRequest_strict_rejected (hs : s.strict = true) :
    (∀ errors, ofRequest e s p = .error (.rejected errors) ↔ StrictRejection e s p errors) ∧
    ∀ errors q, ofRequest e s p = .error (.rejected errors) → ofRequest e s.lenient p = .ok q →
      (Complete errors q.warnings ↔ p.ownWarnings = .ok [] ∧
        ((∀ parsed, p.parsedFilters = .ok parsed → ∀ f ∈ parsed.filters, ∀ message,
          ¬(fresh e s).Malformed f message) ∨ q.warnings.length = 1)) := by
  refine ⟨fun errors => ofRequest_eq_rejected_strict hs, fun errors q hrejected hlenient => ?_⟩
  obtain ⟨own, asked, hown, hasked, -, hwarnings, -⟩ := ofRequest_eq_ok.mp hlenient
  have hparsed := parsedFilters_of_asked hasked
  have hempty : p.ownWarnings = .ok [] ↔ own = [] := by
    rw [hown]
    exact ⟨Except.ok.inj, congrArg Except.ok⟩
  rw [hempty, hwarnings]
  cases (ofRequest_eq_rejected_strict hs).mp hrejected with
  | @atOnce own' parsed before after f message hown' hparsed' hfilters hbefore hm =>
    obtain rfl := Except.ok.inj (hparsed.symm.trans hparsed')
    have hf : f ∈ asked.parsed.filters := by
      rw [hfilters]
      exact List.mem_append_right _ List.mem_cons_self
    have hmem : ("filter[" ++ f.field ++ "]", message ++ ", filter ignored") ∈
        (fresh e s.lenient).omissions asked := by
      have homitted : (fresh e s).lenient.omittedFilter? f =
          some ("filter[" ++ f.field ++ "]", message ++ ", filter ignored") := by
        unfold omittedFilter?
        rw [hm.2]
        rfl
      unfold omissions
      simp only [List.mem_append, List.mem_filterMap]
      exact .inl (.inl (.inl (.inr ⟨f, hf, homitted⟩)))
    rw [complete_single_iff hmem]
    refine and_congr_right fun _ => ⟨.inr, fun h => h.resolve_left fun hreadable => ?_⟩
    exact hreadable _ hparsed f hf message hm
  | @together own' asked' q' hown' hasked' hreadable hlenient' hwarnings' hne =>
    obtain rfl := Except.ok.inj (hasked.symm.trans hasked')
    have halike := fun f hf => judgedAlike_of_readable hs (hreadable f hf)
    rw [fresh_lenient, omissions_lenient halike,
      complete_gathered_iff fun o ho => reasonOf_of_mem_omissions hasked halike ho]
    refine ⟨fun h => ⟨h, .inl fun parsed hparsed' => ?_⟩, And.left⟩
    obtain rfl := Except.ok.inj (hparsed.symm.trans hparsed')
    exact hreadable

set_option maxRecDepth 4000 in
/-- The number that cannot be read hides the order that is not allowed. -/
theorem ofRequest_strict_rejected_tickets :
    Settings.rejecting.strict = true ∧
    ∃ q, ofRequest .tickets (Settings.lenient .rejecting) (ticketRequest "seven") = .ok q ∧
      q.warnings.length = 2 ∧
      ofRequest .tickets .rejecting (ticketRequest "seven") =
        .error (.reject "id" "Malformed value 'seven' for 'id'") ∧
      ¬Complete [("id", ["Malformed value 'seven' for 'id'"])] q.warnings := by
  obtain ⟨q, hq, hwarned⟩ : ∃ q, ofRequest .tickets (Settings.lenient .rejecting)
      (ticketRequest "seven") = .ok q ∧ q.warnings.length = 2 := ⟨_, rfl, rfl⟩
  have hmalformed : (fresh .tickets .rejecting).Malformed (.compare .eq "id" (.text "seven"))
      "Malformed value 'seven' for 'id'" := ⟨rfl, rfl⟩
  have hparsed : (ticketRequest "seven").parsedFilters =
      .ok ⟨[.compare .eq "id" (.text "seven")], []⟩ := rfl
  have hown : (ticketRequest "seven").ownWarnings = .ok [] := rfl
  have hfilters : [Filter.compare .eq "id" (.text "seven")] =
      [] ++ .compare .eq "id" (.text "seven") :: [] := rfl
  have hrejected := ((ofRequest_strict_rejected rfl).1 _).mpr
    (.atOnce hown hparsed hfilters (List.forall_mem_nil _) hmalformed)
  refine ⟨rfl, q, hq, hwarned, hrejected, fun hcomplete => ?_⟩
  rcases (((ofRequest_strict_rejected rfl).2 _ q hrejected hq).mp hcomplete).2 with h | h
  · exact h _ hparsed _ List.mem_cons_self _ hmalformed
  · rw [hwarned] at h
    cases h

end Query

end ListQuery
