import Mathlib.Data.List.DropRight
import ListQuery.Proofs.Query.WellFormed

/-!
# The size of a page after any calls

Calls choose a page by number or after a cursor, with a size or without one; a reset takes it all
back. The cap of the settings holds for every size that a call gives and for the default one. A
number or a cursor that is chosen while nothing else is comes with the size that pages have as such,
which the settings do not cap until a call gives a size.

* `Settings.within_clamped` — a size that was clamped twice;
* `sized_call` — one call;
* `callAll_size` — any calls on a fresh query.
-/

namespace ListQuery

-- ---------------------------------------------------------------------------
-- Sizes within the cap
-- ---------------------------------------------------------------------------

/-- A page size within the cap of the settings and that of pages as such. -/
def Settings.Within (s : Settings) (n : Int) : Prop := 1 ≤ n ∧ n ≤ min Page.maxPerPage s.maxPerPage

theorem Settings.Within.bounds {s : Settings} {n : Int} (h : s.Within n) :
    1 ≤ n ∧ n ≤ Page.maxPerPage := by
  unfold Within at h
  omega

/-- The settings clamp a size first, and then the page does. -/
theorem Settings.within_clamped (s : Settings) (n : Int) :
    s.Within (Page.clampPerPage (Page.clampPerPage n s.maxPerPage) Page.maxPerPage) := by
  have hmax := s.one_le_max
  unfold Within Page.clampPerPage Page.maxPerPage
  omega

namespace Page

variable {p : Page}

theorem perPage_withPerPage (state : Option Page) (n : Int) :
    (withPerPage state n).perPage = clampPerPage n maxPerPage := by
  obtain _ | (_ | _) := state <;> rfl

theorem clampPerPage_of_bounds {n : Int} (h : 1 ≤ n ∧ n ≤ maxPerPage) :
    clampPerPage n maxPerPage = n := by
  unfold clampPerPage
  omega

theorem perPage_withToken (h : 1 ≤ p.perPage ∧ p.perPage ≤ maxPerPage) (token : Value) :
    (withToken (some p) token).perPage = p.perPage := by
  cases p with
  | offset => rfl
  | cursor => exact clampPerPage_of_bounds h

theorem exists_withNumber (h : 1 ≤ p.perPage ∧ p.perPage ≤ maxPerPage) (n : Int) :
    ∃ p', withNumber (some p) (.int n) = .ok p' ∧ p'.perPage = p.perPage := by
  cases p with
  | offset => exact ⟨_, rfl, clampPerPage_of_bounds h⟩
  | cursor => exact ⟨_, rfl, rfl⟩

end Page

-- ---------------------------------------------------------------------------
-- Calls that are about the page
-- ---------------------------------------------------------------------------

/-- A call that is about the page, or undoes what calls did, or changes nothing. A number that is
left out is the first one, a size or a cursor that is left out is none. -/
inductive PagingCall where
  | byNumber (n : Int) (perPage : Option Int)
  | byCursor (perPage : Option Int) (tk : Option String)
  | size (perPage : Int)
  | number (n : Int)
  | token (tk : Option String)
  | reset
  | clone

namespace PagingCall

/-- The name of the call and its arguments. -/
def call : PagingCall → String × List Value
  | byNumber n perPage  => ("offset_paginate", [.int n, .optional .int perPage])
  | byCursor perPage tk => ("cursor_paginate", [.optional .int perPage, .optional .text tk])
  | size n              => ("per_page", [.int n])
  | number n            => ("page", [.int n])
  | token tk            => ("cursor", [.optional .text tk])
  | reset               => ("reset", [])
  | clone               => ("clone", [])

/-- Whether the call settles the size, be it with the default one. -/
def givesSize : PagingCall → Bool
  | byNumber .. | byCursor .. | size .. => true
  | _                                   => false

/-- Whether the call chooses a number or a cursor and leaves the size. -/
def choosesPlace : PagingCall → Bool
  | number .. | token .. => true
  | _                    => false

def isReset : PagingCall → Bool
  | reset => true
  | _     => false

end PagingCall

/-- The calls that no reset has undone. -/
def standing (history : List PagingCall) : List PagingCall := history.rtakeWhile (!·.isReset)

/-- A number or a cursor was chosen, and no call has settled the size since the last reset. -/
def LeavesSize (history : List PagingCall) : Prop :=
  (∃ c ∈ standing history, c.choosesPlace = true) ∧ ∀ c ∈ standing history, c.givesSize = false

-- ---------------------------------------------------------------------------
-- One call
-- ---------------------------------------------------------------------------

/-- What the standing calls say about the size of the page that is chosen. -/
inductive Sized (s : Settings) (calls : List PagingCall) : Option Page → Prop
  | unset (hplace : ∀ c ∈ calls, c.choosesPlace = false)
      (hsize : ∀ c ∈ calls, c.givesSize = false) : Sized s calls none
  | left {p : Page} (hplace : ∃ c ∈ calls, c.choosesPlace = true)
      (hsize : ∀ c ∈ calls, c.givesSize = false) (hp : p.perPage = Page.defaultPerPage) :
      Sized s calls (some p)
  | given {p : Page} (hsize : ∃ c ∈ calls, c.givesSize = true) (hp : s.Within p.perPage) :
      Sized s calls (some p)

section
variable {s : Settings} {calls : List PagingCall} {state : Option Page} {p : Page} {c : PagingCall}

/-- A call that settles the size. -/
theorem sized_given (hsize : c.givesSize = true) (hp : s.Within p.perPage) :
    Sized s (calls ++ [c]) (some p) :=
  .given ⟨c, by simp, hsize⟩ hp

theorem Sized.bounds (h : Sized s calls (some p)) :
    1 ≤ p.perPage ∧ p.perPage ≤ Page.maxPerPage := by
  cases h with
  | left _ _ hdefault => rw [hdefault]; decide
  | given _ hwithin => exact hwithin.bounds

/-- A call that chooses a place while no page is chosen. -/
theorem Sized.placed (h : Sized s calls none) (hplace : c.choosesPlace = true)
    (hsize : c.givesSize = false) (hp : p.perPage = Page.defaultPerPage) :
    Sized s (calls ++ [c]) (some p) := by
  cases h with
  | unset _ hnone =>
    refine .left ⟨c, by simp, hplace⟩ ?_ hp
    simpa [or_imp, forall_and] using ⟨hnone, hsize⟩

/-- A call that neither settles the size nor changes it on the page that is chosen. -/
theorem Sized.moved (h : Sized s calls (some p)) {p' : Page} (hsize : c.givesSize = false)
    (hp : p'.perPage = p.perPage) : Sized s (calls ++ [c]) (some p') := by
  cases h with
  | left hplace hnone hdefault =>
    obtain ⟨c', hmem, hc'⟩ := hplace
    refine .left ⟨c', List.mem_append_left _ hmem, hc'⟩ ?_ (hp.trans hdefault)
    simpa [or_imp, forall_and] using ⟨hnone, hsize⟩
  | given hgiven hwithin =>
    obtain ⟨c', hmem, hc'⟩ := hgiven
    refine .given ⟨c', List.mem_append_left _ hmem, hc'⟩ ?_
    rwa [hp]

/-- A call that is about nothing of the page. -/
theorem Sized.kept (h : Sized s calls state) (hplace : c.choosesPlace = false)
    (hsize : c.givesSize = false) : Sized s (calls ++ [c]) state := by
  cases state with
  | none =>
    cases h with
    | unset hnoPlace hnoSize =>
      refine .unset ?_ ?_
      · simpa [or_imp, forall_and] using ⟨hnoPlace, hplace⟩
      · simpa [or_imp, forall_and] using ⟨hnoSize, hsize⟩
  | some p => exact h.moved hsize rfl

end

-- ---------------------------------------------------------------------------
-- The calls on a query
-- ---------------------------------------------------------------------------

namespace Query

variable (q : Query)

section
set_option maxRecDepth 4000

theorem call_byNumber (n : Int) (perPage : Option Int) :
    q.call "offset_paginate" [.int n, .optional .int perPage] =
      .ok (q.paginate (some
        (.ofNumber n (q.clampPerPage (perPage.getD q.settings.defaultPerPage))))) := by
  cases perPage <;> rfl

theorem call_byCursor (perPage : Option Int) (token : Option String) :
    q.call "cursor_paginate" [.optional .int perPage, .optional .text token] =
      .ok (q.paginate (some (.ofCursor (.optional .text token)
        (q.clampPerPage (perPage.getD q.settings.defaultPerPage))))) := by
  cases perPage <;> rfl

theorem call_size (n : Int) :
    q.call "per_page" [.int n] =
      .ok (q.paginate (some (.withPerPage q.page (q.clampPerPage n)))) := rfl

theorem call_number (n : Int) :
    q.call "page" [.int n] =
      (Page.withNumber q.page (.int n)).map fun p => q.paginate (some p) := rfl

theorem call_token (token : Option String) :
    q.call "cursor" [.optional .text token] =
      .ok (q.paginate (some (.withToken q.page (.optional .text token)))) := rfl

theorem call_reset : q.call "reset" [] = .ok q.reset := rfl

theorem call_clone : q.call "clone" [] = .ok q := rfl

end

/-- A call, other than a reset, after calls that are in force. -/
theorem sized_call {q : Query} {calls : List PagingCall} (c : PagingCall)
    (h : Sized q.settings calls q.page) (hc : c.isReset = false) :
    ∃ q', q.call c.call.1 c.call.2 = .ok q' ∧ q'.entity = q.entity ∧ q'.settings = q.settings ∧
      Sized q.settings (calls ++ [c]) q'.page := by
  cases c with
  | byNumber n perPage =>
    exact ⟨_, q.call_byNumber n perPage, rfl, rfl, sized_given rfl (q.settings.within_clamped _)⟩
  | byCursor perPage token =>
    exact ⟨_, q.call_byCursor perPage token, rfl, rfl,
      sized_given rfl (q.settings.within_clamped _)⟩
  | size n =>
    refine ⟨_, q.call_size n, rfl, rfl, sized_given rfl ?_⟩
    rw [Page.perPage_withPerPage]
    exact q.settings.within_clamped n
  | number n =>
    cases hpage : q.page with
    | none =>
      rw [hpage] at h
      refine ⟨q.paginate (some (.ofNumber n Page.defaultPerPage)), ?_, rfl, rfl, ?_⟩
      case refine_2 => exact h.placed rfl rfl rfl
      exact (q.call_number n).trans (by rw [hpage]; rfl)
    | some p =>
      rw [hpage] at h
      obtain ⟨p', hp', hsize⟩ := Page.exists_withNumber h.bounds n
      refine ⟨q.paginate (some p'), ?_, rfl, rfl, h.moved rfl hsize⟩
      exact (q.call_number n).trans (by rw [hpage, hp']; rfl)
  | token tk =>
    refine ⟨_, q.call_token tk, rfl, rfl, ?_⟩
    cases hpage : q.page with
    | none =>
      rw [hpage] at h
      exact h.placed rfl rfl rfl
    | some p =>
      rw [hpage] at h
      exact h.moved rfl (Page.perPage_withToken h.bounds _)
  | reset => cases hc
  | clone => exact ⟨q, q.call_clone, rfl, rfl, h.kept rfl rfl⟩

-- ---------------------------------------------------------------------------
-- Any calls
-- ---------------------------------------------------------------------------

theorem standing_concat (history : List PagingCall) (c : PagingCall) :
    standing (history ++ [c]) = if c.isReset then [] else standing history ++ [c] := by
  cases hc : c.isReset <;> simp [standing, hc]

theorem callAll_concat {q q' : Query} {calls : List (String × List Value)}
    (h : q.callAll calls = .ok q') (c : String × List Value) :
    q.callAll (calls ++ [c]) = q'.call c.1 c.2 := by
  unfold callAll at h ⊢
  rw [List.foldlM_append, h]
  simp only [List.foldlM_cons, List.foldlM_nil, bind_pure]
  rfl

/-- What any calls on a fresh query leave chosen: the last reset is as good as a fresh query, and
each call after it is one more that is in force. -/
theorem sized_callAll (e : Entity) (s : Settings) (history : List PagingCall) :
    ∃ q, Query.callAll { entity := e, settings := s } (history.map (·.call)) = .ok q ∧
      q.entity = e ∧ q.settings = s ∧ Sized s (standing history) q.page := by
  induction history using List.reverseRecOn with
  | nil => exact ⟨_, rfl, rfl, rfl, .unset (by simp [standing]) (by simp [standing])⟩
  | append_singleton history c ih =>
    obtain ⟨q, hq, rfl, rfl, hsized⟩ := ih
    rw [List.map_append, List.map_singleton, callAll_concat hq, standing_concat]
    cases hc : c.isReset with
    | true =>
      cases c with
      | reset => exact ⟨q.reset, q.call_reset, rfl, rfl, .unset (by simp) (by simp)⟩
      | _ => cases hc
    | false => exact sized_call c hsized hc

/-- The size of a page that no call has chosen. -/
theorem within_effectivePage {q : Query} (h : q.page = none) :
    q.settings.Within q.effectivePage.perPage := by
  rw [effectivePage, h]
  dsimp only
  split <;> exact q.settings.within_clamped _

theorem effectivePage_eq {q : Query} {p : Page} (h : q.page = some p) : q.effectivePage = p := by
  rw [effectivePage, h]

/-- Any calls that choose pages, on a fresh query: the size of the page that is delivered is within
the cap of the settings and that of pages as such, unless a number or a cursor was chosen without
any size and the cap is below the size that pages have as such. That size it is then. -/
theorem callAll_size (e : Entity) (s : Settings) (history : List PagingCall) :
    ∃ q, Query.callAll { entity := e, settings := s } (history.map (·.call)) = .ok q ∧
      (1 ≤ q.effectivePage.perPage ∧ q.effectivePage.perPage ≤ Page.maxPerPage) ∧
      (s.Within q.effectivePage.perPage ↔
        ¬(LeavesSize history ∧ s.maxPerPage < Page.defaultPerPage)) ∧
      (LeavesSize history → q.effectivePage.perPage = Page.defaultPerPage) := by
  obtain ⟨q, hq, -, rfl, hsized⟩ := sized_callAll e s history
  refine ⟨q, hq, ?_⟩
  cases hpage : q.page with
  | none =>
    have hwithin := within_effectivePage hpage
    rw [hpage] at hsized
    cases hsized with
    | unset hplace hsize =>
      have hnot : ¬LeavesSize history := by
        rintro ⟨⟨c, hc, hplaced⟩, -⟩
        simp [hplace c hc] at hplaced
      exact ⟨hwithin.bounds, iff_of_true hwithin fun h => hnot h.1, fun h => absurd h hnot⟩
  | some p =>
    rw [effectivePage_eq hpage]
    rw [hpage] at hsized
    refine ⟨hsized.bounds, ?_⟩
    cases hsized with
    | left hplace hsize hdefault =>
      have hleaves : LeavesSize history := ⟨hplace, hsize⟩
      refine ⟨?_, fun _ => hdefault⟩
      rw [hdefault, Settings.Within, Page.defaultPerPage, Page.maxPerPage]
      simp only [hleaves, true_and]
      omega
    | given hgiven hwithin =>
      obtain ⟨c, hc, hgives⟩ := hgiven
      have hnot : ¬LeavesSize history := by
        rintro ⟨-, hnone⟩
        simp [hnone c hc] at hgives
      exact ⟨iff_of_true hwithin fun h => hnot h.1, fun h => absurd h hnot⟩

set_option maxRecDepth 4000 in
/-- The second page, of at most ten rows, as a number alone gets it and after a size was given. -/
example (e : Entity) :
    let size history := (callAll { entity := e, settings := { maxPerPage := 10 } }
      (history.map PagingCall.call)).map (·.effectivePage.perPage)
    size [.number 2] = .ok 15 ∧ size [.number 2, .size 50] = .ok 10 := ⟨rfl, rfl⟩

end Query

end ListQuery
