import CareDirect.Paging.Pages

/-!
# What the pager announces

The delegate is told of a page that is turned to, before, in between and after: the first two at once, the third one
when the transaction has ended. Tapping on a dot announces its page twice. In every run the page that was announced last
is the current one, and the transactions reported as ended, with those outstanding, are those begun (`notices_run`). The
background at rest is that of the current page, as long as the animations end in the order they began
(`backdrop_run`).
-/

namespace CareDirect.Paging

open PartialRun

variable {ds : PaperOnboardingDataSource} {view view' : PaperOnboarding} {fill : ℕ → Bool} {calls : List DelegateCall}

/-! ## Announcements -/

def DelegateCall.will : DelegateCall → Option ℤ
  | .onboardingWillTransitonToIndex index => some index
  | _ => none

def DelegateCall.did : DelegateCall → Option ℤ
  | .onboardingDidTransitonToIndex index => some index
  | _ => none

def DelegateCall.configuration : DelegateCall → Option ℤ
  | .onboardingConfigurationItem index => some index
  | _ => none

/-- The pages announced, reported and configured so far. -/
structure Notices (view : PaperOnboarding) : Prop where
  last : (view.calls.filterMap DelegateCall.will).getLast?.getD 0 = view.currentIndex
  ended : (view.calls.filterMap DelegateCall.did ++ view.transactions.map Int.ofNat).Perm
    (view.calls.filterMap DelegateCall.configuration)

theorem filterMap_concat {α β : Type} (f : α → Option β) (xs : List α) (x : α) :
    (xs ++ [x]).filterMap f = xs.filterMap f ++ (f x).toList := by
  rw [List.filterMap_append]
  cases h : f x <;> simp [h]

/-- Turning to a page. -/
theorem Notices.turned {index : ℕ} (h : Notices view) (ht : Turned view index view') : Notices view' := by
  have hcalls : view'.calls =
      (view.calls ++ [.onboardingWillTransitonToIndex index]) ++ [.onboardingConfigurationItem index] := by
    rw [ht.calls, List.append_assoc]
    rfl
  refine ⟨?_, ?_⟩
  · rw [hcalls, filterMap_concat, filterMap_concat, ht.currentIndex]
    simp [DelegateCall.will]
  · rw [hcalls, ht.transactions]
    simp only [filterMap_concat, DelegateCall.did, DelegateCall.configuration, Option.toList_none, Option.toList_some,
      List.append_nil, List.map_append, List.map_cons, List.map_nil, ← List.append_assoc]
    exact h.ended.append_right _

/-- A call that concerns none of the three. -/
theorem Notices.call {c : DelegateCall} (h : Notices view) (hwill : c.will = none ∨ c.will = some (view.currentIndex : ℤ))
    (hdid : c.did = none) (hconfiguration : c.configuration = none) : Notices (view.call c) := by
  refine ⟨?_, ?_⟩
  · simp only [PaperOnboarding.call, filterMap_concat]
    rcases hwill with hwill | hwill
    · rw [hwill, Option.toList_none, List.append_nil]
      exact h.last
    · rw [hwill, Option.toList_some, List.getLast?_concat]
      rfl
  · simp only [PaperOnboarding.call, filterMap_concat, hdid, hconfiguration, Option.toList_none, List.append_nil]
    exact h.ended

theorem Notices.outcome {e : Event} (h : Notices view) (ho : Outcome ds fill view e view') : Notices view' := by
  cases ho with
  | turned hindex hreaches hturned hcoherent => exact h.turned hturned
  | @tapped _ _ index w hindex hturned hcoherent =>
    exact (h.turned hturned).call (.inr (by rw [hturned.currentIndex]; rfl)) rfl rfl
  | leaving => exact h.call (.inl rfl) rfl rfl
  | same => exact h
  | @transactionEnds i index hindex =>
    refine ⟨?_, ?_⟩
    · simp only [PaperOnboarding.call, filterMap_concat, DelegateCall.will, Option.toList_none, List.append_nil]
      exact h.last
    · simp only [PaperOnboarding.call, filterMap_concat, DelegateCall.did, DelegateCall.configuration,
        Option.toList_none, Option.toList_some, List.append_nil, List.append_assoc]
      refine List.Perm.trans ?_ h.ended
      obtain ⟨hi, rfl⟩ := List.getElem?_eq_some_iff.1 hindex
      exact ((List.getElem_cons_eraseIdx_perm hi).map Int.ofNat).append_left _
  | animationDidStop hstop => exact ⟨h.last, h.ended⟩
  | removed hitem => exact ⟨h.last, h.ended⟩

/-- A run without taps announces every page once. -/
theorem Outcome.announced {e : Event} (ho : Outcome ds fill view e view')
    (he : ∀ enabled contains, e ≠ .tap enabled contains)
    (h : view.calls.filterMap DelegateCall.will = view.calls.filterMap DelegateCall.configuration) :
    view'.calls.filterMap DelegateCall.will = view'.calls.filterMap DelegateCall.configuration := by
  cases ho with
  | turned hindex hreaches hturned hcoherent =>
    rw [hturned.calls, List.filterMap_append, List.filterMap_append, h]
    rfl
  | tapped hindex hturned hcoherent => exact absurd rfl (he _ _)
  | leaving =>
    rw [PaperOnboarding.call, filterMap_concat, filterMap_concat, h]
    rfl
  | same => exact h
  | transactionEnds hindex =>
    rw [PaperOnboarding.call, filterMap_concat, filterMap_concat, h]
    rfl
  | animationDidStop hstop => exact h
  | removed hitem => exact h

/-- **Announcements.** In every run, the page announced last is the current one, and the pages reported, with those
whose transactions are outstanding, are those configured; in a run without taps, the pages announced are exactly those
configured. -/
theorem notices_run (h : HasPages ds) : ∃ start, PaperOnboarding.commonInit ds = some start ∧
    ∀ es view, run PaperOnboarding.step start es = some view →
      (view.calls.filterMap DelegateCall.will).getLast?.getD 0 = view.currentIndex ∧
      (view.calls.filterMap DelegateCall.did ++ view.transactions.map Int.ofNat).Perm
        (view.calls.filterMap DelegateCall.configuration) ∧
      ((∀ enabled contains, .tap enabled contains ∉ es) →
        view.calls.filterMap DelegateCall.will = view.calls.filterMap DelegateCall.configuration) := by
  obtain ⟨start, hstart, hfresh⟩ := h.commonInit
  refine ⟨start, hstart, fun es view hrun => ?_⟩
  have hzero : Notices start := by
    refine ⟨?_, ?_⟩
    · rw [hfresh.calls, hfresh.currentIndex]
      rfl
    · rw [hfresh.calls, hfresh.transactions]
      exact List.Perm.refl _
  have hall : Notices view ∧ ((∀ enabled contains, .tap enabled contains ∉ es) →
      view.calls.filterMap DelegateCall.will = view.calls.filterMap DelegateCall.configuration) := by
    refine run_induction (I := fun p u => Notices u ∧ ((∀ enabled contains, .tap enabled contains ∉ p) →
      u.calls.filterMap DelegateCall.will = u.calls.filterMap DelegateCall.configuration))
      ⟨hzero, fun _ => by rw [hfresh.calls]; rfl⟩ ?_ es hrun
    rintro p u e v hp ⟨hu, hwill⟩ he
    obtain ⟨fill, hcoherent⟩ := coherent_run hfresh.coherent hp
    refine ⟨hu.outcome (hcoherent.outcome he), fun htap => (hcoherent.outcome he).announced ?_ (hwill ?_)⟩
    · rintro enabled contains rfl
      exact htap enabled contains List.mem_concat_self
    · exact fun enabled contains hmem => htap enabled contains (List.mem_append_left _ hmem)
  exact ⟨hall.1.last, hall.1.ended, hall.2⟩

theorem notices_run_onboarding : ∃ start view, PaperOnboarding.commonInit Onboarding.dataSource = some start ∧
    run PaperOnboarding.step start sampleSwipes = some view ∧
      view.calls.filterMap DelegateCall.will = view.calls.filterMap DelegateCall.configuration := by
  obtain ⟨start, view, hstart, hrun, -, -⟩ := run_sampleSwipes
  obtain ⟨start', hstart', h⟩ := notices_run hasPages_onboarding
  cases hstart.symm.trans hstart'
  exact ⟨start, view, hstart, hrun, (h _ _ hrun).2.2 (by simp [sampleSwipes])⟩

/-! ## The background -/

/-- The newest circle, or else the background, has the colour of the current page. -/
def Backdrop (view : PaperOnboarding) : Prop :=
  ∃ info, view.itemsInfo[view.currentIndex]? = some info ∧
    (view.fillAnimationView.backgroundColor :: view.fillAnimationView.circles).getLast? = some info.color

theorem Backdrop.turned {index : ℕ} (ht : Turned view index view') : Backdrop view' := by
  obtain ⟨info, hinfo, hcircles⟩ := ht.circles
  refine ⟨info, by rw [ht.itemsInfo, ht.currentIndex, hinfo], ?_⟩
  rw [hcircles, FillAnimationView.fillAnimation, ← List.cons_append, List.getLast?_concat]

theorem Backdrop.outcome {e : Event} (h : Backdrop view) (ho : Outcome ds fill view e view')
    (he : ∀ i, e = .animationDidStop i → i = 0) : Backdrop view' := by
  cases ho with
  | turned hindex hreaches hturned hcoherent => exact Backdrop.turned hturned
  | tapped hindex hturned hcoherent =>
    have hw : Backdrop _ := Backdrop.turned hturned
    exact hw
  | leaving => exact h
  | same => exact h
  | transactionEnds hindex => exact h
  | @animationDidStop i fillAnimationView hstop =>
    obtain rfl := he i rfl
    obtain ⟨info, hinfo, hlast⟩ := h
    obtain ⟨color, hcolor, rfl⟩ := Option.map_eq_some_iff.1 hstop
    refine ⟨info, hinfo, ?_⟩
    cases hcircles : view.fillAnimationView.circles with
    | nil =>
      rw [hcircles] at hcolor
      cases hcolor
    | cons newer circles =>
      rw [hcircles] at hcolor hlast
      cases hcolor
      rw [List.getLast?_cons_cons] at hlast
      exact hlast
  | removed hitem => exact h

/-- **The background.** When the animations end in the order they began, the background at rest has the colour of the
current page. -/
theorem backdrop_run (h : HasPages ds) : ∃ start, PaperOnboarding.commonInit ds = some start ∧
    ∀ es view, (∀ i, .animationDidStop i ∈ es → i = 0) → run PaperOnboarding.step start es = some view →
      view.fillAnimationView.circles = [] →
      ∃ info, ds.onboardingItem view.currentIndex = some info ∧
        view.fillAnimationView.backgroundColor = info.color := by
  obtain ⟨start, hstart, hfresh⟩ := h.commonInit
  refine ⟨start, hstart, fun es view hes hrun hrest => ?_⟩
  have hzero : Backdrop start := by
    obtain ⟨info, hinfo, hbackground⟩ := hfresh.background
    exact ⟨info, by rw [hfresh.currentIndex, hinfo], by rw [hbackground]; rfl⟩
  have hview : Backdrop view := by
    refine run_induction (I := fun p u => (∀ i, .animationDidStop i ∈ p → i = 0) → Backdrop u)
      (fun _ => hzero) ?_ es hrun hes
    intro p u e v hp hu he hpe
    obtain ⟨fill, hcoherent⟩ := coherent_run hfresh.coherent hp
    refine (hu fun i hi => hpe i (List.mem_append_left _ hi)).outcome (hcoherent.outcome he) ?_
    rintro i rfl
    exact hpe i List.mem_concat_self
  obtain ⟨info, hinfo, hlast⟩ := hview
  obtain ⟨fill, hcoherent⟩ := coherent_run hfresh.coherent hrun
  obtain ⟨info', hinfo', hitem⟩ := getElem?_createItemsInfo hcoherent.itemsInfo hcoherent.index_lt
  cases hinfo.symm.trans hinfo'
  rw [hrest] at hlast
  exact ⟨info, hitem, Option.some.inj hlast⟩

theorem backdrop_run_onboarding : ∃ start view, PaperOnboarding.commonInit Onboarding.dataSource = some start ∧
    run PaperOnboarding.step start sampleSwipes = some view ∧ ∃ info, Onboarding.onboardingItem 1 = some info ∧
      view.fillAnimationView.backgroundColor = info.color := by
  obtain ⟨start, view, hstart, hrun, hindex, hrest⟩ := run_sampleSwipes
  obtain ⟨start', hstart', h⟩ := backdrop_run hasPages_onboarding
  cases hstart.symm.trans hstart'
  have hfirst : ∀ i, Event.animationDidStop i ∈ sampleSwipes → i = 0 := by simp [sampleSwipes]
  obtain ⟨info, hinfo, hcolor⟩ := h _ _ hfirst hrun hrest
  exact ⟨start, view, hstart, hrun, info, hindex ▸ hinfo, hcolor⟩

end CareDirect.Paging
