import CareDirect.Results.Observers

/-!
# The sections of the results

The header of section `s` is the `s`-th attached category, its rows are the `s`-th array ever pushed. After the first
snapshot has reached every observer, section `s` lists its own category only in special cases
(`sections_right_iff`): in the order of registration, when every category has exactly one matching record; in every
order, when it is the same one for all of them.
-/

namespace CareDirect.Results

open Journal PartialRun

namespace ScreenerResultsVC

variable {cats : List String} {snapshot : DataSnapshot} {order : List ℕ} {vc : ScreenerResultsVC}

/-- Every section lists exactly the resources of the category in its header. -/
def SectionsRight (snapshot : DataSnapshot) (vc : ScreenerResultsVC) : Prop :=
  ∀ sections, vc.numberOfSections = some sections → ∀ sectionIndex < sections, ∃ category,
    vc.titleForHeaderInSection sectionIndex = some (some category) ∧ Lists vc sectionIndex (matching category snapshot)

/-- The snapshot reaches every observer, in the order `order`. -/
def firstCalls (snapshot : DataSnapshot) (order : List ℕ) : List (ℕ × DataSnapshot) := order.map (·, snapshot)

/-- Either no record matches, or section `s` falls `t` places into the records found by some observer, the first
`t + 1` of which are all the resources of the category of `s`. -/
def RightOrder (cats : List String) (snapshot : DataSnapshot) (order : List ℕ) : Prop :=
  (∀ category ∈ cats, matching category snapshot = []) ∨
    Placed (fun i => found cats (i, snapshot)) cats.length order

theorem found_eq {i : ℕ} {category : String} (h : cats[i]? = some category) :
    found cats (i, snapshot) = matching category snapshot := by
  simp only [found, h]

/-- What all observers find, category by category. -/
theorem forall_found {P : List ResourcesModel → Prop} :
    (∀ i < cats.length, P (found cats (i, snapshot))) ↔ ∀ category ∈ cats, P (matching category snapshot) := by
  constructor
  · intro h category hc
    obtain ⟨i, hi⟩ := List.mem_iff_getElem?.1 hc
    rw [← found_eq hi]
    exact h i (List.getElem?_eq_some_iff.1 hi).1
  · intro h i hi
    rw [found_eq (List.getElem?_eq_getElem hi)]
    exact h _ (List.getElem_mem hi)

/-- The arrays are the prefixes of what the observers find, one observer after the other. -/
theorem arrays_firstCalls (hr : run step (opened cats) (firstCalls snapshot order) = some vc) (hnd : order.Nodup) :
    vc.arrayOfResourceArrays = order.flatMap fun i => prefixes (found cats (i, snapshot)) := by
  rw [(run_logged hr).arrays, firstCalls, List.flatMap_map]
  exact copies_blocks (fun i => found cats (i, snapshot)) order [] hnd fun _ _ => rfl

theorem sectionsRight_iff_lists (hc : vc.attachedResourceCategories = some cats) :
    SectionsRight snapshot vc ↔ ∀ s < cats.length, Lists vc s (found cats (s, snapshot)) := by
  unfold SectionsRight numberOfSections titleForHeaderInSection
  rw [hc]
  constructor
  · intro h s hs
    obtain ⟨category, htitle, hlists⟩ := h cats.length rfl s hs
    obtain ⟨category', hcategory, he⟩ := Option.map_eq_some_iff.1 htitle
    cases he
    rwa [found_eq hcategory]
  · intro h sections hsections s hs
    cases hsections
    have hcategory := List.getElem?_eq_getElem hs
    exact ⟨cats[s], congrArg (Option.map some) hcategory, found_eq hcategory ▸ h s hs⟩

/-- **One order.** -/
theorem sectionsRight_iff (hr : run step (opened cats) (firstCalls snapshot order) = some vc)
    (hperm : order.Perm (List.range cats.length)) : SectionsRight snapshot vc ↔ RightOrder cats snapshot order := by
  have hnd : order.Nodup := hperm.nodup_iff.2 List.nodup_range
  have harrays := arrays_firstCalls hr hnd
  rw [sectionsRight_iff_lists (run_logged hr).categories, RightOrder, placed_iff, ← harrays,
    ← forall_found (P := (· = []))]
  have hnil : vc.arrayOfResourceArrays = [] ↔ ∀ i < cats.length, found cats (i, snapshot) = [] := by
    rw [harrays, ← List.length_eq_zero_iff, length_flatMap_prefixes, List.length_eq_zero_iff, List.flatMap_eq_nil_iff]
    constructor
    · exact fun h i hi => h i (hperm.mem_iff.2 (List.mem_range.2 hi))
    · exact fun h i hi => h i (List.mem_range.1 (hperm.mem_iff.1 hi))
  by_cases hempty : vc.arrayOfResourceArrays = []
  · have hfound := hnil.1 hempty
    refine iff_of_true (fun s hs => ?_) (.inl hfound)
    exact lists_iff.2 (.inl ⟨hempty, hfound s hs⟩)
  · rw [or_iff_right fun hfound => hempty (hnil.2 hfound)]
    refine forall₂_congr fun s _ => ?_
    rw [lists_iff, or_iff_right fun h => hempty h.1, and_iff_right hempty]

/-- **The order of registration.** -/
theorem rightOrder_range : RightOrder cats snapshot (List.range cats.length) ↔
    (∀ category ∈ cats, matching category snapshot = []) ∨
      ∀ category ∈ cats, (matching category snapshot).length = 1 := by
  rw [RightOrder, placed_range, ← forall_found (P := fun resources => resources.length = 1)]

/-- **All orders.** -/
theorem rightOrder_all : (∀ order, order.Perm (List.range cats.length) → RightOrder cats snapshot order) ↔
    (∀ category ∈ cats, matching category snapshot = []) ∨
      ∃ x, ∀ category ∈ cats, matching category snapshot = [x] := by
  by_cases hnone : ∀ category ∈ cats, matching category snapshot = []
  · exact iff_of_true (fun _ _ => .inl hnone) (.inl hnone)
  · have hright : ∀ order, RightOrder cats snapshot order ↔
        Placed (fun i => found cats (i, snapshot)) cats.length order := fun order => or_iff_right hnone
    simp only [hright, placed_all]
    rw [or_iff_right hnone]
    constructor
    · intro h
      obtain ⟨category, hcategory⟩ : ∃ category, category ∈ cats := by
        by_contra hne
        exact hnone fun category hc => absurd ⟨category, hc⟩ hne
      obtain ⟨i, hi⟩ := List.mem_iff_getElem?.1 hcategory
      obtain ⟨hone, hsame⟩ := h i (List.getElem?_eq_some_iff.1 hi).1
      obtain ⟨x, hx⟩ := List.length_eq_one_iff.1 hone
      exact ⟨x, (forall_found (P := (· = [x]))).1 fun j hj => (hsame j hj).symm.trans hx⟩
    · rintro ⟨x, hx⟩ i hi
      have hone := (forall_found (P := (· = [x]))).2 hx
      exact ⟨by rw [hone i hi]; rfl, fun j hj => (hone i hi).trans (hone j hj).symm⟩

end ScreenerResultsVC

open ScreenerResultsVC

/-- **Which sections list their own category.** For a readable snapshot, and every order in which it reaches the
observers: no call traps, and the sections are right exactly when the order is (`RightOrder`). They are right in every
order exactly when no record matches an attached category, or one and the same resource is the only one of each. -/
theorem sections_right_iff {cats : List String} {snapshot : DataSnapshot} (hreadable : Readable snapshot) :
    (∀ order, order.Perm (List.range cats.length) →
      ∃ vc, run step (opened cats) (firstCalls snapshot order) = some vc ∧
        (SectionsRight snapshot vc ↔ RightOrder cats snapshot order)) ∧
    ((∀ order vc, order.Perm (List.range cats.length) →
        run step (opened cats) (firstCalls snapshot order) = some vc → SectionsRight snapshot vc) ↔
      (∀ category ∈ cats, matching category snapshot = []) ∨
        ∃ x, ∀ category ∈ cats, matching category snapshot = [x]) := by
  have hruns : ∀ order, order.Perm (List.range cats.length) →
      ∃ vc, run step (opened cats) (firstCalls snapshot order) = some vc := by
    intro order hperm
    refine ScreenerResultsVC.run_total fun call hcall => ?_
    obtain ⟨i, hi, rfl⟩ := List.mem_map.1 hcall
    exact ⟨List.mem_range.1 (hperm.mem_iff.1 hi), hreadable⟩
  refine ⟨fun order hperm => ?_, ?_⟩
  · obtain ⟨vc, hvc⟩ := hruns order hperm
    exact ⟨vc, hvc, sectionsRight_iff hvc hperm⟩
  · rw [← rightOrder_all]
    constructor
    · intro h order hperm
      obtain ⟨vc, hvc⟩ := hruns order hperm
      exact (sectionsRight_iff hvc hperm).1 (h order vc hperm hvc)
    · exact fun h order vc hperm hvc => (sectionsRight_iff hvc hperm).2 (h order hperm)

theorem sampleServices_readable : Readable sampleServices := by
  unfold Readable
  decide

/-- The sample for the one category with one record. -/
theorem sections_right_sample :
    ∃ vc, run step (opened ["Housing"]) [(0, sampleServices)] = some vc ∧ SectionsRight sampleServices vc := by
  obtain ⟨vc, hvc, hiff⟩ :=
    (@sections_right_iff ["Housing"] sampleServices sampleServices_readable).1 [0] (.refl _)
  exact ⟨vc, hvc, hiff.2 (rightOrder_range.2 (.inr (by decide)))⟩

/-- The sample for two categories, in the order of registration: the section of the first lists one of its two
resources. -/
theorem sections_wrong :
    ∃ vc, run step (opened ["Food", "Housing"]) (firstCalls sampleServices [0, 1]) = some vc ∧
      ¬ SectionsRight sampleServices vc := by
  have hreach : (run step (opened ["Food", "Housing"]) (firstCalls sampleServices [0, 1])).map
      (fun vc => (vc.numberOfSections, vc.titleForHeaderInSection 0, vc.numberOfRowsInSection 0)) =
      some (some 2, some (some "Food"), some 1) := by decide
  obtain ⟨vc, hvc, hqueries⟩ := Option.map_eq_some_iff.1 hreach
  simp only [Prod.mk.injEq] at hqueries
  obtain ⟨hsections, htitle, hrows⟩ := hqueries
  refine ⟨vc, hvc, fun hright => ?_⟩
  obtain ⟨category, htitle', hlen, -⟩ := hright 2 hsections 0 (by omega)
  rw [htitle] at htitle'
  cases htitle'
  rw [hrows] at hlen
  exact absurd hlen (by decide)

end CareDirect.Results
