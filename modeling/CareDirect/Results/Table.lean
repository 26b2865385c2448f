import CareDirect.Results.Observers

/-!
# The table and its bounds

The number of sections is the number of attached categories, the number of arrays is the number of records found so
far. `numberOfRowsInSection` only guards against the case that there is no array at all. So the table reads within
bounds in every state of a run exactly when the first call that finds a record finds one for every section
(`table_safe_iff`).
-/

namespace CareDirect.Results

open Journal PartialRun

namespace ScreenerResultsVC

variable {cats : List String} {log : List (ℕ × ResourcesModel)} {vc : ScreenerResultsVC}
  {calls : List (ℕ × DataSnapshot)}

/-- No query of a section or of a row that the table has announced traps. -/
def Safe (vc : ScreenerResultsVC) : Prop :=
  ∀ sections, vc.numberOfSections = some sections → ∀ sectionIndex < sections,
    ∃ rows, vc.numberOfRowsInSection sectionIndex = some rows ∧
      ∀ row < rows, (vc.cellForRowAt sectionIndex row).isSome

/-- The table is safe when it is empty or has an array for every section. -/
theorem Logged.safe_iff (h : Logged cats log vc) : Safe vc ↔ log = [] ∨ cats.length ≤ log.length := by
  have hsections : vc.numberOfSections = some cats.length := by
    unfold numberOfSections
    rw [h.categories]
    rfl
  have harrays : vc.arrayOfResourceArrays.length = log.length := by rw [h.arrays, length_copies]
  constructor
  · intro hsafe
    by_cases hnil : log = []
    · exact .inl hnil
    · right
      by_contra hlt
      obtain ⟨rows, hrows, -⟩ := hsafe cats.length hsections log.length (by omega)
      unfold numberOfRowsInSection at hrows
      rw [if_neg (by rw [harrays]; exact fun h0 => hnil (List.length_eq_zero_iff.1 h0)),
        List.getElem?_eq_none (by omega)] at hrows
      cases hrows
  · intro hcover sections hs sectionIndex hlt
    rw [hsections] at hs
    cases hs
    unfold numberOfRowsInSection cellForRowAt thisResource
    by_cases h0 : vc.arrayOfResourceArrays.length = 0
    · rw [if_pos h0]
      exact ⟨0, rfl, fun row hrow => absurd hrow (Nat.not_lt_zero row)⟩
    · have hle : sectionIndex < vc.arrayOfResourceArrays.length := by
        rcases hcover with hnil | hle
        · exact absurd (by rw [harrays, hnil]; rfl) h0
        · omega
      rw [if_neg h0, List.getElem?_eq_getElem hle]
      refine ⟨_, rfl, fun row hrow => ?_⟩
      rw [Option.bind_eq_bind, Option.bind_some, List.getElem?_eq_getElem hrow]
      rfl

/-! ## Runs -/

theorem length_arrivals (call : ℕ × DataSnapshot) : (arrivals cats call).length = (found cats call).length :=
  List.length_map _

theorem arrivals_eq_nil {call : ℕ × DataSnapshot} : arrivals cats call = [] ↔ found cats call = [] :=
  List.map_eq_nil_iff

/-- As long as the calls find nothing, nothing arrives. -/
theorem flatMap_arrivals_eq_nil : calls.flatMap (arrivals cats) = [] ↔ ∀ call ∈ calls, found cats call = [] := by
  rw [List.flatMap_eq_nil_iff]
  exact forall₂_congr fun call _ => arrivals_eq_nil

/-- The first call that finds something, if there is one, finds at least one record for every section. -/
def FirstFindCovers (cats : List String) (calls : List (ℕ × DataSnapshot)) : Prop :=
  ∀ p call r, calls = p ++ call :: r → (∀ before ∈ p, found cats before = []) → found cats call ≠ [] →
    cats.length ≤ (found cats call).length

/-- Calls that find something have a first one that does. -/
theorem exists_first_find (h : ¬ ∀ call ∈ calls, found cats call = []) :
    ∃ p call r, calls = p ++ call :: r ∧ (∀ before ∈ p, found cats before = []) ∧ found cats call ≠ [] := by
  have hfind : (calls.find? fun call => decide (found cats call ≠ [])).isSome := by
    rw [List.find?_isSome]
    simpa using h
  obtain ⟨call, hcall⟩ := Option.isSome_iff_exists.1 hfind
  obtain ⟨hne, p, r, heq, hp⟩ := List.find?_eq_some_iff_append.1 hcall
  exact ⟨p, call, r, heq, by simpa using hp, by simpa using hne⟩

end ScreenerResultsVC

open ScreenerResultsVC

/-- **The bounds of the table.** In a run of calls of the observers, the table reads within bounds in every state
exactly when the first call that finds a record finds one for every section. -/
theorem table_safe_iff {cats : List String} {calls : List (ℕ × DataSnapshot)} {vc : ScreenerResultsVC}
    (h : run step (opened cats) calls = some vc) :
    (∀ p u, p <+: calls → run step (opened cats) p = some u → Safe u) ↔ FirstFindCovers cats calls := by
  constructor
  · intro hsafe p call r heq hp hne
    have hsplit : calls = (p ++ [call]) ++ r := by simp [heq]
    rw [hsplit] at h
    obtain ⟨u, hu, -⟩ := run_append_some.1 h
    have hlogged := run_logged hu
    rw [List.flatMap_append, flatMap_arrivals_eq_nil.2 hp, List.nil_append, List.flatMap_singleton] at hlogged
    rcases hlogged.safe_iff.1 (hsafe _ u ⟨r, hsplit.symm⟩ hu) with hnil | hle
    · exact absurd (arrivals_eq_nil.1 hnil) hne
    · rwa [length_arrivals] at hle
  · intro hcover p u hp hu
    obtain ⟨q, rfl⟩ := hp
    refine (run_logged hu).safe_iff.2 ?_
    by_cases hnone : ∀ call ∈ p, found cats call = []
    · exact .inl (flatMap_arrivals_eq_nil.2 hnone)
    · right
      obtain ⟨p', call, r, rfl, hp', hne⟩ := exists_first_find hnone
      have hle := hcover p' call (r ++ q) (by simp) hp' hne
      rw [List.flatMap_append, List.flatMap_cons, List.length_append, List.length_append, length_arrivals]
      omega

/-- The sample for one category. -/
theorem table_safe_sample :
    ∃ vc, run step (opened ["Food"]) [(0, sampleServices), (0, sampleServices)] = some vc ∧ Safe vc := by
  have hruns : (run step (opened ["Food"]) [(0, sampleServices), (0, sampleServices)]).isSome = true := by decide
  obtain ⟨vc, hvc⟩ := Option.isSome_iff_exists.1 hruns
  refine ⟨vc, hvc, (table_safe_iff hvc).2 ?_ _ vc List.prefix_rfl hvc⟩
  intro p call r heq _ _
  have hcall : call = (0, sampleServices) := by
    have hmem : call ∈ p ++ call :: r := by simp
    rw [← heq] at hmem
    simpa using hmem
  rw [hcall]
  decide

/-- The sample for two categories, when only the observer of the first has been called. -/
theorem table_not_safe :
    ¬ ∀ p u, p <+: [(0, sampleServices)] → run step (opened ["Housing", "Food"]) p = some u → Safe u := by
  intro hsafe
  have hreach : (run step (opened ["Housing", "Food"]) [(0, sampleServices)]).map
      (fun u => (u.numberOfSections, u.numberOfRowsInSection 1)) = some (some 2, none) := by decide
  obtain ⟨u, hu, hqueries⟩ := Option.map_eq_some_iff.1 hreach
  obtain ⟨hsections, hrows⟩ := Prod.mk.inj hqueries
  obtain ⟨rows, hsome, -⟩ := hsafe _ u List.prefix_rfl hu 2 hsections 1 (by omega)
  rw [hrows] at hsome
  cases hsome

end CareDirect.Results
