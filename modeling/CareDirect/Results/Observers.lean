import CareDirect.Lib.Journal
import CareDirect.Results.ScreenerResultsVC

/-!
# What the observers leave behind

Every record that has the key of a category is one arrival at the observer of that category: the block adds it to its
own array and pushes a copy of that array to `arrayOfResourceArrays`. So the state of the controller is a `Journal` of
the arrivals (`Logged`), whatever the order of the calls (`Logged.run`), and the table shows the copies by position
(`lists_iff`).
-/

namespace CareDirect.Results

open Journal PartialRun

namespace ScreenerResultsVC

/-! ## Records -/

/-- What a record is decoded to. -/
def record (resources : DataSnapshot) : Option ResourcesModel := resources.value.asDictionary.bind resourcesModel

/-- The record has the key of the category. -/
def hasCategory (category : String) (resources : DataSnapshot) : Bool :=
  match resources.value.asDictionary with
  | some resourceObject => (resourceObject.lookup ("category" ++ category)).isSome
  | none => false

/-- The resources of the records with the key of the category, in order. -/
def resourcesOf (category : String) (records : List DataSnapshot) : List ResourcesModel :=
  (records.filter (hasCategory category)).filterMap record

/-- The resources of a category in a snapshot. -/
def matching (category : String) (snapshot : DataSnapshot) : List ResourcesModel :=
  resourcesOf category snapshot.children

/-- The children are dictionaries with string fields. -/
def Readable (snapshot : DataSnapshot) : Prop := ∀ resources ∈ snapshot.children, (record resources).isSome

/-! ## The block -/

variable {category : String} {arrays arrays' : List ResourcesModel × List (List ResourcesModel)}
  {resources : DataSnapshot} {snapshot : DataSnapshot}

/-- One round either leaves the arrays alone or adds the resource of the record. -/
theorem addResource_some (h : addResource category arrays resources = some arrays') :
    hasCategory category resources = false ∧ arrays' = arrays ∨
      ∃ x, hasCategory category resources = true ∧ record resources = some x ∧
        arrays' = (arrays.1 ++ [x], arrays.2 ++ [arrays.1 ++ [x]]) := by
  unfold addResource at h
  unfold hasCategory record
  cases hd : resources.value.asDictionary with
  | none => simp [hd] at h
  | some resourceObject =>
    simp only [hd, Option.bind_eq_bind, Option.bind_some] at h ⊢
    by_cases hkey : (resourceObject.lookup ("category" ++ category)).isSome = true
    · rw [if_pos hkey, Option.bind_eq_some_iff] at h
      obtain ⟨x, hx, he⟩ := h
      exact .inr ⟨x, hkey, hx, (Option.some.inj he).symm⟩
    · rw [if_neg hkey] at h
      exact .inl ⟨Bool.eq_false_iff.2 hkey, (Option.some.inj h).symm⟩

/-- The loop pushes a copy for every resource of the category. -/
theorem loop_some : ∀ (records : List DataSnapshot) {arrays : List ResourcesModel × List (List ResourcesModel)},
    records.foldlM (addResource category) arrays = some arrays' →
    arrays' = (arrays.1 ++ resourcesOf category records,
      arrays.2 ++ (prefixes (resourcesOf category records)).map (arrays.1 ++ ·))
  | [], arrays, h => by
    cases h
    simp [resourcesOf, prefixes]
  | resources :: records, arrays, h => by
    rw [List.foldlM_cons, Option.bind_eq_bind, Option.bind_eq_some_iff] at h
    obtain ⟨arrays₁, hround, h⟩ := h
    have ih := loop_some records h
    rcases addResource_some hround with ⟨hkey, rfl⟩ | ⟨x, hkey, hx, rfl⟩
    · rw [ih]
      simp [resourcesOf, hkey]
    · rw [ih]
      simp [resourcesOf, hkey, hx, prefixes, Function.comp_def]

/-- No record of a readable snapshot stops the loop. -/
theorem loop_total : ∀ {records : List DataSnapshot} (arrays : List ResourcesModel × List (List ResourcesModel)),
    (∀ resources ∈ records, (record resources).isSome) →
    ∃ arrays', records.foldlM (addResource category) arrays = some arrays'
  | [], arrays, _ => ⟨arrays, rfl⟩
  | resources :: records, arrays, h => by
    obtain ⟨x, hx⟩ := Option.isSome_iff_exists.1 (h resources List.mem_cons_self)
    obtain ⟨resourceObject, hd, hx⟩ := Option.bind_eq_some_iff.1 hx
    have hround : ∃ arrays₁, addResource category arrays resources = some arrays₁ := by
      unfold addResource
      simp only [hd, Option.bind_eq_bind, Option.bind_some, hx]
      split
      · exact ⟨_, rfl⟩
      · exact ⟨_, rfl⟩
    obtain ⟨arrays₁, hround⟩ := hround
    obtain ⟨arrays', h'⟩ := loop_total arrays₁ fun r hr => h r (List.mem_cons_of_mem _ hr)
    exact ⟨arrays', by rw [List.foldlM_cons, hround]; exact h'⟩

/-- The guard of the block changes nothing: without children the loop makes no round. -/
theorem observerBlock_eq (observer : Observer) (pushed : List (List ResourcesModel)) (snapshot : DataSnapshot) :
    observerBlock observer pushed snapshot =
      (snapshot.children.foldlM (addResource observer.category) (observer.resourcesArray, pushed)).map
        fun arrays => ({ observer with resourcesArray := arrays.1 }, arrays.2) := by
  unfold observerBlock
  rw [Option.map_eq_bind]
  split
  · rfl
  · rename_i hcount
    rw [show snapshot.children = [] from List.length_eq_zero_iff.1 (Nat.eq_zero_of_not_pos hcount)]
    rfl

theorem observerBlock_some {observer observer' : Observer} {pushed pushed' : List (List ResourcesModel)}
    (h : observerBlock observer pushed snapshot = some (observer', pushed')) :
    observer' = ⟨observer.category, observer.resourcesArray ++ matching observer.category snapshot⟩ ∧
      pushed' = pushed ++ (prefixes (matching observer.category snapshot)).map (observer.resourcesArray ++ ·) := by
  rw [observerBlock_eq, Option.map_eq_some_iff] at h
  obtain ⟨arrays, hloop, he⟩ := h
  cases he
  rw [loop_some _ hloop]
  exact ⟨rfl, rfl⟩

theorem observerBlock_total (observer : Observer) (pushed : List (List ResourcesModel)) (h : Readable snapshot) :
    ∃ r, observerBlock observer pushed snapshot = some r := by
  obtain ⟨arrays, hloop⟩ := @loop_total observer.category _ (observer.resourcesArray, pushed) h
  exact ⟨_, by rw [observerBlock_eq, hloop]; rfl⟩

/-! ## Calls -/

/-- The controller after `viewDidLoad`. -/
def opened (cats : List String) : ScreenerResultsVC where
  attachedResourceCategories := some cats
  observers := cats.map ({ category := · })

theorem foldl_addArrayOfResourcesToArrayOfArrays : ∀ (cats : List String) (vc : ScreenerResultsVC),
    cats.foldl addArrayOfResourcesToArrayOfArrays vc =
      { vc with observers := vc.observers ++ cats.map ({ category := · }) }
  | [], vc => by simp
  | category :: cats, vc => by
    rw [List.foldl_cons, foldl_addArrayOfResourcesToArrayOfArrays cats]
    simp [addArrayOfResourcesToArrayOfArrays]

theorem viewDidLoad_opened (cats : List String) :
    viewDidLoad { attachedResourceCategories := some cats } = some (opened cats) := by
  simp [viewDidLoad, foldl_addArrayOfResourcesToArrayOfArrays, opened]

/-- The resources that a call finds for the category of its observer. -/
def found (cats : List String) (call : ℕ × DataSnapshot) : List ResourcesModel :=
  match cats[call.1]? with
  | some category => matching category call.2
  | none => []

/-- The same resources, as arrivals at the observer called. -/
def arrivals (cats : List String) (call : ℕ × DataSnapshot) : List (ℕ × ResourcesModel) :=
  (found cats call).map (call.1, ·)

variable {cats : List String} {log : List (ℕ × ResourcesModel)} {vc vc' : ScreenerResultsVC} {call : ℕ × DataSnapshot}
  {calls : List (ℕ × DataSnapshot)}

/-- The controller is the journal of the arrivals `log`. -/
structure Logged (cats : List String) (log : List (ℕ × ResourcesModel)) (vc : ScreenerResultsVC) : Prop where
  categories : vc.attachedResourceCategories = some cats
  observers : ∀ i : ℕ, vc.observers[i]? = cats[i]?.map fun category => ⟨category, items i log⟩
  arrays : vc.arrayOfResourceArrays = copies [] log

theorem opened_logged (cats : List String) : Logged cats [] (opened cats) := by
  refine ⟨rfl, fun i => ?_, rfl⟩
  simp [opened]

/-- A call journals what it finds. -/
theorem Logged.step (h : Logged cats log vc) (hs : ScreenerResultsVC.step vc call = some vc') :
    Logged cats (log ++ arrivals cats call) vc' := by
  obtain ⟨i, snapshot⟩ := call
  unfold ScreenerResultsVC.step at hs
  simp only [Option.bind_eq_bind, Option.bind_eq_some_iff] at hs
  obtain ⟨observer, hobserver, ⟨observer', pushed⟩, hblock, he⟩ := hs
  cases he
  obtain ⟨rfl, rfl⟩ := observerBlock_some hblock
  have hi := h.observers i
  rw [hobserver] at hi
  obtain ⟨category, hcategory, rfl⟩ := Option.map_eq_some_iff.1 hi.symm
  have hfound : found cats (i, snapshot) = matching category snapshot := by
    simp only [found, hcategory]
  refine ⟨h.categories, fun j => ?_, ?_⟩
  · rw [List.getElem?_set, items_append, arrivals, hfound]
    by_cases hj : i = j
    · subst hj
      rw [if_pos rfl, if_pos (List.getElem?_eq_some_iff.1 hobserver).1, hcategory, items_block]
      rfl
    · rw [if_neg hj, items_block_of_ne hj, List.append_nil]
      exact h.observers j
  · rw [copies_append, List.nil_append, arrivals, copies_block, hfound, h.arrays]

/-- **A run journals what its calls find.** -/
theorem Logged.run : ∀ {calls : List (ℕ × DataSnapshot)} {log : List (ℕ × ResourcesModel)} {vc : ScreenerResultsVC},
    Logged cats log vc → PartialRun.run ScreenerResultsVC.step vc calls = some vc' →
    Logged cats (log ++ calls.flatMap (arrivals cats)) vc'
  | [], log, vc, h, hr => by
    cases hr
    simpa using h
  | call :: calls, log, vc, h, hr => by
    rw [run_cons, Option.bind_eq_some_iff] at hr
    obtain ⟨w, hw, hr⟩ := hr
    have hrest := Logged.run (h.step hw) hr
    rwa [List.append_assoc] at hrest

theorem run_logged (h : run step (opened cats) calls = some vc) : Logged cats (calls.flatMap (arrivals cats)) vc := by
  simpa using (opened_logged cats).run h

/-- Calls of registered observers with readable snapshots do not trap. -/
theorem run_total (h : ∀ call ∈ calls, call.1 < cats.length ∧ Readable call.2) :
    ∃ vc, run step (opened cats) calls = some vc := by
  have hstep : ∀ u call, (∃ log, Logged cats log u) → call.1 < cats.length ∧ Readable call.2 →
      ∃ v, step u call = some v ∧ ∃ log, Logged cats log v := by
    rintro u ⟨i, snapshot⟩ ⟨log, hlog⟩ ⟨hi, hreadable⟩
    have hobserver := hlog.observers i
    rw [List.getElem?_eq_getElem hi, Option.map_some] at hobserver
    obtain ⟨r, hblock⟩ := observerBlock_total ⟨cats[i], items i log⟩ u.arrayOfResourceArrays hreadable
    have hv : ∃ v, step u (i, snapshot) = some v := by
      unfold step
      simp only [Option.bind_eq_bind, hobserver, Option.bind_some, hblock]
      exact ⟨_, rfl⟩
    obtain ⟨v, hv⟩ := hv
    exact ⟨v, hv, _, hlog.step hv⟩
  obtain ⟨vc, hvc, -⟩ := PartialRun.run_total hstep ⟨[], opened_logged cats⟩ h
  exact ⟨vc, hvc⟩

/-! ## What the table shows -/

/-- The section has exactly the rows `resources`, as the table reads it. -/
def Lists (vc : ScreenerResultsVC) (sectionIndex : ℕ) (resources : List ResourcesModel) : Prop :=
  vc.numberOfRowsInSection sectionIndex = some resources.length ∧
    ∀ row < resources.length, vc.thisResource sectionIndex row = resources[row]?

/-- Either nothing has been pushed and the section is empty, or its rows are the array at its position. -/
theorem lists_iff {sectionIndex : ℕ} {resources : List ResourcesModel} :
    Lists vc sectionIndex resources ↔
      vc.arrayOfResourceArrays = [] ∧ resources = [] ∨
        vc.arrayOfResourceArrays ≠ [] ∧ vc.arrayOfResourceArrays[sectionIndex]? = some resources := by
  unfold Lists numberOfRowsInSection thisResource
  by_cases hnil : vc.arrayOfResourceArrays = []
  · rw [if_pos (by rw [hnil]; rfl)]
    constructor
    · rintro ⟨hlen, -⟩
      exact .inl ⟨hnil, List.length_eq_zero_iff.1 (Option.some.inj hlen).symm⟩
    · rintro (⟨-, rfl⟩ | ⟨hne, -⟩)
      · exact ⟨rfl, fun row hrow => absurd hrow (Nat.not_lt_zero row)⟩
      · exact absurd hnil hne
  · rw [if_neg (fun hlen => hnil (List.length_eq_zero_iff.1 hlen))]
    constructor
    · rintro ⟨hlen, hrows⟩
      obtain ⟨array, harray, hlen⟩ := Option.map_eq_some_iff.1 hlen
      refine .inr ⟨hnil, harray.trans (congrArg some (List.ext_getElem? fun row => ?_))⟩
      by_cases hrow : row < resources.length
      · simpa [harray] using hrows row hrow
      · rw [List.getElem?_eq_none (by omega), List.getElem?_eq_none (by omega)]
    · rintro (⟨hnil', -⟩ | ⟨-, harray⟩)
      · exact absurd hnil' hnil
      · simp [harray]

end ScreenerResultsVC

/-! ## A database -/

/-- A record as it is stored. -/
def serviceJson (name website : String) (categories : List String) : Json :=
  .object ([("Name", .string name), ("Website", .string website)] ++
    categories.map fun category => ("category" ++ category, .bool true))

/-- Two services for food and one for housing. -/
def sampleServices : DataSnapshot where
  key := "services"
  value := .object
    [("-A", serviceJson "Pantry" "https://pantry.example" ["Food"]),
      ("-B", serviceJson "Kitchen" "https://kitchen.example" ["Food"]),
      ("-C", serviceJson "Shelter" "https://shelter.example" ["Housing"])]

end CareDirect.Results
