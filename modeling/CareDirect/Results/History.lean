import CareDirect.Results.Observers

/-!
# Results that change while they are shown

The `services` observers stay registered, and neither their arrays nor `arrayOfResourceArrays` are ever cleared. The
table reads `arrayOfResourceArrays` from the front, so for `n` attached categories it shows the first `n` resources
found since the controller was loaded, and no others (`Logged.shows_iff`). It is up to date with the latest snapshot
exactly as long as these are (`up_to_date_iff`).
-/

namespace CareDirect.Results

open Journal PartialRun

namespace ScreenerResultsVC

variable {cats : List String} {snapshots : List DataSnapshot} {vc : ScreenerResultsVC} {x : ResourcesModel}
  {log : List (ℕ × ResourcesModel)}

/-- Each snapshot reaches every observer, in the order of registration. -/
def deliveries (cats : List String) (snapshots : List DataSnapshot) : List (ℕ × DataSnapshot) :=
  snapshots.flatMap fun snapshot => (List.range cats.length).map (·, snapshot)

/-- The resource is a row of one of the sections of the table. -/
def Shows (vc : ScreenerResultsVC) (x : ResourcesModel) : Prop :=
  ∃ sections sectionIndex row, vc.numberOfSections = some sections ∧ sectionIndex < sections ∧
    vc.thisResource sectionIndex row = some x

/-- Some record of the snapshot decodes to the resource. -/
def Stored (snapshot : DataSnapshot) (x : ResourcesModel) : Prop :=
  ∃ resources ∈ snapshot.children, record resources = some x

instance (snapshot : DataSnapshot) (x : ResourcesModel) : Decidable (Stored snapshot x) :=
  inferInstanceAs (Decidable (∃ resources ∈ snapshot.children, record resources = some x))

/-- After every complete delivery, the rows of the table are resources of the snapshot delivered. -/
def UpToDate (cats : List String) (snapshots : List DataSnapshot) : Prop :=
  ∀ p latest vc, p ++ [latest] <+: snapshots → run step (opened cats) (deliveries cats (p ++ [latest])) = some vc →
    ∀ x, Shows vc x → Stored latest x

/-- The resources found, in the order of the deliveries, the categories and the records. -/
def foundIn (cats : List String) (snapshots : List DataSnapshot) : List ResourcesModel :=
  snapshots.flatMap fun snapshot => cats.flatMap fun category => matching category snapshot

/-- After every delivery, the resources found first, as many as there are categories, are still in the snapshot. -/
def FirstStillStored (cats : List String) (snapshots : List DataSnapshot) : Prop :=
  ∀ p latest, p ++ [latest] <+: snapshots → ∀ x ∈ (foundIn cats (p ++ [latest])).take cats.length, Stored latest x

/-- **The table shows the first arrivals**, one for every section. -/
theorem Logged.shows_iff (h : Logged cats log vc) : Shows vc x ↔ x ∈ (log.take cats.length).map Prod.snd := by
  have hsections : vc.numberOfSections = some cats.length := by
    unfold numberOfSections
    rw [h.categories]
    rfl
  rw [← mem_take_copies, ← h.arrays]
  unfold Shows thisResource
  constructor
  · rintro ⟨sections, s, row, hs, hlt, hx⟩
    rw [hsections] at hs
    cases hs
    obtain ⟨array, harray, hrow⟩ := Option.bind_eq_some_iff.1 hx
    refine ⟨array, List.mem_iff_getElem?.2 ⟨s, ?_⟩, List.mem_of_getElem? hrow⟩
    rw [List.getElem?_take_of_lt hlt]
    exact harray
  · rintro ⟨array, harray, hx⟩
    obtain ⟨s, hs⟩ := List.mem_iff_getElem?.1 harray
    obtain ⟨row, hrow⟩ := List.mem_iff_getElem?.1 hx
    have hlt : s < cats.length := by
      have hlen := (List.getElem?_eq_some_iff.1 hs).1
      rw [List.length_take] at hlen
      omega
    rw [List.getElem?_take_of_lt hlt] at hs
    refine ⟨cats.length, s, row, hsections, hlt, ?_⟩
    rw [hs]
    exact hrow

/-- All observers together find the resources category by category. -/
theorem flatMap_found (snapshot : DataSnapshot) (cats : List String) :
    ((List.range cats.length).flatMap fun i => found cats (i, snapshot)) =
      cats.flatMap fun category => matching category snapshot := by
  induction cats with
  | nil => rfl
  | cons category cats ih =>
    have htail : ∀ i, found (category :: cats) (i + 1, snapshot) = found cats (i, snapshot) := fun i => rfl
    rw [List.length_cons, List.range_succ_eq_map, List.flatMap_cons, List.flatMap_map, List.flatMap_cons, ← ih]
    simp only [htail]
    rfl

/-- The arrivals of the deliveries are the resources found in them. -/
theorem arrivals_deliveries (cats : List String) (snapshots : List DataSnapshot) :
    ((deliveries cats snapshots).flatMap (arrivals cats)).map Prod.snd = foundIn cats snapshots := by
  induction snapshots with
  | nil => rfl
  | cons snapshot snapshots ih =>
    have hdelivery : (((List.range cats.length).map (·, snapshot)).flatMap (arrivals cats)).map Prod.snd =
        cats.flatMap fun category => matching category snapshot := by
      rw [← flatMap_found, List.flatMap_map, List.map_flatMap]
      simp [arrivals, Function.comp_def]
    unfold deliveries foundIn at ih ⊢
    rw [List.flatMap_cons, List.flatMap_append, List.map_append, ih, hdelivery, List.flatMap_cons]

/-- After the deliveries the table shows the resources found first. -/
theorem shows_deliveries (h : run step (opened cats) (deliveries cats snapshots) = some vc) :
    Shows vc x ↔ x ∈ (foundIn cats snapshots).take cats.length := by
  rw [(run_logged h).shows_iff, List.map_take, arrivals_deliveries]

end ScreenerResultsVC

open ScreenerResultsVC

/-- **When the table is up to date.** In a run of complete deliveries, the table only ever shows resources of the latest
snapshot exactly when, after every delivery, the resources found first are still in the snapshot. -/
theorem up_to_date_iff {cats : List String} {snapshots : List DataSnapshot} {vc : ScreenerResultsVC}
    (h : run step (opened cats) (deliveries cats snapshots) = some vc) :
    UpToDate cats snapshots ↔ FirstStillStored cats snapshots := by
  constructor
  · intro hup p latest hp x hx
    obtain ⟨r, rfl⟩ := hp
    rw [deliveries, List.flatMap_append] at h
    obtain ⟨u, hu, -⟩ := run_append_some.1 h
    exact hup p latest u (List.prefix_append _ _) hu x ((shows_deliveries hu).2 hx)
  · intro hfirst p latest u hp hu x hx
    exact hfirst p latest hp x ((shows_deliveries hu).1 hx)

/-- The sample, delivered twice. -/
theorem up_to_date_sample : UpToDate ["Housing"] [sampleServices, sampleServices] := by
  have hruns : (run step (opened ["Housing"])
      (deliveries ["Housing"] [sampleServices, sampleServices])).isSome = true := by decide
  obtain ⟨vc, hvc⟩ := Option.isSome_iff_exists.1 hruns
  refine (up_to_date_iff hvc).2 ?_
  intro p latest hp
  have hcases : ∀ s : DataSnapshot, p ++ [latest] <+: [s, s] → p = [] ∧ latest = s ∨ p = [s] ∧ latest = s := by
    intro s hs
    rcases p with _ | ⟨a, _ | ⟨b, p⟩⟩ <;> simp at hs
    · exact .inl ⟨rfl, hs⟩
    · exact .inr ⟨by rw [hs.1], hs.2⟩
  rcases hcases _ hp with ⟨rfl, rfl⟩ | ⟨rfl, rfl⟩
  · decide
  · decide

/-- The services of the sample after the shelter has changed its name. -/
def renamedServices : DataSnapshot where
  key := "services"
  value := .object [("-C", serviceJson "Night Shelter" "https://shelter.example" ["Housing"])]

/-- The old name is still shown. -/
theorem not_up_to_date : ¬ UpToDate ["Housing"] [sampleServices, renamedServices] := by
  intro hup
  have hreach : (run step (opened ["Housing"]) (deliveries ["Housing"] [sampleServices, renamedServices])).map
      (fun vc => (vc.numberOfSections, vc.thisResource 0 0)) =
      some (some 1, some { name := some "Shelter", website := some "https://shelter.example" }) := by decide
  obtain ⟨vc, hvc, hqueries⟩ := Option.map_eq_some_iff.1 hreach
  obtain ⟨hsections, hrow⟩ := Prod.mk.inj hqueries
  have hstored := hup [sampleServices] renamedServices vc List.prefix_rfl hvc _ ⟨1, 0, 0, hsections, by omega, hrow⟩
  exact absurd hstored (by decide)

end CareDirect.Results
