import CareDirect.Resources.Category

/-!
# The filter of a category

The two blocks that observe `services` are copies of one loop, but they do not treat a record in the same way: the block
of `refreshResourcesAll` reads every field with `?`, and makes an object without texts of a record that is not a
dictionary; the block of `refreshResources(category:)` unwraps the dictionary. So the second list is the restriction of
the first one, for whatever records the first block puts up with, exactly when all of them are dictionaries
(`category_restricts_iff`).
-/

namespace CareDirect.Resources

open Refill PartialRun DataSnapshot Results ResorcesVC

variable {platform : Platform} {category : String} {record : DataSnapshot} {records : List DataSnapshot}
  {snapshots : List DataSnapshot} {all filtered : List (Recorded ResourcesModel)}

/-! ## One record -/

/-- The casts of a record that succeed are those of its texts. -/
theorem resourcesModel_some {model : ResourcesModel} :
    resourcesModel record.value.asDictionary = some model ↔
      TextFields resourceKeys record ∧ model = (resourceOf record).model := by
  constructor
  · intro h
    have htexts : TextFields resourceKeys record := by
      simp only [resourcesModel, Option.bind_eq_bind, Option.bind_eq_some_iff] at h
      obtain ⟨name, hname, website, hwebsite, email, hemail, phone, hphone, location, hlocation, -⟩ := h
      refine .of_read ?_
      simp only [resourceKeys, List.forall_mem_cons]
      exact ⟨⟨_, hname⟩, ⟨_, hwebsite⟩, ⟨_, hemail⟩, ⟨_, hphone⟩, ⟨_, hlocation⟩, List.forall_mem_nil _⟩
    exact ⟨htexts, Option.some.inj (h.symm.trans (resourcesModel_eq htexts))⟩
  · rintro ⟨htexts, rfl⟩
    exact resourcesModel_eq htexts

/-- A round of the first loop puts up with any record whose fields are texts. -/
theorem resourceAll_some {x : Option (Recorded ResourcesModel)} :
    Refresh.all.resource record = some x ↔ TextFields resourceKeys record ∧ x = some (resourceOf record) := by
  change resourceAll record = some x ↔ _
  simp only [resourceAll, Option.bind_eq_bind, Option.bind_eq_some_iff, resourcesModel_some, Option.some.injEq]
  constructor
  · rintro ⟨model, ⟨htexts, rfl⟩, rfl⟩
    exact ⟨htexts, rfl⟩
  · rintro ⟨htexts, rfl⟩
    exact ⟨_, ⟨htexts, rfl⟩, rfl⟩

/-- The record is a dictionary. -/
def IsDictionary (record : DataSnapshot) : Prop := ∃ fields, record.value.asDictionary = some fields

theorem isDictionary_of_category {x : Option (Recorded ResourcesModel)}
    (h : (Refresh.category category).resource record = some x) : IsDictionary record := by
  obtain ⟨fields, hfields, -⟩ := Option.bind_eq_some_iff.1 h
  exact ⟨fields, hfields⟩

/-! ## The two blocks -/

/-- A block, on the list alone. -/
def Refresh.block (platform : Platform) (refresh : Refresh) (list : List (Recorded ResourcesModel))
    (snapshot : DataSnapshot) : Option (List (Recorded ResourcesModel)) :=
  refill refresh.resource list (platform.queryOrdered "Name" snapshot).children

/-- What the main queue runs is the block of the call that is due. -/
theorem runBlock_eq {vc : ResorcesVC} {refresh : Refresh} {snapshot : DataSnapshot}
    {services : Broadcast Refresh DataSnapshot} (h : vc.services.next = some ((refresh, snapshot), services)) :
    vc.runBlock platform =
      (refresh.block platform vc.resources snapshot).map fun resources => { vc with services, resources } := by
  unfold runBlock
  rw [h]
  exact Option.map_eq_bind.symm

/-- The records that the lists show after these snapshots. -/
def shownAfter (platform : Platform) (snapshots : List DataSnapshot) : List DataSnapshot :=
  lastNonempty (snapshots.map fun snapshot => (platform.queryOrdered "Name" snapshot).children)

theorem shownAfter_subset (hrecord : record ∈ shownAfter platform snapshots) :
    ∃ snapshot ∈ snapshots, record ∈ snapshot.children := by
  rcases lastNonempty_mem (snapshots.map fun snapshot => (platform.queryOrdered "Name" snapshot).children) with h | h
  · rw [shownAfter, h] at hrecord
    exact absurd hrecord List.not_mem_nil
  · obtain ⟨snapshot, hsnapshot, hchildren⟩ := List.mem_map.1 h
    rw [shownAfter, ← hchildren] at hrecord
    exact ⟨snapshot, hsnapshot, (platform.perm "Name" snapshot).mem_iff.1 hrecord⟩

/-- The block of `refresh`, over a sequence of snapshots. -/
theorem run_block {refresh : Refresh} : run (refresh.block platform) [] snapshots = some all ↔
    (∀ snapshot ∈ snapshots, ∀ r ∈ snapshot.children, (refresh.resource r).isSome) ∧
      all = decoded refresh.resource (shownAfter platform snapshots) := by
  have hembed : run (refresh.block platform) (id []) snapshots =
      (run (refill refresh.resource) []
        (snapshots.map fun snapshot => (platform.queryOrdered "Name" snapshot).children)).map id :=
    run_embed (fun _ _ => by rw [Option.map_id]; rfl) [] snapshots
  rw [Option.map_id, id, id] at hembed
  rw [hembed, run_refill, List.forall_mem_map]
  refine and_congr_left fun _ => forall₂_congr fun snapshot _ => ?_
  exact forall_congr' fun r => by rw [(platform.perm "Name" snapshot).mem_iff]

/-- The records of these snapshots have texts in the fields that are read. -/
def AllTexts (snapshots : List DataSnapshot) : Prop :=
  ∀ snapshot ∈ snapshots, ∀ r ∈ snapshot.children, TextFields resourceKeys r

/-- All these records are dictionaries. -/
def AllDictionaries (snapshots : List DataSnapshot) : Prop :=
  ∀ snapshot ∈ snapshots, ∀ r ∈ snapshot.children, IsDictionary r

theorem run_all : run (Refresh.all.block platform) [] snapshots = some all ↔
    AllTexts snapshots ∧ all = (shownAfter platform snapshots).map resourceOf := by
  rw [run_block]
  have htexts : (∀ snapshot ∈ snapshots, ∀ r ∈ snapshot.children, (Refresh.all.resource r).isSome) ↔
      AllTexts snapshots := by
    refine forall₂_congr fun snapshot _ => forall₂_congr fun r _ => ?_
    simp [Option.isSome_iff_exists, resourceAll_some]
  rw [htexts]
  refine and_congr_right fun h => ?_
  have hdecode : ∀ r ∈ shownAfter platform snapshots, Refresh.all.resource r = some (some (resourceOf r)) := by
    intro r hr
    obtain ⟨snapshot, hsnapshot, hchild⟩ := shownAfter_subset hr
    exact resourceAll_some.2 ⟨h snapshot hsnapshot r hchild, rfl⟩
  rw [decoded_eq hdecode, ← List.filterMap_eq_map]
  rfl

theorem run_category (htexts : AllTexts snapshots) :
    run ((Refresh.category category).block platform) [] snapshots = some filtered ↔
      AllDictionaries snapshots ∧
        filtered = ((shownAfter platform snapshots).filter (hasCategory category)).map resourceOf := by
  rw [run_block]
  have hdecode : ∀ snapshot ∈ snapshots, ∀ r ∈ snapshot.children, IsDictionary r →
      (Refresh.category category).resource r = some (if hasCategory category r then some (resourceOf r) else none) :=
    fun snapshot hs r hr hdictionary => resource_eq (.category category) ⟨hdictionary, htexts snapshot hs r hr⟩
  have hdictionaries : (∀ snapshot ∈ snapshots, ∀ r ∈ snapshot.children,
      ((Refresh.category category).resource r).isSome) ↔ AllDictionaries snapshots := by
    refine forall₂_congr fun snapshot hs => forall₂_congr fun r hr => ⟨fun h => ?_, fun h => ?_⟩
    · obtain ⟨x, hx⟩ := Option.isSome_iff_exists.1 h
      exact isDictionary_of_category hx
    · rw [hdecode snapshot hs r hr h]
      rfl
  rw [hdictionaries]
  refine and_congr_right fun h => ?_
  have hshown : ∀ r ∈ shownAfter platform snapshots, (Refresh.category category).resource r =
      some (if hasCategory category r then some (resourceOf r) else none) := by
    intro r hr
    obtain ⟨snapshot, hsnapshot, hchild⟩ := shownAfter_subset hr
    exact hdecode snapshot hsnapshot r hchild (h snapshot hsnapshot r hchild)
  rw [decoded_eq hshown, ← List.filterMap_eq_map, List.filterMap_filter]
  rfl

/-! ## The restriction -/

/-- `all` has one object for each record, and `filtered` is the sub-list of the objects whose record has the key of the
category. -/
def Restricts (category : String) (records : List DataSnapshot) (all filtered : List (Recorded ResourcesModel)) :
    Prop :=
  all.length = records.length ∧ filtered = ((records.zip all).filter fun p => hasCategory category p.1).map Prod.snd

theorem restricts_map (category : String) (records : List DataSnapshot) :
    Restricts category records (records.map resourceOf) ((records.filter (hasCategory category)).map resourceOf) := by
  refine ⟨List.length_map _, ?_⟩
  induction records with
  | nil => rfl
  | cons record records ih =>
    rw [List.map_cons, List.zip_cons_cons, List.filter_cons, List.filter_cons]
    split
    · rw [List.map_cons, List.map_cons, ih]
    · exact ih

/-- Whatever the first block puts up with, the second one puts up with, and leaves the restriction of its list. -/
def CategoryRestricts (platform : Platform) (category : String) (snapshots : List DataSnapshot) : Prop :=
  ∀ all, run (Refresh.all.block platform) [] snapshots = some all →
    ∃ filtered, run ((Refresh.category category).block platform) [] snapshots = some filtered ∧
      Restricts category (shownAfter platform snapshots) all filtered

/-- **The filter of a category** is the restriction of the full list exactly when all records are dictionaries, or some
record stops the first block as well. -/
theorem category_restricts_iff (platform : Platform) (category : String) (snapshots : List DataSnapshot) :
    CategoryRestricts platform category snapshots ↔ AllDictionaries snapshots ∨ ¬ AllTexts snapshots := by
  constructor
  · intro h
    by_cases htexts : AllTexts snapshots
    · obtain ⟨filtered, hfiltered, -⟩ := h _ (run_all.2 ⟨htexts, rfl⟩)
      exact .inl ((run_category htexts).1 hfiltered).1
    · exact .inr htexts
  · rintro h all hall
    obtain ⟨htexts, rfl⟩ := run_all.1 hall
    have hdictionaries : AllDictionaries snapshots := h.resolve_right (not_not_intro htexts)
    exact ⟨_, (run_category htexts).2 ⟨hdictionaries, rfl⟩, restricts_map category _⟩

/-- One record that is a text: a row without texts in the full list, and the end of the app for any category. -/
theorem category_stops : ∃ all,
    run (Refresh.all.block samplePlatform) [] [⟨"services", .object [("r1", .string "closed")]⟩] = some all ∧
    all.map (·.model) = [{}] ∧
    run ((Refresh.category "Housing").block samplePlatform) [] [⟨"services", .object [("r1", .string "closed")]⟩] =
      none :=
  ⟨_, rfl, rfl, rfl⟩

end CareDirect.Resources
