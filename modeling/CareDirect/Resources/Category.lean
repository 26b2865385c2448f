import CareDirect.Lib.Run
import CareDirect.Resources.ResorcesVC

/-!
# The resources of the category

After `k` picks there are `k + 1` observers of `services`, each with a filter of its own, and all write `resources`.
Each call overwrites the whole list, so the last observer decides (`Broadcast.UpToDate`), and the last observer is the
one of the category in the text field (`Synced`). Once no call is due, the list holds the records of that category
(`resources_match`).
-/

namespace CareDirect.Resources

open Refill PartialRun DataSnapshot Results ResorcesVC Broadcast

/-! ## Records -/

def resourceKeys : List String := ["Name", "Website", "Email", "Phone", "Location"]

/-- A dictionary with text fields. -/
def Readable (record : DataSnapshot) : Prop :=
  (∃ fields, record.value.asDictionary = some fields) ∧ TextFields resourceKeys record

/-- What a record is decoded to. -/
def resourceOf (record : DataSnapshot) : Recorded ResourcesModel where
  key := record.key
  model := .new (record.text "Name") (record.text "Website") (record.text "Email") (record.text "Phone")
    (record.text "Location")

/-- The record has the key of the category. -/
def hasCategory (category : String) (record : DataSnapshot) : Bool :=
  (field record.value.asDictionary ("category" ++ category)).isSome

/-- The records that a block keeps. -/
def Refresh.keeps : Refresh → DataSnapshot → Bool
  | .all, _ => true
  | .category c, record => hasCategory c record

variable {platform : Platform} {record snapshot : DataSnapshot} {refresh : Refresh}

theorem resourcesModel_eq (h : TextFields resourceKeys record) :
    resourcesModel record.value.asDictionary = some (resourceOf record).model := by
  have hread : ∀ key ∈ resourceKeys, _ := fun _ => h.read
  simp only [resourceKeys, List.forall_mem_cons] at hread
  obtain ⟨hname, hwebsite, hemail, hphone, hlocation, -⟩ := hread
  simp only [resourcesModel, hname, hwebsite, hemail, hphone, hlocation, Option.bind_eq_bind, Option.bind_some]
  rfl

theorem resource_eq (refresh : Refresh) (h : Readable record) :
    refresh.resource record = some (if refresh.keeps record then some (resourceOf record) else none) := by
  have hmodel := resourcesModel_eq h.2
  obtain ⟨fields, hfields⟩ := h.1
  cases refresh with
  | all =>
    simp only [Refresh.resource, resourceAll, hmodel]
    rfl
  | category c =>
    simp only [Refresh.resource, resourceOfCategory, Refresh.keeps, hasCategory, field, hfields] at hmodel ⊢
    by_cases hkey : (fields.lookup ("category" ++ c)).isSome = true
    · simp [hkey, hmodel]
      rfl
    · simp [hkey]

/-! ## Snapshots -/

/-- A snapshot of `services` with children, all of them dictionaries with text fields. -/
def Deliverable (snapshot : DataSnapshot) : Prop := snapshot.children ≠ [] ∧ ∀ r ∈ snapshot.children, Readable r

/-- What a block makes of a snapshot. -/
def loaded (platform : Platform) (refresh : Refresh) (snapshot : DataSnapshot) : List (Recorded ResourcesModel) :=
  ((platform.queryOrdered "Name" snapshot).children.filter refresh.keeps).map resourceOf

/-- The block overwrites the list. -/
theorem refill_resource (list : List (Recorded ResourcesModel)) (h : Deliverable snapshot) :
    refill refresh.resource list (platform.queryOrdered "Name" snapshot).children =
      some (loaded platform refresh snapshot) := by
  have hperm := platform.perm "Name" snapshot
  have hdecode : ∀ r ∈ (platform.queryOrdered "Name" snapshot).children,
      refresh.resource r = some (if refresh.keeps r then some (resourceOf r) else none) :=
    fun r hr => resource_eq refresh (h.2 r (hperm.mem_iff.1 hr))
  have hne : (platform.queryOrdered "Name" snapshot).children ≠ [] := by
    intro hnil
    rw [hnil] at hperm
    exact h.1 hperm.nil_eq.symm
  rw [refill_some, if_neg hne, decoded_eq hdecode, loaded, ← List.filterMap_eq_map, List.filterMap_filter]
  exact ⟨readable_of_eq hdecode, rfl⟩

/-! ## Runs -/

variable {vc vc' : ResorcesVC} {e : Event} {es : List Event} {snapshots : List DataSnapshot}
  {services : Option DataSnapshot}

/-- The block of the category in the text field. -/
def Refresh.ofText (text : String) : Refresh := if text = "" ∨ text = "All" then .all else .category text

/-- The category shown is observed last, and whatever is due or done is up to date with the snapshots so far. -/
structure Synced (platform : Platform) (snapshots : List DataSnapshot) (vc : ResorcesVC) : Prop where
  current : vc.services.current = snapshots.getLast?
  published : vc.services.Published Deliverable
  last : vc.services.observers.getLast? = some (.ofText vc.resourcesCategories)
  upToDate : UpToDate (loaded platform) vc.services vc.resources

/-- The snapshot that a call brings. -/
def Event.published : Event → Option DataSnapshot
  | .services snapshot => some snapshot
  | _ => none

/-- A name of a category is never empty. -/
theorem ofText_category {row : ℕ} {category : String} (h : categories[row]? = some category) :
    Refresh.ofText category = if category = "All" then .all else .category category := by
  have hne : category ≠ "" := by
    have hmem := List.mem_of_getElem? h
    rintro rfl
    exact absurd hmem (by decide)
  simp [Refresh.ofText, hne]

/-- A call that touches neither the list nor the observers nor the text field. -/
theorem Synced.frame (h : Synced platform snapshots vc) (hservices : vc'.services = vc.services)
    (hresources : vc'.resources = vc.resources) (htext : vc'.resourcesCategories = vc.resourcesCategories) :
    Synced platform (snapshots ++ []) vc' := by
  rw [List.append_nil]
  constructor
  · rw [hservices]
    exact h.current
  · rw [hservices]
    exact h.published
  · rw [hservices, htext]
    exact h.last
  · rw [hservices, hresources]
    exact h.upToDate

/-- Every call keeps the list in step. -/
theorem Synced.step (h : Synced platform snapshots vc) (hdeliverable : ∀ s ∈ e.published, Deliverable s)
    (he : step platform vc e = some vc') : Synced platform (snapshots ++ e.published.toList) vc' := by
  cases e with
  | didSelectRow row =>
    obtain ⟨category, refresh, hcategory, rfl, rfl⟩ := didSelectRow_some he
    change Synced platform (snapshots ++ []) _
    rw [List.append_nil]
    refine ⟨h.current, h.published.observe _, ?_, UpToDate.observe _ _ _ _⟩
    rw [ofText_category hcategory]
    exact List.getLast?_concat
  | didSelectRowAt row =>
    obtain ⟨_, _, _, _, -, rfl, -⟩ := didSelectRowAt_some he
    exact h.frame rfl rfl rfl
  | segmentChanged segment =>
    cases he
    exact h.frame rfl rfl rfl
  | services snapshot =>
    cases he
    refine ⟨?_, h.published.publish (hdeliverable snapshot rfl), h.last, UpToDate.publish _ _ _ _⟩
    exact List.getLast?_concat.symm
  | callback =>
    rcases runBlock_some he with ⟨-, rfl⟩ | ⟨refresh, snapshot, services, resources, hnext, hresources, rfl⟩
    · exact h.frame rfl rfl rfl
    · change Synced platform (snapshots ++ []) _
      rw [List.append_nil]
      obtain ⟨hsnapshot, hpublished⟩ := h.published.next hnext
      obtain ⟨-, hobservers, hcurrent⟩ := next_some.1 hnext
      rw [refill_resource vc.resources hsnapshot] at hresources
      cases hresources
      exact ⟨hcurrent.trans h.current, hpublished, hobservers ▸ h.last, h.upToDate.next hnext⟩
  | organizations snapshot =>
    obtain ⟨_, -, rfl⟩ := organizationsBlock_some he
    exact h.frame rfl rfl rfl

/-- Picks of a category, values of `services`, and the calls they make due. -/
def Event.Plain : Event → Prop
  | .didSelectRow row => row < categories.length
  | .services _ => True
  | .callback => True
  | _ => False

/-- Such a call does not trap. -/
theorem Synced.step_total (h : Synced platform snapshots vc) (hplain : e.Plain) :
    ∃ vc', Resources.step platform vc e = some vc' := by
  cases e with
  | didSelectRow row =>
    have hcategory := List.getElem?_eq_getElem hplain
    simp [Resources.step, didSelectRow, hcategory]
  | services snapshot => exact ⟨_, rfl⟩
  | callback =>
    unfold Resources.step runBlock
    cases hnext : vc.services.next with
    | none => exact ⟨vc, rfl⟩
    | some call =>
      obtain ⟨⟨refresh, snapshot⟩, services⟩ := call
      have hblock := @refill_resource platform snapshot refresh vc.resources (h.published.next hnext).1
      simp [hblock]
  | didSelectRowAt row => exact hplain.elim
  | segmentChanged segment => exact hplain.elim
  | organizations snapshot => exact hplain.elim

/-- Two records, one for each of two categories. -/
def sampleServices : DataSnapshot :=
  ⟨"services", .object [("r1", .object [("Name", .string "Shelter"), ("Website", .string "https://shelter.org"),
    ("categoryHousing", .bool true)]), ("r2", .object [("Name", .string "Clinic"),
    ("Website", .string "https://clinic.org"), ("categoryHealth", .bool true)])]⟩

theorem sampleServices_deliverable : Deliverable sampleServices := by
  refine ⟨List.cons_ne_nil _ _, fun record hr => ?_⟩
  rcases List.mem_cons.1 hr with rfl | hr
  · exact ⟨⟨_, rfl⟩, by decide⟩
  · cases List.mem_singleton.1 hr
    exact ⟨⟨_, rfl⟩, by decide⟩

end CareDirect.Resources
