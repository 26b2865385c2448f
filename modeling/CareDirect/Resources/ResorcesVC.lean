import CareDirect.Lib.Broadcast
import CareDirect.Lib.Refill
import CareDirect.Results.ScreenerResultsVC
import Mathlib.Data.List.Sort
import Mathlib.Data.String.Basic
import Mathlib.Order.WithBot

/-!
# The resources controller `ResorcesVC`

The state of `ResorcesVC.swift` and its methods. A pick registers one more observer of the `services` query and removes
none; the calls of the observers wait on the main queue (`Broadcast`), between touches of the user. Both tables share
`expandedRowIndex`. The objects of the two lists keep the key of the record that they show.
-/

namespace CareDirect.Resources

open Refill DataSnapshot Results

/-- `OrganizationModel.swift` -/
structure OrganizationModel where
  name : Option String
  website : Option String
  email : Option String
  phone : Option String
  location : Option String
  deriving DecidableEq, Repr

def OrganizationModel.new (Name Website Email Phone Location : Option String) : OrganizationModel where
  name := Name
  website := Website
  email := Email
  phone := Phone
  location := Location

/-- What the controller gets from Firebase and Foundation: the query `queryOrdered(byChild:)`, which reorders the
children of a snapshot, and the strings that `URL(string:)` accepts. -/
structure Platform where
  /-- The order of a query by a child key. -/
  le : String → DataSnapshot → DataSnapshot → Prop
  queryOrdered : String → DataSnapshot → DataSnapshot
  perm : ∀ child snapshot, (queryOrdered child snapshot).children.Perm snapshot.children
  sorted : ∀ child snapshot, (queryOrdered child snapshot).children.Pairwise (le child)
  isURL : String → Bool

def sortKey (child : String) (record : DataSnapshot) : WithBot String := record.text child

/-- Children by the text under a key, those without one first. -/
abbrev TextLE (child : String) (record record' : DataSnapshot) : Prop := sortKey child record ≤ sortKey child record'

instance (child : String) : Std.Total (TextLE child) := ⟨fun _ _ => le_total _ _⟩

instance (child : String) : IsTrans DataSnapshot (TextLE child) := ⟨fun _ _ _ => le_trans⟩

/-- Queries on children with texts, and addresses without blanks. -/
def samplePlatform : Platform where
  le := TextLE
  queryOrdered child snapshot :=
    ⟨snapshot.key, .object ((snapshot.children.insertionSort (TextLE child)).map fun r => (r.key, r.value))⟩
  perm child snapshot := by
    have hchildren := List.perm_insertionSort (TextLE child) snapshot.children
    simpa [children, Function.comp_def] using hchildren
  sorted child snapshot := by
    have hchildren := List.pairwise_insertionSort (TextLE child) snapshot.children
    simpa [children, Function.comp_def] using hchildren
  isURL s := s ≠ "" ∧ ' ' ∉ s.toList

/-- The blocks that observe `services`. -/
inductive Refresh
  /-- The block of `refreshResourcesAll`. -/
  | all
  /-- The block of `refreshResources(category:)`. -/
  | category (category : String)
  deriving DecidableEq, Repr

def categories : List String :=
  ["All", "Housing", "Education", "Health", "Immigration", "SubstanceTreatment", "Prevention"]

structure ResorcesVC where
  resources : List (Recorded ResourcesModel) := []
  organizations : List (Recorded OrganizationModel) := []
  selectedResource : Option (Recorded ResourcesModel) := none
  selectedPath : Option (Recorded OrganizationModel) := none
  expandedRowIndex : Option Nat := none
  /-- The text of the field, empty until a category is picked. -/
  resourcesCategories : String := ""
  /-- `tableContainer` is the visible table at `0`, `organizationContainer` otherwise. -/
  selectedSegmentIndex : Nat := 0
  services : Broadcast Refresh DataSnapshot := {}
  /-- The websites opened so far. -/
  opened : List String := []

/-! ## Records -/

/-- The reads of both blocks, and the object made of them. -/
def resourcesModel (resourceObject : Option (List (String × Json))) : Option ResourcesModel := do
  let resourceName := field resourceObject "Name"
  let resourceWebsite := field resourceObject "Website"
  let resourceEmail := field resourceObject "Email"
  let resourcePhone := field resourceObject "Phone"
  let resourceLocation := field resourceObject "Location"
  some (.new (← asOptionalString resourceName) (← asOptionalString resourceWebsite) (← asOptionalString resourceEmail)
    (← asOptionalString resourcePhone) (← asOptionalString resourceLocation))

/-- A round of the loop of `refreshResourcesAll`. -/
def resourceAll (resources : DataSnapshot) : Option (Option (Recorded ResourcesModel)) := do
  let resourceObject := resources.value.asDictionary
  let resource ← resourcesModel resourceObject
  some (some ⟨resources.key, resource⟩)

/-- A round of the loop of `refreshResources(category:)`: it unwraps the dictionary, and passes over a record without
the key of the category. -/
def resourceOfCategory (category : String) (resources : DataSnapshot) : Option (Option (Recorded ResourcesModel)) := do
  let resourceObject := resources.value.asDictionary
  let dictionary ← resourceObject
  if (dictionary.lookup ("category" ++ category)).isSome then
    let resource ← resourcesModel resourceObject
    some (some ⟨resources.key, resource⟩)
  else some none

def Refresh.resource : Refresh → DataSnapshot → Option (Option (Recorded ResourcesModel))
  | .all => resourceAll
  | .category c => resourceOfCategory c

/-- A round of the loop over the organizations. -/
def organization (organizations : DataSnapshot) : Option (Recorded OrganizationModel) := do
  let organizationObject := organizations.value.asDictionary
  let organizationName := field organizationObject "Name"
  let organizationLocation := field organizationObject "Location"
  let organizationWebsite := field organizationObject "Website"
  let organizationEmail := field organizationObject "Email"
  let organizationPhone := field organizationObject "Phone"
  let organization := OrganizationModel.new (← asOptionalString organizationName)
    (← asOptionalString organizationWebsite) (← asOptionalString organizationEmail)
    (← asOptionalString organizationPhone) (← asOptionalString organizationLocation)
  some ⟨organizations.key, organization⟩

namespace ResorcesVC

/-! ## Loading -/

def refreshResources (vc : ResorcesVC) (category : String) : ResorcesVC :=
  { vc with services := vc.services.observe (.category category) }

def refreshResourcesAll (vc : ResorcesVC) : ResorcesVC := { vc with services := vc.services.observe .all }

def updatesVisibleSegment (vc : ResorcesVC) (selectedSegmentIndex : Nat) : ResorcesVC :=
  { vc with expandedRowIndex := none, selectedSegmentIndex }

/-- The controller, when `services` may have been loaded before. -/
def viewDidLoad (services : Option DataSnapshot) : ResorcesVC :=
  refreshResourcesAll (updatesVisibleSegment { services := { current := services } } 0)

/-- The block observing `organizations`. -/
def organizationsBlock (vc : ResorcesVC) (snapshot : DataSnapshot) : Option ResorcesVC := do
  let organizations ← refill (fun organizations => (organization organizations).map some) vc.organizations
    snapshot.children
  some { vc with organizations }

/-- The main queue runs the next block that is due, with the snapshot of its query. -/
def runBlock (platform : Platform) (vc : ResorcesVC) : Option ResorcesVC :=
  match vc.services.next with
  | none => some vc
  | some ((refresh, snapshot), services) => do
    let resources ← refill refresh.resource vc.resources (platform.queryOrdered "Name" snapshot).children
    some { vc with services, resources }

/-! ## Touches -/

/-- `pickerView(_:didSelectRow:inComponent:)` -/
def didSelectRow (vc : ResorcesVC) (row : Nat) : Option ResorcesVC := do
  let category ← categories[row]?
  let vc := if category = "All" then vc.refreshResourcesAll else vc.refreshResources category
  some { vc with resourcesCategories := category }

/-- The first lines of both branches of `tableView(_:didSelectRowAt:)`: on the expanded row the text of the website
label is unwrapped, made a URL and opened. -/
def openSite (platform : Platform) (vc : ResorcesVC) (row : Nat) (siteString : Option String) : Option ResorcesVC :=
  if vc.expandedRowIndex = some row then do
    let siteString ← siteString
    if platform.isURL siteString then some { vc with opened := vc.opened ++ [siteString] } else none
  else some vc

/-- `tableView(_:didSelectRowAt:)`, for a row of the visible table. -/
def didSelectRowAt (platform : Platform) (vc : ResorcesVC) (row : Nat) : Option ResorcesVC :=
  if vc.selectedSegmentIndex = 0 then do
    let resource ← vc.resources[row]?
    let vc ← vc.openSite platform row resource.model.website
    some { vc with selectedResource := some resource, expandedRowIndex := some row }
  else do
    let organization ← vc.organizations[row]?
    let vc ← vc.openSite platform row organization.model.website
    some { vc with selectedPath := some organization, expandedRowIndex := some row }

end ResorcesVC

open ResorcesVC

/-- What the controller is called with. -/
inductive Event
  | didSelectRow (row : Nat)
  | didSelectRowAt (row : Nat)
  | segmentChanged (selectedSegmentIndex : Nat)
  /-- A new value of the node `services`: a call is due for every observer. -/
  | services (snapshot : DataSnapshot)
  /-- The next of these calls is made. -/
  | callback
  | organizations (snapshot : DataSnapshot)

/-- One call; `none` is a trap. -/
def step (platform : Platform) (vc : ResorcesVC) : Event → Option ResorcesVC
  | .didSelectRow row => vc.didSelectRow row
  | .didSelectRowAt row => vc.didSelectRowAt platform row
  | .segmentChanged selectedSegmentIndex => some (vc.updatesVisibleSegment selectedSegmentIndex)
  | .services snapshot => some { vc with services := vc.services.publish snapshot }
  | .callback => vc.runBlock platform
  | .organizations snapshot => vc.organizationsBlock snapshot

/-! ## What a call changes -/

variable {platform : Platform} {vc vc' : ResorcesVC} {row : ℕ} {snapshot : DataSnapshot}

/-- The keys of the records in the visible table. -/
def ResorcesVC.visibleKeys (vc : ResorcesVC) : List String :=
  if vc.selectedSegmentIndex = 0 then vc.resources.map (·.key) else vc.organizations.map (·.key)

/-- A website is opened only when the row is the expanded one. -/
theorem openSite_some {siteString : Option String} (h : vc.openSite platform row siteString = some vc') :
    ∃ opened, vc' = { vc with opened } ∧ (opened ≠ vc.opened → vc.expandedRowIndex = some row) := by
  unfold openSite at h
  split at h
  · rename_i hrow
    obtain ⟨site, -, h⟩ := Option.bind_eq_some_iff.1 h
    split at h
    · cases h
      exact ⟨_, rfl, fun _ => hrow⟩
    · cases h
  · cases h
    exact ⟨vc.opened, rfl, fun hne => absurd rfl hne⟩

/-- A tap is on a row of the visible table, and expands it. -/
theorem didSelectRowAt_some (h : vc.didSelectRowAt platform row = some vc') :
    ∃ key selectedResource selectedPath opened, vc.visibleKeys[row]? = some key ∧
      vc' = { vc with selectedResource, selectedPath, opened, expandedRowIndex := some row } ∧
      (opened ≠ vc.opened → vc.expandedRowIndex = some row) := by
  unfold didSelectRowAt at h
  unfold visibleKeys
  split at h
  · rename_i hsegment
    obtain ⟨resource, hresource, h⟩ := Option.bind_eq_some_iff.1 h
    obtain ⟨vc₁, hsite, h⟩ := Option.bind_eq_some_iff.1 h
    obtain ⟨opened, rfl, hopened⟩ := openSite_some hsite
    cases h
    exact ⟨resource.key, _, _, opened, by simp [hsegment, hresource], rfl, hopened⟩
  · rename_i hsegment
    obtain ⟨organization, horganization, h⟩ := Option.bind_eq_some_iff.1 h
    obtain ⟨vc₁, hsite, h⟩ := Option.bind_eq_some_iff.1 h
    obtain ⟨opened, rfl, hopened⟩ := openSite_some hsite
    cases h
    exact ⟨organization.key, _, _, opened, by simp [hsegment, horganization], rfl, hopened⟩

/-- The call that is made refills the resources. -/
theorem runBlock_some (h : vc.runBlock platform = some vc') :
    vc.services.next = none ∧ vc' = vc ∨ ∃ refresh snapshot services resources,
      vc.services.next = some ((refresh, snapshot), services) ∧
      refill refresh.resource vc.resources (platform.queryOrdered "Name" snapshot).children = some resources ∧
      vc' = { vc with services, resources } := by
  unfold runBlock at h
  split at h
  · rename_i hnext
    exact .inl ⟨hnext, (Option.some.inj h).symm⟩
  · rename_i refresh snapshot services hnext
    obtain ⟨resources, hresources, h⟩ := Option.bind_eq_some_iff.1 h
    exact .inr ⟨refresh, snapshot, services, resources, hnext, hresources, (Option.some.inj h).symm⟩

/-- The snapshot refills the organizations. -/
theorem organizationsBlock_some (h : vc.organizationsBlock snapshot = some vc') :
    ∃ organizations, refill (fun organizations => (organization organizations).map some) vc.organizations
      snapshot.children = some organizations ∧ vc' = { vc with organizations } := by
  obtain ⟨organizations, horganizations, h⟩ := Option.bind_eq_some_iff.1 h
  exact ⟨organizations, horganizations, (Option.some.inj h).symm⟩

/-- A pick registers an observer and shows the category. -/
theorem didSelectRow_some (h : vc.didSelectRow row = some vc') :
    ∃ category refresh, categories[row]? = some category ∧
      refresh = (if category = "All" then Refresh.all else .category category) ∧
      vc' = { vc with services := vc.services.observe refresh, resourcesCategories := category } := by
  obtain ⟨category, hcategory, h⟩ := Option.bind_eq_some_iff.1 h
  refine ⟨category, _, hcategory, rfl, ?_⟩
  cases h
  split
  · rfl
  · rfl

end CareDirect.Resources
