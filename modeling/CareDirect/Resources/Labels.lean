import CareDirect.Directory.Mirror
import CareDirect.Resources.Category

/-!
# The labels of a row

A value goes from a field of a record through the initialiser of a model to a label. For organizations every field
arrives under its own label. The initialiser of `ResourcesModel` assigns `phone` twice, so a resource shows its location
in the place of its phone number and has no location: the labels of a list of resources are right exactly when no record
of the list has a phone number or a location (`labels_right_iff`).
-/

namespace CareDirect.Resources

open Refill DataSnapshot Results ResorcesVC Directory

/-! ## Cells -/

/-- The labels of `ResourceTableViewCell.swift`. -/
structure ResourceTableViewCell where
  lblName : Option String
  lblWebsite : Option String
  lblEmail : Option String
  lblPhone : Option String
  deriving DecidableEq, Repr

/-- The labels of `OrganizationTableViewCell.swift`. -/
structure OrganizationTableViewCell where
  lblName : Option String
  lblLocation : Option String
  lblPhone : Option String
  lblEmail : Option String
  lblWebsite : Option String
  deriving DecidableEq, Repr

/-- What `tableView(_:cellForRowAt:)` returns. -/
inductive TableViewCell
  | resource (cell : ResourceTableViewCell)
  | organization (cell : OrganizationTableViewCell)
  deriving DecidableEq, Repr

namespace ResorcesVC

def numberOfRowsInSection (vc : ResorcesVC) (isTableContainer : Bool) : ℕ :=
  if isTableContainer then vc.resources.length else vc.organizations.length

def cellForRowAt (vc : ResorcesVC) (isTableContainer : Bool) (row : ℕ) : Option TableViewCell :=
  if isTableContainer then do
    let resource ← vc.resources[row]?
    some (.resource
      { lblName := resource.model.name
        lblWebsite := resource.model.website
        lblEmail := resource.model.email
        lblPhone := resource.model.phone })
  else do
    let organization ← vc.organizations[row]?
    some (.organization
      { lblName := organization.model.name
        lblLocation := organization.model.location
        lblPhone := organization.model.phone
        lblEmail := organization.model.email
        lblWebsite := organization.model.website })

end ResorcesVC

/-- `ResourceDetailVC.swift` -/
structure ResourceDetailVC where
  resource : Option ResourcesModel
  nameLabel : Option String := none
  websiteLabel : Option String := none
  emailLabel : Option String := none
  locationLabel : Option String := none
  phoneLabel : Option String := none
  deriving DecidableEq, Repr

def ResourceDetailVC.setup (vc : ResourceDetailVC) : ResourceDetailVC :=
  { vc with
    nameLabel := vc.resource.bind (·.name)
    websiteLabel := vc.resource.bind (·.website)
    emailLabel := vc.resource.bind (·.email)
    locationLabel := vc.resource.bind (·.location)
    phoneLabel := vc.resource.bind (·.phone) }

/-! ## One row -/

/-- The labels of the row show the fields of the record, and so does the location on the page of the resource. -/
structure ShowsRecord (record : DataSnapshot) (cell : ResourceTableViewCell) (detail : ResourceDetailVC) : Prop where
  name : cell.lblName = record.text "Name"
  website : cell.lblWebsite = record.text "Website"
  email : cell.lblEmail = record.text "Email"
  phone : cell.lblPhone = record.text "Phone"
  location : detail.locationLabel = record.text "Location"

/-- The record has neither a phone number nor a location. -/
def NoPhoneNoLocation (record : DataSnapshot) : Prop := record.text "Phone" = none ∧ record.text "Location" = none

variable {platform : Platform} {vc vc' : ResorcesVC} {record snapshot : DataSnapshot} {records : List DataSnapshot}
  {refresh : Refresh} {services : Broadcast Refresh DataSnapshot}

/-- The row of a record: the location stands for the phone number. -/
theorem cellForRowAt_resource {i : ℕ} (h : vc.resources[i]? = some (resourceOf record)) :
    vc.cellForRowAt true i = some (.resource
      { lblName := record.text "Name"
        lblWebsite := record.text "Website"
        lblEmail := record.text "Email"
        lblPhone := record.text "Location" }) := by
  simp only [cellForRowAt, if_true, h]
  rfl

theorem locationLabel_setup (record : DataSnapshot) :
    (ResourceDetailVC.setup { resource := some (resourceOf record).model }).locationLabel = none := rfl

/-- Row `i` shows the `i`-th record. -/
def RowRight (vc : ResorcesVC) (i : ℕ) (record : DataSnapshot) : Prop :=
  ∃ cell resource, vc.cellForRowAt true i = some (.resource cell) ∧ vc.resources[i]? = some resource ∧
    resource.key = record.key ∧ ShowsRecord record cell (ResourceDetailVC.setup { resource := some resource.model })

theorem rowRight_iff {i : ℕ} (h : vc.resources[i]? = some (resourceOf record)) :
    RowRight vc i record ↔ NoPhoneNoLocation record := by
  have hcell := cellForRowAt_resource h
  constructor
  · rintro ⟨cell, resource, hcell', hresource, -, hshows⟩
    cases hcell.symm.trans hcell'
    cases h.symm.trans hresource
    have hlocation : record.text "Location" = none := hshows.location.symm.trans (locationLabel_setup record)
    exact ⟨hshows.phone.symm.trans hlocation, hlocation⟩
  · rintro ⟨hphone, hlocation⟩
    refine ⟨_, _, hcell, h, rfl, ⟨rfl, rfl, rfl, ?_, ?_⟩⟩
    · exact hlocation.trans hphone.symm
    · exact (locationLabel_setup record).trans hlocation.symm

/-! ## All rows -/

/-- The records that a block shows of a snapshot, in the order of the names. -/
def shown (platform : Platform) (refresh : Refresh) (snapshot : DataSnapshot) : List DataSnapshot :=
  (platform.queryOrdered "Name" snapshot).children.filter refresh.keeps

/-- Every row shows the record that it was decoded from. -/
def RowsRight (records : List DataSnapshot) (vc : ResorcesVC) : Prop :=
  ∀ (i : ℕ) (record : DataSnapshot), records[i]? = some record → RowRight vc i record

theorem rowsRight_iff (h : vc.resources = records.map resourceOf) :
    RowsRight records vc ↔ ∀ record ∈ records, NoPhoneNoLocation record := by
  have hrow : ∀ (i : ℕ) (record : DataSnapshot), records[i]? = some record →
      vc.resources[i]? = some (resourceOf record) := by
    intro i record hi
    rw [h, List.getElem?_map, hi, Option.map_some]
  constructor
  · intro hright record hrecord
    obtain ⟨i, hi⟩ := List.mem_iff_getElem?.1 hrecord
    exact (rowRight_iff (hrow i record hi)).1 (hright i record hi)
  · intro hrecords i record hi
    exact (rowRight_iff (hrow i record hi)).2 (hrecords record (List.mem_of_getElem? hi))

/-- **The labels of the resources.** A call with a readable snapshot, for any category and in any state: there is one
row for each record of the category, and the rows show their records under the right labels exactly when none of these
has a phone number or a location. -/
theorem labels_right_iff (h : Deliverable snapshot) (hnext : vc.services.next = some ((refresh, snapshot), services)) :
    ∃ vc', vc.runBlock platform = some vc' ∧
      vc'.numberOfRowsInSection true = (shown platform refresh snapshot).length ∧
      (RowsRight (shown platform refresh snapshot) vc' ↔
        ∀ record ∈ shown platform refresh snapshot, NoPhoneNoLocation record) := by
  have hblock : vc.runBlock platform = some { vc with services, resources := loaded platform refresh snapshot } := by
    unfold runBlock
    simp only [hnext, refill_resource vc.resources h]
    rfl
  refine ⟨_, hblock, ?_, rowsRight_iff rfl⟩
  exact List.length_map _

/-- The sample has no phone numbers and no locations. -/
theorem labels_right_sample : ∃ vc', (viewDidLoad (some sampleServices)).runBlock samplePlatform = some vc' ∧
    RowsRight (shown samplePlatform .all sampleServices) vc' := by
  obtain ⟨vc', hblock, -, hright⟩ := @labels_right_iff samplePlatform (viewDidLoad (some sampleServices)) sampleServices
    .all _ sampleServices_deliverable rfl
  refine ⟨vc', hblock, hright.2 fun record hr => ?_⟩
  have hchild : record ∈ sampleServices.children :=
    (samplePlatform.perm "Name" sampleServices).mem_iff.1 (List.mem_filter.1 hr).1
  rcases List.mem_cons.1 hchild with rfl | hchild
  · exact ⟨rfl, rfl⟩
  · cases List.mem_singleton.1 hchild
    exact ⟨rfl, rfl⟩

/-- A shelter with a phone number and an address. -/
def shelter : DataSnapshot :=
  ⟨"services", .object [("r1", .object [("Name", .string "Shelter"), ("Phone", .string "206-383-2319"),
    ("Location", .string "Seattle")])]⟩

/-- Its row has the address for a phone number, and its page has no address. -/
theorem labels_wrong : Deliverable shelter ∧ ∃ vc', (viewDidLoad (some shelter)).runBlock samplePlatform = some vc' ∧
    vc'.cellForRowAt true 0 = some (.resource ⟨some "Shelter", none, none, some "Seattle"⟩) ∧
    ¬ RowsRight (shown samplePlatform .all shelter) vc' := by
  refine ⟨⟨List.cons_ne_nil _ _, fun record hr => ?_⟩, _, rfl, rfl, fun hright => ?_⟩
  · cases List.mem_singleton.1 hr
    exact ⟨⟨_, rfl⟩, by decide⟩
  · obtain ⟨cell, resource, hcell, -, -, hshows⟩ := hright 0 _ rfl
    cases hcell
    exact absurd hshows.phone (by decide)

/-! ## Organizations -/

/-- After any calls, every field of an organization is under its own label. -/
theorem organizations_labels {es : List Event} {loaded : Option DataSnapshot}
    (h : WellTyped organizationKeys (es.filterMap organizationsOf))
    (hr : PartialRun.run (Resources.step platform) (viewDidLoad loaded) es = some vc) {i : ℕ}
    (hi : (lastChildren (es.filterMap organizationsOf))[i]? = some record) :
    vc.cellForRowAt false i = some (.organization
      { lblName := record.text "Name"
        lblLocation := record.text "Location"
        lblPhone := record.text "Phone"
        lblEmail := record.text "Email"
        lblWebsite := record.text "Website" }) := by
  have hrow : vc.organizations[i]? = some (organizationOf record) := by
    rw [organizations_run h hr, List.getElem?_map, hi, Option.map_some]
  simp only [cellForRowAt, Bool.false_eq_true, if_false, hrow]
  rfl

end CareDirect.Resources
