import CareDirect.Cells.Live
import CareDirect.Resources.Labels

/-!
# Opening a website from a cell

A tap on the expanded row of `ResorcesVC` opens the text in the website label of the cell, not the website of the
record. As the cells on screen have the texts of their rows, it makes no difference: the controller with its two tables
is the controller of `Resources`, in which the record is read (`sites_run`).
-/

namespace CareDirect.Cells

open PartialRun Resources Results

/-! ## The two tables -/

/-- The calls that end in `tableContainer.reloadData()`. -/
def reloadsResources (platform : Platform) (vc : ResorcesVC) : Resources.Event → Bool
  | .callback =>
    match vc.services.next with
    | some ((_, snapshot), _) => decide ((platform.queryOrdered "Name" snapshot).childrenCount > 0)
    | none => false
  | _ => false

/-- The calls that end in `organizationContainer.reloadData()`. -/
def reloadsOrganizations : Resources.Event → Bool
  | .organizations snapshot => decide (snapshot.childrenCount > 0)
  | _ => false

def resourceLabels (resource : Recorded ResourcesModel) : ResourceTableViewCell where
  lblName := resource.model.name
  lblWebsite := resource.model.website
  lblEmail := resource.model.email
  lblPhone := resource.model.phone

def organizationLabels (organization : Recorded OrganizationModel) : OrganizationTableViewCell where
  lblName := organization.model.name
  lblLocation := organization.model.location
  lblPhone := organization.model.phone
  lblEmail := organization.model.email
  lblWebsite := organization.model.website

variable {platform : Platform} {vc vc' : ResorcesVC} {e : Resources.Event}

/-- A call that does not reload a table leaves its list alone. -/
theorem keeps_lists (h : Resources.step platform vc e = some vc') :
    (reloadsResources platform vc e = false → vc'.resources = vc.resources) ∧
      (reloadsOrganizations e = false → vc'.organizations = vc.organizations) := by
  cases e with
  | didSelectRow row =>
    obtain ⟨_, _, -, -, rfl⟩ := didSelectRow_some h
    exact ⟨fun _ => rfl, fun _ => rfl⟩
  | didSelectRowAt row =>
    obtain ⟨_, _, _, _, -, rfl, -⟩ := didSelectRowAt_some h
    exact ⟨fun _ => rfl, fun _ => rfl⟩
  | segmentChanged segment =>
    cases h
    exact ⟨fun _ => rfl, fun _ => rfl⟩
  | services snapshot =>
    cases h
    exact ⟨fun _ => rfl, fun _ => rfl⟩
  | callback =>
    rcases runBlock_some h with ⟨-, rfl⟩ | ⟨refresh, snapshot, services, resources, hnext, hrefill, rfl⟩
    · exact ⟨fun _ => rfl, fun _ => rfl⟩
    · refine ⟨fun hreloads => ?_, fun _ => rfl⟩
      rw [reloadsResources, hnext] at hreloads
      exact refill_childless hrefill hreloads
  | organizations snapshot =>
    obtain ⟨organizations, hrefill, rfl⟩ := organizationsBlock_some h
    exact ⟨fun _ => rfl, fun hreloads => refill_childless hrefill hreloads⟩

/-- The cells of `ResorcesVC` have no pictures, and ask the storage for none. -/
def noPictures : Storage where
  accepts _ := false

/-- `tableContainer` -/
def resourcesController (platform : Platform) :
    Controller ResorcesVC Resources.Event (Recorded ResourcesModel) ResourceTableViewCell where
  step := Resources.step platform
  rows := ResorcesVC.resources
  reloads := reloadsResources platform
  labels := resourceLabels
  url _ := none
  storage := noPictures
  keeps _ _ _ h := (keeps_lists h).1

/-- `organizationContainer` -/
def organizationsController (platform : Platform) :
    Controller ResorcesVC Resources.Event (Recorded OrganizationModel) OrganizationTableViewCell where
  step := Resources.step platform
  rows := ResorcesVC.organizations
  reloads _ := reloadsOrganizations
  labels := organizationLabels
  url _ := none
  storage := noPictures
  keeps _ _ _ h := (keeps_lists h).2

/-! ## The screen -/

/-- The controller with its two tables. -/
structure ResorcesScreen where
  vc : ResorcesVC
  tableContainer : Table ResourceTableViewCell := {}
  organizationContainer : Table OrganizationTableViewCell := {}

namespace ResorcesScreen

inductive Event
  /-- A pick, a switch, a snapshot or a callback. -/
  | call (e : Resources.Event)
  | tableContainer (e : Cells.Event)
  | organizationContainer (e : Cells.Event)
  /-- A tap on a row of the visible table. -/
  | tap (row : ℕ)

/-- The text in the label of the cell, where the row is the expanded one; a cell that is not there is a trap. -/
def siteString {L : Type} (table : Table L) (website : L → Option String) (vc : ResorcesVC) (row : ℕ) :
    Option (Option String) :=
  if vc.expandedRowIndex = some row then
    (table.cellForRow row).map fun cell => cell.labels.bind website
  else some none

/-- `tableView(_:didSelectRowAt:)` -/
def didSelectRowAt (platform : Platform) (s : ResorcesScreen) (row : ℕ) : Option ResorcesScreen :=
  if s.vc.selectedSegmentIndex = 0 then do
    let siteString ← siteString s.tableContainer ResourceTableViewCell.lblWebsite s.vc row
    let vc ← s.vc.openSite platform row siteString
    let resource ← vc.resources[row]?
    some { s with vc := { vc with selectedResource := some resource, expandedRowIndex := some row } }
  else do
    let siteString ← siteString s.organizationContainer OrganizationTableViewCell.lblWebsite s.vc row
    let vc ← s.vc.openSite platform row siteString
    let organization ← vc.organizations[row]?
    some { s with vc := { vc with selectedPath := some organization, expandedRowIndex := some row } }

/-- The row is on screen, in the visible table. -/
def Visible (s : ResorcesScreen) (row : ℕ) : Prop :=
  if s.vc.selectedSegmentIndex = 0 then (s.tableContainer.cellForRow row).isSome = true
  else (s.organizationContainer.cellForRow row).isSome = true

instance (s : ResorcesScreen) (row : ℕ) : Decidable (s.Visible row) := by
  unfold Visible
  infer_instance

/-- One event; `none` is a trap, or a tap on a row that is not on screen. -/
def step (platform : Platform) (s : ResorcesScreen) : Event → Option ResorcesScreen
  | .call e => (Resources.step platform s.vc e).map fun vc =>
    { vc
      tableContainer := if reloadsResources platform s.vc e then s.tableContainer.reloadData else s.tableContainer
      organizationContainer :=
        if reloadsOrganizations e then s.organizationContainer.reloadData else s.organizationContainer }
  | .tableContainer e =>
    (s.tableContainer.step noPictures resourceLabels (fun _ => none) s.vc.resources e).map fun tableContainer =>
      { s with tableContainer }
  | .organizationContainer e =>
    (s.organizationContainer.step noPictures organizationLabels (fun _ => none) s.vc.organizations e).map
      fun organizationContainer => { s with organizationContainer }
  | .tap row => if s.Visible row then s.didSelectRowAt platform row else none

/-- The screen after `viewDidLoad`. -/
def viewDidLoad (services : Option DataSnapshot) : ResorcesScreen := { vc := ResorcesVC.viewDidLoad services }

/-- The calls of the controller in a run of the screen. -/
def Event.toCall : Event → Option Resources.Event
  | .call e => some e
  | .tap row => some (.didSelectRowAt row)
  | .tableContainer _ | .organizationContainer _ => none

variable {s t : ResorcesScreen} {row : ℕ} {services : Option DataSnapshot} {es : List Event}

/-! ## Taps -/

/-- Both tables have the texts of their rows. -/
structure Faithful (platform : Platform) (s : ResorcesScreen) : Prop where
  resources : Labelled (resourcesController platform) ⟨s.vc, s.tableContainer⟩
  organizations : Labelled (organizationsController platform) ⟨s.vc, s.organizationContainer⟩

/-- A row on screen has a record, and the text in its label is the record's. -/
theorem siteString_eq {σ ε α L : Type} {c : Controller σ ε α L} {live : Live σ L} (h : Labelled c live)
    (hcell : (live.table.cellForRow row).isSome = true) (website : L → Option String) (vc : ResorcesVC) :
    ∃ model, (c.rows live.vc)[row]? = some model ∧ siteString live.table website vc row =
      some (if vc.expandedRowIndex = some row then website (c.labels model) else none) := by
  obtain ⟨model, cell, hmodel, hcell, hlabels⟩ := h.cellForRow hcell
  refine ⟨model, hmodel, ?_⟩
  unfold siteString
  split
  · rw [hcell, Option.map_some, hlabels, Option.bind_some]
  · rfl

/-- Only the text in the expanded row counts. -/
theorem openSite_ite (site : Option String) :
    vc.openSite platform row (if vc.expandedRowIndex = some row then site else none) = vc.openSite platform row site := by
  unfold ResorcesVC.openSite
  split
  · rfl
  · rfl

/-- **A tap** reads the label, and does what reading the record would do. -/
theorem Faithful.tap (h : s.Faithful platform) (hvisible : s.Visible row) :
    s.step platform (.tap row) = (s.vc.didSelectRowAt platform row).map fun vc => { s with vc } := by
  rw [step, if_pos hvisible]
  unfold Visible at hvisible
  unfold didSelectRowAt ResorcesVC.didSelectRowAt
  split
  · rename_i hsegment
    rw [if_pos hsegment] at hvisible
    obtain ⟨resource, hresource, hsite⟩ :=
      siteString_eq h.resources hvisible ResourceTableViewCell.lblWebsite s.vc
    have hrow : s.vc.resources[row]? = some resource := hresource
    simp only [hsite, hrow, Option.bind_eq_bind, Option.bind_some, openSite_ite]
    change (s.vc.openSite platform row resource.model.website).bind _ = _
    cases hopen : s.vc.openSite platform row resource.model.website with
    | none => rfl
    | some vc =>
      obtain ⟨opened, rfl, -⟩ := openSite_some hopen
      simp only [Option.bind_some, hrow, Option.map_some]
  · rename_i hsegment
    rw [if_neg hsegment] at hvisible
    obtain ⟨organization, horganization, hsite⟩ :=
      siteString_eq h.organizations hvisible OrganizationTableViewCell.lblWebsite s.vc
    have hrow : s.vc.organizations[row]? = some organization := horganization
    simp only [hsite, hrow, Option.bind_eq_bind, Option.bind_some, openSite_ite]
    change (s.vc.openSite platform row organization.model.website).bind _ = _
    cases hopen : s.vc.openSite platform row organization.model.website with
    | none => rfl
    | some vc =>
      obtain ⟨opened, rfl, -⟩ := openSite_some hopen
      simp only [Option.bind_some, hrow, Option.map_some]

/-! ## Runs -/

/-- One event: a call of the controller, or none. -/
theorem Faithful.step {e : Event} (h : s.Faithful platform) (he : s.step platform e = some t) :
    t.Faithful platform ∧ (e.toCall = none ∧ t.vc = s.vc ∨
      ∃ call, e.toCall = some call ∧ Resources.step platform s.vc call = some t.vc) := by
  cases e with
  | call e =>
    obtain ⟨vc, hvc, rfl⟩ := Option.map_eq_some_iff.1 he
    refine ⟨⟨h.resources.step (e := .call e) ?_, h.organizations.step (e := .call e) ?_⟩, .inr ⟨e, rfl, hvc⟩⟩
    · exact Option.map_eq_some_iff.2 ⟨vc, hvc, rfl⟩
    · exact Option.map_eq_some_iff.2 ⟨vc, hvc, rfl⟩
  | tableContainer e =>
    obtain ⟨tableContainer, htable, rfl⟩ := Option.map_eq_some_iff.1 he
    refine ⟨⟨h.resources.step (e := .table e) ?_, h.organizations⟩, .inl ⟨rfl, rfl⟩⟩
    exact Option.map_eq_some_iff.2 ⟨tableContainer, htable, rfl⟩
  | organizationContainer e =>
    obtain ⟨organizationContainer, htable, rfl⟩ := Option.map_eq_some_iff.1 he
    refine ⟨⟨h.resources, h.organizations.step (e := .table e) ?_⟩, .inl ⟨rfl, rfl⟩⟩
    exact Option.map_eq_some_iff.2 ⟨organizationContainer, htable, rfl⟩
  | tap row =>
    by_cases hvisible : s.Visible row
    · rw [h.tap hvisible] at he
      obtain ⟨vc, hvc, rfl⟩ := Option.map_eq_some_iff.1 he
      refine ⟨⟨h.resources.step (e := .call (.didSelectRowAt row)) ?_,
        h.organizations.step (e := .call (.didSelectRowAt row)) ?_⟩, .inr ⟨.didSelectRowAt row, rfl, hvc⟩⟩
      · exact Option.map_eq_some_iff.2 ⟨vc, hvc, rfl⟩
      · exact Option.map_eq_some_iff.2 ⟨vc, hvc, rfl⟩
    · rw [ResorcesScreen.step, if_neg hvisible] at he
      cases he

/-- **Websites.** In every order of picks, switches, snapshots, callbacks, requests for cells and taps on rows on
screen: the controller with its tables runs as the controller of `Resources` does, which reads the records; a tap on a
row traps exactly where it does there. -/
theorem sites_run (h : run (step platform) (viewDidLoad services) es = some s) :
    run (Resources.step platform) (ResorcesVC.viewDidLoad services) (es.filterMap Event.toCall) = some s.vc ∧
      (∀ row, s.Visible row →
        s.step platform (.tap row) = (s.vc.didSelectRowAt platform row).map fun vc => { s with vc }) ∧
      Labelled (resourcesController platform) ⟨s.vc, s.tableContainer⟩ ∧
      Labelled (organizationsController platform) ⟨s.vc, s.organizationContainer⟩ := by
  have hstart : (viewDidLoad services).Faithful platform := by
    refine ⟨fun k cell row hcell => ?_, fun k cell row hcell => ?_⟩
    · cases hcell
    · cases hcell
  obtain ⟨hfaithful, hcalls⟩ :=
    run_view_of ResorcesScreen.vc Event.toCall (fun _ _ _ hu he => hu.step he) hstart h
  exact ⟨hcalls, fun row hvisible => hfaithful.tap hvisible, hfaithful.resources, hfaithful.organizations⟩

/-- The first resource is displayed and tapped twice. -/
def sampleSites : List Event := [.call .callback, .tableContainer (.cellForRowAt 0 none), .tap 0, .tap 0]

theorem sites_run_sample : ∃ s, run (step samplePlatform) (viewDidLoad (some sampleServices)) sampleSites = some s ∧
    s.vc.opened.length = 1 ∧ run (Resources.step samplePlatform) (ResorcesVC.viewDidLoad (some sampleServices))
      [.callback, .didSelectRowAt 0, .didSelectRowAt 0] = some s.vc :=
  ⟨_, rfl, rfl, (@sites_run samplePlatform _ (some sampleServices) sampleSites rfl).1⟩

end ResorcesScreen

end CareDirect.Cells
