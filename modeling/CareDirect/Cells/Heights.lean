import CareDirect.Cells.Sites
import CareDirect.Resources.Expanded

/-!
# Which row looks expanded

`ResorcesVC` has two notions of the expanded row. A row is tall if it was selected when its table asked for the heights:
this happens in the middle of a tap, and at every reload, where no row is selected. A tap opens a website if its row is
`expandedRowIndex`, which both tables share, and which a reload leaves alone. So a tap never opens the website of one row
while another row looks expanded; but after a reload it does on a row that looks like all others (`heights_run`).
-/

namespace CareDirect.Resources

def ResourceTableViewCell.expandedHeight : ℕ := 200

def ResourceTableViewCell.defaultHeight : ℕ := 50

def OrganizationTableViewCell.expandedHeightOrg : ℕ := 200

def OrganizationTableViewCell.defaultHeightOrg : ℕ := 50

end CareDirect.Resources

namespace CareDirect.Cells

open PartialRun Resources

/-- The controller, and for each table the row that was selected when it asked for the heights for the last time. -/
structure ResorcesHeights where
  vc : ResorcesVC
  tableContainer : Option ℕ := none
  organizationContainer : Option ℕ := none

namespace ResorcesHeights

/-- `tableView(_:heightForRowAt:)` for `tableContainer` -/
def resourceHeight (indexPathForSelectedRow : Option ℕ) (row : ℕ) : ℕ :=
  if some row = indexPathForSelectedRow then ResourceTableViewCell.expandedHeight
  else ResourceTableViewCell.defaultHeight

/-- `tableView(_:heightForRowAt:)` for `organizationContainer` -/
def organizationHeight (indexPathForSelectedRow : Option ℕ) (row : ℕ) : ℕ :=
  if some row = indexPathForSelectedRow then OrganizationTableViewCell.expandedHeightOrg
  else OrganizationTableViewCell.defaultHeightOrg

/-- The heights after a call: a tap has them asked for in `toggleContent` or `toggleOrgContent`, before it deselects its
row; and a table asks for them when it reloads, which deselects its rows. -/
def layout (platform : Platform) (s : ResorcesHeights) (vc : ResorcesVC) : Resources.Event → ResorcesHeights
  | .didSelectRowAt row =>
    if s.vc.selectedSegmentIndex = 0 then { s with vc, tableContainer := some row }
    else { s with vc, organizationContainer := some row }
  | e =>
    { vc
      tableContainer := if reloadsResources platform s.vc e then none else s.tableContainer
      organizationContainer := if reloadsOrganizations e then none else s.organizationContainer }

def step (platform : Platform) (s : ResorcesHeights) (e : Resources.Event) : Option ResorcesHeights :=
  (Resources.step platform s.vc e).map fun vc => s.layout platform vc e

def viewDidLoad (services : Option DataSnapshot) : ResorcesHeights := { vc := ResorcesVC.viewDidLoad services }

/-- The row of the visible table has the expanded height. -/
def Tall (s : ResorcesHeights) (row : ℕ) : Prop :=
  if s.vc.selectedSegmentIndex = 0 then
    resourceHeight s.tableContainer row = ResourceTableViewCell.expandedHeight
  else organizationHeight s.organizationContainer row = OrganizationTableViewCell.expandedHeightOrg

/-- A tap on the row of the visible table opens a website. -/
def Opens (platform : Platform) (s : ResorcesHeights) (row : ℕ) : Prop :=
  ∃ t, s.step platform (.didSelectRowAt row) = some t ∧ t.vc.opened ≠ s.vc.opened

/-- The call reloads the visible table. -/
def Reloads (platform : Platform) (s : ResorcesHeights) (e : Resources.Event) : Prop :=
  if s.vc.selectedSegmentIndex = 0 then reloadsResources platform s.vc e = true else reloadsOrganizations e = true

def IsTap (e : Resources.Event) : Prop := ∃ row, e = .didSelectRowAt row

/-- Since the last tap the visible table has been reloaded. -/
def Reloaded (platform : Platform) (services : Option DataSnapshot) (es : List Resources.Event) : Prop :=
  Since (step platform) (viewDidLoad services) es (Reloads platform) IsTap

variable {platform : Platform} {services : Option DataSnapshot} {s t : ResorcesHeights} {e : Resources.Event}
  {es : List Resources.Event} {row : ℕ}

/-! ## Heights -/

theorem resourceHeight_eq_iff {selected : Option ℕ} :
    resourceHeight selected row = ResourceTableViewCell.expandedHeight ↔ selected = some row := by
  unfold resourceHeight
  split
  · rename_i hrow
    exact iff_of_true rfl hrow.symm
  · rename_i hrow
    exact iff_of_false (by decide) (Ne.symm hrow)

theorem organizationHeight_eq_iff {selected : Option ℕ} :
    organizationHeight selected row = OrganizationTableViewCell.expandedHeightOrg ↔ selected = some row := by
  unfold organizationHeight
  split
  · rename_i hrow
    exact iff_of_true rfl hrow.symm
  · rename_i hrow
    exact iff_of_false (by decide) (Ne.symm hrow)

/-- The row that was selected when the visible table asked for the heights. -/
def laidOut (s : ResorcesHeights) : Option ℕ :=
  if s.vc.selectedSegmentIndex = 0 then s.tableContainer else s.organizationContainer

theorem tall_iff : s.Tall row ↔ s.laidOut = some row := by
  unfold Tall laidOut
  split
  · exact resourceHeight_eq_iff
  · exact organizationHeight_eq_iff

/-! ## Steps -/

@[simp] theorem layout_vc (vc : ResorcesVC) (e : Resources.Event) : (s.layout platform vc e).vc = vc := by
  unfold layout
  split
  · split
    · rfl
    · rfl
  · rfl

theorem step_vc (h : s.step platform e = some t) : Resources.step platform s.vc e = some t.vc := by
  obtain ⟨vc, hvc, rfl⟩ := Option.map_eq_some_iff.1 h
  rw [hvc, layout_vc]

/-- Only a switch changes the segment. -/
theorem segment_step {vc vc' : ResorcesVC} (hswitch : ∀ segment, e ≠ .segmentChanged segment)
    (h : Resources.step platform vc e = some vc') : vc'.selectedSegmentIndex = vc.selectedSegmentIndex := by
  cases e with
  | didSelectRow row =>
    obtain ⟨_, _, -, -, rfl⟩ := didSelectRow_some h
    rfl
  | didSelectRowAt row =>
    obtain ⟨_, _, _, _, -, rfl, -⟩ := didSelectRowAt_some h
    rfl
  | segmentChanged segment => exact absurd rfl (hswitch segment)
  | services snapshot =>
    cases h
    rfl
  | callback =>
    rcases runBlock_some h with ⟨-, rfl⟩ | ⟨_, _, _, _, -, -, rfl⟩
    · rfl
    · rfl
  | organizations snapshot =>
    obtain ⟨_, -, rfl⟩ := organizationsBlock_some h
    rfl

/-- A tap expands its row, and lays the table out with it. -/
theorem tap_some (h : s.step platform (.didSelectRowAt row) = some t) :
    t.vc.expandedRowIndex = some row ∧ t.laidOut = some row ∧
      (t.vc.opened ≠ s.vc.opened → s.vc.expandedRowIndex = some row) := by
  obtain ⟨vc, hvc, rfl⟩ := Option.map_eq_some_iff.1 h
  have hlaid : (s.layout platform vc (.didSelectRowAt row)).laidOut = some row := by
    unfold laidOut
    rw [layout_vc, segment_step (by simp) hvc]
    unfold layout
    split
    · rfl
    · rfl
  obtain ⟨_, _, _, _, -, rfl, hopened⟩ := didSelectRowAt_some hvc
  rw [layout_vc]
  exact ⟨rfl, hlaid, hopened⟩

theorem switch_some {segment : ℕ} (h : s.step platform (.segmentChanged segment) = some t) :
    t.vc.expandedRowIndex = none := by
  cases h
  rfl

/-- Any other call leaves the expanded row alone, and the layout unless it reloads the table. -/
theorem quiet_some (hquiet : e.Quiet) (h : s.step platform e = some t) :
    t.vc.expandedRowIndex = s.vc.expandedRowIndex ∧
      (Reloads platform s e → t.laidOut = none) ∧ (¬ Reloads platform s e → t.laidOut = s.laidOut) := by
  obtain ⟨vc, hvc, rfl⟩ := Option.map_eq_some_iff.1 h
  have hswitch : ∀ segment, e ≠ .segmentChanged segment := by
    rintro segment rfl
    exact hquiet
  have hlayout : s.layout platform vc e = ⟨vc, if reloadsResources platform s.vc e then none else s.tableContainer,
      if reloadsOrganizations e then none else s.organizationContainer⟩ := by
    cases e with
    | didSelectRowAt row => exact hquiet.elim
    | didSelectRow row => rfl
    | segmentChanged segment => rfl
    | services snapshot => rfl
    | callback => rfl
    | organizations snapshot => rfl
  rw [hlayout]
  refine ⟨(quiet_step hquiet hvc).1, ?_⟩
  unfold laidOut Reloads
  rw [segment_step hswitch hvc]
  split
  · exact ⟨fun hreloads => if_pos hreloads, fun hreloads => if_neg hreloads⟩
  · exact ⟨fun hreloads => if_pos hreloads, fun hreloads => if_neg hreloads⟩

/-! ## Runs -/

/-- While a row is expanded, its table is laid out with it, unless it has been reloaded since the last tap. -/
def LaidOut (platform : Platform) (services : Option DataSnapshot) (es : List Resources.Event) (s : ResorcesHeights) :
    Prop :=
  ∀ row, s.vc.expandedRowIndex = some row →
    Reloaded platform services es ∧ s.laidOut = none ∨ ¬ Reloaded platform services es ∧ s.laidOut = some row

theorem not_isTap (h : e.Quiet) : ¬ IsTap e := by
  rintro ⟨row, rfl⟩
  exact h

theorem LaidOut.step (h : LaidOut platform services es s)
    (hs : run (step platform) (viewDidLoad services) es = some s) (he : s.step platform e = some t) :
    LaidOut platform services (es ++ [e]) t := by
  intro row hrow
  have hsince : Reloaded platform services (es ++ [e]) ↔
      Reloaded platform services es ∧ ¬ IsTap e ∨ Reloads platform s e := since_snoc hs
  have hquiet : e.Quiet → Reloaded platform services (es ++ [e]) ∧ t.laidOut = none ∨
      ¬ Reloaded platform services (es ++ [e]) ∧ t.laidOut = some row := by
    intro hquiet
    obtain ⟨hexpanded, hreset, hkept⟩ := quiet_some hquiet he
    rw [hexpanded] at hrow
    by_cases hreloads : Reloads platform s e
    · exact .inl ⟨hsince.2 (.inr hreloads), hreset hreloads⟩
    · have hsame : Reloaded platform services (es ++ [e]) ↔ Reloaded platform services es :=
        hsince.trans ⟨fun hr => hr.elim And.left fun h => absurd h hreloads, fun hr => .inl ⟨hr, not_isTap hquiet⟩⟩
      rw [hkept hreloads, hsame]
      exact h row hrow
  cases e with
  | didSelectRowAt row' =>
    obtain ⟨hexpanded, hlaid, -⟩ := tap_some he
    rw [hexpanded] at hrow
    cases hrow
    have hreloads : ¬ Reloads platform s (.didSelectRowAt row) := by
      simp [Reloads, reloadsResources, reloadsOrganizations]
    exact .inr ⟨fun hr => (hsince.1 hr).elim (fun h => h.2 ⟨row, rfl⟩) hreloads, hlaid⟩
  | segmentChanged segment =>
    rw [switch_some he] at hrow
    cases hrow
  | didSelectRow row' => exact hquiet trivial
  | services snapshot => exact hquiet trivial
  | callback => exact hquiet trivial
  | organizations snapshot => exact hquiet trivial

/-- **Heights.** In every order of picks, switches, snapshots, callbacks and taps: the controller runs as it does
without its tables; while a row looks expanded, a tap opens no website but that of this row; and a row whose website a
tap opens looks expanded exactly if its table has not been reloaded since the last tap. -/
theorem heights_run (h : run (step platform) (viewDidLoad services) es = some s) :
    run (Resources.step platform) (ResorcesVC.viewDidLoad services) es = some s.vc ∧
      (∀ row row', s.Tall row → s.Opens platform row' → row' = row) ∧
      ∀ row, s.Opens platform row → (s.Tall row ↔ ¬ Reloaded platform services es) := by
  have hlaid : LaidOut platform services es s := by
    refine run_induction (I := fun p u => LaidOut platform services p u) ?_ (fun p u e v hp hu he => hu.step hp he) es h
    intro row hrow
    cases hrow
  have hexpanded : ∀ row, s.Opens platform row → s.vc.expandedRowIndex = some row := by
    rintro row ⟨t, ht, hopened⟩
    exact (tap_some ht).2.2 hopened
  refine ⟨?_, fun row row' htall hopens => ?_, fun row hopens => ?_⟩
  · have hview := run_view ResorcesHeights.vc some (fun u e v he => .inr ⟨e, rfl, step_vc he⟩) h
    rwa [List.filterMap_some] at hview
  · have hrow := tall_iff.1 htall
    rcases hlaid row' (hexpanded row' hopens) with ⟨-, hnone⟩ | ⟨-, hsome⟩
    · rw [hnone] at hrow
      cases hrow
    · rw [hsome] at hrow
      exact Option.some.inj hrow
  · rw [tall_iff]
    rcases hlaid row (hexpanded row hopens) with ⟨hreloaded, hnone⟩ | ⟨hreloaded, hsome⟩
    · rw [hnone]
      exact iff_of_false (by simp) (not_not_intro hreloaded)
    · exact iff_of_true hsome hreloaded

/-- The first resource is tapped, and the services are delivered again. -/
def sampleHeights : List Resources.Event :=
  [.callback, .didSelectRowAt 0, .services sampleServices, .callback]

theorem heights_run_sample : ∃ s, run (step samplePlatform) (viewDidLoad (some sampleServices)) sampleHeights = some s ∧
    s.Opens samplePlatform 0 ∧ (s.Tall 0 ↔ ¬ Reloaded samplePlatform (some sampleServices) sampleHeights) := by
  obtain ⟨s, hs, hopens⟩ : ∃ s, run (step samplePlatform) (viewDidLoad (some sampleServices)) sampleHeights = some s ∧
      s.Opens samplePlatform 0 := ⟨_, rfl, _, rfl, by decide⟩
  exact ⟨s, hs, hopens, (heights_run hs).2.2 0 hopens⟩

end ResorcesHeights

end CareDirect.Cells
