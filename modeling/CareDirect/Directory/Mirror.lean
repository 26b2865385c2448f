import CareDirect.Directory.Lists
import CareDirect.Resources.ResorcesVC

/-!
# What the lists show

Each of the four lists of records is refilled by every snapshot that has children, and passed over by the others. So it
is, field by field, the last snapshot that had children (`directory_mirrors`); a node that has been emptied leaves the
list as it was.
-/

namespace CareDirect.Directory

open Refill PartialRun DataSnapshot Resources

/-! ## The organizations -/

def organizationKeys : List String := ["Name", "Location", "Website", "Email", "Phone"]

/-- The texts of a record of `organizations`. -/
def organizationOf (record : DataSnapshot) : Recorded OrganizationModel where
  key := record.key
  model :=
    { name := record.text "Name"
      website := record.text "Website"
      email := record.text "Email"
      phone := record.text "Phone"
      location := record.text "Location" }

variable {platform : Platform} {record : DataSnapshot} {vc vc' : ResorcesVC} {e : Event} {es : List Event}
  {services : Option DataSnapshot}

theorem organization_eq (h : TextFields organizationKeys record) :
    organization record = some (organizationOf record) := by
  have hread : ∀ key ∈ organizationKeys, _ := fun _ => h.read
  simp only [organizationKeys, List.forall_mem_cons] at hread
  obtain ⟨hname, hlocation, hwebsite, hemail, hphone, -⟩ := hread
  simp only [organization, hname, hlocation, hwebsite, hemail, hphone, Option.bind_eq_bind, Option.bind_some]
  rfl

/-- The snapshot of `organizations` that a call brings. -/
def organizationsOf : Event → Option DataSnapshot
  | .organizations snapshot => some snapshot
  | _ => none

/-- The block, on the list alone. -/
def refillOrganizations (list : List (Recorded OrganizationModel)) (snapshot : DataSnapshot) :
    Option (List (Recorded OrganizationModel)) :=
  refill (fun organizations => (organization organizations).map some) list snapshot.children

/-- No other call touches the list. -/
theorem organizations_step (h : Resources.step platform vc e = some vc') :
    organizationsOf e = none ∧ vc'.organizations = vc.organizations ∨
      ∃ snapshot, organizationsOf e = some snapshot ∧
        refillOrganizations vc.organizations snapshot = some vc'.organizations := by
  cases e with
  | didSelectRow row =>
    obtain ⟨_, _, -, -, rfl⟩ := didSelectRow_some h
    exact .inl ⟨rfl, rfl⟩
  | didSelectRowAt row =>
    obtain ⟨_, _, _, _, -, rfl, -⟩ := didSelectRowAt_some h
    exact .inl ⟨rfl, rfl⟩
  | segmentChanged segment =>
    cases h
    exact .inl ⟨rfl, rfl⟩
  | services snapshot =>
    cases h
    exact .inl ⟨rfl, rfl⟩
  | callback =>
    rcases runBlock_some h with ⟨-, rfl⟩ | ⟨_, _, _, _, -, -, rfl⟩
    · exact .inl ⟨rfl, rfl⟩
    · exact .inl ⟨rfl, rfl⟩
  | organizations snapshot =>
    obtain ⟨organizations, horganizations, rfl⟩ := organizationsBlock_some h
    exact .inr ⟨snapshot, rfl, horganizations⟩

theorem run_refillOrganizations {snapshots : List DataSnapshot} (h : WellTyped organizationKeys snapshots) :
    run refillOrganizations [] snapshots = some ((lastChildren snapshots).map organizationOf) :=
  run_observerBlock id (fun _ _ => Option.map_id'.symm) fun s hs r hr => organization_eq (h s hs r hr)

/-- The list in a run of the controller. -/
theorem organizations_run (h : WellTyped organizationKeys (es.filterMap organizationsOf))
    (hr : run (Resources.step platform) (ResorcesVC.viewDidLoad services) es = some vc) :
    vc.organizations = (lastChildren (es.filterMap organizationsOf)).map organizationOf := by
  have hview := run_view ResorcesVC.organizations organizationsOf (fun _ _ _ he => organizations_step he) hr
  exact Option.some.inj (hview.symm.trans (run_refillOrganizations h))

/-- Snapshots alone do not stop the controller. -/
theorem organizations_total (platform : Platform) {snapshots : List DataSnapshot}
    (h : WellTyped organizationKeys snapshots) (vc : ResorcesVC) :
    ∃ vc', run (Resources.step platform) vc (snapshots.map .organizations) = some vc' := by
  induction snapshots generalizing vc with
  | nil => exact ⟨vc, rfl⟩
  | cons snapshot snapshots ih =>
    obtain ⟨hsnapshot, h⟩ := List.forall_mem_cons.1 h
    have hdecode : ∀ r ∈ snapshot.children, (organization r).map some = some (some (organizationOf r)) :=
      fun r hr => by rw [organization_eq (hsnapshot r hr)]; rfl
    have hblock : refillOrganizations vc.organizations snapshot = some _ :=
      refill_some.2 ⟨readable_of_eq hdecode, rfl⟩
    unfold refillOrganizations at hblock
    obtain ⟨vc', hvc'⟩ := ih h _
    refine ⟨vc', ?_⟩
    rw [List.map_cons, run_cons]
    simp only [Resources.step, ResorcesVC.organizationsBlock, hblock, Option.bind_eq_bind, Option.bind_some]
    exact hvc'

/-! ## The four lists -/

/-- **The lists of records.** For snapshots of any sizes with text fields: no block traps, and after every delivery each
list is the decoding, field by field and in order, of the children of the last snapshot that had any. The organizations
are so whatever else happens to their controller. -/
theorem directory_mirrors :
    (∀ snapshots, WellTyped trainerKeys snapshots → ∃ vc, run TrainingVC.observerBlock {} snapshots = some vc ∧
      vc.trainers = (lastChildren snapshots).map trainerOf) ∧
    (∀ snapshots, WellTyped eventKeys snapshots → ∃ vc, run ListVC.observerBlock {} snapshots = some vc ∧
      vc.eventsList = (lastChildren snapshots).map eventOf) ∧
    (∀ snapshots, WellTyped eventKeys snapshots → ∃ vc, run DetailsViewController.observerBlock {} snapshots = some vc ∧
      vc.detailsList = (lastChildren snapshots).map detailOf) ∧
    ∀ platform services, (∀ snapshots, WellTyped organizationKeys snapshots → ∃ vc,
        run (Resources.step platform) (ResorcesVC.viewDidLoad services) (snapshots.map .organizations) = some vc) ∧
      ∀ es vc, WellTyped organizationKeys (es.filterMap organizationsOf) →
        run (Resources.step platform) (ResorcesVC.viewDidLoad services) es = some vc →
        vc.organizations = (lastChildren (es.filterMap organizationsOf)).map organizationOf := by
  refine ⟨fun snapshots h => ?_, fun snapshots h => ?_, fun snapshots h => ?_, fun platform services => ⟨?_, ?_⟩⟩
  · exact ⟨_, TrainingVC.run_eq h, rfl⟩
  · exact ⟨_, ListVC.run_eq h, rfl⟩
  · exact ⟨_, DetailsViewController.run_eq h, rfl⟩
  · exact fun snapshots h => organizations_total platform h _
  · exact fun es vc h hr => organizations_run h hr

/-- One trainer, and then none. -/
def sampleTrainers : List DataSnapshot :=
  [⟨"trainers", .object [("t1", .object [("Name", .string "Ann"), ("Phone", .string "206-383-2319")])]⟩,
    ⟨"trainers", .null⟩]

theorem sampleTrainers_wellTyped : WellTyped trainerKeys sampleTrainers := by
  intro snapshot hs record hr
  rcases List.mem_cons.1 hs with rfl | hs
  · cases List.mem_singleton.1 hr
    decide
  · cases List.mem_singleton.1 hs
    cases hr

/-- The sample. -/
theorem directory_mirrors_sample : ∃ vc, run TrainingVC.observerBlock {} sampleTrainers = some vc ∧
    vc.trainers = (lastChildren sampleTrainers).map trainerOf :=
  directory_mirrors.1 sampleTrainers sampleTrainers_wellTyped

/-- In the sample the trainer is still listed when there are none. -/
theorem directory_keeps : WellTyped trainerKeys sampleTrainers ∧
    ∃ vc latest, run TrainingVC.observerBlock {} sampleTrainers = some vc ∧ sampleTrainers.getLast? = some latest ∧
      vc.trainers.map (·.name) = [some "Ann"] ∧ latest.children.map trainerOf = [] :=
  ⟨sampleTrainers_wellTyped, _, _, rfl, rfl, rfl, rfl⟩

end CareDirect.Directory
