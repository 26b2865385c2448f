import CareDirect.Firebase
import CareDirect.Lib.Refill

/-!
# Lists of records

`TrainingVC`, `ListVC` and `DetailsViewController` each observe one node and fill an array from its children. The three
blocks are copies of one loop (`refill`) around a decoder of their own. A decoder reads every field with `as! String?`,
from an object that is `nil` when the child is not a dictionary.
-/

namespace CareDirect.Directory

open Refill PartialRun DataSnapshot

/-! ## Models -/

/-- `EventModel.swift` -/
structure EventModel where
  title : Option String
  location : Option String
  date : Option String
  url : Option String
  organization : Option String
  description : Option String
  deriving DecidableEq, Repr

def EventModel.new (Title Location Date Organization Description URL : Option String) : EventModel where
  title := Title
  location := Location
  date := Date
  url := URL
  organization := Organization
  description := Description

/-- `DetailsModel.swift` -/
structure DetailsModel where
  title : Option String
  location : Option String
  date : Option String
  organization : Option String
  description : Option String
  url : Option String
  deriving DecidableEq, Repr

def DetailsModel.new (Title Location Date Organization Description URL : Option String) : DetailsModel where
  title := Title
  location := Location
  date := Date
  organization := Organization
  description := Description
  url := URL

/-- `TrainerModel.swift` -/
structure TrainerModel where
  name : Option String
  organization : Option String
  location : Option String
  phone : Option String
  email : Option String
  url : Option String
  deriving DecidableEq, Repr

def TrainerModel.new (Name Organization Email Phone Location URL : Option String) : TrainerModel where
  name := Name
  organization := Organization
  location := Location
  phone := Phone
  email := Email
  url := URL

/-! ## Decoders -/

/-- A round of the loop of `ListVC.viewDidLoad` -/
def ListVC.event (events : DataSnapshot) : Option EventModel := do
  let eventObject := events.value.asDictionary
  let eventTitle := field eventObject "Title"
  let eventLocation := field eventObject "Location"
  let eventDate := field eventObject "Date"
  let eventUrl := field eventObject "URL"
  let eventOrganization := field eventObject "Organization"
  let evenDescription := field eventObject "Description"
  some (.new (← asOptionalString eventTitle) (← asOptionalString eventLocation) (← asOptionalString eventDate)
    (← asOptionalString eventOrganization) (← asOptionalString evenDescription) (← asOptionalString eventUrl))

/-- A round of the loop of `DetailsViewController.viewDidLoad` -/
def DetailsViewController.detail (events : DataSnapshot) : Option DetailsModel := do
  let eventObject := events.value.asDictionary
  let eventTitle := field eventObject "Title"
  let eventLocation := field eventObject "Location"
  let eventDate := field eventObject "Date"
  let eventUrl := field eventObject "URL"
  let eventOrganization := field eventObject "Organization"
  let eventDescription := field eventObject "Description"
  some (.new (← asOptionalString eventTitle) (← asOptionalString eventLocation) (← asOptionalString eventDate)
    (← asOptionalString eventOrganization) (← asOptionalString eventDescription) (← asOptionalString eventUrl))

/-- A round of the loop of `TrainingVC.viewDidLoad` -/
def TrainingVC.trainer (trainers : DataSnapshot) : Option TrainerModel := do
  let trainerObject := trainers.value.asDictionary
  let trainerName := field trainerObject "Name"
  let trainerOrganization := field trainerObject "Organization"
  let trainerLocation := field trainerObject "Location"
  let trainerPhone := field trainerObject "Phone"
  let trainerEmail := field trainerObject "Email"
  let trainerUrl := field trainerObject "URL"
  some (.new (← asOptionalString trainerName) (← asOptionalString trainerOrganization)
    (← asOptionalString trainerEmail) (← asOptionalString trainerPhone) (← asOptionalString trainerLocation)
    (← asOptionalString trainerUrl))

/-! ## Blocks -/

structure ListVC where
  eventsList : List EventModel := []
  deriving DecidableEq, Repr

/-- The block observing `events`. -/
def ListVC.observerBlock (vc : ListVC) (snapshot : DataSnapshot) : Option ListVC := do
  let eventsList ← refill (fun events => (ListVC.event events).map some) vc.eventsList snapshot.children
  some { vc with eventsList }

structure DetailsViewController where
  detailsList : List DetailsModel := []
  deriving DecidableEq, Repr

/-- The block observing `events`. -/
def DetailsViewController.observerBlock (vc : DetailsViewController) (snapshot : DataSnapshot) :
    Option DetailsViewController := do
  let detailsList ← refill (fun events => (DetailsViewController.detail events).map some) vc.detailsList
    snapshot.children
  some { vc with detailsList }

structure TrainingVC where
  trainers : List TrainerModel := []
  deriving DecidableEq, Repr

/-- The block observing `trainers`. -/
def TrainingVC.observerBlock (vc : TrainingVC) (snapshot : DataSnapshot) : Option TrainingVC := do
  let trainers ← refill (fun trainers => (TrainingVC.trainer trainers).map some) vc.trainers snapshot.children
  some { vc with trainers }

/-! ## What the decoders read -/

def eventKeys : List String := ["Title", "Location", "Date", "URL", "Organization", "Description"]

def trainerKeys : List String := ["Name", "Organization", "Location", "Phone", "Email", "URL"]

/-- The texts of a record of `events`. -/
def eventOf (record : DataSnapshot) : EventModel where
  title := record.text "Title"
  location := record.text "Location"
  date := record.text "Date"
  url := record.text "URL"
  organization := record.text "Organization"
  description := record.text "Description"

def detailOf (record : DataSnapshot) : DetailsModel where
  title := record.text "Title"
  location := record.text "Location"
  date := record.text "Date"
  organization := record.text "Organization"
  description := record.text "Description"
  url := record.text "URL"

/-- The texts of a record of `trainers`. -/
def trainerOf (record : DataSnapshot) : TrainerModel where
  name := record.text "Name"
  organization := record.text "Organization"
  location := record.text "Location"
  phone := record.text "Phone"
  email := record.text "Email"
  url := record.text "URL"

variable {record : DataSnapshot} {snapshots : List DataSnapshot}

/-- The six reads of a record of `events`. -/
theorem eventKeys_read (h : TextFields eventKeys record) :
    let read := fun key => asOptionalString (field record.value.asDictionary key)
    read "Title" = some (record.text "Title") ∧ read "Location" = some (record.text "Location") ∧
      read "Date" = some (record.text "Date") ∧ read "URL" = some (record.text "URL") ∧
      read "Organization" = some (record.text "Organization") ∧
      read "Description" = some (record.text "Description") := by
  have hread : ∀ key ∈ eventKeys, _ := fun _ => h.read
  simp only [eventKeys, List.forall_mem_cons] at hread
  obtain ⟨htitle, hlocation, hdate, hurl, horganization, hdescription, -⟩ := hread
  exact ⟨htitle, hlocation, hdate, hurl, horganization, hdescription⟩

theorem ListVC.event_eq (h : TextFields eventKeys record) : ListVC.event record = some (eventOf record) := by
  obtain ⟨htitle, hlocation, hdate, hurl, horganization, hdescription⟩ := eventKeys_read h
  simp only [ListVC.event, htitle, hlocation, hdate, hurl, horganization, hdescription, Option.bind_eq_bind,
    Option.bind_some]
  rfl

theorem DetailsViewController.detail_eq (h : TextFields eventKeys record) :
    DetailsViewController.detail record = some (detailOf record) := by
  obtain ⟨htitle, hlocation, hdate, hurl, horganization, hdescription⟩ := eventKeys_read h
  simp only [DetailsViewController.detail, htitle, hlocation, hdate, hurl, horganization, hdescription,
    Option.bind_eq_bind, Option.bind_some]
  rfl

theorem TrainingVC.trainer_eq (h : TextFields trainerKeys record) :
    TrainingVC.trainer record = some (trainerOf record) := by
  have hread : ∀ key ∈ trainerKeys, _ := fun _ => h.read
  simp only [trainerKeys, List.forall_mem_cons] at hread
  obtain ⟨hname, horganization, hlocation, hphone, hemail, hurl, -⟩ := hread
  simp only [TrainingVC.trainer, hname, horganization, hlocation, hphone, hemail, hurl, Option.bind_eq_bind,
    Option.bind_some]
  rfl

/-! ## Runs -/

/-- The children of the last snapshot that has any. -/
def lastChildren (snapshots : List DataSnapshot) : List DataSnapshot := lastNonempty (snapshots.map children)

theorem lastChildren_cases (snapshots : List DataSnapshot) :
    lastChildren snapshots = [] ∨ ∃ snapshot ∈ snapshots, lastChildren snapshots = snapshot.children := by
  refine (lastNonempty_mem (snapshots.map children)).imp_right fun h => ?_
  obtain ⟨snapshot, hs, he⟩ := List.mem_map.1 h
  exact ⟨snapshot, hs, he.symm⟩

/-- A list that a block refills shows the last snapshot that has children. -/
theorem run_observerBlock {σ α : Type} {step : σ → DataSnapshot → Option σ} (mk : List α → σ)
    {decode : DataSnapshot → Option α} {f : DataSnapshot → α}
    (hstep : ∀ list snapshot,
      step (mk list) snapshot = (refill (fun r => (decode r).map some) list snapshot.children).map mk)
    (h : ∀ snapshot ∈ snapshots, ∀ r ∈ snapshot.children, decode r = some (f r)) :
    run step (mk []) snapshots = some (mk ((lastChildren snapshots).map f)) := by
  have hdecode : ∀ snapshot ∈ snapshots, ∀ r ∈ snapshot.children, (decode r).map some = some (some (f r)) :=
    fun snapshot hs r hr => by rw [h snapshot hs r hr]; rfl
  have hlist : run (refill fun r => (decode r).map some) [] (snapshots.map children) =
      some ((lastChildren snapshots).map f) := by
    rw [run_refill, List.forall_mem_map]
    refine ⟨fun snapshot hs => readable_of_eq (hdecode snapshot hs), ?_⟩
    change _ = decoded _ (lastChildren snapshots)
    rcases lastChildren_cases snapshots with hlast | ⟨snapshot, hs, hlast⟩
    · rw [hlast]
      rfl
    · rw [hlast, decoded_eq (hdecode snapshot hs), ← List.filterMap_eq_map]
      rfl
  rw [run_embed hstep, hlist]
  rfl

/-- The records of these snapshots have text fields only. -/
def WellTyped (keys : List String) (snapshots : List DataSnapshot) : Prop :=
  ∀ snapshot ∈ snapshots, ∀ record ∈ snapshot.children, TextFields keys record

theorem ListVC.run_eq (h : WellTyped eventKeys snapshots) :
    run ListVC.observerBlock {} snapshots = some ⟨(lastChildren snapshots).map eventOf⟩ :=
  run_observerBlock ListVC.mk (fun _ _ => Option.map_eq_bind.symm) fun s hs r hr => event_eq (h s hs r hr)

theorem DetailsViewController.run_eq (h : WellTyped eventKeys snapshots) :
    run DetailsViewController.observerBlock {} snapshots = some ⟨(lastChildren snapshots).map detailOf⟩ :=
  run_observerBlock DetailsViewController.mk (fun _ _ => Option.map_eq_bind.symm)
    fun s hs r hr => detail_eq (h s hs r hr)

theorem TrainingVC.run_eq (h : WellTyped trainerKeys snapshots) :
    run TrainingVC.observerBlock {} snapshots = some ⟨(lastChildren snapshots).map trainerOf⟩ :=
  run_observerBlock TrainingVC.mk (fun _ _ => Option.map_eq_bind.symm) fun s hs r hr => trainer_eq (h s hs r hr)

end CareDirect.Directory
