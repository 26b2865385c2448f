import CareDirect.Firebase
import CareDirect.Lib.Dictionary
import CareDirect.Lib.Run

/-!
# The form for a new event, `AddEventVC`

A tap on the button of `AddEventVC.swift` writes a record to `events`, under a key that `childByAutoId` has made, and
sends the picture to the storage. The completion handler of the upload writes the address of the picture into the record
whose key it has captured. Taps and completions come in any order (`Action`).
-/

namespace CareDirect.Events

open Dictionary PartialRun

structure UIImage where
  /-- `UIImagePNGRepresentation` -/
  png : Option (List UInt8)

structure StorageMetadata where
  /-- `downloadURL()?.absoluteString` -/
  downloadURL : Option String

/-- The texts of the six fields, and the picture. -/
structure EventForm where
  titleEventTF : String
  locationEventTF : String
  websiteTF : String
  organizationEvent : String
  descriptionEventTF : String
  dateEvent : String
  imageView : Option UIImage

inductive EventAlert
  | alertMessage (userMessage : String)
  | successMessage (successMessage : String)
  deriving DecidableEq, Repr

/-- A call of `putData`: the key that its completion handler has captured, and the data. -/
structure Upload where
  key : String
  data : List UInt8

structure AddEventVC where
  /-- The records of the node `events`. -/
  refEvents : List (String × List (String × Json)) := []
  /-- The uploads that have not completed. -/
  uploads : List Upload := []
  alerts : List EventAlert := []

namespace AddEventVC

def displayMyAlertMessage (vc : AddEventVC) (userMessage : String) : AddEventVC :=
  { vc with alerts := vc.alerts ++ [.alertMessage userMessage] }

def displayMySuccessMessage (vc : AddEventVC) (successMessage : String) : AddEventVC :=
  { vc with alerts := vc.alerts ++ [.successMessage successMessage] }

/-- `key` is the one that `childByAutoId` gives. -/
def addEvent (vc : AddEventVC) (form : EventForm) (key : String) : Option AddEventVC := do
  let event := [("Title", Json.string form.titleEventTF), ("Location", .string form.locationEventTF),
    ("Description", .string form.descriptionEventTF), ("Website", .string form.websiteTF),
    ("Date", .string form.dateEvent), ("Organization", .string form.organizationEvent)]
  let vc := { vc with refEvents := setValue vc.refEvents key event }
  let data ← (← form.imageView).png
  some { vc with uploads := vc.uploads ++ [⟨key, data⟩] }

def addEventTapped (vc : AddEventVC) (form : EventForm) (key : String) : Option AddEventVC :=
  if form.titleEventTF.isEmpty || form.locationEventTF.isEmpty || form.websiteTF.isEmpty ||
      form.organizationEvent.isEmpty || form.descriptionEventTF.isEmpty || form.dateEvent.isEmpty then
    some (vc.displayMyAlertMessage "All fields are required")
  else
    (vc.displayMySuccessMessage "The Event has been added successfully!").addEvent form key

/-- `refEvents.child(key).child("URL").setValue(downloadURL)` -/
def setURL (vc : AddEventVC) (key downloadURL : String) : AddEventVC :=
  let record := (vc.refEvents.lookup key).getD []
  { vc with refEvents := setValue vc.refEvents key (setValue record "URL" (.string downloadURL)) }

/-- The completion handler of an upload. -/
def completionHandler (vc : AddEventVC) (key : String) (metaData : Option StorageMetadata) (error : Bool) :
    Option AddEventVC :=
  if error then some vc
  else do
    let downloadURL ← (← metaData).downloadURL
    some (vc.setURL key downloadURL)

inductive Action
  | addEventTapped (form : EventForm) (key : String)
  /-- The upload whose handler has captured the key completes. -/
  | uploaded (key : String) (metaData : Option StorageMetadata) (error : Bool)

/-- One call; `none` is a trap, or an upload that has not been started. -/
def step (vc : AddEventVC) : Action → Option AddEventVC
  | .addEventTapped form key => vc.addEventTapped form key
  | .uploaded key metaData error => do
    let upload ← vc.uploads.find? (·.key = key)
    { vc with uploads := vc.uploads.eraseP (·.key = key) }.completionHandler upload.key metaData error

/-- The record stored under a key. -/
def record (vc : AddEventVC) (key : String) : Option DataSnapshot :=
  (vc.refEvents.lookup key).map fun fields => ⟨key, .object fields⟩

end AddEventVC

/-! ## What has been submitted -/

/-- An event as it was entered, and the address of its picture. -/
@[ext] structure Submission where
  title : String
  location : String
  website : String
  organization : String
  description : String
  date : String
  url : Option String
  deriving DecidableEq, Repr

/-- No field has been left empty. -/
def EventForm.Filled (form : EventForm) : Prop :=
  form.titleEventTF ≠ "" ∧ form.locationEventTF ≠ "" ∧ form.websiteTF ≠ "" ∧ form.organizationEvent ≠ "" ∧
    form.descriptionEventTF ≠ "" ∧ form.dateEvent ≠ ""

instance (form : EventForm) : Decidable form.Filled :=
  inferInstanceAs (Decidable (_ ∧ _ ∧ _ ∧ _ ∧ _ ∧ _))

/-- What the form submits, the picture still on its way. -/
def EventForm.submission (form : EventForm) : Submission where
  title := form.titleEventTF
  location := form.locationEventTF
  website := form.websiteTF
  organization := form.organizationEvent
  description := form.descriptionEventTF
  date := form.dateEvent
  url := none

/-- What one call adds: a filled form is submitted under its key, and a picture that has arrived gets its address. -/
def submit (submissions : List (Recorded Submission)) : AddEventVC.Action → List (Recorded Submission)
  | .addEventTapped form key => if form.Filled then submissions ++ [⟨key, form.submission⟩] else submissions
  | .uploaded key (some ⟨some url⟩) false =>
    submissions.map fun s => if s.key = key then { s with model := { s.model with url := some url } } else s
  | .uploaded .. => submissions

/-- What has been submitted by these calls, each submission under its key. -/
def submissions (actions : List AddEventVC.Action) : List (Recorded Submission) := actions.foldl submit []

theorem submissions_snoc (actions : List AddEventVC.Action) (action : AddEventVC.Action) :
    submissions (actions ++ [action]) = submit (submissions actions) action := by
  simp [submissions]

/-- The record of a submission. -/
def Submission.fields (s : Submission) : List (String × Json) :=
  [("Title", .string s.title), ("Location", .string s.location), ("Description", .string s.description),
    ("Website", .string s.website), ("Date", .string s.date), ("Organization", .string s.organization)] ++
    (s.url.map fun url => ("URL", Json.string url)).toList

/-! ## What one call does -/

open AddEventVC

variable {vc vc' : AddEventVC} {form : EventForm} {key : String} {subs : List (Recorded Submission)}
  {actions : List Action} {action : Action}

theorem addEventTapped_filled (h : form.Filled) : vc.addEventTapped form key =
    (vc.displayMySuccessMessage "The Event has been added successfully!").addEvent form key := by
  obtain ⟨htitle, hlocation, hwebsite, horganization, hdescription, hdate⟩ := h
  simp [addEventTapped, String.isEmpty_iff, htitle, hlocation, hwebsite, horganization, hdescription, hdate]

theorem addEventTapped_unfilled (h : ¬ form.Filled) :
    vc.addEventTapped form key = some (vc.displayMyAlertMessage "All fields are required") := by
  unfold addEventTapped
  rw [if_pos]
  simp only [Bool.or_eq_true, String.isEmpty_iff]
  unfold EventForm.Filled at h
  tauto

theorem addEvent_some (h : vc.addEvent form key = some vc') :
    vc'.refEvents = setValue vc.refEvents key form.submission.fields := by
  simp only [addEvent, Option.bind_eq_bind, Option.bind_eq_some_iff] at h
  obtain ⟨image, -, data, -, h⟩ := h
  cases h
  rfl

/-- What a call that goes on does to the node: it writes what it submits, and otherwise nothing. -/
theorem step_cases (h : step vc action = some vc') :
    (∃ form key, action = .addEventTapped form key ∧ form.Filled ∧
      vc'.refEvents = setValue vc.refEvents key form.submission.fields) ∨
    (∃ key url, action = .uploaded key (some ⟨some url⟩) false ∧ vc'.refEvents = (vc.setURL key url).refEvents) ∨
    ((∀ subs, submit subs action = subs) ∧ vc'.refEvents = vc.refEvents) := by
  cases action with
  | addEventTapped form key =>
    by_cases hfilled : form.Filled
    · have hwrite := addEvent_some ((addEventTapped_filled hfilled).symm.trans h)
      exact .inl ⟨form, key, rfl, hfilled, hwrite⟩
    · refine .inr (.inr ⟨fun subs => if_neg hfilled, ?_⟩)
      cases (addEventTapped_unfilled hfilled).symm.trans h
      rfl
  | uploaded key metaData error =>
    obtain ⟨upload, hupload, h⟩ := Option.bind_eq_some_iff.1 h
    have hkey : upload.key = key := by simpa using List.find?_some hupload
    rw [hkey] at h
    cases error with
    | true =>
      cases h
      refine .inr (.inr ⟨fun subs => ?_, rfl⟩)
      rcases metaData with - | ⟨- | url⟩ <;> rfl
    | false =>
      obtain ⟨⟨downloadURL⟩, rfl, h⟩ := Option.bind_eq_some_iff.1 h
      obtain ⟨url, hurl, h⟩ := Option.bind_eq_some_iff.1 h
      obtain rfl : downloadURL = some url := hurl
      cases h
      exact .inr (.inl ⟨key, url, rfl, rfl⟩)

/-! ## Every submission is stored -/

/-- Every submission has its record. -/
def Stored (subs : List (Recorded Submission)) (vc : AddEventVC) : Prop :=
  ∀ s ∈ subs, vc.refEvents.lookup s.key = some s.model.fields

/-- The address is added after the other fields, or in place of an older one. -/
theorem fields_setValue (s : Submission) (url : String) :
    setValue s.fields "URL" (.string url) = { s with url := some url }.fields := by
  obtain ⟨title, location, website, organization, description, date, before⟩ := s
  cases before <;> rfl

/-- A call submits nothing else. -/
theorem keys_submit (subs : List (Recorded Submission)) (action : Action) :
    subs.map (·.key) <+: (submit subs action).map (·.key) := by
  unfold submit
  split
  · split
    · rw [List.map_append]
      exact List.prefix_append _ _
    · exact List.prefix_rfl
  · refine ⟨[], ?_⟩
    rw [List.append_nil, List.map_map]
    refine List.map_congr_left fun s _ => ?_
    simp only [Function.comp_apply]
    split <;> rfl
  · exact List.prefix_rfl

/-- One call stores what it submits, under keys that are not used twice. -/
theorem Stored.step (hstored : Stored subs vc) (h : step vc action = some vc')
    (hkeys : ((submit subs action).map (·.key)).Nodup) : Stored (submit subs action) vc' := by
  rcases step_cases h with ⟨form, key, rfl, hfilled, hnode⟩ | ⟨key, url, rfl, hnode⟩ | ⟨hsubs, hnode⟩
  · have hsubmit : submit subs (.addEventTapped form key) = subs ++ [⟨key, form.submission⟩] := if_pos hfilled
    rw [hsubmit] at hkeys ⊢
    rw [List.map_append] at hkeys
    refine List.forall_mem_append.2 ⟨fun s hs => ?_, List.forall_mem_singleton.2 ?_⟩
    · have hne : s.key ≠ key :=
        (List.nodup_append.1 hkeys).2.2 s.key (List.mem_map_of_mem hs) key (List.mem_singleton_self key)
      rw [hnode, lookup_setValue_of_ne hne]
      exact hstored s hs
    · rw [hnode]
      exact lookup_setValue_self
  · refine List.forall_mem_map.2 fun s hs => ?_
    rw [hnode]
    unfold setURL
    split
    · rename_i hkey
      rw [← hkey, hstored s hs]
      exact lookup_setValue_self.trans (congrArg some (fields_setValue s.model url))
    · rename_i hkey
      rw [lookup_setValue_of_ne hkey]
      exact hstored s hs
  · rw [hsubs, Stored, hnode]
    exact hstored

/-- **Every submission is stored**, in every order of the taps and the completions, and whatever was in the node. -/
theorem stored_run (hkeys : ((submissions actions).map (·.key)).Nodup) (h : run step vc actions = some vc') :
    Stored (submissions actions) vc' := by
  refine run_induction (I := fun p u => ((submissions p).map (·.key)).Nodup → Stored (submissions p) u)
    (fun _ => List.forall_mem_nil _) ?_ actions h hkeys
  intro p u action v _ hu hstep hkeys
  rw [submissions_snoc] at hkeys ⊢
  exact (hu (hkeys.sublist (keys_submit _ action).sublist)).step hstep hkeys

end CareDirect.Events
