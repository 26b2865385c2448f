import CareDirect.Directory.Lists

/-!
# The events controller `EventsVC`

The state of `EventsVC.swift` that its observer writes: the list, the pins on the map, and the geocoding requests that
have not been answered. One delivery of `events` starts a request for every record; the completion handler of a request
keeps the fields that it captured. Geocoder and database answer in any order (`Event`); a failed cast or unwrap is a
trap, `none`.
-/

namespace CareDirect.Events

open Directory PartialRun DataSnapshot

structure CLLocationCoordinate2D where
  latitude : ℚ
  longitude : ℚ
  deriving DecidableEq, Repr

/-- A match of the geocoder. -/
structure CLPlacemark where
  location : Option CLLocationCoordinate2D
  deriving DecidableEq, Repr

/-- `PinModel.swift` -/
structure PinModel where
  titlePin : Option String
  locationPin : String
  organizationPin : String
  datePin : String
  coordinate : CLLocationCoordinate2D
  deriving DecidableEq, Repr

def PinModel.new (titleP locationP dateP organizationP : String) (coordinate : CLLocationCoordinate2D) : PinModel where
  titlePin := some titleP
  locationPin := locationP
  organizationPin := organizationP
  datePin := dateP
  coordinate := coordinate

/-- A call of `geocodeAddressString`: the address, and what its completion handler has captured. -/
structure Geocoding where
  key : String
  address : String
  eventTitle : Option Json
  eventLocation : Option Json
  eventDate : Option Json
  eventOrganization : Option Json

structure EventsVC where
  eventsList : List EventModel := []
  /-- `mapView.annotations`, emptied by `setupMapView` before the first delivery. -/
  annotations : List (Recorded PinModel) := []
  /-- The requests without an answer, in the order of the calls. -/
  geocoding : List Geocoding := []

namespace EventsVC

/-- A round of the loop of `viewDidLoad`. -/
def event (vc : EventsVC) (events : DataSnapshot) : Option EventsVC := do
  let eventObject := events.value.asDictionary
  let eventTitle := field eventObject "Title"
  let eventLocation := field eventObject "Location"
  let eventDate := field eventObject "Date"
  let eventUrl := field eventObject "URL"
  let eventOrganization := field eventObject "Organization"
  let eventDescription := field eventObject "Description"
  let address ← eventLocation.bind Json.asString
  let request : Geocoding := ⟨events.key, address, eventTitle, eventLocation, eventDate, eventOrganization⟩
  let event := EventModel.new (← asOptionalString eventTitle) (← asOptionalString eventLocation)
    (← asOptionalString eventDate) (← asOptionalString eventOrganization) (← asOptionalString eventDescription)
    (← asOptionalString eventUrl)
  some { vc with geocoding := vc.geocoding ++ [request], eventsList := vc.eventsList ++ [event] }

/-- The block observing `events`. The call of `removeAll` is commented out. -/
def observerBlock (vc : EventsVC) (snapshot : DataSnapshot) : Option EventsVC :=
  if snapshot.childrenCount > 0 then snapshot.children.foldlM event vc else some vc

/-- The completion handler of a request. -/
def completionHandler (vc : EventsVC) (request : Geocoding) (placemarks : Option (List CLPlacemark)) (error : Bool) :
    Option EventsVC :=
  if error then some vc
  else match placemarks with
    | none => some vc
    | some placemarks => do
      let placemark ← placemarks[0]?
      let coordinates ← placemark.location
      let customAnnotation := PinModel.new (← request.eventTitle.bind Json.asString)
        (← request.eventLocation.bind Json.asString) (← request.eventDate.bind Json.asString)
        (← request.eventOrganization.bind Json.asString) coordinates
      some { vc with annotations := vc.annotations ++ [⟨request.key, customAnnotation⟩] }

end EventsVC

open EventsVC

/-- What the controller is called with. -/
inductive Event
  | events (snapshot : DataSnapshot)
  /-- An answer to the `i`-th request that has none. -/
  | geocoded (i : Nat) (placemarks : Option (List CLPlacemark)) (error : Bool)

/-- One call; `none` is a trap. -/
def step (vc : EventsVC) : Event → Option EventsVC
  | .events snapshot => vc.observerBlock snapshot
  | .geocoded i placemarks error =>
    match vc.geocoding[i]? with
    | some request => completionHandler { vc with geocoding := vc.geocoding.eraseIdx i } request placemarks error
    | none => some vc

def Event.delivered : Event → Option DataSnapshot
  | .events snapshot => some snapshot
  | .geocoded .. => none

/-- The snapshots among the calls. -/
def deliveries (es : List Event) : List DataSnapshot := es.filterMap Event.delivered

/-- The records of all these snapshots. -/
def recordsOf (snapshots : List DataSnapshot) : List DataSnapshot := snapshots.flatMap children

@[simp] theorem deliveries_snoc_events (p : List Event) (snapshot : DataSnapshot) :
    deliveries (p ++ [.events snapshot]) = deliveries p ++ [snapshot] := by
  simp [deliveries, Event.delivered]

@[simp] theorem deliveries_snoc_geocoded (p : List Event) (i : ℕ) (placemarks : Option (List CLPlacemark))
    (error : Bool) : deliveries (p ++ [.geocoded i placemarks error]) = deliveries p := by
  simp [deliveries, Event.delivered]

@[simp] theorem deliveries_events (snapshots : List DataSnapshot) : deliveries (snapshots.map .events) = snapshots := by
  simp [deliveries, List.filterMap_map, Function.comp_def, Event.delivered]

@[simp] theorem recordsOf_snoc (snapshots : List DataSnapshot) (snapshot : DataSnapshot) :
    recordsOf (snapshots ++ [snapshot]) = recordsOf snapshots ++ snapshot.children := by
  simp [recordsOf]

/-- A snapshot of one event, with its picture. -/
def sampleEvents (url : String) : DataSnapshot :=
  ⟨"events", .object [("k1", .object [("Date", .string "May 6, 2018, 1:00 PM"), ("Description", .string "A walk"),
    ("Location", .string "Seattle"), ("Organization", .string "CareDirect"), ("Title", .string "Walk"),
    ("URL", .string url)])]⟩

/-! ## One delivery -/

/-- The block can read the record: whatever it stores under the keys is a string, and there is an address. -/
def Legible (record : DataSnapshot) : Prop :=
  TextFields eventKeys record ∧ ∃ address, record.text "Location" = some address

/-- Every record of these snapshots can be read. -/
def AllLegible (snapshots : List DataSnapshot) : Prop := ∀ snapshot ∈ snapshots, ∀ r ∈ snapshot.children, Legible r

theorem legible_of_hasTexts {record : DataSnapshot} (h : HasTexts eventKeys record) : Legible record :=
  ⟨h.textFields, h "Location" (by decide)⟩

theorem sampleEvents_hasTexts {urls : List String} : ∀ snapshot ∈ urls.map sampleEvents,
    snapshot.children ≠ [] ∧ ∀ record ∈ snapshot.children, HasTexts eventKeys record := by
  intro snapshot hs
  obtain ⟨url, -, rfl⟩ := List.mem_map.1 hs
  refine ⟨List.cons_ne_nil _ _, fun record hr => ?_⟩
  cases List.mem_singleton.1 hr
  exact of_decide_eq_true rfl

/-- The request made for a record. -/
def requestOf (record : DataSnapshot) : Geocoding :=
  let object := record.value.asDictionary
  { key := record.key, address := (record.text "Location").getD "", eventTitle := field object "Title"
    eventLocation := field object "Location", eventDate := field object "Date"
    eventOrganization := field object "Organization" }

variable {vc vc' : EventsVC} {record snapshot : DataSnapshot} {records : List DataSnapshot}

theorem event_eq (h : Legible record) : event vc record = some { vc with
    geocoding := vc.geocoding ++ [requestOf record]
    eventsList := vc.eventsList ++ [eventOf record] } := by
  obtain ⟨htexts, address, haddress⟩ := h
  obtain ⟨htitle, hlocation, hdate, hurl, horganization, hdescription⟩ := eventKeys_read htexts
  have hforced : (field record.value.asDictionary "Location").bind Json.asString = some address := haddress
  simp only [event, hforced, htitle, hlocation, hdate, hurl, horganization, hdescription, Option.bind_eq_bind,
    Option.bind_some, requestOf, EventModel.new, eventOf, haddress, Option.getD_some]

theorem legible_of_event (h : event vc record = some vc') : Legible record := by
  simp only [event, Option.bind_eq_bind, Option.bind_eq_some_iff] at h
  obtain ⟨address, haddress, title, htitle, location, hlocation, date, hdate, organization, horganization, description,
    hdescription, url, hurl, -⟩ := h
  refine ⟨.of_read ?_, address, Option.bind_eq_some_iff.2 haddress⟩
  simp only [eventKeys, List.forall_mem_cons]
  exact ⟨⟨_, htitle⟩, ⟨_, hlocation⟩, ⟨_, hdate⟩, ⟨_, hurl⟩, ⟨_, horganization⟩, ⟨_, hdescription⟩,
    List.forall_mem_nil _⟩

theorem loop_eq : ∀ {records : List DataSnapshot} (vc : EventsVC), (∀ record ∈ records, Legible record) →
    records.foldlM event vc = some { vc with
      geocoding := vc.geocoding ++ records.map requestOf
      eventsList := vc.eventsList ++ records.map eventOf }
  | [], vc, _ => by simp
  | record :: records, vc, h => by
    obtain ⟨hrecord, h⟩ := List.forall_mem_cons.1 h
    rw [List.foldlM_cons, event_eq hrecord, Option.bind_eq_bind, Option.bind_some, loop_eq _ h]
    simp

/-- A delivery appends, whatever the list held. -/
theorem observerBlock_eq (h : ∀ record ∈ snapshot.children, Legible record) : observerBlock vc snapshot = some { vc with
    geocoding := vc.geocoding ++ snapshot.children.map requestOf
    eventsList := vc.eventsList ++ snapshot.children.map eventOf } := by
  unfold observerBlock
  split
  · exact loop_eq vc h
  · rename_i hcount
    rw [show snapshot.children = [] from List.length_eq_zero_iff.1 (Nat.eq_zero_of_not_pos hcount)]
    simp

/-- The loop is a run over the records, and stops at one that cannot be read. -/
theorem legible_of_observerBlock (h : observerBlock vc snapshot = some vc') :
    ∀ record ∈ snapshot.children, Legible record := by
  unfold observerBlock at h
  split at h
  · have hloop : run event vc snapshot.children = some vc' := h
    refine run_forall (fun u r v hr => ?_) hloop
    exact legible_of_event hr
  · rename_i hcount
    rw [show snapshot.children = [] from List.length_eq_zero_iff.1 (Nat.eq_zero_of_not_pos hcount)]
    exact List.forall_mem_nil _

/-- What a delivery can do. -/
theorem events_some (h : step vc (.events snapshot) = some vc') :
    (∀ record ∈ snapshot.children, Legible record) ∧ vc' = { vc with
      geocoding := vc.geocoding ++ snapshot.children.map requestOf
      eventsList := vc.eventsList ++ snapshot.children.map eventOf } := by
  have hlegible := legible_of_observerBlock h
  exact ⟨hlegible, Option.some.inj (h.symm.trans (observerBlock_eq hlegible))⟩

theorem legible_of_run {es : List Event} (h : run step vc es = some vc') : AllLegible (deliveries es) := by
  have hall := run_forall (P := fun e => ∀ s ∈ e.delivered, ∀ r ∈ s.children, Legible r) (fun u e v he s hs => ?_) h
  · intro s hs
    obtain ⟨e, he, hdelivered⟩ := List.mem_filterMap.1 hs
    exact hall e he s hdelivered
  · cases e with
    | events snapshot =>
      cases hs
      exact (events_some he).1
    | geocoded i placemarks error => cases hs

/-- Deliveries alone: every record is in the list, and is asked for. -/
theorem run_deliveries (vc : EventsVC) {snapshots : List DataSnapshot} (h : AllLegible snapshots) :
    run step vc (snapshots.map .events) = some { vc with
      geocoding := vc.geocoding ++ (recordsOf snapshots).map requestOf
      eventsList := vc.eventsList ++ (recordsOf snapshots).map eventOf } := by
  induction snapshots generalizing vc with
  | nil => simp [recordsOf]
  | cons snapshot snapshots ih =>
    obtain ⟨hsnapshot, h⟩ := List.forall_mem_cons.1 h
    rw [List.map_cons, run_cons]
    simp only [step, observerBlock_eq hsnapshot, Option.bind_some]
    rw [ih _ h]
    simp [recordsOf]

/-! ## One answer -/

/-- A pin made from what the handler of a request has captured. -/
def PinOf (request : Geocoding) (pin : Recorded PinModel) : Prop :=
  pin.key = request.key ∧ request.eventTitle.bind Json.asString = pin.model.titlePin ∧
    request.eventDate.bind Json.asString = some pin.model.datePin ∧
    request.eventOrganization.bind Json.asString = some pin.model.organizationPin

/-- The handler adds at most one pin. -/
theorem completionHandler_some {request : Geocoding} {placemarks : Option (List CLPlacemark)} {error : Bool}
    (h : completionHandler vc request placemarks error = some vc') :
    vc' = vc ∨ ∃ pin, PinOf request pin ∧ vc' = { vc with annotations := vc.annotations ++ [pin] } := by
  unfold completionHandler at h
  split at h
  · exact .inl (Option.some.inj h).symm
  split at h
  · exact .inl (Option.some.inj h).symm
  · obtain ⟨placemark, -, h⟩ := Option.bind_eq_some_iff.1 h
    obtain ⟨coordinates, -, h⟩ := Option.bind_eq_some_iff.1 h
    obtain ⟨title, htitle, h⟩ := Option.bind_eq_some_iff.1 h
    obtain ⟨location, -, h⟩ := Option.bind_eq_some_iff.1 h
    obtain ⟨date, hdate, h⟩ := Option.bind_eq_some_iff.1 h
    obtain ⟨organization, horganization, h⟩ := Option.bind_eq_some_iff.1 h
    exact .inr ⟨_, ⟨rfl, htitle, hdate, horganization⟩, (Option.some.inj h).symm⟩

/-- What an answer can do. -/
theorem geocoded_cases {i : ℕ} {placemarks : Option (List CLPlacemark)} {error : Bool}
    (h : step vc (.geocoded i placemarks error) = some vc') :
    vc' = vc ∨ ∃ request, vc.geocoding[i]? = some request ∧
      (vc' = { vc with geocoding := vc.geocoding.eraseIdx i } ∨ ∃ pin, PinOf request pin ∧
        vc' = { vc with geocoding := vc.geocoding.eraseIdx i, annotations := vc.annotations ++ [pin] }) := by
  simp only [step] at h
  split at h
  · rename_i request hrequest
    exact .inr ⟨request, hrequest, completionHandler_some h⟩
  · exact .inl (Option.some.inj h).symm

/-- The pin shows the record. -/
def IsPin (record : DataSnapshot) (pin : Recorded PinModel) : Prop :=
  pin.key = record.key ∧ pin.model.titlePin = record.text "Title" ∧ some pin.model.datePin = record.text "Date" ∧
    some pin.model.organizationPin = record.text "Organization"

theorem isPin_of_pinOf {pin : Recorded PinModel} (h : PinOf (requestOf record) pin) : IsPin record pin :=
  ⟨h.1, h.2.1.symm, h.2.2.1.symm, h.2.2.2.symm⟩

/-- The keys of the fields that a pin is made of. -/
def pinKeys : List String := ["Title", "Location", "Date", "Organization"]

/-- A placemark adds the pin. -/
theorem completionHandler_placemark (vc : EventsVC) (h : HasTexts pinKeys record)
    (coordinates : CLLocationCoordinate2D) (others : List CLPlacemark) :
    ∃ pin, IsPin record pin ∧ completionHandler vc (requestOf record) (some (⟨some coordinates⟩ :: others)) false =
      some { vc with annotations := vc.annotations ++ [pin] } := by
  obtain ⟨title, htitle⟩ := h "Title" (by decide)
  obtain ⟨location, hlocation⟩ := h "Location" (by decide)
  obtain ⟨date, hdate⟩ := h "Date" (by decide)
  obtain ⟨organization, horganization⟩ := h "Organization" (by decide)
  refine ⟨⟨record.key, .new title location date organization coordinates⟩,
    ⟨rfl, htitle.symm, hdate.symm, horganization.symm⟩, ?_⟩
  unfold text at htitle hlocation hdate horganization
  simp [completionHandler, requestOf, htitle, hlocation, hdate, horganization]

end CareDirect.Events
