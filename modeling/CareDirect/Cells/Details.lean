import CareDirect.Cells.Live
import CareDirect.Lib.Spawning

/-!
# The details of an event

Tapping on a cell of `EventsVC` opens an `EventViewController` with the event in the row of the cell. That screen asks the
storage for the picture as the cell has done, so a tap on a cell on screen is not stopped. It makes one download and is
never used for another event; so, unlike the cells, it only ever shows the picture of its own event (`details_run`).
-/

namespace CareDirect.Cells

open Directory PartialRun Spawning

/-! ## `EventViewController` -/

structure EventViewController where
  detailsModel : Option EventModel
  lblDate : Option String
  lblOrganization : Option String
  lblTitle : Option String
  lblLocation : Option String
  lblDescription : Option String
  /-- The address that the picture was downloaded from. -/
  imageView : Option String := none
  /-- The addresses in the calls of `getData` that have not completed. -/
  downloads : List String := []

namespace EventViewController

/-- The texts that `viewDidLoad` sets. -/
def texts (detailsModel : Option EventModel) : EventViewController where
  detailsModel := detailsModel
  lblDate := detailsModel.bind EventModel.date
  lblOrganization := detailsModel.bind EventModel.organization
  lblTitle := detailsModel.bind EventModel.title
  lblLocation := detailsModel.bind EventModel.location
  lblDescription := detailsModel.bind EventModel.description

/-- `none` is a trap: an address that the storage refuses. -/
def viewDidLoad (storage : Storage) (detailsModel : Option EventModel) : Option EventViewController :=
  match detailsModel.bind EventModel.url with
  | some url => do
    let imageStorageRef ← storage.reference url
    some { texts detailsModel with downloads := [imageStorageRef] }
  | none => some (texts detailsModel)

/-- The completion block of a download: an error, or no data, or data that are a picture or not. -/
structure Downloaded where
  i : ℕ
  error : Bool
  data : Option Bool

def step (vc : EventViewController) (e : Downloaded) : Option EventViewController :=
  vc.downloads[e.i]?.map fun url =>
    let vc := { vc with downloads := vc.downloads.eraseIdx e.i }
    if e.error then vc
    else match e.data with
      | some isImage => { vc with imageView := if isImage then some url else none }
      | none => vc

/-- The screen has been given the event; it has its texts, and no picture but its own. -/
structure Of (event : EventModel) (vc : EventViewController) : Prop where
  detailsModel : vc.detailsModel = some event
  lblDate : vc.lblDate = event.date
  lblOrganization : vc.lblOrganization = event.organization
  lblTitle : vc.lblTitle = event.title
  lblLocation : vc.lblLocation = event.location
  lblDescription : vc.lblDescription = event.description
  imageView : ∀ picture, vc.imageView = some picture → event.url = some picture
  downloads : ∀ picture ∈ vc.downloads, event.url = some picture

variable {storage : Storage} {event : EventModel} {vc vc' : EventViewController}

theorem of_viewDidLoad (h : viewDidLoad storage (some event) = some vc) : vc.Of event := by
  have htexts : (texts (some event)).Of event := by
    refine ⟨rfl, rfl, rfl, rfl, rfl, rfl, fun picture hpicture => ?_, List.forall_mem_nil _⟩
    cases hpicture
  unfold viewDidLoad at h
  split at h
  · rename_i url hurl
    obtain ⟨_, hreference, hloaded⟩ := Option.bind_eq_some_iff.1 h
    obtain ⟨-, rfl⟩ := Storage.reference_eq_some_iff.1 hreference
    cases hloaded
    exact { htexts with downloads := List.forall_mem_singleton.2 hurl }
  · cases h
    exact htexts

/-- Where the storage takes the address, the screen is loaded. -/
theorem exists_viewDidLoad (h : storage.takes event.url = true) : ∃ vc, viewDidLoad storage (some event) = some vc := by
  unfold viewDidLoad
  rw [Option.bind_some]
  cases hurl : event.url with
  | none => exact ⟨_, rfl⟩
  | some url =>
    rw [hurl, Storage.takes_some] at h
    exact ⟨_, Option.bind_eq_some_iff.2 ⟨url, Storage.reference_eq_some_iff.2 ⟨h, rfl⟩, rfl⟩⟩

theorem Of.step {e : Downloaded} (h : vc.Of event) (he : vc.step e = some vc') : vc'.Of event := by
  obtain ⟨url, hurl, rfl⟩ := Option.map_eq_some_iff.1 he
  have hrest : ∀ picture ∈ vc.downloads.eraseIdx e.i, event.url = some picture :=
    fun picture hpicture => h.downloads picture ((List.eraseIdx_sublist _ _).subset hpicture)
  have hkept : ({ vc with downloads := vc.downloads.eraseIdx e.i } : EventViewController).Of event :=
    { h with downloads := hrest }
  simp only
  split
  · exact hkept
  split
  · refine { hkept with imageView := fun picture hpicture => ?_ }
    simp only at hpicture
    split at hpicture
    · cases hpicture
      exact h.downloads _ (List.mem_of_getElem? hurl)
    · cases hpicture
  · exact hkept

end EventViewController

/-! ## `EventsVC` with its details screens -/

/-- The controller, its table, and the details screens as they were loaded. -/
structure EventsScreen where
  live : Live Events.EventsVC ListLabels := { vc := {} }
  presented : List EventViewController := []

namespace EventsScreen

inductive Event
  | live (e : LiveEvent Events.Event)
  /-- A tap on a cell. -/
  | tap (cell : ℕ)

/-- `prepare(for:sender:)`, for the segue `showDetails` from this row: what the destination is given. -/
def prepare (s : EventsScreen) (row : ℕ) : Option EventModel := s.live.vc.eventsList[row]?

/-- The segue: the destination is prepared, and its view is loaded. -/
def showDetails (storage : Storage) (s : EventsScreen) (row : ℕ) : Option EventsScreen := do
  let selectedEvent ← s.prepare row
  let destination ← EventViewController.viewDidLoad storage (some selectedEvent)
  some { s with presented := s.presented ++ [destination] }

/-- One event; a cell that is not on screen cannot be tapped. -/
def step (storage : Storage) (s : EventsScreen) : Event → Option EventsScreen
  | .live e => (Live.step (EventsVC.controller storage) s.live e).map fun live => { s with live }
  | .tap cell =>
    match s.live.table.cells[cell]?.bind Cell.row with
    | some row => s.showDetails storage row
    | none => some s

def Event.toLive : Event → Option (LiveEvent Events.Event)
  | .live e => some e
  | .tap _ => none

variable {storage : Storage} {s t : EventsScreen} {e : Event} {es : List Event} {row : ℕ}

/-- What a segue opens. -/
theorem showDetails_some (h : s.showDetails storage row = some t) : ∃ event vc,
    s.live.vc.eventsList[row]? = some event ∧ EventViewController.viewDidLoad storage (some event) = some vc ∧
      t = { s with presented := s.presented ++ [vc] } := by
  obtain ⟨event, hevent, hload⟩ := Option.bind_eq_some_iff.1 h
  obtain ⟨vc, hvc, hopened⟩ := Option.bind_eq_some_iff.1 hload
  exact ⟨event, vc, hevent, hvc, (Option.some.inj hopened).symm⟩

theorem step_live (h : s.step storage e = some t) : e.toLive = none ∧ t.live = s.live ∨
    ∃ e', e.toLive = some e' ∧ Live.step (EventsVC.controller storage) s.live e' = some t.live := by
  cases e with
  | live e =>
    obtain ⟨live, hlive, rfl⟩ := Option.map_eq_some_iff.1 h
    exact .inr ⟨e, rfl, hlive⟩
  | tap cell =>
    simp only [step] at h
    split at h
    · obtain ⟨event, vc, -, -, rfl⟩ := showDetails_some h
      exact .inl ⟨rfl, rfl⟩
    · cases h
      exact .inl ⟨rfl, rfl⟩

/-- An event opens nothing, or the details of an event in the list. -/
theorem step_presented (h : s.step storage e = some t) : t.presented = s.presented ∨
    ∃ event ∈ s.live.vc.eventsList, ∃ vc, vc.Of event ∧ t.presented = s.presented ++ [vc] := by
  cases e with
  | live e =>
    obtain ⟨live, -, rfl⟩ := Option.map_eq_some_iff.1 h
    exact .inl rfl
  | tap cell =>
    simp only [step] at h
    split at h
    · obtain ⟨event, vc, hevent, hvc, rfl⟩ := showDetails_some h
      exact .inr ⟨event, List.mem_of_getElem? hevent, vc, EventViewController.of_viewDidLoad hvc, rfl⟩
    · cases h
      exact .inl rfl

theorem presented_prefix (h : s.step storage e = some t) : s.presented <+: t.presented := by
  rcases step_presented h with hsame | ⟨_, -, vc, -, hopened⟩
  · exact ⟨[], by rw [hsame, List.append_nil]⟩
  · exact ⟨[vc], hopened.symm⟩

/-- Every details screen was opened for an event. -/
theorem presented_of (h : run (step storage) {} es = some s) : ∀ vc ∈ s.presented, ∃ event, vc.Of event := by
  refine run_invariant (I := fun u => ∀ vc ∈ u.presented, ∃ event, vc.Of event) (List.forall_mem_nil _) ?_ h
  intro u e v hu he
  rcases step_presented he with hsame | ⟨event, -, vc, hof, hopened⟩
  · rwa [hsame]
  · rw [hopened]
    exact List.forall_mem_append.2 ⟨hu, List.forall_mem_singleton.2 ⟨event, hof⟩⟩

/-- The table of the controller is the one of `Live`. -/
theorem run_live (h : run (step storage) {} es = some s) :
    run (Live.step (EventsVC.controller storage)) { vc := {} } (es.filterMap Event.toLive) = some s.live :=
  run_view EventsScreen.live Event.toLive (fun _ _ _ he => step_live he) h

/-- A tap opens what the cell shows: the storage took the address when the cell was filled. -/
theorem tap_eq (hlabelled : Labelled (EventsVC.controller storage) s.live)
    (hstored : Stored (EventsVC.controller storage) s.live) {k : ℕ} {cell : Cell ListLabels}
    (hcell : s.live.table.cells[k]? = some cell) (hrow : cell.row = some row) : ∃ event vc,
      s.step storage (.tap k) = some { s with presented := s.presented ++ [vc] } ∧
      vc.Of event ∧ cell.labels = some (EventsVC.labels event) := by
  obtain ⟨event, hevent, hlabels⟩ := hlabelled k cell row hcell hrow
  obtain ⟨event', hevent', htakes⟩ := hstored k cell row hcell hrow
  obtain rfl : event = event' := Option.some.inj (hevent.symm.trans hevent')
  obtain ⟨vc, hvc⟩ : ∃ vc, EventViewController.viewDidLoad storage (some event) = some vc :=
    EventViewController.exists_viewDidLoad htakes
  refine ⟨event, vc, ?_, EventViewController.of_viewDidLoad hvc, hlabels⟩
  have htap : s.live.table.cells[k]?.bind Cell.row = some row := by
    rw [hcell]
    exact hrow
  have hprepare : s.prepare row = some event := hevent
  simp only [step, htap, showDetails, hprepare, hvc, Option.bind_eq_bind, Option.bind_some]

end EventsScreen

/-- One event for `EventsVC` or for one of the details screens. -/
def detailsStep (storage : Storage) : System EventsScreen EventViewController →
    Spawning.Event EventsScreen.Event EventViewController.Downloaded → Option (System EventsScreen EventViewController) :=
  Spawning.step (EventsScreen.step storage) EventViewController.step EventsScreen.presented

section

variable {storage : Storage} {es : List (Spawning.Event EventsScreen.Event EventViewController.Downloaded)}
  {s : System EventsScreen EventViewController}

theorem details_apart (h : run (detailsStep storage) ⟨{}, []⟩ es = some s) :
    Apart (EventsScreen.step storage) EventViewController.step EventsScreen.presented {} es s :=
  run_spawning (fun _ _ _ he => EventsScreen.presented_prefix he) rfl h

/-- A details screen belongs to the event it was opened with. -/
theorem details_of (h : run (detailsStep storage) ⟨{}, []⟩ es = some s) {j : ℕ} {opened vc : EventViewController}
    (hopened : s.main.presented[j]? = some opened) (hvc : s.instances[j]? = some vc) :
    ∃ event, opened.Of event ∧ vc.Of event := by
  obtain ⟨event, hof⟩ := EventsScreen.presented_of (details_apart h).main opened (List.mem_of_getElem? hopened)
  exact ⟨event, hof, run_invariant hof (fun _ _ _ hu he => hu.step he) ((details_apart h).own j opened vc hopened hvc)⟩

/-- **Details.** In every order of deliveries, requests for cells, downloads and taps, and whatever addresses the storage
accepts: a tap on a cell on screen does not trap and opens the details of an event whose title, location and date are
those in the cell; and a details screen has the texts of the event it was opened with, whatever is delivered later, and
no picture but that event's own. -/
theorem details_run (h : run (detailsStep storage) ⟨{}, []⟩ es = some s) :
    (∀ k cell row, s.main.live.table.cells[k]? = some cell → cell.row = some row → ∃ event vc,
      s.main.step storage (.tap k) = some { s.main with presented := s.main.presented ++ [vc] } ∧
      vc.Of event ∧ cell.labels = some (EventsVC.labels event)) ∧
    s.instances.length = s.main.presented.length ∧
    ∀ (j : ℕ) (opened vc : EventViewController), s.main.presented[j]? = some opened → s.instances[j]? = some vc →
      ∃ event, opened.Of event ∧ vc.Of event := by
  have hlive := EventsScreen.run_live (details_apart h).main
  refine ⟨fun _ _ _ hcell hrow => ?_, (details_apart h).length, fun _ _ _ hopened hvc => details_of h hopened hvc⟩
  exact EventsScreen.tap_eq (labelled_run hlive) (stored_run hlive) hcell hrow

end

/-- An event is delivered, displayed and tapped; its picture arrives, and the event is delivered with another one. -/
def sampleDetails : List (Spawning.Event EventsScreen.Event EventViewController.Downloaded) :=
  [.main (.live (.call (.events (Events.sampleEvents pictureA)))), .main (.live (.table (.cellForRowAt 0 none))),
    .main (.tap 0), .call 0 ⟨0, false, some true⟩, .main (.live (.call (.events (Events.sampleEvents pictureB))))]

theorem details_run_sample : ∃ s, run (detailsStep sampleStorage) ⟨{}, []⟩ sampleDetails = some s ∧
    s.instances.map EventViewController.imageView = [some pictureA] ∧
    s.instances.length = s.main.presented.length :=
  ⟨_, rfl, rfl, (@details_run sampleStorage sampleDetails _ rfl).2.1⟩

end CareDirect.Cells
