import CareDirect.Events.Pins

/-!
# The view of a pin

Selecting a pin on the map of `EventsVC` writes its texts into `pinView` and shows it; the switch between list and map
hides and shows it too, and so does the end of the animation that selecting a pin has begun. The texts are always those
of one delivered record, or still those of the nib. Over the map the view always shows; over the list it shows only
where the list was chosen while an animation was going on, and that animation has ended since (`pinView_run`).
-/

namespace CareDirect.Events

open PartialRun

/-- `PinView.swift`, with the texts of its nib. -/
structure PinView where
  lblTitle : Option String := some "Title"
  lblDate : Option String := some "Date"
  lblOrganization : Option String := some "Orginization"
  isHidden : Bool := false
  alpha : ℚ := 1

/-- The controller and its views. -/
structure MapScreen where
  vc : EventsVC := {}
  selectedSegmentIndex : ℕ := 0
  mapViewIsHidden : Bool := false
  tableEventsContainerIsHidden : Bool := false
  addEventButtonIsHidden : Bool := false
  pinView : PinView := {}
  /-- The calls of `UIView.animate` whose completion blocks have not been called. -/
  animations : ℕ := 0

namespace MapScreen

def updatesVisibleSegment (s : MapScreen) : MapScreen :=
  if s.selectedSegmentIndex = 0 then
    { s with
      mapViewIsHidden := true
      tableEventsContainerIsHidden := false
      addEventButtonIsHidden := false
      pinView := { s.pinView with isHidden := true } }
  else
    { s with
      mapViewIsHidden := false
      tableEventsContainerIsHidden := true
      addEventButtonIsHidden := true
      pinView := { s.pinView with isHidden := false } }

/-- The screen after `viewDidLoad`, the list selected. -/
def viewDidLoad : MapScreen := updatesVisibleSegment {}

/-- `mapView(_:didSelect:)`, for a pin or for the place of the user. The text of the title is printed first. -/
def didSelect (s : MapScreen) (pinModel : Option PinModel) : Option MapScreen := do
  let _ ← s.pinView.lblTitle
  let pinView :=
    match pinModel with
    | some pinModel =>
      { s.pinView with
        lblTitle := pinModel.titlePin
        lblDate := some pinModel.datePin
        lblOrganization := some pinModel.organizationPin }
    | none => s.pinView
  some { s with pinView := { pinView with isHidden := false, alpha := 1 }, animations := s.animations + 1 }

inductive Event
  | call (e : Events.Event)
  | segmentChanged (selectedSegmentIndex : ℕ)
  /-- A touch on the `i`-th annotation of the map, or on the place of the user. -/
  | didSelect (view : Option ℕ)
  /-- The completion block of an animation. -/
  | animated

/-- One event; `none` is a trap, or a touch on what is not there. -/
def step (s : MapScreen) : Event → Option MapScreen
  | .call e => (Events.step s.vc e).map fun vc => { s with vc }
  | .segmentChanged selectedSegmentIndex => some { s with selectedSegmentIndex }.updatesVisibleSegment
  | .didSelect view =>
    if s.mapViewIsHidden then none
    else match view with
      | some i => s.vc.annotations[i]?.bind fun pin => s.didSelect (some pin.model)
      | none => s.didSelect none
  | .animated =>
    if s.animations = 0 then none
    else some { s with pinView := { s.pinView with isHidden := false }, animations := s.animations - 1 }

/-- The calls of the controller. -/
def Event.toCall : Event → Option Events.Event
  | .call e => some e
  | _ => none

variable {s t : MapScreen} {e : Event} {es : List Event}

/-! ## Texts -/

/-- The pin view has the texts of a record. -/
def Describes (pinView : PinView) (record : DataSnapshot) : Prop :=
  pinView.lblTitle = record.text "Title" ∧ pinView.lblDate = record.text "Date" ∧
    pinView.lblOrganization = record.text "Organization"

/-- The texts of the nib, or of a record that has been delivered. -/
def Texts (delivered : List DataSnapshot) (pinView : PinView) : Prop :=
  pinView.lblTitle = some "Title" ∧ pinView.lblDate = some "Date" ∧ pinView.lblOrganization = some "Orginization" ∨
    ∃ record ∈ delivered, Describes pinView record

theorem Texts.mono {delivered delivered' : List DataSnapshot} {pinView : PinView} (h : Texts delivered pinView)
    (hsub : delivered ⊆ delivered') : Texts delivered' pinView :=
  h.imp_right fun ⟨record, hrecord, hdescribes⟩ => ⟨record, hsub hrecord, hdescribes⟩

theorem texts_didSelect {delivered : List DataSnapshot} {pin : Recorded PinModel} {record : DataSnapshot}
    (hrecord : record ∈ delivered) (hpin : IsPin record pin) (he : s.didSelect (some pin.model) = some t) :
    Texts delivered t.pinView := by
  obtain ⟨title, -, he⟩ := Option.bind_eq_some_iff.1 he
  cases he
  exact .inr ⟨record, hrecord, hpin.2.1, hpin.2.2.1, hpin.2.2.2⟩

/-- Every pin on the map has a title. -/
def Titled (vc : EventsVC) : Prop := ∀ pin ∈ vc.annotations, pin.model.titlePin ≠ none

theorem Titled.step {vc vc' : EventsVC} {e : Events.Event} (h : Titled vc) (he : Events.step vc e = some vc') :
    Titled vc' := by
  cases e with
  | events snapshot =>
    obtain ⟨-, rfl⟩ := events_some he
    exact h
  | geocoded i placemarks error =>
    simp only [Events.step] at he
    split at he
    · unfold EventsVC.completionHandler at he
      split at he
      · cases he
        exact h
      split at he
      · cases he
        exact h
      · simp only [Option.bind_eq_bind, Option.bind_eq_some_iff] at he
        obtain ⟨_, -, _, -, _, -, _, -, _, -, _, -, he⟩ := he
        cases he
        exact List.forall_mem_append.2 ⟨h, List.forall_mem_singleton.2 (Option.some_ne_none _)⟩
    · cases he
      exact h

/-! ## Steps -/

/-- The list is chosen while an animation is going on. -/
def Interrupts (s : MapScreen) (e : Event) : Prop := e = .segmentChanged 0 ∧ s.animations ≠ 0

/-- After the events `es`. -/
structure Consistent (es : List Event) (s : MapScreen) : Prop where
  titled : Titled s.vc
  title : s.pinView.lblTitle ≠ none
  texts : Texts (recordsOf (deliveries (es.filterMap Event.toCall))) s.pinView
  mapView : s.mapViewIsHidden = decide (s.selectedSegmentIndex = 0)
  list : s.tableEventsContainerIsHidden = !s.mapViewIsHidden ∧ s.addEventButtonIsHidden = !s.mapViewIsHidden
  overMap : s.mapViewIsHidden = false → s.pinView.isHidden = false
  overList : s.mapViewIsHidden = true → s.pinView.isHidden = false ∨ s.animations ≠ 0 →
    Occurs step viewDidLoad es Interrupts

theorem consistent_viewDidLoad : Consistent [] viewDidLoad := by
  refine ⟨List.forall_mem_nil _, Option.some_ne_none _, .inl ⟨rfl, rfl, rfl⟩, rfl, ⟨rfl, rfl⟩, fun h => ?_, fun _ h => ?_⟩
  · cases h
  · rcases h with h | h
    · cases h
    · exact absurd rfl h

/-- The calls of the controller, and the calls that make up a run of it. -/
theorem step_vc (h : s.step e = some t) : e.toCall = none ∧ t.vc = s.vc ∨
    ∃ call, e.toCall = some call ∧ Events.step s.vc call = some t.vc := by
  cases e with
  | call e =>
    obtain ⟨vc, hvc, rfl⟩ := Option.map_eq_some_iff.1 h
    exact .inr ⟨e, rfl, hvc⟩
  | segmentChanged i =>
    cases h
    refine .inl ⟨rfl, ?_⟩
    unfold updatesVisibleSegment
    split
    · rfl
    · rfl
  | didSelect view =>
    have hselect : ∀ pinModel, s.didSelect pinModel = some t → t.vc = s.vc := by
      intro pinModel h
      obtain ⟨title, -, h⟩ := Option.bind_eq_some_iff.1 h
      cases h
      rfl
    simp only [step] at h
    split at h
    · cases h
    split at h
    · obtain ⟨pin, -, h⟩ := Option.bind_eq_some_iff.1 h
      exact .inl ⟨rfl, hselect _ h⟩
    · exact .inl ⟨rfl, hselect _ h⟩
  | animated =>
    simp only [step] at h
    split at h
    · cases h
    · cases h
      exact .inl ⟨rfl, rfl⟩

theorem run_vc (h : run step viewDidLoad es = some s) : run Events.step {} (es.filterMap Event.toCall) = some s.vc :=
  run_view MapScreen.vc Event.toCall (fun _ _ _ he => step_vc he) h

/-- A pin on the map is the pin of a record that has been delivered. -/
theorem exists_record (h : run step viewDidLoad es = some s) {pin : Recorded PinModel} (hpin : pin ∈ s.vc.annotations) :
    ∃ record ∈ recordsOf (deliveries (es.filterMap Event.toCall)), IsPin record pin := by
  obtain ⟨pinned, asked, htraced⟩ := traced_run (run_vc h)
  obtain ⟨record, hrecord, hispin⟩ := htraced.pins pin hpin
  exact ⟨record, htraced.subperm.subset (List.mem_append_left _ hrecord), hispin⟩

/-- What selecting an annotation leaves as it was, and what it changes. -/
theorem didSelect_some {pinModel : Option PinModel} (h : s.didSelect pinModel = some t) :
    t.vc = s.vc ∧ t.selectedSegmentIndex = s.selectedSegmentIndex ∧ t.mapViewIsHidden = s.mapViewIsHidden ∧
      t.tableEventsContainerIsHidden = s.tableEventsContainerIsHidden ∧
      t.addEventButtonIsHidden = s.addEventButtonIsHidden ∧ t.pinView.isHidden = false := by
  obtain ⟨title, -, h⟩ := Option.bind_eq_some_iff.1 h
  cases h
  exact ⟨rfl, rfl, rfl, rfl, rfl, rfl⟩

theorem texts_snoc (e : Event) (he : e.toCall = none) {pinView : PinView}
    (h : Texts (recordsOf (deliveries (es.filterMap Event.toCall))) pinView) :
    Texts (recordsOf (deliveries ((es ++ [e]).filterMap Event.toCall))) pinView := by
  rwa [List.filterMap_append, List.filterMap_cons_none he, List.filterMap_nil, List.append_nil]

theorem Consistent.select {view : Option ℕ} {pinModel : Option PinModel} (h : Consistent es s)
    (hmap : s.mapViewIsHidden = false) (he : s.didSelect pinModel = some t)
    (htexts : Texts (recordsOf (deliveries (es.filterMap Event.toCall))) t.pinView) (htitle : t.pinView.lblTitle ≠ none) :
    Consistent (es ++ [.didSelect view]) t := by
  obtain ⟨hvc, hsegment, hmapView, htable, hbutton, hhidden⟩ := didSelect_some he
  refine ⟨hvc ▸ h.titled, htitle, texts_snoc _ rfl htexts, ?_, ?_, fun _ => hhidden, fun hlist => ?_⟩
  · rw [hmapView, hsegment, h.mapView]
  · rw [htable, hbutton, hmapView]
    exact h.list
  · rw [hmapView, hmap] at hlist
    cases hlist

theorem Consistent.step (h : Consistent es s) (hs : run step viewDidLoad es = some s) (he : s.step e = some t) :
    Consistent (es ++ [e]) t := by
  cases e with
  | call e =>
    obtain ⟨vc, hvc, rfl⟩ := Option.map_eq_some_iff.1 he
    refine ⟨h.titled.step hvc, h.title, h.texts.mono ?_, h.mapView, h.list, h.overMap,
      fun hlist hshown => (h.overList hlist hshown).append _⟩
    intro record hrecord
    rw [List.filterMap_append]
    simp only [recordsOf, deliveries, List.filterMap_append, List.flatMap_append]
    exact List.mem_append_left _ hrecord
  | segmentChanged i =>
    cases he
    have htexts := texts_snoc (.segmentChanged i) rfl h.texts
    unfold updatesVisibleSegment
    split
    · rename_i hi
      have hi : i = 0 := hi
      refine ⟨h.titled, h.title, htexts, by simp [hi], ⟨rfl, rfl⟩, fun hmap => ?_, fun _ hshown => ?_⟩
      · cases hmap
      rcases hshown with hshown | hshown
      · cases hshown
      · exact (occurs_snoc hs).2 (.inr ⟨by rw [hi], hshown⟩)
    · rename_i hi
      have hi : i ≠ 0 := hi
      refine ⟨h.titled, h.title, htexts, by simp [hi], ⟨rfl, rfl⟩, fun _ => rfl, fun hlist => ?_⟩
      cases hlist
  | didSelect view =>
    simp only [MapScreen.step] at he
    split at he
    · cases he
    rename_i hmap
    rw [Bool.not_eq_true] at hmap
    split at he
    · obtain ⟨pin, hpin, he⟩ := Option.bind_eq_some_iff.1 he
      have hpin := List.mem_of_getElem? hpin
      obtain ⟨record, hrecord, hispin⟩ := exists_record hs hpin
      refine h.select hmap he (texts_didSelect hrecord hispin he) ?_
      obtain ⟨title, -, he⟩ := Option.bind_eq_some_iff.1 he
      cases he
      exact h.titled pin hpin
    · refine h.select hmap he ?_ ?_
      · obtain ⟨title, -, he⟩ := Option.bind_eq_some_iff.1 he
        cases he
        exact h.texts
      · obtain ⟨title, -, he⟩ := Option.bind_eq_some_iff.1 he
        cases he
        exact h.title
  | animated =>
    simp only [MapScreen.step] at he
    split at he
    · cases he
    · rename_i hanimations
      cases he
      exact ⟨h.titled, h.title, texts_snoc _ rfl h.texts, h.mapView, h.list, fun _ => rfl,
        fun hlist _ => (h.overList hlist (.inr hanimations)).append _⟩

/-! ## Runs -/

/-- **The view of a pin.** In every order of deliveries, answers of the geocoder, touches on the map, switches and ends of
animations: selecting what is on the map never traps; the view has the texts of one delivered record, or those of the
nib; it shows whenever the map does; and it shows over the list only if the list was chosen during an animation. -/
theorem pinView_run (h : run step viewDidLoad es = some s) :
    (s.mapViewIsHidden = false → (∃ t, s.step (.didSelect none) = some t) ∧
      ∀ i < s.vc.annotations.length, ∃ t, s.step (.didSelect (some i)) = some t) ∧
    Texts (recordsOf (deliveries (es.filterMap Event.toCall))) s.pinView ∧
    (s.tableEventsContainerIsHidden = !s.mapViewIsHidden) ∧
    (s.mapViewIsHidden = false → s.pinView.isHidden = false) ∧
    (s.mapViewIsHidden = true → s.pinView.isHidden = false → Occurs step viewDidLoad es Interrupts) := by
  have hs : Consistent es s :=
    run_induction (I := Consistent) consistent_viewDidLoad (fun p u e v hp hu he => hu.step hp he) es h
  refine ⟨fun hmap => ?_, hs.texts, hs.list.1, hs.overMap, fun hlist hshown => hs.overList hlist (.inl hshown)⟩
  obtain ⟨title, htitle⟩ := Option.ne_none_iff_exists'.1 hs.title
  have hselect : ∀ pinModel, ∃ t, s.didSelect pinModel = some t := fun pinModel => by
    simp only [MapScreen.didSelect, htitle, Option.bind_eq_bind, Option.bind_some]
    exact ⟨_, rfl⟩
  refine ⟨?_, fun i hi => ?_⟩
  · simp only [MapScreen.step, hmap, Bool.false_eq_true, if_false]
    exact hselect none
  · simp only [MapScreen.step, hmap, Bool.false_eq_true, if_false, List.getElem?_eq_getElem hi, Option.bind_some]
    exact hselect _

/-- A pin is selected, the list is chosen at once, and the animation ends. -/
def sampleMap : List Event :=
  [.call (.events (sampleEvents pictureA)), .segmentChanged 1, .call (.geocoded 0 (some [⟨some ⟨47, -122⟩⟩]) false),
    .didSelect (some 0), .segmentChanged 0, .animated]

/-- The pin view is shown over the list. -/
theorem pinView_run_sample : ∃ s, run step viewDidLoad sampleMap = some s ∧ s.pinView.lblTitle = some "Walk" ∧
    s.mapViewIsHidden = true ∧ s.pinView.isHidden = false ∧ Occurs step viewDidLoad sampleMap Interrupts :=
  ⟨_, rfl, rfl, rfl, rfl, (@pinView_run _ sampleMap rfl).2.2.2.2 rfl rfl⟩

end MapScreen

end CareDirect.Events
