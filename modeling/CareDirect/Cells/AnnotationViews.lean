import CareDirect.Cells.Live
import CareDirect.Events.PinView

/-!
# The views of pins

The map of `EventsVC` asks for a view for each pin that it has to display, and the method hands out a new one or one that
the map has put aside, with the pin written into it in both cases. A touch on a view is a touch on the pin that is
written in it. In every run this is the pin that the view stands for, so that the screen is the one of `MapScreen`, in
which the pins themselves are touched (`views_run`).
-/

namespace CareDirect.Cells

open Events PartialRun

structure MKAnnotationView where
  /-- The view's `annotation`. -/
  annotationModel : PinModel
  /-- The name of the image. -/
  image : Option String
  /-- The place, on the map, of the pin that the view stands for; `none` if it has been put aside. -/
  place : Option ℕ

/-- The screen, and the views that have been handed out. -/
structure MapViews where
  screen : MapScreen := MapScreen.viewDidLoad
  views : List MKAnnotationView := []

namespace MapViews

/-- `MKAnnotationView(annotation:reuseIdentifier:)` -/
def newView (annotationModel : PinModel) : MKAnnotationView := { annotationModel, image := none, place := none }

/-- `mapView(_:viewFor:)`, for the pin in this place; `dequeued` is what `dequeueReusableAnnotationView` gives. -/
def viewFor (s : MapViews) (place : ℕ) (dequeued : Option ℕ) : Option MapViews := do
  let pin ← s.screen.vc.annotations[place]?
  let display := fun annotationView : MKAnnotationView => { annotationView with image := some "pin", place := some place }
  match dequeued with
  | none => some { s with views := s.views ++ [display (newView pin.model)] }
  | some k =>
    some { s with views := s.views.modify k fun view => display { view with annotationModel := pin.model } }

/-- What `dequeueReusableAnnotationView` may give: nothing, or a view that has been put aside. -/
def isAside (s : MapViews) : Option ℕ → Bool
  | some k => s.views[k]?.any fun annotationView => annotationView.place.isNone
  | none => true

inductive Event
  /-- Any event but a touch on a pin. -/
  | screen (e : MapScreen.Event)
  | viewFor (place : ℕ) (dequeued : Option ℕ)
  /-- The map puts a view aside. -/
  | putAside (view : ℕ)
  /-- A touch on a view. -/
  | didSelect (view : ℕ)

/-- One event; `none` is a trap, or what the map does not do. -/
def step (s : MapViews) : Event → Option MapViews
  | .screen (.didSelect (some _)) => none
  | .screen e => (s.screen.step e).map fun screen => { s with screen }
  | .viewFor place dequeued => if s.isAside dequeued then s.viewFor place dequeued else none
  | .putAside view =>
    some { s with views := s.views.modify view fun annotationView => { annotationView with place := none } }
  | .didSelect view => do
    let annotationView ← s.views[view]?
    let _ ← annotationView.place
    if s.screen.mapViewIsHidden then none
    else (s.screen.didSelect (some annotationView.annotationModel)).map fun screen => { s with screen }

/-- The event, as the screen sees it: a touch on a view is one on the pin that the view stands for. -/
def toScreen (s : MapViews) : Event → Option MapScreen.Event
  | .screen e => some e
  | .viewFor .. | .putAside _ => none
  | .didSelect view => (s.views[view]?.bind MKAnnotationView.place).map fun place => .didSelect (some place)

variable {s t : MapViews} {e : Event} {es : List Event} {k place : ℕ} {view : MKAnnotationView}

/-! ## Steps -/

/-- The pins stay in their places. -/
theorem annotations_step {screen screen' : MapScreen} {e : MapScreen.Event} (h : screen.step e = some screen') :
    ∃ pins, screen'.vc.annotations = screen.vc.annotations ++ pins := by
  rcases MapScreen.step_vc h with ⟨-, hvc⟩ | ⟨call, -, hvc⟩
  · exact ⟨[], by rw [hvc, List.append_nil]⟩
  · cases call with
    | events snapshot =>
      obtain ⟨-, he⟩ := events_some hvc
      exact ⟨[], by rw [he, List.append_nil]⟩
    | geocoded i placemarks error =>
      rcases geocoded_cases hvc with he | ⟨request, -, he | ⟨pin, -, he⟩⟩
      · exact ⟨[], by rw [he, List.append_nil]⟩
      · exact ⟨[], by rw [he, List.append_nil]⟩
      · exact ⟨[pin], by rw [he]⟩

/-- The view has the image, and the pin in this place of the map. -/
def Shows (screen : MapScreen) (view : MKAnnotationView) (place : ℕ) : Prop :=
  view.image = some "pin" ∧ ∃ pin, screen.vc.annotations[place]? = some pin ∧ view.annotationModel = pin.model

theorem Shows.step {screen screen' : MapScreen} {e : MapScreen.Event} (h : Shows screen view place)
    (he : screen.step e = some screen') : Shows screen' view place := by
  obtain ⟨himage, pin, hpin, hmodel⟩ := h
  obtain ⟨pins, hpins⟩ := annotations_step he
  refine ⟨himage, pin, ?_, hmodel⟩
  rw [hpins, List.getElem?_append_left (List.getElem?_eq_some_iff.1 hpin).1, hpin]

/-- The views on the map show the pins that they stand for. -/
def Placed (s : MapViews) : Prop :=
  ∀ (k : ℕ) (view : MKAnnotationView) (place : ℕ), s.views[k]? = some view → view.place = some place →
    Shows s.screen view place

/-- Touching a view is touching its pin. -/
theorem Placed.didSelect (h : s.Placed) (hk : s.views[k]? = some view) (hplace : view.place = some place) :
    s.step (.didSelect k) = (s.screen.step (.didSelect (some place))).map fun screen => { s with screen } := by
  obtain ⟨-, pin, hpin, hmodel⟩ := h k view place hk hplace
  simp only [MapViews.step, hk, hplace, hmodel, MapScreen.step, hpin, Option.bind_eq_bind, Option.bind_some]
  split
  · rfl
  · rfl

theorem Placed.screen {screen : MapScreen} {e : MapScreen.Event} (h : s.Placed) (he : s.screen.step e = some screen) :
    Placed { s with screen } := fun k view place hk hplace => (h k view place hk hplace).step he

theorem Placed.viewFor {dequeued : Option ℕ} (h : s.Placed) (hs : s.viewFor place dequeued = some t) :
    t.Placed ∧ t.screen = s.screen := by
  obtain ⟨pin, hpin, hs⟩ := Option.bind_eq_some_iff.1 hs
  cases dequeued with
  | none =>
    cases hs
    refine ⟨fun k view place' hk hplace => ?_, rfl⟩
    rcases List.mem_append.1 (List.mem_of_getElem? hk) with hold | hnew
    · obtain ⟨k', hk'⟩ := List.mem_iff_getElem?.1 hold
      exact h k' view place' hk' hplace
    · cases List.mem_singleton.1 hnew
      cases hplace
      exact ⟨rfl, pin, hpin, rfl⟩
  | some j =>
    cases hs
    refine ⟨fun k view place' hk hplace => ?_, rfl⟩
    rcases getElem?_modify_cases hk with ⟨-, old, -, rfl⟩ | hold
    · cases hplace
      exact ⟨rfl, pin, hpin, rfl⟩
    · exact h k view place' hold hplace

/-- One step of the views is a step of the screen, or none. -/
theorem Placed.step (h : s.Placed) (he : s.step e = some t) : t.Placed ∧ (s.toScreen e = none ∧ t.screen = s.screen ∨
    ∃ e', s.toScreen e = some e' ∧ s.screen.step e' = some t.screen) := by
  cases e with
  | screen e =>
    have hscreen : (s.screen.step e).map (fun screen => { s with screen }) = some t := by
      cases e with
      | didSelect i =>
        cases i with
        | none => exact he
        | some i => cases he
      | call e => exact he
      | segmentChanged i => exact he
      | animated => exact he
    obtain ⟨screen, hs, rfl⟩ := Option.map_eq_some_iff.1 hscreen
    exact ⟨h.screen hs, .inr ⟨e, rfl, hs⟩⟩
  | viewFor place dequeued =>
    simp only [MapViews.step] at he
    split at he
    · obtain ⟨hplaced, hsame⟩ := h.viewFor he
      exact ⟨hplaced, .inl ⟨rfl, hsame⟩⟩
    · cases he
  | putAside j =>
    cases he
    refine ⟨fun k view place hk hplace => ?_, .inl ⟨rfl, rfl⟩⟩
    rcases getElem?_modify_cases hk with ⟨-, old, -, rfl⟩ | hold
    · cases hplace
    · exact h k view place hold hplace
  | didSelect j =>
    obtain ⟨view, hj, hselect⟩ := Option.bind_eq_some_iff.1 he
    obtain ⟨place, hplace, -⟩ := Option.bind_eq_some_iff.1 hselect
    rw [h.didSelect hj hplace] at he
    obtain ⟨screen, hs, rfl⟩ := Option.map_eq_some_iff.1 he
    have htouched : s.toScreen (.didSelect j) = some (.didSelect (some place)) := by
      rw [toScreen, hj, Option.bind_some, hplace, Option.map_some]
    exact ⟨h.screen hs, .inr ⟨_, htouched, hs⟩⟩

/-! ## Runs -/

/-- **Views of pins.** In every order of views handed out, put aside and touched, and of whatever else happens to the
screen: the screen runs as `MapScreen` does, with each touch on a view as a touch on the pin that the view stands for; and
a view on the map has the image and the pin that it stands for, which is the one that a touch on the view selects. -/
theorem views_run (h : run step {} es = some s) :
    run MapScreen.step MapScreen.viewDidLoad (viewed step toScreen {} es) = some s.screen ∧
    ∀ k view place, s.views[k]? = some view → view.place = some place → Shows s.screen view place ∧
      s.step (.didSelect k) = (s.screen.step (.didSelect (some place))).map fun screen => { s with screen } := by
  have hstart : Placed {} := by
    intro k view place hk
    cases hk
  obtain ⟨hplaced, hscreen⟩ := run_viewed MapViews.screen toScreen (fun _ _ _ hu he => hu.step he) hstart h
  exact ⟨hscreen, fun k view place hk hplace => ⟨hplaced k view place hk hplace, hplaced.didSelect hk hplace⟩⟩

/-- A pin gets a view, which is put aside, reused for another pin, and touched. -/
def sampleViews : List Event :=
  [.screen (.call (.events (sampleEvents pictureA))), .screen (.call (.events (sampleEvents pictureB))),
    .screen (.segmentChanged 1), .screen (.call (.geocoded 0 (some [⟨some ⟨47, -122⟩⟩]) false)), .viewFor 0 none,
    .screen (.call (.geocoded 0 (some [⟨some ⟨48, -122⟩⟩]) false)), .putAside 0, .viewFor 1 (some 0), .didSelect 0]

/-- The touch is one on the other pin. -/
theorem views_run_sample : ∃ s, run step {} sampleViews = some s ∧ s.views.map MKAnnotationView.place = [some 1] ∧
    run MapScreen.step MapScreen.viewDidLoad [.call (.events (sampleEvents pictureA)),
      .call (.events (sampleEvents pictureB)), .segmentChanged 1, .call (.geocoded 0 (some [⟨some ⟨47, -122⟩⟩]) false),
      .call (.geocoded 0 (some [⟨some ⟨48, -122⟩⟩]) false), .didSelect (some 1)] = some s.screen :=
  ⟨_, rfl, rfl, (@views_run _ sampleViews rfl).1⟩

end MapViews

end CareDirect.Cells
