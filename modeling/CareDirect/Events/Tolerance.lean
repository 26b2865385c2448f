import CareDirect.Events.Agreement
import CareDirect.Events.Pins

/-!
# Records without some of the keys

`ListVC` and `DetailsViewController` read every key with `as! String?`, so that a missing one is `nil`. `EventsVC` does
the same for its list, but unwraps the location in the loop, and all four texts of a pin (`pinKeys`) in the completion
handler. So its screen survives every order of deliveries and answers only where each record has these four
(`tolerates_iff`).
-/

namespace CareDirect.Events

open Directory PartialRun DataSnapshot EventsVC

/-- An answer as `CLGeocoder` gives it: an error, no placemarks, or placemarks of which the first has a location. -/
def Event.Answered : Event → Prop
  | .events _ => True
  | .geocoded _ placemarks error =>
    error = true ∨ placemarks = none ∨ ∃ coordinates others, placemarks = some (⟨some coordinates⟩ :: others)

/-- In every order of the deliveries and of the answers, nothing traps and every record delivered is in the list. -/
def Tolerates (snapshots : List DataSnapshot) : Prop :=
  ∀ es, deliveries es <+: snapshots → (∀ e ∈ es, e.Answered) →
    ∃ vc, run step {} es = some vc ∧ vc.eventsList = (recordsOf (deliveries es)).map eventOf

variable {vc vc' : EventsVC} {record : DataSnapshot} {asked snapshots : List DataSnapshot} {e : Event}

/-! ## What the handler needs -/

/-- A handler that gets a placemark and goes on has found the four texts. -/
theorem hasTexts_of_placemark {coordinates : CLLocationCoordinate2D} {others : List CLPlacemark}
    (h : completionHandler vc (requestOf record) (some (⟨some coordinates⟩ :: others)) false = some vc') :
    HasTexts pinKeys record := by
  simp only [completionHandler, Bool.false_eq_true, if_false, List.getElem?_cons_zero, Option.bind_eq_bind,
    Option.bind_some, Option.bind_eq_some_iff] at h
  obtain ⟨title, htitle, location, hlocation, date, hdate, organization, horganization, -⟩ := h
  simp only [HasTexts, pinKeys, List.forall_mem_cons]
  refine ⟨⟨title, ?_⟩, ⟨location, ?_⟩, ⟨date, ?_⟩, ⟨organization, ?_⟩, List.forall_mem_nil _⟩
  · exact Option.bind_eq_some_iff.2 htitle
  · exact Option.bind_eq_some_iff.2 hlocation
  · exact Option.bind_eq_some_iff.2 hdate
  · exact Option.bind_eq_some_iff.2 horganization

/-- Where every request gets a placemark and the run goes on, every record asked for has the four texts. -/
theorem hasTexts_of_answers (coordinates : CLLocationCoordinate2D) (hrequests : vc.geocoding = asked.map requestOf)
    (h : run step vc (answers coordinates asked) = some vc') : ∀ r ∈ asked, HasTexts pinKeys r := by
  induction asked generalizing vc with
  | nil => exact List.forall_mem_nil _
  | cons record asked ih =>
    rw [answers, List.map_cons, run_cons, Option.bind_eq_some_iff] at h
    obtain ⟨vc₁, hstep, hrest⟩ := h
    simp only [step, hrequests, List.map_cons, List.getElem?_cons_zero, List.eraseIdx_cons_zero] at hstep
    have hrecord := hasTexts_of_placemark hstep
    obtain ⟨pin, -, hpin⟩ :=
      completionHandler_placemark { vc with geocoding := asked.map requestOf } hrecord coordinates []
    cases hpin.symm.trans hstep
    exact List.forall_mem_cons.2 ⟨hrecord, ih rfl hrest⟩

/-- Deliveries and answers as the geocoder gives them. -/
theorem answered_answers (coordinates : CLLocationCoordinate2D) :
    ∀ e ∈ snapshots.map .events ++ answers coordinates asked, Event.Answered e := by
  refine List.forall_mem_append.2 ⟨List.forall_mem_map.2 fun _ _ => trivial, ?_⟩
  exact List.forall_mem_map.2 fun _ _ => .inr (.inr ⟨_, _, rfl⟩)

/-- Where everything is delivered and then found, and the run goes on, every record has the four texts. -/
theorem pinnable_of_run (coordinates : CLLocationCoordinate2D)
    (h : run step {} (snapshots.map .events ++ answers coordinates (recordsOf snapshots)) = some vc) :
    AllPinnable snapshots := by
  obtain ⟨vc₁, hvc₁, hanswers⟩ := run_append_some.1 h
  have hlegible := legible_of_run hvc₁
  rw [deliveries_events] at hlegible
  rw [run_deliveries {} hlegible, Option.some.injEq] at hvc₁
  have hrequests : vc₁.geocoding = (recordsOf snapshots).map requestOf := by
    rw [← hvc₁]
    exact List.nil_append _
  intro s hs r hr
  exact hasTexts_of_answers coordinates hrequests hanswers r (List.mem_flatMap.2 ⟨s, hs, hr⟩)

/-! ## Nothing traps -/

/-- Every request without an answer has been made for a record with the four texts. -/
def Answerable (vc : EventsVC) : Prop :=
  ∀ request ∈ vc.geocoding, ∃ record, HasTexts pinKeys record ∧ request = requestOf record

/-- What can be delivered: records with the four texts, and nothing but texts under the other keys. -/
def Event.Complete : Event → Prop
  | .events snapshot => ∀ r ∈ snapshot.children, TextFields eventKeys r ∧ HasTexts pinKeys r
  | .geocoded .. => True

theorem legible_of_pinnable (h : TextFields eventKeys record) (htexts : HasTexts pinKeys record) : Legible record :=
  ⟨h, htexts "Location" (by decide)⟩

/-- A handler that can be answered does not trap, and asks for nothing. -/
theorem completionHandler_total {placemarks : Option (List CLPlacemark)} {error : Bool} {i : ℕ}
    (h : HasTexts pinKeys record) (hanswer : (Event.geocoded i placemarks error).Answered) :
    ∃ vc', completionHandler vc (requestOf record) placemarks error = some vc' ∧ vc'.geocoding = vc.geocoding := by
  cases error with
  | true => exact ⟨vc, rfl, rfl⟩
  | false =>
    rcases hanswer with herror | rfl | ⟨coordinates, others, rfl⟩
    · cases herror
    · exact ⟨vc, rfl, rfl⟩
    · obtain ⟨pin, -, hpin⟩ := completionHandler_placemark vc h coordinates others
      exact ⟨_, hpin, rfl⟩

/-- No step traps. -/
theorem step_total (hvc : Answerable vc) (he : e.Answered ∧ e.Complete) :
    ∃ vc', step vc e = some vc' ∧ Answerable vc' := by
  cases e with
  | events snapshot =>
    have hrecords : ∀ r ∈ snapshot.children, TextFields eventKeys r ∧ HasTexts pinKeys r := he.2
    refine ⟨_, observerBlock_eq fun r hr => legible_of_pinnable (hrecords r hr).1 (hrecords r hr).2, ?_⟩
    intro request hrequest
    rcases List.mem_append.1 hrequest with hold | hnew
    · exact hvc request hold
    · obtain ⟨record, hrecord, rfl⟩ := List.mem_map.1 hnew
      exact ⟨record, (hrecords record hrecord).2, rfl⟩
  | geocoded i placemarks error =>
    simp only [step]
    split
    · rename_i request hrequest
      obtain ⟨record, htexts, rfl⟩ := hvc request (List.mem_of_getElem? hrequest)
      obtain ⟨vc', hvc', hgeocoding⟩ :=
        @completionHandler_total { vc with geocoding := vc.geocoding.eraseIdx i } _ _ _ i htexts he.1
      refine ⟨vc', hvc', fun request' hrequest' => ?_⟩
      rw [hgeocoding] at hrequest'
      exact hvc request' (List.mem_of_mem_eraseIdx hrequest')
    · exact ⟨vc, rfl, hvc⟩

/-- **Which records are tolerated.** For snapshots of records that carry texts only, any of the six keys missing, as the
other two screens read them: the events screen survives every order of the deliveries and of the geocoder's answers,
and lists every record, exactly when each record has a title, a location, a date and an organization. -/
theorem tolerates_iff (h : WellTyped eventKeys snapshots) : Tolerates snapshots ↔ AllPinnable snapshots := by
  constructor
  · intro htolerates
    have hes := deliveries_answers ⟨0, 0⟩ snapshots (recordsOf snapshots)
    obtain ⟨vc, hrun, -⟩ := htolerates _ ⟨[], (List.append_nil _).trans hes⟩ (answered_answers ⟨0, 0⟩)
    exact pinnable_of_run ⟨0, 0⟩ hrun
  · intro hpinnable es hes hanswered
    have hok : ∀ e ∈ es, e.Answered ∧ e.Complete := by
      intro e he
      refine ⟨hanswered e he, ?_⟩
      cases e with
      | events snapshot =>
        have hs : snapshot ∈ snapshots := hes.subset (List.mem_filterMap.2 ⟨_, he, rfl⟩)
        exact fun r hr => ⟨h snapshot hs r hr, hpinnable snapshot hs r hr⟩
      | geocoded => trivial
    have hstart : Answerable {} := List.forall_mem_nil _
    obtain ⟨vc, hrun, -⟩ :=
      @run_total _ _ step Answerable (fun e => e.Answered ∧ e.Complete) (fun _ _ => step_total) es {} hstart hok
    exact ⟨vc, hrun, eventsList_run hrun⟩

/-- A snapshot of one event with these texts. -/
def oneEvent (texts : List (String × String)) : DataSnapshot :=
  ⟨"events", .object [("k1", .object (texts.map fun f => (f.1, .string f.2)))]⟩

/-- It has one record. -/
theorem forall_oneEvent {P : DataSnapshot → Prop} {texts : List (String × String)} :
    (∀ s ∈ [oneEvent texts], ∀ r ∈ s.children, P r) ↔
      P ⟨"k1", .object (texts.map fun f => (f.1, .string f.2))⟩ := by
  rw [List.forall_mem_singleton]
  exact List.forall_mem_singleton

theorem oneEvent_wellTyped (keys : List String) (texts : List (String × String)) :
    WellTyped keys [oneEvent texts] :=
  forall_oneEvent.2 (textFields_object (List.forall_mem_map.2 fun f _ _ => ⟨f.2, rfl⟩))

/-- An event without a description and a picture. -/
theorem tolerates_sample : Tolerates [oneEvent [("Date", "May 6, 2018, 1:00 PM"), ("Location", "Seattle"),
    ("Organization", "CareDirect"), ("Title", "Walk")]] := by
  exact (tolerates_iff (oneEvent_wellTyped eventKeys _)).2 (forall_oneEvent.2 (by decide))

/-- A run that traps, with answers that the geocoder gives. -/
theorem not_tolerates {es : List Event} (hanswered : ∀ e ∈ es, e.Answered) (htrap : run step {} es = none) :
    ¬ Tolerates (deliveries es) := by
  intro h
  obtain ⟨vc, hrun, -⟩ := h es List.prefix_rfl hanswered
  cases htrap.symm.trans hrun

/-- An event with a location alone is listed by the other screens, and by this one until the geocoder finds it; an event
with a title alone is listed by the other screens only. -/
theorem tolerates_fails :
    WellTyped eventKeys [oneEvent [("Location", "Seattle")]] ∧ WellTyped eventKeys [oneEvent [("Title", "Walk")]] ∧
    (∀ event ∈ [oneEvent [("Location", "Seattle")], oneEvent [("Title", "Walk")]],
      run ListVC.observerBlock {} [event] = some ⟨event.children.map eventOf⟩ ∧
      run DetailsViewController.observerBlock {} [event] = some ⟨event.children.map detailOf⟩) ∧
    (∃ vc, run step {} [.events (oneEvent [("Location", "Seattle")])] = some vc ∧ vc.eventsList.length = 1) ∧
    ¬ Tolerates [oneEvent [("Location", "Seattle")]] ∧ ¬ Tolerates [oneEvent [("Title", "Walk")]] := by
  refine ⟨oneEvent_wellTyped _ _, oneEvent_wellTyped _ _, ?_, ⟨_, rfl, rfl⟩, ?_, ?_⟩
  · simp only [List.forall_mem_cons]
    exact ⟨⟨rfl, rfl⟩, ⟨rfl, rfl⟩, List.forall_mem_nil _⟩
  · refine @not_tolerates
      [.events (oneEvent [("Location", "Seattle")]), .geocoded 0 (some [⟨some ⟨47, -122⟩⟩]) false] ?_ rfl
    simp [Event.Answered]
  · refine @not_tolerates [.events (oneEvent [("Title", "Walk")])] ?_ rfl
    simp [Event.Answered]

end CareDirect.Events
