import CareDirect.Cells.Details
import CareDirect.Events.Screens

/-!
# From the form to the details

What is entered in `AddEventVC` goes to the node, from there to `EventsVC`, into the cells of its table, and with a tap
on a cell to a details screen. Each of these hands on what it has got when it comes by it: values of the node may be
old, cells are reused, pictures arrive at any time. Still, no cell on screen and no details screen ever mixes
submissions, or shows anything that has not been submitted (`submitted_run`).
-/

namespace CareDirect.Cells

open Directory Events PartialRun Spawning

/-- The form, the values that the node has had, and `EventsVC` with its details screens. -/
structure EventsTab where
  addEvent : AddEventVC := {}
  published : List DataSnapshot := [AddEventVC.value {}]
  screens : System EventsScreen EventViewController := ⟨{}, []⟩

namespace EventsTab

inductive Action
  | write (action : AddEventVC.Action)
  /-- Firebase calls the block of `EventsVC` with the `i`-th value. -/
  | deliver (i : ℕ)
  /-- Anything else that happens to the screens. -/
  | screens (e : Spawning.Event EventsScreen.Event EventViewController.Downloaded)

/-- One action; a value that the node has not had is not delivered. -/
def step (storage : Storage) (s : EventsTab) : Action → Option EventsTab
  | .write action => do
    let addEvent ← AddEventVC.step s.addEvent action
    some { s with addEvent, published := s.published ++ [addEvent.value] }
  | .deliver i =>
    match s.published[i]? with
    | some snapshot =>
      (detailsStep storage s.screens (.main (.live (.call (.events snapshot))))).map fun screens => { s with screens }
    | none => some s
  | .screens (.main (.live (.call (.events _)))) => none
  | .screens e => (detailsStep storage s.screens e).map fun screens => { s with screens }

/-- The action, as far as `EventScreens` has it. -/
def Action.toAction : Action → Option EventScreens.Action
  | .write action => some (.write action)
  | .deliver i => some (.deliver .events i)
  | .screens (.main (.live (.call (.geocoded i placemarks error)))) => some (.geocoded i placemarks error)
  | .screens _ => none

/-- The action, as far as the screens have it. -/
def toScreens (s : EventsTab) : Action → Option (Spawning.Event EventsScreen.Event EventViewController.Downloaded)
  | .write _ => none
  | .deliver i => s.published[i]?.map fun snapshot => .main (.live (.call (.events snapshot)))
  | .screens e => some e

/-- The form, the node and the lists; nothing is delivered to the other two screens. -/
def view (s : EventsTab) : EventScreens where
  addEvent := s.addEvent
  published := s.published
  events := s.screens.main.live.vc

def actions (es : List Action) : List EventScreens.Action := es.filterMap Action.toAction

/-- The calls of the form among the actions. -/
def writes (es : List Action) : List AddEventVC.Action := EventScreens.writes (actions es)

variable {storage : Storage} {s t : EventsTab} {e : Action} {es : List Action}
  {u v : System EventsScreen EventViewController}

/-! ## The lists -/

theorem step_main {e : EventsScreen.Event} (h : detailsStep storage u (.main e) = some v) :
    EventsScreen.step storage u.main e = some v.main := by
  obtain ⟨main, hmain, rfl⟩ := Option.map_eq_some_iff.1 h
  exact hmain

theorem step_call {e : Events.Event} (h : detailsStep storage u (.main (.live (.call e))) = some v) :
    Events.step u.main.live.vc e = some v.main.live.vc := by
  obtain ⟨live, hlive, hmain⟩ := Option.map_eq_some_iff.1 (step_main h)
  obtain ⟨vc, hvc, rfl⟩ := Option.map_eq_some_iff.1 hlive
  rw [← hmain]
  exact hvc

theorem step_table {e : Cells.Event} (h : detailsStep storage u (.main (.live (.table e))) = some v) :
    v.main.live.vc = u.main.live.vc := by
  obtain ⟨live, hlive, hmain⟩ := Option.map_eq_some_iff.1 (step_main h)
  obtain ⟨table, -, rfl⟩ := Option.map_eq_some_iff.1 hlive
  rw [← hmain]

theorem step_tap {cell : ℕ} (h : detailsStep storage u (.main (.tap cell)) = some v) : v.main.live = u.main.live := by
  rcases EventsScreen.step_live (step_main h) with ⟨-, hlive⟩ | ⟨_, hvisible, -⟩
  · exact hlive
  · cases hvisible

theorem step_details {k : ℕ} {e : EventViewController.Downloaded} (h : detailsStep storage u (.call k e) = some v) :
    v.main = u.main := by
  obtain ⟨vc, -, h⟩ := Option.bind_eq_some_iff.1 h
  obtain ⟨vc', -, h⟩ := Option.map_eq_some_iff.1 h
  rw [← h]

/-- What happens to the screens apart from deliveries. -/
theorem screens_some {e : Spawning.Event EventsScreen.Event EventViewController.Downloaded}
    (h : s.step storage (.screens e) = some t) :
    ∃ screens, detailsStep storage s.screens e = some screens ∧ t = { s with screens } := by
  have hmap : (detailsStep storage s.screens e).map (fun screens => { s with screens }) = some t := by
    cases e with
    | main e =>
      cases e with
      | live e =>
        cases e with
        | call e =>
          cases e with
          | events snapshot => cases h
          | geocoded i placemarks error => exact h
        | table e => exact h
      | tap cell => exact h
    | call k e => exact h
  obtain ⟨screens, hscreens, rfl⟩ := Option.map_eq_some_iff.1 hmap
  exact ⟨screens, hscreens, rfl⟩

/-- What an action does to the screens. -/
theorem step_screens (h : s.step storage e = some t) : s.toScreens e = none ∧ t.screens = s.screens ∨
    ∃ e', s.toScreens e = some e' ∧ detailsStep storage s.screens e' = some t.screens := by
  cases e with
  | write action =>
    obtain ⟨addEvent, -, h⟩ := Option.bind_eq_some_iff.1 h
    cases h
    exact .inl ⟨rfl, rfl⟩
  | deliver i =>
    simp only [step] at h
    split at h
    · rename_i snapshot hsnapshot
      obtain ⟨screens, hscreens, rfl⟩ := Option.map_eq_some_iff.1 h
      exact .inr ⟨_, by rw [toScreens, hsnapshot, Option.map_some], hscreens⟩
    · rename_i hnone
      cases h
      exact .inl ⟨by rw [toScreens, hnone, Option.map_none], rfl⟩
  | screens e =>
    obtain ⟨screens, hscreens, rfl⟩ := screens_some h
    exact .inr ⟨e, rfl, hscreens⟩

/-- What an action does to the form, the node and the list. -/
theorem step_view (h : s.step storage e = some t) : e.toAction = none ∧ t.view = s.view ∨
    ∃ e', e.toAction = some e' ∧ s.view.step e' = some t.view := by
  cases e with
  | write action =>
    obtain ⟨addEvent, hadd, h⟩ := Option.bind_eq_some_iff.1 h
    cases h
    refine .inr ⟨_, rfl, ?_⟩
    have hview : AddEventVC.step s.view.addEvent action = some addEvent := hadd
    rw [EventScreens.step, hview]
    rfl
  | deliver i =>
    refine .inr ⟨_, rfl, ?_⟩
    simp only [step] at h
    split at h
    · rename_i snapshot hsnapshot
      obtain ⟨screens, hscreens, rfl⟩ := Option.map_eq_some_iff.1 h
      have hi : s.view.published[i]? = some snapshot := hsnapshot
      have hview : Events.step s.view.events (.events snapshot) = some screens.main.live.vc := step_call hscreens
      rw [EventScreens.step_deliver .events hi, EventScreens.receive, hview]
      rfl
    · rename_i hnone
      cases h
      have hi : s.view.published[i]? = none := hnone
      simp only [EventScreens.step, hi]
  | screens e =>
    cases e with
    | main e =>
      cases e with
      | live e =>
        cases e with
        | call e =>
          cases e with
          | events snapshot => cases h
          | geocoded i placemarks error =>
            obtain ⟨screens, hscreens, rfl⟩ := screens_some h
            refine .inr ⟨_, rfl, ?_⟩
            have hview : Events.step s.view.events (.geocoded i placemarks error) = some screens.main.live.vc :=
              step_call hscreens
            rw [EventScreens.step, hview]
            rfl
        | table e =>
          obtain ⟨screens, hscreens, rfl⟩ := screens_some h
          refine .inl ⟨rfl, ?_⟩
          rw [view, step_table hscreens]
          rfl
      | tap cell =>
        obtain ⟨screens, hscreens, rfl⟩ := screens_some h
        refine .inl ⟨rfl, ?_⟩
        rw [view, step_tap hscreens]
        rfl
    | call k e =>
      obtain ⟨screens, hscreens, rfl⟩ := screens_some h
      refine .inl ⟨rfl, ?_⟩
      rw [view, step_details hscreens]
      rfl

/-- The screens opened by an action are for events of the list before it. -/
theorem step_presented (h : s.step storage e = some t) : ∀ opened ∈ t.screens.main.presented,
    opened ∈ s.screens.main.presented ∨ ∃ event ∈ s.screens.main.live.vc.eventsList, opened.Of event := by
  rcases step_screens h with ⟨-, hsame⟩ | ⟨e', -, hscreens⟩
  · rw [hsame]
    exact fun opened hopened => .inl hopened
  · cases e' with
    | main e =>
      rcases EventsScreen.step_presented (step_main hscreens) with hsame | ⟨event, hevent, vc, hof, hnew⟩
      · rw [hsame]
        exact fun opened hopened => .inl hopened
      · rw [hnew]
        exact List.forall_mem_append.2 ⟨fun opened hopened => .inl hopened,
          List.forall_mem_singleton.2 (.inr ⟨event, hevent, hof⟩)⟩
    | call k e =>
      rw [step_details hscreens]
      exact fun opened hopened => .inl hopened

/-! ## Runs -/

theorem run_actions (h : run (step storage) {} es = some s) : run EventScreens.step {} (actions es) = some s.view :=
  run_view view Action.toAction (fun _ _ _ he => step_view he) h

theorem run_screens (h : run (step storage) {} es = some s) :
    run (detailsStep storage) ⟨{}, []⟩ (viewed (step storage) toScreens {} es) = some s.screens :=
  (run_viewed (I := fun _ => True) screens toScreens (fun _ _ _ _ he => ⟨trivial, step_screens he⟩) trivial h).2

/-- The event is a submission, as it was at some moment. -/
def Submitted (es : List Action) (event : EventModel) : Prop :=
  ∃ p, p <+: writes es ∧ ∃ sub ∈ submissions p, event = sub.model.shown

theorem writes_append (es es' : List Action) : writes es <+: writes (es ++ es') :=
  ((List.prefix_append es es').filterMap _).filterMap _

theorem Submitted.append {event : EventModel} (h : Submitted es event) (es' : List Action) :
    Submitted (es ++ es') event := by
  obtain ⟨p, hp, hsub⟩ := h
  exact ⟨p, hp.trans (writes_append es es'), hsub⟩

theorem listed (hproper : EventScreens.Proper (actions es)) (h : run (step storage) {} es = some s) :
    ∀ event ∈ s.screens.main.live.vc.eventsList, Submitted es event := by
  intro event hevent
  have hlist : s.screens.main.live.vc.eventsList = (EventScreens.deliveredTo .events [] (actions es)).flatMap
      EventScreens.rows := EventScreens.eventsList_run hproper (run_actions h)
  rw [hlist] at hevent
  obtain ⟨p, hp, hrow⟩ := List.mem_flatMap.1 hevent
  obtain ⟨sub, hsub, rfl⟩ := List.mem_map.1 hrow
  exact ⟨p, EventScreens.prefix_of_deliveredTo hp, sub, mem_listing.1 hsub, rfl⟩

theorem presented_run (hproper : EventScreens.Proper (actions es)) (h : run (step storage) {} es = some s) :
    ∀ opened ∈ s.screens.main.presented, ∃ event, opened.Of event ∧ Submitted es event := by
  refine run_induction (I := fun p u => EventScreens.Proper (actions p) →
    ∀ opened ∈ u.screens.main.presented, ∃ event, opened.Of event ∧ Submitted p event)
    (fun _ => List.forall_mem_nil _) ?_ es h hproper
  intro p u e v hp hu he hproper opened hopened
  rw [actions, List.filterMap_append] at hproper
  rcases step_presented he opened hopened with hold | ⟨event, hlisted, hof⟩
  · obtain ⟨event, hof, hsubmitted⟩ := hu hproper.left opened hold
    exact ⟨event, hof, hsubmitted.append [e]⟩
  · exact ⟨event, hof, (listed hproper.left hp event hlisted).append [e]⟩

/-- **From the form to the details.** In every order of calls of the form, of deliveries of values that the node has
had, of answers, requests for cells, downloads and taps, where keys are not used twice: a cell on screen has the title,
the location and the date of one submission, as it was at some moment; and a details screen has the texts of one
submission, and no picture but the one that was stored for it. -/
theorem submitted_run (hkeys : ((submissions (writes es)).map (·.key)).Nodup) (hanswered : ∀ e ∈ actions es, e.Answered)
    (h : run (step storage) {} es = some s) :
    (∀ (k : ℕ) (cell : Cell ListLabels) (row : ℕ), s.screens.main.live.table.cells[k]? = some cell →
      cell.row = some row → ∃ p, p <+: writes es ∧ ∃ sub ∈ submissions p,
        cell.labels = some (EventsVC.labels sub.model.shown)) ∧
    ∀ (j : ℕ) (vc : EventViewController), s.screens.instances[j]? = some vc →
      ∃ p, p <+: writes es ∧ ∃ sub ∈ submissions p, vc.Of sub.model.shown := by
  have hproper : EventScreens.Proper (actions es) := ⟨hkeys, hanswered⟩
  have hscreens := run_screens h
  have hapart := details_apart hscreens
  refine ⟨fun k cell row hcell hrow => ?_, fun j vc hvc => ?_⟩
  · obtain ⟨event, hevent, hlabels⟩ := labelled_run (EventsScreen.run_live hapart.main) k cell row hcell hrow
    obtain ⟨p, hp, sub, hsub, rfl⟩ := listed hproper h event (List.mem_of_getElem? hevent)
    exact ⟨p, hp, sub, hsub, hlabels⟩
  · have hj : j < s.screens.main.presented.length := by
      rw [← hapart.length]
      exact (List.getElem?_eq_some_iff.1 hvc).1
    obtain ⟨event, hopened, hsubmitted⟩ := presented_run hproper h _ (List.getElem_mem hj)
    obtain ⟨event', hopened', hof⟩ := details_of hscreens (List.getElem?_eq_getElem hj) hvc
    obtain rfl : event = event' := Option.some.inj (hopened.detailsModel.symm.trans hopened'.detailsModel)
    obtain ⟨p, hp, sub, hsub, rfl⟩ := hsubmitted
    exact ⟨p, hp, sub, hsub, hof⟩

/-- An event is submitted, delivered, displayed and tapped; its picture is stored after that. -/
def sampleTab : List Action :=
  [.write (.addEventTapped (sampleForm "Walk" "https://a") "k1"), .deliver 1,
    .screens (.main (.live (.table (.cellForRowAt 0 none)))), .screens (.main (.tap 0)),
    .write (.uploaded "k1" (some ⟨some pictureA⟩) false)]

/-- The value after the first call is read by its one key. -/
theorem run_sampleTab : ∃ s, run (step sampleStorage) {} sampleTab = some s ∧ s.screens.instances.length = 1 := by
  obtain ⟨vc, hvc, hevents⟩ : ∃ vc, AddEventVC.step {} (.addEventTapped (sampleForm "Walk" "https://a") "k1") = some vc ∧
      vc.refEvents = [("k1", (sampleForm "Walk" "https://a").submission.fields)] := ⟨_, rfl, rfl⟩
  have hvalue : vc.value = ⟨"events", .object [("k1", .object (sampleForm "Walk" "https://a").submission.fields)]⟩ := by
    rw [AddEventVC.value, hevents, List.mergeSort_singleton]
    rfl
  have hfirst : step sampleStorage {} (.write (.addEventTapped (sampleForm "Walk" "https://a") "k1")) =
      some ⟨vc, [AddEventVC.value {},
        ⟨"events", .object [("k1", .object (sampleForm "Walk" "https://a").submission.fields)]⟩], ⟨{}, []⟩⟩ := by
    rw [← hvalue, step, hvc]
    rfl
  rw [sampleTab, run_cons, hfirst]
  cases hvc
  exact ⟨_, rfl, rfl⟩

theorem submitted_run_sample : ∃ s, run (step sampleStorage) {} sampleTab = some s ∧ s.screens.instances.length = 1 ∧
    ∀ (j : ℕ) (vc : EventViewController), s.screens.instances[j]? = some vc →
      ∃ p, p <+: writes sampleTab ∧ ∃ sub ∈ submissions p, vc.Of sub.model.shown := by
  have hkeys : ((submissions (writes sampleTab)).map (·.key)).Nodup := by decide
  have hanswered : ∀ e ∈ actions sampleTab, e.Answered :=
    List.forall_mem_cons.2 ⟨trivial, List.forall_mem_cons.2 ⟨trivial, List.forall_mem_singleton.2 trivial⟩⟩
  obtain ⟨s, hs, hlength⟩ := run_sampleTab
  exact ⟨s, hs, hlength, (submitted_run hkeys hanswered hs).2⟩

end EventsTab

end CareDirect.Cells
