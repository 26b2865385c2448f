import CareDirect.Events.Agreement
import CareDirect.Events.Node
import CareDirect.Events.ReadBack
import CareDirect.Events.Tolerance

/-!
# The form and the three screens of one node

`AddEventVC` writes to the node that `ListVC`, `DetailsViewController` and `EventsVC` observe. Every call of the form
publishes the value of the node; Firebase hands published values to the blocks of the screens whenever it likes, and the
geocoder answers whenever it likes (`EventScreens.Action`). A value that a screen gets may be old, and may come again.

Nothing that the form writes can stop a screen. The two lists have what had been submitted at one moment, and after the
latest value everything that has been submitted; `EventsVC` lists every value it has got one after the other, and each
of its pins belongs to a submission.
-/

namespace CareDirect.Events

open Directory PartialRun DataSnapshot

inductive Screen
  | list
  | details
  | events
  deriving DecidableEq, Repr

structure EventScreens where
  addEvent : AddEventVC := {}
  /-- The values that the node has had. -/
  published : List DataSnapshot := [AddEventVC.value {}]
  list : ListVC := {}
  details : DetailsViewController := {}
  events : EventsVC := {}

namespace EventScreens

inductive Action
  | write (action : AddEventVC.Action)
  /-- Firebase calls the block of a screen with the `i`-th value. -/
  | deliver (screen : Screen) (i : ℕ)
  | geocoded (i : ℕ) (placemarks : Option (List CLPlacemark)) (error : Bool)

/-- The block of a screen is called. -/
def receive (s : EventScreens) (snapshot : DataSnapshot) : Screen → Option EventScreens
  | .list => do
    let list ← s.list.observerBlock snapshot
    some { s with list }
  | .details => do
    let details ← s.details.observerBlock snapshot
    some { s with details }
  | .events => do
    let events ← Events.step s.events (.events snapshot)
    some { s with events }

def step (s : EventScreens) : Action → Option EventScreens
  | .write action => do
    let addEvent ← AddEventVC.step s.addEvent action
    some { s with addEvent, published := s.published ++ [addEvent.value] }
  | .deliver screen i =>
    match s.published[i]? with
    | some snapshot => s.receive snapshot screen
    | none => some s
  | .geocoded i placemarks error => do
    let events ← Events.step s.events (.geocoded i placemarks error)
    some { s with events }

def Action.writes : Action → Option AddEventVC.Action
  | .write action => some action
  | _ => none

/-- The calls of the form among the actions. -/
def writes (es : List Action) : List AddEventVC.Action := es.filterMap Action.writes

/-- The geocoder answers as it does. -/
def Action.Answered : Action → Prop
  | .geocoded i placemarks error => (Event.geocoded i placemarks error).Answered
  | _ => True

/-! ## What the screens show -/

/-- The rows for the value after these calls. -/
def rows (ws : List AddEventVC.Action) : List EventModel := (listing (submissions ws)).map (·.model.shown)

/-- The values that a screen gets, one after the other, each as the calls of the form that it has seen; `ws` are the calls
made so far. -/
def deliveredTo (screen : Screen) : List AddEventVC.Action → List Action → List (List AddEventVC.Action)
  | _, [] => []
  | ws, .write action :: es => deliveredTo screen (ws ++ [action]) es
  | ws, .deliver screen' i :: es =>
    if screen' = screen ∧ i ≤ ws.length then ws.take i :: deliveredTo screen ws es else deliveredTo screen ws es
  | ws, .geocoded .. :: es => deliveredTo screen ws es

/-- The pin belongs to the submission. -/
def PinFor (s : Recorded Submission) (pin : Recorded PinModel) : Prop :=
  pin.key = s.key ∧ pin.model.titlePin = some s.model.title ∧ pin.model.datePin = s.model.date ∧
    pin.model.organizationPin = s.model.organization

/-- After the calls `ws` of the form. -/
structure Holds (ws : List AddEventVC.Action) (s : EventScreens) : Prop where
  node : Node (submissions ws) s.addEvent
  published : s.published = (List.range (ws.length + 1)).map fun i => valueOf (submissions (ws.take i))
  list : ∃ p, p <+: ws ∧ s.list.eventsList = rows p
  details : ∃ p, p <+: ws ∧ s.details.detailsList = (rows p).map detailsOf
  requests : ∀ request ∈ s.events.geocoding,
    ∃ p, p <+: ws ∧ ∃ sub ∈ submissions p, request = requestOf (recordOf sub)
  pins : ∀ pin ∈ s.events.annotations, ∃ p, p <+: ws ∧ ∃ sub ∈ submissions p, PinFor sub pin

variable {s t : EventScreens} {ws p : List AddEventVC.Action} {es : List Action}

theorem legible_children (subs : List (Recorded Submission)) : ∀ r ∈ (valueOf subs).children, Legible r := by
  rw [children_valueOf]
  exact List.forall_mem_map.2 fun s _ => legible_fields s.key s.model

theorem map_eventOf (ws : List AddEventVC.Action) : (valueOf (submissions ws)).children.map eventOf = rows ws := by
  rw [children_valueOf, List.map_map]
  exact List.map_congr_left fun s _ => eventOf_fields s.key s.model

theorem map_detailOf (ws : List AddEventVC.Action) :
    (valueOf (submissions ws)).children.map detailOf = (rows ws).map detailsOf := by
  rw [← map_eventOf, List.map_map]
  rfl

theorem rows_nil (h : submissions ws = []) : rows ws = [] := by
  rw [rows, h, listing, List.mergeSort_nil, List.map_nil]

theorem rows_eq_nil_iff : (valueOf (submissions ws)).children = [] ↔ submissions ws = [] := by
  rw [children_valueOf, List.map_eq_nil_iff, ← List.length_eq_zero_iff, listing, List.length_mergeSort,
    List.length_eq_zero_iff]

/-- Every record has the texts of a pin. -/
theorem hasTexts_recordOf (s : Recorded Submission) : HasTexts pinKeys (recordOf s) := by
  simp only [HasTexts, pinKeys, List.forall_mem_cons]
  exact ⟨⟨_, rfl⟩, ⟨_, rfl⟩, ⟨_, rfl⟩, ⟨_, rfl⟩, List.forall_mem_nil _⟩

theorem pinFor_of_isPin {sub : Recorded Submission} {pin : Recorded PinModel} (h : IsPin (recordOf sub) pin) :
    PinFor sub pin :=
  ⟨h.1, h.2.1, Option.some.inj h.2.2.1, Option.some.inj h.2.2.2⟩

/-! ## Submissions are kept -/

theorem submissionKeys_mono (h : p <+: ws) : (submissions p).map (·.key) <+: (submissions ws).map (·.key) := by
  obtain ⟨r, rfl⟩ := h
  induction r using List.reverseRecOn with
  | nil => exact ⟨[], by rw [List.append_nil, List.append_nil]⟩
  | append_singleton r action ih =>
    rw [← List.append_assoc, submissions_snoc]
    exact ih.trans (keys_submit _ action)

theorem submissions_eq_nil (h : p <+: ws) (hnil : submissions ws = []) : submissions p = [] := by
  have hkeys := submissionKeys_mono h
  rw [hnil, List.map_nil, List.prefix_nil, List.map_eq_nil_iff] at hkeys
  exact hkeys

/-- The picture that arrives later is not on the pin. -/
theorem pinFor_submit {subs : List (Recorded Submission)} {pin : Recorded PinModel} (action : AddEventVC.Action)
    (h : ∃ sub ∈ subs, PinFor sub pin) : ∃ sub ∈ submit subs action, PinFor sub pin := by
  obtain ⟨sub, hsub, hpin⟩ := h
  unfold submit
  split
  · split
    · exact ⟨sub, List.mem_append_left _ hsub, hpin⟩
    · exact ⟨sub, hsub, hpin⟩
  · refine ⟨_, List.mem_map_of_mem hsub, ?_⟩
    split
    · exact hpin
    · exact hpin
  · exact ⟨sub, hsub, hpin⟩

theorem pinFor_prefix {pin : Recorded PinModel} (hp : p <+: ws) (h : ∃ sub ∈ submissions p, PinFor sub pin) :
    ∃ sub ∈ submissions ws, PinFor sub pin := by
  obtain ⟨r, rfl⟩ := hp
  induction r using List.reverseRecOn with
  | nil => rwa [List.append_nil]
  | append_singleton r action ih =>
    rw [← List.append_assoc, submissions_snoc]
    exact pinFor_submit action ih

/-! ## One step -/

/-- A list that a block refills. -/
theorem refill_children {α : Type} {decode : DataSnapshot → Option α} {f : DataSnapshot → α} {old : List α}
    {snapshot : DataSnapshot} (h : ∀ r ∈ snapshot.children, decode r = some (f r)) :
    Refill.refill (fun r => (decode r).map some) old snapshot.children =
      some (if snapshot.children = [] then old else snapshot.children.map f) := by
  have hdecode : ∀ r ∈ snapshot.children, (decode r).map some = some (some (f r)) :=
    fun r hr => by rw [h r hr]; rfl
  rw [Refill.refill_some]
  refine ⟨Refill.readable_of_eq hdecode, ?_⟩
  rw [Refill.decoded_eq hdecode, ← List.filterMap_eq_map]
  rfl

theorem list_receive (ws : List AddEventVC.Action) (vc : ListVC) :
    vc.observerBlock (valueOf (submissions ws)) =
      some ⟨if submissions ws = [] then vc.eventsList else rows ws⟩ := by
  have hblock := @refill_children _ _ _ vc.eventsList (valueOf (submissions ws))
    fun r hr => ListVC.event_eq (legible_children _ r hr).1
  rw [ListVC.observerBlock, hblock, map_eventOf]
  simp only [rows_eq_nil_iff, Option.bind_eq_bind, Option.bind_some]

theorem details_receive (ws : List AddEventVC.Action) (vc : DetailsViewController) :
    vc.observerBlock (valueOf (submissions ws)) =
      some ⟨if submissions ws = [] then vc.detailsList else (rows ws).map detailsOf⟩ := by
  have hblock := @refill_children _ _ _ vc.detailsList (valueOf (submissions ws))
    fun r hr => DetailsViewController.detail_eq (legible_children _ r hr).1
  rw [DetailsViewController.observerBlock, hblock, map_detailOf]
  simp only [rows_eq_nil_iff, Option.bind_eq_bind, Option.bind_some]

theorem Holds.getElem? (hs : Holds ws s) {i : ℕ} {snapshot : DataSnapshot} (h : s.published[i]? = some snapshot) :
    snapshot = valueOf (submissions (ws.take i)) := by
  rw [hs.published, List.getElem?_map, Option.map_eq_some_iff] at h
  obtain ⟨j, hj, rfl⟩ := h
  obtain ⟨hlt, rfl⟩ := List.getElem?_eq_some_iff.1 hj
  rw [List.getElem_range]

theorem Holds.getElem?_le (hs : Holds ws s) {i : ℕ} (hi : i ≤ ws.length) :
    s.published[i]? = some (valueOf (submissions (ws.take i))) := by
  rw [hs.published, List.getElem?_map, List.getElem?_range (Nat.lt_succ_of_le hi), Option.map_some]

theorem Holds.getElem?_gt (hs : Holds ws s) {i : ℕ} (hi : ¬ i ≤ ws.length) : s.published[i]? = none := by
  rw [hs.published, List.getElem?_eq_none_iff, List.length_map, List.length_range]
  omega

theorem Holds.getElem?_last (hs : Holds ws s) : s.published[ws.length]? = some (valueOf (submissions ws)) := by
  rw [hs.getElem?_le (Nat.le_refl _), List.take_length]

theorem Holds.write {action : AddEventVC.Action} {vc : AddEventVC} (hs : Holds ws s)
    (h : AddEventVC.step s.addEvent action = some vc) (hkeys : ((submissions (ws ++ [action])).map (·.key)).Nodup) :
    Holds (ws ++ [action]) { s with addEvent := vc, published := s.published ++ [vc.value] } := by
  have hnode : Node (submissions (ws ++ [action])) vc := by
    rw [submissions_snoc] at hkeys ⊢
    exact hs.node.step h hkeys
  have hlonger : ∀ {p}, p <+: ws → p <+: ws ++ [action] := fun hp => hp.trans (List.prefix_append _ _)
  obtain ⟨p, hp, hlist⟩ := hs.list
  obtain ⟨q, hq, hdetails⟩ := hs.details
  refine ⟨hnode, ?_, ⟨p, hlonger hp, hlist⟩, ⟨q, hlonger hq, hdetails⟩, ?_, ?_⟩
  · have hold : s.published =
        (List.range (ws.length + 1)).map fun i => valueOf (submissions ((ws ++ [action]).take i)) := by
      rw [hs.published]
      refine List.map_congr_left fun i hi => ?_
      rw [List.take_append_of_le_length (Nat.le_of_lt_succ (List.mem_range.1 hi))]
    have hall : (ws ++ [action]).take (ws.length + 1) = ws ++ [action] := List.take_of_length_le (by simp)
    change s.published ++ [vc.value] = _
    rw [hold, List.length_append, List.length_singleton, @List.range_succ (ws.length + 1), List.map_append,
      List.map_singleton, hall, hnode.value]
  · intro request hrequest
    obtain ⟨p, hp, hsub⟩ := hs.requests request hrequest
    exact ⟨p, hlonger hp, hsub⟩
  · intro pin hpin
    obtain ⟨p, hp, hsub⟩ := hs.pins pin hpin
    exact ⟨p, hlonger hp, hsub⟩

theorem receive_list (s : EventScreens) (p : List AddEventVC.Action) : s.receive (valueOf (submissions p)) .list =
    some { s with list := ⟨if submissions p = [] then s.list.eventsList else rows p⟩ } := by
  rw [EventScreens.receive, list_receive]
  rfl

theorem receive_details (s : EventScreens) (p : List AddEventVC.Action) :
    s.receive (valueOf (submissions p)) .details =
      some { s with details := ⟨if submissions p = [] then s.details.detailsList else (rows p).map detailsOf⟩ } := by
  rw [EventScreens.receive, details_receive]
  rfl

theorem receive_events (s : EventScreens) (p : List AddEventVC.Action) :
    s.receive (valueOf (submissions p)) .events = some { s with events := { s.events with
      geocoding := s.events.geocoding ++ (valueOf (submissions p)).children.map requestOf
      eventsList := s.events.eventsList ++ rows p } } := by
  rw [EventScreens.receive, Events.step, observerBlock_eq (legible_children (submissions p)), map_eventOf]
  rfl

/-- No value that the form has written stops a screen. -/
theorem Holds.receive (hs : Holds ws s) (screen : Screen) (hp : p <+: ws) :
    ∃ t, s.receive (valueOf (submissions p)) screen = some t ∧ Holds ws t ∧ t.addEvent = s.addEvent := by
  cases screen with
  | list =>
    refine ⟨_, receive_list s p, { hs with list := ?_ }, rfl⟩
    split
    · exact hs.list
    · exact ⟨p, hp, rfl⟩
  | details =>
    refine ⟨_, receive_details s p, { hs with details := ?_ }, rfl⟩
    split
    · exact hs.details
    · exact ⟨p, hp, rfl⟩
  | events =>
    refine ⟨_, receive_events s p, { hs with requests := ?_ }, rfl⟩
    intro request hrequest
    rcases List.mem_append.1 hrequest with hold | hnew
    · exact hs.requests request hold
    · obtain ⟨r, hr, rfl⟩ := List.mem_map.1 hnew
      rw [children_valueOf] at hr
      obtain ⟨sub, hsub, rfl⟩ := List.mem_map.1 hr
      exact ⟨p, hp, sub, mem_listing.1 hsub, rfl⟩

theorem receive_addEvent {snapshot : DataSnapshot} {screen : Screen} (h : s.receive snapshot screen = some t) :
    t.addEvent = s.addEvent := by
  cases screen with
  | list =>
    obtain ⟨_, -, h⟩ := Option.bind_eq_some_iff.1 h
    cases h
    rfl
  | details =>
    obtain ⟨_, -, h⟩ := Option.bind_eq_some_iff.1 h
    cases h
    rfl
  | events =>
    obtain ⟨_, -, h⟩ := Option.bind_eq_some_iff.1 h
    cases h
    rfl

theorem step_deliver (screen : Screen) {i : ℕ} {snapshot : DataSnapshot} (h : s.published[i]? = some snapshot) :
    s.step (.deliver screen i) = s.receive snapshot screen := by
  simp only [step, h]

theorem Holds.deliver (hs : Holds ws s) (screen : Screen) (i : ℕ) :
    ∃ t, s.step (.deliver screen i) = some t ∧ Holds ws t ∧ t.addEvent = s.addEvent := by
  cases hi : s.published[i]? with
  | none => exact ⟨s, by simp only [step, hi], hs, rfl⟩
  | some snapshot =>
    rw [step_deliver screen hi, hs.getElem? hi]
    exact hs.receive screen (List.take_prefix i ws)

/-- No answer of the geocoder stops the map. -/
theorem Holds.geocoded (hs : Holds ws s) {i : ℕ} {placemarks : Option (List CLPlacemark)} {error : Bool}
    (hanswer : (Event.geocoded i placemarks error).Answered) :
    ∃ t, s.step (.geocoded i placemarks error) = some t ∧ Holds ws t ∧ t.addEvent = s.addEvent := by
  have hanswerable : Answerable s.events := by
    intro request hrequest
    obtain ⟨-, -, sub, -, rfl⟩ := hs.requests request hrequest
    exact ⟨recordOf sub, hasTexts_recordOf sub, rfl⟩
  obtain ⟨events, hevents, -⟩ := step_total hanswerable ⟨hanswer, trivial⟩
  refine ⟨{ s with events }, by rw [step, hevents]; rfl, ?_, rfl⟩
  rcases geocoded_cases hevents with rfl | ⟨request, hi, rfl | ⟨pin, hpin, rfl⟩⟩
  · exact hs
  · exact { hs with requests := fun r hr => hs.requests r (List.mem_of_mem_eraseIdx hr) }
  · refine { hs with requests := fun r hr => hs.requests r (List.mem_of_mem_eraseIdx hr), pins := ?_ }
    refine List.forall_mem_append.2 ⟨hs.pins, List.forall_mem_singleton.2 ?_⟩
    obtain ⟨p, hp, sub, hsub, rfl⟩ := hs.requests request (List.mem_of_getElem? hi)
    exact ⟨p, hp, sub, hsub, pinFor_of_isPin (isPin_of_pinOf hpin)⟩

/-! ## Runs -/

/-- The form goes on whenever the screens do. -/
theorem run_writes (h : run step {} es = some s) : run AddEventVC.step {} (writes es) = some s.addEvent := by
  refine run_view EventScreens.addEvent Action.writes (fun u e v he => ?_) h
  cases e with
  | write action =>
    obtain ⟨addEvent, hadd, he⟩ := Option.bind_eq_some_iff.1 he
    cases he
    exact .inr ⟨action, rfl, hadd⟩
  | deliver screen i =>
    refine .inl ⟨rfl, ?_⟩
    simp only [step] at he
    split at he
    · exact receive_addEvent he
    · cases he
      rfl
  | geocoded i placemarks error =>
    obtain ⟨_, -, he⟩ := Option.bind_eq_some_iff.1 he
    cases he
    exact .inl ⟨rfl, rfl⟩

/-- No screen is stopped, in any order of the form's calls, the deliveries and the answers. -/
theorem holds_run {vc : AddEventVC} (hkeys : ((submissions (writes es)).map (·.key)).Nodup)
    (hanswered : ∀ e ∈ es, e.Answered) (h : run AddEventVC.step {} (writes es) = some vc) :
    ∃ s, run step {} es = some s ∧ Holds (writes es) s ∧ s.addEvent = vc := by
  induction es using List.reverseRecOn generalizing vc with
  | nil =>
    cases h
    have hnode : Node [] {} := ⟨rfl, List.forall_mem_nil _⟩
    refine ⟨{}, rfl, ⟨hnode, congrArg (fun v => [v]) hnode.value, ⟨[], List.prefix_rfl, ?_⟩, ⟨[], List.prefix_rfl, ?_⟩,
      List.forall_mem_nil _, List.forall_mem_nil _⟩, rfl⟩
    · exact (rows_nil rfl).symm
    · rw [rows_nil rfl]
      rfl
  | append_singleton es e ih =>
    obtain ⟨hes, he⟩ := List.forall_mem_append.1 hanswered
    have hwrites : writes (es ++ [e]) = writes es ++ e.writes.toList := by
      rw [writes, List.filterMap_append]
      cases hw : e.writes <;> simp [writes, hw]
    rw [hwrites] at hkeys h ⊢
    have hkeys' := hkeys.sublist (submissionKeys_mono (List.prefix_append (writes es) e.writes.toList)).sublist
    obtain ⟨u, hu, hrest⟩ := run_append_some.1 h
    obtain ⟨s, hs, hholds, rfl⟩ := ih hkeys' hes hu
    rw [run_snoc, hs, Option.bind_some]
    have hsame : e.writes = none → s.addEvent = vc ∧ writes es ++ e.writes.toList = writes es := by
      intro hw
      rw [hw] at hrest ⊢
      exact ⟨Option.some.inj hrest, List.append_nil _⟩
    cases e with
    | write action =>
      obtain ⟨vc', hstep, hvc⟩ := Option.bind_eq_some_iff.1 hrest
      cases hvc
      exact ⟨_, by rw [step, hstep]; rfl, hholds.write hstep hkeys, rfl⟩
    | deliver screen i =>
      obtain ⟨t, ht, hholds, hadd⟩ := hholds.deliver screen i
      obtain ⟨hvc, hws⟩ := hsame rfl
      rw [hws]
      exact ⟨t, ht, hholds, hadd.trans hvc⟩
    | geocoded i placemarks error =>
      have hanswer : Action.Answered (.geocoded i placemarks error) := he _ (List.mem_singleton_self _)
      obtain ⟨t, ht, hholds, hadd⟩ := hholds.geocoded hanswer
      obtain ⟨hvc, hws⟩ := hsame rfl
      rw [hws]
      exact ⟨t, ht, hholds, hadd.trans hvc⟩

/-- Keys are not used twice, and the geocoder answers as it does. -/
structure Proper (es : List Action) : Prop where
  keys : ((submissions (writes es)).map (·.key)).Nodup
  answered : ∀ e ∈ es, e.Answered

theorem Proper.left {es' : List Action} (h : Proper (es ++ es')) : Proper es :=
  ⟨h.keys.sublist (submissionKeys_mono ((List.prefix_append es es').filterMap _)).sublist,
    fun e he => h.answered e (List.mem_append_left _ he)⟩

theorem Proper.holds (hproper : Proper es) (h : run step {} es = some s) : Holds (writes es) s := by
  obtain ⟨u, hu, hholds, -⟩ := holds_run hproper.keys hproper.answered (run_writes h)
  rwa [Option.some.inj (h.symm.trans hu)]

/-! ## What `EventsVC` has got -/

theorem deliveredTo_append (screen : Screen) (ws : List AddEventVC.Action) (es es' : List Action) :
    deliveredTo screen ws (es ++ es') = deliveredTo screen ws es ++ deliveredTo screen (ws ++ writes es) es' := by
  induction es generalizing ws with
  | nil => rw [writes, List.filterMap_nil, List.append_nil, List.nil_append, deliveredTo, List.nil_append]
  | cons e es ih =>
    cases e with
    | write action =>
      have hwrites : writes (.write action :: es) = action :: writes es := rfl
      rw [List.cons_append, deliveredTo, deliveredTo, ih, hwrites, List.append_assoc, List.singleton_append]
    | deliver screen' i =>
      have hwrites : writes (.deliver screen' i :: es) = writes es := rfl
      rw [List.cons_append, deliveredTo, deliveredTo, ih, hwrites]
      split
      · rfl
      · rfl
    | geocoded i placemarks error => exact ih ws

/-- A value that is delivered has seen the first calls of the form. -/
theorem prefix_of_deliveredTo {screen : Screen} (h : p ∈ deliveredTo screen ws es) : p <+: ws ++ writes es := by
  induction es generalizing ws with
  | nil => cases h
  | cons e es ih =>
    cases e with
    | write action =>
      have hwrites : ws ++ writes (.write action :: es) = ws ++ [action] ++ writes es := by
        rw [List.append_assoc]
        rfl
      exact hwrites ▸ ih h
    | deliver screen' i =>
      rw [deliveredTo] at h
      split at h
      · rcases List.mem_cons.1 h with rfl | h
        · exact (List.take_prefix i ws).trans (List.prefix_append _ _)
        · exact ih h
      · exact ih h
    | geocoded i placemarks error => exact ih h

/-- The list grows by the rows of a value that is delivered. -/
theorem Holds.eventsList_step {e : Action} (hs : Holds ws s) (h : s.step e = some t) :
    t.events.eventsList = s.events.eventsList ++ (deliveredTo .events ws [e]).flatMap rows := by
  have hnone : t.events.eventsList = s.events.eventsList →
      t.events.eventsList = s.events.eventsList ++ ([] : List (List AddEventVC.Action)).flatMap rows := fun h => by
    rw [h, List.flatMap_nil, List.append_nil]
  cases e with
  | write action =>
    obtain ⟨addEvent, -, h⟩ := Option.bind_eq_some_iff.1 h
    cases h
    exact hnone rfl
  | deliver screen i =>
    by_cases hi : i ≤ ws.length
    · rw [step_deliver screen (hs.getElem?_le hi)] at h
      cases screen with
      | list =>
        rw [receive_list] at h
        cases h
        exact hnone rfl
      | details =>
        rw [receive_details] at h
        cases h
        exact hnone rfl
      | events =>
        rw [receive_events] at h
        cases h
        rw [deliveredTo, if_pos ⟨rfl, hi⟩, deliveredTo, List.flatMap_singleton]
    · simp only [step, hs.getElem?_gt hi, Option.some.injEq] at h
      cases h
      rw [deliveredTo, if_neg fun hboth => hi hboth.2]
      exact hnone rfl
  | geocoded i placemarks error =>
    obtain ⟨events, hevents, h⟩ := Option.bind_eq_some_iff.1 h
    cases h
    exact hnone (eventsList_geocoded hevents)

theorem eventsList_run (hproper : Proper es) (h : run step {} es = some s) :
    s.events.eventsList = (deliveredTo .events [] es).flatMap rows := by
  refine run_induction (I := fun q u => Proper q → u.events.eventsList = (deliveredTo .events [] q).flatMap rows)
    (fun _ => rfl) ?_ es h hproper
  intro q u e v hq hu he hproper
  rw [(hproper.left.holds hq).eventsList_step he, hu hproper.left, deliveredTo_append, List.flatMap_append,
    List.nil_append]

/-! ## The lists and the map -/

/-- What the latest value leaves in the lists. -/
theorem Holds.latest (hs : Holds ws s) :
    (∀ t, s.step (.deliver .list ws.length) = some t → t.list.eventsList = rows ws) ∧
      ∀ t, s.step (.deliver .details ws.length) = some t → t.details.detailsList = (rows ws).map detailsOf := by
  -- A node that is still empty has never had a child, and the lists have stayed empty with it.
  have hempty : ∀ p, p <+: ws → submissions ws = [] → rows p = rows ws := fun p hp hnil => by
    rw [rows_nil hnil, rows_nil (submissions_eq_nil hp hnil)]
  constructor
  · intro t ht
    rw [step_deliver _ hs.getElem?_last, receive_list] at ht
    cases ht
    obtain ⟨p, hp, hlist⟩ := hs.list
    change (if submissions ws = [] then s.list.eventsList else rows ws) = rows ws
    split_ifs with hnil
    · rw [hlist, hempty p hp hnil]
    · rfl
  · intro t ht
    rw [step_deliver _ hs.getElem?_last, receive_details] at ht
    cases ht
    obtain ⟨p, hp, hdetails⟩ := hs.details
    change (if submissions ws = [] then s.details.detailsList else (rows ws).map detailsOf) = _
    split_ifs with hnil
    · rw [hdetails, hempty p hp hnil]
    · rfl

/-- **The two lists.** Where the form goes on, with keys that are not used twice, no order of its calls, the deliveries
and the answers stops the app. At every moment `ListVC` and `DetailsViewController` each list, field by field and in the
order of the keys, what had been submitted by some moment before; the latest value brings them up to date. -/
theorem lists_run {vc : AddEventVC} (hkeys : ((submissions (writes es)).map (·.key)).Nodup)
    (hanswered : ∀ e ∈ es, e.Answered) (h : run AddEventVC.step {} (writes es) = some vc) :
    ∃ s, run step {} es = some s ∧ (∃ p, p <+: writes es ∧ s.list.eventsList = rows p) ∧
      (∃ p, p <+: writes es ∧ s.details.detailsList = (rows p).map detailsOf) ∧
      (∀ t, s.step (.deliver .list (writes es).length) = some t → t.list.eventsList = rows (writes es)) ∧
      ∀ t, s.step (.deliver .details (writes es).length) = some t →
        t.details.detailsList = (rows (writes es)).map detailsOf := by
  obtain ⟨s, hs, hholds, -⟩ := holds_run hkeys hanswered h
  exact ⟨s, hs, hholds.list, hholds.details, hholds.latest⟩

/-- An event submitted, an old value and the latest one delivered, its picture stored. -/
def sampleActions : List Action :=
  [.write (.addEventTapped (sampleForm "Walk" "https://a") "k1"), .deliver .list 0, .deliver .events 1,
    .deliver .list 1, .geocoded 0 (some [⟨some ⟨47, -122⟩⟩]) false,
    .write (.uploaded "k1" (some ⟨some pictureA⟩) false)]

theorem sampleActions_answered : ∀ e ∈ sampleActions, e.Answered := by
  simp [sampleActions, Action.Answered, Event.Answered]

theorem lists_run_sample : ∃ s, run step {} sampleActions = some s ∧
    ∃ p, p <+: writes sampleActions ∧ s.list.eventsList = rows p := by
  have hkeys : ((submissions (writes sampleActions)).map (·.key)).Nodup := by decide
  obtain ⟨s, hs, hlist, -⟩ := lists_run hkeys sampleActions_answered rfl
  exact ⟨s, hs, hlist⟩

/-- **The map.** In the same runs `EventsVC` has, one after the other, the rows of the values that it has got, each being
what had been submitted by some moment, and each of its pins shows the title, the date and the organization of a
submission. -/
theorem map_run {vc : AddEventVC} (hkeys : ((submissions (writes es)).map (·.key)).Nodup)
    (hanswered : ∀ e ∈ es, e.Answered) (h : run AddEventVC.step {} (writes es) = some vc) :
    ∃ s, run step {} es = some s ∧
      s.events.eventsList = (deliveredTo .events [] es).flatMap rows ∧
      (∀ p ∈ deliveredTo .events [] es, p <+: writes es) ∧
      ∀ pin ∈ s.events.annotations, ∃ sub ∈ submissions (writes es), PinFor sub pin := by
  obtain ⟨s, hs, hholds, -⟩ := holds_run hkeys hanswered h
  refine ⟨s, hs, eventsList_run ⟨hkeys, hanswered⟩ hs, fun p hp => prefix_of_deliveredTo hp, fun pin hpin => ?_⟩
  obtain ⟨p, hp, hsub⟩ := hholds.pins pin hpin
  exact pinFor_prefix hp hsub

theorem map_run_sample : ∃ s, run step {} sampleActions = some s ∧
    s.events.eventsList = rows [.addEventTapped (sampleForm "Walk" "https://a") "k1"] ∧
    ∀ pin ∈ s.events.annotations, ∃ sub ∈ submissions (writes sampleActions), PinFor sub pin := by
  have hkeys : ((submissions (writes sampleActions)).map (·.key)).Nodup := by decide
  obtain ⟨s, hs, hlist, -, hpins⟩ := map_run hkeys sampleActions_answered rfl
  exact ⟨s, hs, hlist.trans (List.flatMap_singleton rows _), hpins⟩

end EventScreens

end CareDirect.Events
