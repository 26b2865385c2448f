import CareDirect.Events.EventsVC

/-!
# The three readers of the events

`EventsVC`, `ListVC` and `DetailsViewController` observe one node. The last two clear their list before they fill it;
`EventsVC` appends (`eventsList_run`). So the lists are the same after the first delivery, and at no later point
(`readers_agree_iff`).
-/

namespace CareDirect.Events

open Directory PartialRun DataSnapshot

variable {es : List Event} {vc vc' : EventsVC} {e : Event} {snapshots : List DataSnapshot}

/-! ## The list of `EventsVC` -/

/-- An answer leaves the list alone. -/
theorem eventsList_geocoded {i : ℕ} {placemarks : Option (List CLPlacemark)} {error : Bool}
    (h : step vc (.geocoded i placemarks error) = some vc') : vc'.eventsList = vc.eventsList := by
  rcases geocoded_cases h with rfl | ⟨_, -, rfl | ⟨_, -, rfl⟩⟩ <;> rfl

/-- The list holds every record ever delivered. -/
theorem eventsList_run (h : run step {} es = some vc) : vc.eventsList = (recordsOf (deliveries es)).map eventOf := by
  refine run_induction (I := fun p u => u.eventsList = (recordsOf (deliveries p)).map eventOf) rfl ?_ es h
  intro p u e v _ hu he
  cases e with
  | events snapshot =>
    obtain ⟨-, rfl⟩ := events_some he
    rw [deliveries_snoc_events, recordsOf_snoc, List.map_append, ← hu]
  | geocoded i placemarks error => rw [deliveries_snoc_geocoded, eventsList_geocoded he, hu]

/-! ## The three lists -/

/-- The fields of an event, as `DetailsModel` has them. -/
def detailsOf (event : EventModel) : DetailsModel where
  title := event.title
  location := event.location
  date := event.date
  organization := event.organization
  description := event.description
  url := event.url

/-- The lists have the same events in the same order. -/
def Agree (vc : EventsVC) (list : ListVC) (details : DetailsViewController) : Prop :=
  vc.eventsList = list.eventsList ∧ details.detailsList = list.eventsList.map detailsOf

/-- Non-empty snapshots of legible records: every field is a string, or is missing and is not the address. -/
def Delivered (snapshots : List DataSnapshot) : Prop :=
  ∀ snapshot ∈ snapshots, snapshot.children ≠ [] ∧ ∀ record ∈ snapshot.children, Legible record

/-- After the deliveries among `es`, the three controllers agree. -/
def AgreeAfter (es : List Event) : Prop := ∀ vc list details, run step {} es = some vc →
  run ListVC.observerBlock {} (deliveries es) = some list →
  run DetailsViewController.observerBlock {} (deliveries es) = some details → Agree vc list details

theorem Delivered.allLegible (h : Delivered snapshots) : AllLegible snapshots := fun s hs => (h s hs).2

theorem Delivered.wellTyped (h : Delivered snapshots) : WellTyped eventKeys snapshots :=
  fun s hs r hr => ((h s hs).2 r hr).1

/-- The lists of the other two show the last snapshot. -/
theorem agreeAfter_iff (h : Delivered (deliveries es)) (hr : ∃ vc, run step {} es = some vc) :
    AgreeAfter es ↔ (recordsOf (deliveries es)).map eventOf = (lastChildren (deliveries es)).map eventOf := by
  obtain ⟨vc, hvc⟩ := hr
  have hlist := ListVC.run_eq h.wellTyped
  have hdetails := DetailsViewController.run_eq h.wellTyped
  have hdetailsOf : ((lastChildren (deliveries es)).map eventOf).map detailsOf =
      (lastChildren (deliveries es)).map detailOf := by
    rw [List.map_map]
    rfl
  constructor
  · intro hagree
    rw [← eventsList_run hvc]
    exact (hagree vc _ _ hvc hlist hdetails).1
  · intro he vc' list details hvc' hlist' hdetails'
    cases hlist.symm.trans hlist'
    cases hdetails.symm.trans hdetails'
    exact ⟨(eventsList_run hvc').trans he, hdetailsOf.symm⟩

/-- Everything delivered is in the last snapshot exactly when there is no other. -/
theorem records_last_iff (h : Delivered snapshots) :
    (recordsOf snapshots).map eventOf = (lastChildren snapshots).map eventOf ↔ snapshots.length ≤ 1 := by
  rcases List.eq_nil_or_concat snapshots with rfl | ⟨earlier, snapshot, rfl⟩
  · exact iff_of_true rfl (Nat.zero_le _)
  rw [List.concat_eq_append] at h ⊢
  obtain ⟨hearlier, hlast⟩ := List.forall_mem_append.1 h
  have hne := (List.forall_mem_singleton.1 hlast).1
  have hlastChildren : lastChildren (earlier ++ [snapshot]) = snapshot.children := by
    rw [lastChildren, List.map_append, List.map_singleton, Refill.lastNonempty_snoc, if_neg hne]
  rw [hlastChildren, recordsOf_snoc]
  constructor
  · intro he
    have hlength := congrArg List.length he
    simp only [List.map_append, List.length_append, List.length_map] at hlength
    have hnil : recordsOf earlier = [] := List.length_eq_zero_iff.1 (by omega)
    cases earlier with
    | nil => exact Nat.le_refl 1
    | cons first rest =>
      have hfirst := (List.append_eq_nil_iff.1 hnil).1
      exact absurd hfirst (hearlier first List.mem_cons_self).1
  · intro hlength
    rw [List.length_append, List.length_singleton] at hlength
    rw [List.length_eq_zero_iff.1 (by omega : earlier.length = 0)]
    rfl

/-- **The readers of the events.** No delivery stops a controller. The three lists agree after each delivery, whatever
the geocoder answers in between, exactly when there is at most one delivery. -/
theorem readers_agree_iff (h : Delivered snapshots) :
    (∀ p, p <+: snapshots → (∃ vc, run step {} (p.map .events) = some vc) ∧
      (∃ list, run ListVC.observerBlock {} p = some list) ∧
      ∃ details, run DetailsViewController.observerBlock {} p = some details) ∧
    ((∀ es, deliveries es <+: snapshots → AgreeAfter es) ↔ snapshots.length ≤ 1) := by
  have hpre : ∀ p, p <+: snapshots → Delivered p := fun p hp s hs => h s (hp.subset hs)
  refine ⟨fun p hp => ?_, ?_, ?_⟩
  · have hp := hpre p hp
    exact ⟨⟨_, run_deliveries {} hp.allLegible⟩, ⟨_, ListVC.run_eq hp.wellTyped⟩,
      ⟨_, DetailsViewController.run_eq hp.wellTyped⟩⟩
  · intro hagree
    have hall := hagree (snapshots.map .events) (by simp)
    rw [agreeAfter_iff (by rwa [deliveries_events]) ⟨_, run_deliveries {} h.allLegible⟩, deliveries_events] at hall
    exact (records_last_iff h).1 hall
  · intro hlength es hes vc list details hvc
    have hdelivered := hpre _ hes
    have hlast := (records_last_iff hdelivered).2 (Nat.le_trans hes.length_le hlength)
    exact (agreeAfter_iff hdelivered ⟨vc, hvc⟩).2 hlast vc list details hvc

theorem sampleEvents_delivered (urls : List String) : Delivered (urls.map sampleEvents) :=
  fun s hs => ⟨(sampleEvents_hasTexts s hs).1, fun r hr => legible_of_hasTexts ((sampleEvents_hasTexts s hs).2 r hr)⟩

/-- The sample, delivered once, and not found by the geocoder. -/
theorem readers_agree_sample : AgreeAfter [.events (sampleEvents pictureA), .geocoded 0 none true] :=
  (readers_agree_iff (sampleEvents_delivered [pictureA])).2.2 (Nat.le_refl 1) _ List.prefix_rfl

/-- The sample, delivered again with another picture: `EventsVC` lists the event twice. -/
theorem readers_disagree :
    (∀ snapshot ∈ [sampleEvents pictureA, sampleEvents pictureB], snapshot.children ≠ [] ∧
      ∀ record ∈ snapshot.children, HasTexts eventKeys record) ∧
    ∃ vc list details, run step {} [.events (sampleEvents pictureA), .events (sampleEvents pictureB)] = some vc ∧
      run ListVC.observerBlock {} [sampleEvents pictureA, sampleEvents pictureB] = some list ∧
      run DetailsViewController.observerBlock {} [sampleEvents pictureA, sampleEvents pictureB] = some details ∧
      vc.eventsList.length = 2 ∧ list.eventsList.length = 1 ∧ ¬ Agree vc list details := by
  refine ⟨@sampleEvents_hasTexts [pictureA, pictureB], _, _, _, rfl, rfl, rfl, rfl, rfl,
    fun hagree => ?_⟩
  exact absurd (congrArg List.length hagree.1) (by decide)

end CareDirect.Events
