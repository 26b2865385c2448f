import CareDirect.Events.EventsVC
import Mathlib.Data.List.Perm.Subperm
import Mathlib.Data.List.InsertIdx
import Mathlib.Data.List.Flatten

/-!
# The pins on the map

Every record delivered is asked for, and its request is answered at most once, at any later time (`Traced`). A pin is
never taken off the map. So the pins show the latest events, one each, in every order of the answers, only where no
record comes twice and whatever is shown of a record comes again in every later snapshot (`pins_current_iff`).
-/

namespace CareDirect.Events

open Directory PartialRun DataSnapshot EventsVC

variable {vc vc' : EventsVC} {e : Event} {es : List Event} {snapshots delivered pinned asked : List DataSnapshot}

/-! ## Where pins come from -/

/-- Of the records delivered, `pinned` have a pin and `asked` a request without an answer. -/
structure Traced (delivered : List DataSnapshot) (vc : EventsVC) (pinned asked : List DataSnapshot) : Prop where
  subperm : (pinned ++ asked).Subperm delivered
  keys : vc.annotations.map (·.key) = pinned.map (·.key)
  pins : ∀ pin ∈ vc.annotations, ∃ record ∈ pinned, IsPin record pin
  requests : vc.geocoding = asked.map requestOf

/-- A delivery asks for its records. -/
theorem Traced.events {snapshot : DataSnapshot} (ht : Traced delivered vc pinned asked)
    (h : step vc (.events snapshot) = some vc') :
    Traced (delivered ++ snapshot.children) vc' pinned (asked ++ snapshot.children) := by
  obtain ⟨-, rfl⟩ := events_some h
  refine ⟨?_, ht.keys, ht.pins, ?_⟩
  · rw [← List.append_assoc]
    exact (List.subperm_append_right _).2 ht.subperm
  · rw [List.map_append, ← ht.requests]

/-- An answer takes one request away, and may pin its record. -/
theorem Traced.geocoded {i : ℕ} {placemarks : Option (List CLPlacemark)} {error : Bool}
    (ht : Traced delivered vc pinned asked) (h : step vc (.geocoded i placemarks error) = some vc') :
    ∃ pinned' asked', Traced delivered vc' pinned' asked' := by
  rcases geocoded_cases h with rfl | ⟨request, hi, hcases⟩
  · exact ⟨pinned, asked, ht⟩
  rw [ht.requests, List.getElem?_map] at hi
  obtain ⟨record, hrecord, rfl⟩ := Option.map_eq_some_iff.1 hi
  have hrequests : vc.geocoding.eraseIdx i = (asked.eraseIdx i).map requestOf := by
    rw [ht.requests, List.eraseIdx_map]
  rcases hcases with rfl | ⟨pin, hpin, rfl⟩
  · refine ⟨pinned, asked.eraseIdx i, ?_, ht.keys, ht.pins, hrequests⟩
    exact (List.Sublist.append_left (List.eraseIdx_sublist asked i) pinned).subperm.trans ht.subperm
  · have hpin := isPin_of_pinOf hpin
    refine ⟨pinned ++ [record], asked.eraseIdx i, ?_, ?_, ?_, hrequests⟩
    · obtain ⟨hlt, rfl⟩ := List.getElem?_eq_some_iff.1 hrecord
      have hperm : (pinned ++ [asked[i]] ++ asked.eraseIdx i).Perm (pinned ++ asked) := by
        rw [List.append_assoc, List.singleton_append]
        exact (List.getElem_cons_eraseIdx_perm hlt).append_left pinned
      exact hperm.subperm.trans ht.subperm
    · rw [List.map_append, List.map_append, ht.keys]
      exact congrArg _ (congrArg (fun key => [key]) hpin.1)
    · intro pin' hpin'
      rcases List.mem_append.1 hpin' with hold | hnew
      · obtain ⟨record', hrecord', hshows⟩ := ht.pins pin' hold
        exact ⟨record', List.mem_append_left _ hrecord', hshows⟩
      · rw [List.mem_singleton.1 hnew]
        exact ⟨record, List.mem_concat_self, hpin⟩

theorem traced_run (h : run step {} es = some vc) :
    ∃ pinned asked, Traced (recordsOf (deliveries es)) vc pinned asked := by
  have hstart : Traced [] {} [] [] := ⟨List.nil_subperm, rfl, List.forall_mem_nil _, rfl⟩
  refine run_induction (I := fun p u => ∃ pinned asked, Traced (recordsOf (deliveries p)) u pinned asked)
    ⟨[], [], hstart⟩ ?_ es h
  rintro p u e v _ ⟨pinned, asked, ht⟩ he
  cases e with
  | events snapshot =>
    rw [deliveries_snoc_events, recordsOf_snoc]
    exact ⟨pinned, asked ++ snapshot.children, ht.events he⟩
  | geocoded i placemarks error =>
    rw [deliveries_snoc_geocoded]
    exact ht.geocoded he

/-! ## Answering everything -/

/-- Every request answered with a placemark, in the order of the calls. -/
def answers (coordinates : CLLocationCoordinate2D) (asked : List DataSnapshot) : List Event :=
  asked.map fun _ => .geocoded 0 (some [⟨some coordinates⟩]) false

/-- Answers deliver nothing. -/
theorem deliveries_answers (coordinates : CLLocationCoordinate2D) (snapshots asked : List DataSnapshot) :
    deliveries (snapshots.map .events ++ answers coordinates asked) = snapshots := by
  have hanswers : (answers coordinates asked).filterMap Event.delivered = [] :=
    List.filterMap_eq_nil_iff.2 fun e he => by obtain ⟨_, _, rfl⟩ := List.mem_map.1 he; rfl
  rw [deliveries, List.filterMap_append, hanswers, List.append_nil]
  exact deliveries_events snapshots

/-- Every record that is asked for gets its pin. -/
theorem run_answers (coordinates : CLLocationCoordinate2D) (htexts : ∀ r ∈ asked, HasTexts pinKeys r)
    (hrequests : vc.geocoding = asked.map requestOf) :
    ∃ vc' pins, run step vc (answers coordinates asked) = some vc' ∧ vc'.annotations = vc.annotations ++ pins ∧
      List.Forall₂ IsPin asked pins := by
  induction asked generalizing vc with
  | nil => exact ⟨vc, [], rfl, (List.append_nil _).symm, .nil⟩
  | cons record asked ih =>
    obtain ⟨hrecord, htexts⟩ := List.forall_mem_cons.1 htexts
    obtain ⟨pin, hpin, hstep⟩ :=
      completionHandler_placemark { vc with geocoding := asked.map requestOf } hrecord coordinates []
    obtain ⟨vc', pins, hrun, hannotations, hpins⟩ :=
      @ih { vc with geocoding := asked.map requestOf, annotations := vc.annotations ++ [pin] } htexts rfl
    refine ⟨vc', pin :: pins, ?_, by simpa using hannotations, .cons hpin hpins⟩
    rw [answers, List.map_cons, run_cons]
    simp only [step, hrequests, List.map_cons, List.getElem?_cons_zero, List.eraseIdx_cons_zero, hstep,
      Option.bind_some]
    exact hrun

/-- Every record of these snapshots has the texts of a pin. -/
def AllPinnable (snapshots : List DataSnapshot) : Prop :=
  ∀ snapshot ∈ snapshots, ∀ r ∈ snapshot.children, HasTexts pinKeys r

/-- After these deliveries, every record delivered has a pin. -/
theorem run_pinned (coordinates : CLLocationCoordinate2D) (htexts : AllPinnable delivered)
    (hlegible : AllLegible delivered) :
    ∃ es vc, deliveries es = delivered ∧ run step {} es = some vc ∧
      List.Forall₂ IsPin (recordsOf delivered) vc.annotations := by
  have hrecords : ∀ r ∈ recordsOf delivered, HasTexts pinKeys r := by
    intro r hr
    obtain ⟨s, hs, hr⟩ := List.mem_flatMap.1 hr
    exact htexts s hs r hr
  obtain ⟨vc₁, hvc₁, hannotations₁, hrequests⟩ : ∃ vc₁, run step {} (delivered.map .events) = some vc₁ ∧
      vc₁.annotations = [] ∧ vc₁.geocoding = (recordsOf delivered).map requestOf :=
    ⟨_, run_deliveries {} hlegible, rfl, List.nil_append _⟩
  obtain ⟨vc, pins, hrun, hannotations, hpins⟩ := run_answers coordinates hrecords hrequests
  refine ⟨delivered.map .events ++ answers coordinates (recordsOf delivered), vc, ?_, ?_, ?_⟩
  · exact deliveries_answers coordinates delivered _
  · exact run_append_some.2 ⟨vc₁, hvc₁, hrun⟩
  · rw [hannotations, hannotations₁]
    exact hpins

/-! ## Current pins -/

/-- The two records show the same on a pin. -/
def SameTexts (record record' : DataSnapshot) : Prop :=
  record.text "Title" = record'.text "Title" ∧ record.text "Date" = record'.text "Date" ∧
    record.text "Organization" = record'.text "Organization"

/-- Whatever the earlier snapshot shows on a pin, the later one shows too. -/
def Persists (earlier later : DataSnapshot) : Prop :=
  ∀ record ∈ earlier.children, ∃ record' ∈ later.children, SameTexts record record'

/-- The pin carries the title, date and organization of the record. -/
def Carries (pin : PinModel) (record : DataSnapshot) : Prop :=
  pin.titlePin = record.text "Title" ∧ some pin.datePin = record.text "Date" ∧
    some pin.organizationPin = record.text "Organization"

/-- Every pin carries the texts of a record of the snapshot delivered last, and no record has two pins. -/
def PinsCurrent (delivered : List DataSnapshot) (vc : EventsVC) : Prop :=
  (∀ pin ∈ vc.annotations, ∃ latest, delivered.getLast? = some latest ∧
    ∃ record ∈ latest.children, Carries pin.model record) ∧
  (vc.annotations.map (·.key)).Nodup

theorem SameTexts.refl (record : DataSnapshot) : SameTexts record record := ⟨rfl, rfl, rfl⟩

theorem Carries.of_sameTexts {pin : PinModel} {record record' : DataSnapshot} (h : Carries pin record)
    (hsame : SameTexts record record') : Carries pin record' :=
  ⟨h.1.trans hsame.1, h.2.1.trans hsame.2.1, h.2.2.trans hsame.2.2⟩

theorem sameTexts_of_carries {pin : PinModel} {record record' : DataSnapshot} (h : Carries pin record)
    (h' : Carries pin record') : SameTexts record record' :=
  ⟨h.1.symm.trans h'.1, h.2.1.symm.trans h'.2.1, h.2.2.symm.trans h'.2.2⟩

/-- What persists is in the last snapshot. -/
theorem exists_latest (hpersists : delivered.Pairwise Persists) {record : DataSnapshot}
    (hrecord : record ∈ recordsOf delivered) : ∃ latest, delivered.getLast? = some latest ∧
      ∃ record' ∈ latest.children, SameTexts record record' := by
  obtain ⟨snapshot, hsnapshot, hchild⟩ := List.mem_flatMap.1 hrecord
  rcases List.eq_nil_or_concat delivered with rfl | ⟨earlier, latest, rfl⟩
  · exact absurd hsnapshot List.not_mem_nil
  rw [List.concat_eq_append] at hsnapshot hpersists ⊢
  refine ⟨latest, List.getLast?_concat, ?_⟩
  rcases List.mem_append.1 hsnapshot with hearlier | hlatest
  · exact (List.pairwise_append.1 hpersists).2.2 snapshot hearlier latest (List.mem_singleton_self _) record hchild
  · rw [List.mem_singleton.1 hlatest] at hchild
    exact ⟨record, hchild, .refl record⟩

/-- The condition is enough. -/
theorem Traced.pinsCurrent (ht : Traced (recordsOf delivered) vc pinned asked)
    (hkeys : ((recordsOf delivered).map (·.key)).Nodup) (hpersists : delivered.Pairwise Persists) :
    PinsCurrent delivered vc := by
  constructor
  · intro pin hpin
    obtain ⟨record, hrecord, -, hcarries⟩ := ht.pins pin hpin
    have hdelivered := ht.subperm.subset (List.mem_append_left asked hrecord)
    obtain ⟨latest, hlatest, record', hrecord', hsame⟩ := exists_latest hpersists hdelivered
    exact ⟨latest, hlatest, record', hrecord', Carries.of_sameTexts hcarries hsame⟩
  · obtain ⟨l, hperm, hsub⟩ := ht.subperm
    have hl := (hperm.map (·.key)).nodup_iff.1 (hkeys.sublist (hsub.map _))
    rw [ht.keys]
    rw [List.map_append] at hl
    exact (List.nodup_append.1 hl).1

/-- A relation that every prefix has with its next element. -/
theorem pairwise_of_prefixes {α : Type} {R : α → α → Prop} {l : List α}
    (h : ∀ earlier later, earlier ++ [later] <+: l → ∀ a ∈ earlier, R a later) : l.Pairwise R := by
  induction l using List.reverseRecOn with
  | nil => exact .nil
  | append_singleton l b ih =>
    refine List.pairwise_append.2 ⟨ih fun earlier later hpre => ?_, List.pairwise_singleton _ _, ?_⟩
    · exact h earlier later (hpre.trans (List.prefix_append l [b]))
    · intro a ha b' hb
      rw [List.mem_singleton.1 hb]
      exact h l b List.prefix_rfl a ha

theorem keys_of_isPin {pins : List (Recorded PinModel)} (h : List.Forall₂ IsPin delivered pins) :
    pins.map (·.key) = delivered.map (·.key) := by
  induction h with
  | nil => rfl
  | cons hpin _ ih => rw [List.map_cons, List.map_cons, hpin.1, ih]

/-- Where every record has its pin, current pins say that nothing has been lost or repeated. -/
theorem PinsCurrent.texts (h : PinsCurrent delivered vc)
    (hpins : List.Forall₂ IsPin (recordsOf delivered) vc.annotations) :
    ((recordsOf delivered).map (·.key)).Nodup ∧ ∀ record ∈ recordsOf delivered,
      ∃ latest, delivered.getLast? = some latest ∧ ∃ record' ∈ latest.children, SameTexts record record' := by
  refine ⟨keys_of_isPin hpins ▸ h.2, fun record hrecord => ?_⟩
  obtain ⟨i, hi, rfl⟩ := List.mem_iff_getElem.1 hrecord
  have hpin := (List.forall₂_iff_get.1 hpins).2 i hi (hpins.length_eq ▸ hi)
  obtain ⟨latest, hlatest, record', hrecord', hcarries⟩ := h.1 _ (List.getElem_mem _)
  exact ⟨latest, hlatest, record', hrecord', sameTexts_of_carries hpin.2 hcarries⟩

/-- **Current pins.** The records having the texts of a pin: in every order of deliveries and answers the pins are
current throughout, exactly when no key is delivered twice and each snapshot's texts persist, up to the first snapshot
that cannot be read, which stops the controller. -/
theorem pins_current_iff (htexts : AllPinnable snapshots) :
    (∀ es vc, deliveries es <+: snapshots → run step {} es = some vc → PinsCurrent (deliveries es) vc) ↔
      ∀ delivered, delivered <+: snapshots → AllLegible delivered →
        ((recordsOf delivered).map (·.key)).Nodup ∧ delivered.Pairwise Persists := by
  constructor
  · intro h
    have hall : ∀ delivered, delivered <+: snapshots → AllLegible delivered →
        ((recordsOf delivered).map (·.key)).Nodup ∧ ∀ record ∈ recordsOf delivered,
          ∃ latest, delivered.getLast? = some latest ∧ ∃ record' ∈ latest.children, SameTexts record record' := by
      intro delivered hpre hlegible
      obtain ⟨es, vc, hes, hrun, hpins⟩ := run_pinned ⟨0, 0⟩ (fun s hs => htexts s (hpre.subset hs)) hlegible
      exact (hes ▸ h es vc (hes ▸ hpre) hrun : PinsCurrent delivered vc).texts hpins
    intro delivered hpre hlegible
    refine ⟨(hall delivered hpre hlegible).1, pairwise_of_prefixes fun earlier later hpre' s hs record hr => ?_⟩
    have hrecord : record ∈ recordsOf (earlier ++ [later]) :=
      List.mem_flatMap.2 ⟨s, List.mem_append_left _ hs, hr⟩
    obtain ⟨latest, hlatest, hsame⟩ :=
      (hall _ (hpre'.trans hpre) fun s hs => hlegible s (hpre'.subset hs)).2 record hrecord
    rw [List.getLast?_concat] at hlatest
    cases hlatest
    exact hsame
  · intro hcondition es vc hes hrun
    obtain ⟨pinned, asked, ht⟩ := traced_run hrun
    obtain ⟨hkeys, hpersists⟩ := hcondition _ hes (legible_of_run hrun)
    exact ht.pinsCurrent hkeys hpersists

theorem sampleEvents_pinnable (urls : List String) : AllPinnable (urls.map sampleEvents) := by
  intro snapshot hs record hr key hkey
  refine (sampleEvents_hasTexts snapshot hs).2 record hr key ?_
  exact (by decide : ∀ key ∈ pinKeys, key ∈ eventKeys) key hkey

/-- The sample, delivered once and found by the geocoder. -/
theorem pins_current_sample : ∃ vc, run step {} [.events (sampleEvents pictureA),
    .geocoded 0 (some [⟨some ⟨47, -122⟩⟩]) false] = some vc ∧ PinsCurrent [sampleEvents pictureA] vc := by
  have hcurrent := (pins_current_iff (sampleEvents_pinnable [pictureA])).2 fun delivered hpre _ => by
    have hsub : delivered.Sublist [sampleEvents pictureA] := hpre.sublist
    have hkeys : ((recordsOf [sampleEvents pictureA]).map (·.key)).Nodup := by decide
    exact ⟨hkeys.sublist ((hsub.flatMap children).map _), (List.pairwise_singleton _ _).sublist hsub⟩
  exact ⟨_, rfl, hcurrent [.events (sampleEvents pictureA), .geocoded 0 (some [⟨some ⟨47, -122⟩⟩]) false] _
    List.prefix_rfl rfl⟩

/-- The sample, delivered again with another picture, and then found twice by the geocoder: its record has two pins. -/
theorem pins_repeated :
    AllPinnable [sampleEvents pictureA, sampleEvents pictureB] ∧
    ∃ vc, run step {} [.events (sampleEvents pictureA), .events (sampleEvents pictureB),
        .geocoded 0 (some [⟨some ⟨47, -122⟩⟩]) false, .geocoded 0 (some [⟨some ⟨47, -122⟩⟩]) false] = some vc ∧
      vc.annotations.map (·.key) = ["k1", "k1"] ∧
      ¬ PinsCurrent [sampleEvents pictureA, sampleEvents pictureB] vc := by
  refine ⟨sampleEvents_pinnable [pictureA, pictureB], _, rfl, rfl, fun hcurrent => ?_⟩
  exact absurd hcurrent.2 (by decide)

end CareDirect.Events
