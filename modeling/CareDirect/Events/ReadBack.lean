import CareDirect.Events.AddEventVC
import CareDirect.Events.EventsVC
import Mathlib.Data.Set.Function

/-!
# Reading an event back

`AddEventVC` writes seven fields and `EventsVC` reads six of them: `Website` is required on the form and stored, and not
read. A submission can be read back exactly where its website follows from the rest of what is submitted
(`read_back_iff`).
-/

namespace CareDirect.Events

open Directory PartialRun DataSnapshot

/-- The model that a round of the loop of `EventsVC` adds to the list for the record. -/
def Decodes (record : DataSnapshot) (model : EventModel) : Prop :=
  ∀ vc : EventsVC, ∃ vc', vc.event record = some vc' ∧ vc'.eventsList = vc.eventsList ++ [model]

/-- The same texts have been entered. -/
def SameEntered (s t : Submission) : Prop :=
  s.title = t.title ∧ s.location = t.location ∧ s.website = t.website ∧ s.organization = t.organization ∧
    s.description = t.description ∧ s.date = t.date

/-- What has been submitted can be read back: the models determine the texts and the address of the picture, so that
submissions with different texts have different models. -/
structure ReadBack (vc : AddEventVC) (subs : List (Recorded Submission)) : Prop where
  recovers : ∃ recover : EventModel → Submission, ∀ s ∈ subs,
    ∃ record model, vc.record s.key = some record ∧ Decodes record model ∧ recover model = s.model
  distinguishes : ∀ s ∈ subs, ∀ t ∈ subs, ¬ SameEntered s.model t.model →
    ∀ record record' model model', vc.record s.key = some record → vc.record t.key = some record' →
      Decodes record model → Decodes record' model' → model ≠ model'

/-- The same texts, apart from the website, and the same picture. -/
def SameButWebsite (s t : Submission) : Prop :=
  s.title = t.title ∧ s.location = t.location ∧ s.date = t.date ∧ s.url = t.url ∧ s.organization = t.organization ∧
    s.description = t.description

instance (s t : Submission) : Decidable (SameButWebsite s t) :=
  inferInstanceAs (Decidable (_ ∧ _ ∧ _ ∧ _ ∧ _ ∧ _))

/-! ## The model of a submission -/

/-- What the decoder reads of a submission. -/
def Submission.shown (s : Submission) : EventModel :=
  .new (some s.title) (some s.location) (some s.date) (some s.organization) (some s.description) s.url

variable {vc vc' : AddEventVC} {s t : Submission} {subs : List (Recorded Submission)} {model : EventModel}
  {record : DataSnapshot}

theorem shown_eq_iff : s.shown = t.shown ↔ SameButWebsite s t := by
  simp only [Submission.shown, EventModel.new, EventModel.mk.injEq, Option.some.injEq, SameButWebsite]

theorem eventOf_fields (key : String) (s : Submission) : eventOf ⟨key, .object s.fields⟩ = s.shown := by
  obtain ⟨title, location, website, organization, description, date, url⟩ := s
  cases url <;> rfl

theorem legible_fields (key : String) (s : Submission) : Legible ⟨key, .object s.fields⟩ := by
  refine ⟨textFields_object fun f hf _ => ?_, s.location, rfl⟩
  rcases List.mem_append.1 hf with hf | hf
  · simp only [List.mem_cons, List.not_mem_nil, or_false] at hf
    rcases hf with rfl | rfl | rfl | rfl | rfl | rfl <;> exact ⟨_, rfl⟩
  · obtain ⟨url, -, rfl⟩ := Option.map_eq_some_iff.1 (Option.mem_toList.1 hf)
    exact ⟨url, rfl⟩

/-- Any other model is not decoded. -/
theorem decodes_iff (h : Legible record) : Decodes record model ↔ model = eventOf record := by
  constructor
  · intro hdecodes
    obtain ⟨vc', hvc', hlist⟩ := hdecodes {}
    rw [event_eq h, Option.some.injEq] at hvc'
    rw [← hvc'] at hlist
    exact (List.cons_eq_cons.1 hlist).1.symm
  · rintro rfl vc
    exact ⟨_, event_eq h, rfl⟩

theorem Stored.record_eq (h : Stored subs vc) {s : Recorded Submission} (hs : s ∈ subs) :
    vc.record s.key = some ⟨s.key, .object s.model.fields⟩ := by
  rw [AddEventVC.record, h s hs, Option.map_some]

/-- The record of a submission is decoded to what is shown of it. -/
theorem Stored.decodes_iff (h : Stored subs vc) {s : Recorded Submission} (hs : s ∈ subs)
    (hrecord : vc.record s.key = some record) : Decodes record model ↔ model = s.model.shown := by
  rw [h.record_eq hs, Option.some.injEq] at hrecord
  rw [← hrecord, Events.decodes_iff (legible_fields _ _), eventOf_fields]

/-! ## Reading back -/

/-- Where the website follows from the rest, what is shown determines a submission. -/
theorem shown_injOn
    (h : ∀ s ∈ subs, ∀ t ∈ subs, SameButWebsite s.model t.model → s.model.website = t.model.website) :
    Set.InjOn Submission.shown {s | ∃ r ∈ subs, r.model = s} := by
  rintro _ ⟨s, hs, rfl⟩ _ ⟨t, ht, rfl⟩ hshown
  have hsame := shown_eq_iff.1 hshown
  have hwebsite := h s hs t ht hsame
  obtain ⟨htitle, hlocation, hdate, hurl, horganization, hdescription⟩ := hsame
  exact Submission.ext htitle hlocation hwebsite horganization hdescription hdate hurl

/-- Where the records are stored, reading back is a matter of what is shown. -/
theorem Stored.readBack_iff (h : Stored subs vc) : ReadBack vc subs ↔
    ∀ s ∈ subs, ∀ t ∈ subs, SameButWebsite s.model t.model → s.model.website = t.model.website := by
  constructor
  · rintro ⟨⟨recover, hrecover⟩, -⟩ s hs t ht hsame
    obtain ⟨record, model, hrecord, hmodel, hsmodel⟩ := hrecover s hs
    obtain ⟨record', model', hrecord', hmodel', htmodel⟩ := hrecover t ht
    rw [h.decodes_iff hs hrecord] at hmodel
    rw [h.decodes_iff ht hrecord', ← shown_eq_iff.2 hsame, ← hmodel] at hmodel'
    rw [← hsmodel, ← htmodel, hmodel']
  · intro hwebsite
    have hinj := shown_injOn hwebsite
    constructor
    · have : Nonempty Submission := ⟨⟨"", "", "", "", "", "", none⟩⟩
      refine ⟨Function.invFunOn Submission.shown {s | ∃ r ∈ subs, r.model = s}, fun s hs => ?_⟩
      refine ⟨_, s.model.shown, h.record_eq hs, (h.decodes_iff hs (h.record_eq hs)).2 rfl, ?_⟩
      exact hinj.leftInvOn_invFunOn ⟨s, hs, rfl⟩
    · intro s hs t ht hdiffer record record' model model' hrecord hrecord' hmodel hmodel' heq
      rw [h.decodes_iff hs hrecord] at hmodel
      rw [h.decodes_iff ht hrecord'] at hmodel'
      have hst : s.model = t.model := hinj ⟨s, hs, rfl⟩ ⟨t, ht, rfl⟩ (hmodel.symm.trans (heq.trans hmodel'))
      exact hdiffer (hst ▸ ⟨rfl, rfl, rfl, rfl, rfl, rfl⟩)

/-- **Which submissions can be read back.** After any run of taps and uploads, whatever was in the node before: every
field and address can be recovered from the models exactly when no two submissions differ in their website alone. -/
theorem read_back_iff {actions : List AddEventVC.Action} (hkeys : ((submissions actions).map (·.key)).Nodup)
    (h : run AddEventVC.step vc actions = some vc') : ReadBack vc' (submissions actions) ↔
      ∀ s ∈ submissions actions, ∀ t ∈ submissions actions,
        SameButWebsite s.model t.model → s.model.website = t.model.website :=
  (stored_run hkeys h).readBack_iff

/-- A form with this title and website, and a picture. -/
def sampleForm (title website : String) : EventForm where
  titleEventTF := title
  locationEventTF := "Seattle"
  websiteTF := website
  organizationEvent := "CareDirect"
  descriptionEventTF := "In the park"
  dateEvent := "May 6, 2018, 1:00 PM"
  imageView := some ⟨some [137, 80, 78, 71]⟩

/-- Two events on different websites, the picture of the first stored. -/
theorem read_back_sample : ∃ vc, run AddEventVC.step {} [.addEventTapped (sampleForm "Walk" "https://a") "k1",
      .addEventTapped (sampleForm "Talk" "https://b") "k2", .uploaded "k2" none true,
      .uploaded "k1" (some ⟨some pictureA⟩) false] = some vc ∧
    ReadBack vc [⟨"k1", { (sampleForm "Walk" "https://a").submission with url := some pictureA }⟩,
      ⟨"k2", (sampleForm "Talk" "https://b").submission⟩] :=
  ⟨_, rfl, (@read_back_iff {} _ [.addEventTapped (sampleForm "Walk" "https://a") "k1",
    .addEventTapped (sampleForm "Talk" "https://b") "k2", .uploaded "k2" none true,
    .uploaded "k1" (some ⟨some pictureA⟩) false] (by decide) rfl).2 (by decide)⟩

/-- Two events that differ in their website, no picture stored: both are decoded to one model. -/
theorem read_back_fails : (sampleForm "Walk" "https://a").Filled ∧ (sampleForm "Walk" "https://b").Filled ∧
    ¬ SameEntered (sampleForm "Walk" "https://a").submission (sampleForm "Walk" "https://b").submission ∧
    ∃ vc record record' model, run AddEventVC.step {} [.addEventTapped (sampleForm "Walk" "https://a") "k1",
        .addEventTapped (sampleForm "Walk" "https://b") "k2", .uploaded "k1" none true, .uploaded "k2" none true] =
          some vc ∧
      vc.record "k1" = some record ∧ vc.record "k2" = some record' ∧ Decodes record model ∧ Decodes record' model ∧
      ¬ ReadBack vc [⟨"k1", (sampleForm "Walk" "https://a").submission⟩,
        ⟨"k2", (sampleForm "Walk" "https://b").submission⟩] := by
  have hdiffer : ¬ SameEntered (sampleForm "Walk" "https://a").submission (sampleForm "Walk" "https://b").submission :=
    fun h => absurd h.2.2.1 (by decide)
  have hdecodes := fun (key : String) (form : EventForm) =>
    (decodes_iff (legible_fields key form.submission)).2 (eventOf_fields key form.submission).symm
  refine ⟨by decide, by decide, hdiffer, _, _, _, _, rfl, rfl, rfl, hdecodes "k1" (sampleForm "Walk" "https://a"),
    hdecodes "k2" (sampleForm "Walk" "https://b"), fun h => ?_⟩
  exact h.distinguishes _ List.mem_cons_self _ (List.mem_cons_of_mem _ List.mem_cons_self) hdiffer _ _ _ _ rfl rfl
    (hdecodes "k1" (sampleForm "Walk" "https://a")) (hdecodes "k2" (sampleForm "Walk" "https://b")) rfl

end CareDirect.Events
