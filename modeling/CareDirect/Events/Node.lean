import CareDirect.Events.AddEventVC

/-!
# The node that the form writes

Starting from an empty node, the form's calls leave in it exactly what they have submitted, in the order of the
submissions (`node_run`). A query of the node gives its children in the order of their keys (`listing`), so that its value
is a function of the submissions (`Node.value`).
-/

namespace CareDirect.Events

open PartialRun Dictionary

/-- The records in the order of a query, which is that of the keys. -/
def listing (submissions : List (Recorded Submission)) : List (Recorded Submission) :=
  submissions.mergeSort fun a b => decide (a.key ≤ b.key)

/-- The value of the node. -/
def AddEventVC.value (vc : AddEventVC) : DataSnapshot :=
  ⟨"events", .object ((vc.refEvents.mergeSort fun a b => decide (a.1 ≤ b.1)).map fun r => (r.1, .object r.2))⟩

def entry (s : Recorded Submission) : String × List (String × Json) := (s.key, s.model.fields)

def recordOf (s : Recorded Submission) : DataSnapshot := ⟨s.key, .object s.model.fields⟩

/-- The node holds what has been submitted, and what is being uploaded is a picture of it. -/
structure Node (subs : List (Recorded Submission)) (vc : AddEventVC) : Prop where
  entries : vc.refEvents = subs.map entry
  uploads : ∀ u ∈ vc.uploads, u.key ∈ subs.map (·.key)

variable {vc vc' : AddEventVC} {subs : List (Recorded Submission)} {action : AddEventVC.Action}
  {ws : List AddEventVC.Action}

theorem keys_entry (subs : List (Recorded Submission)) : (subs.map entry).map Prod.fst = subs.map (·.key) := by
  rw [List.map_map]
  rfl

/-- What a call does to the uploads. -/
theorem uploads_step (h : AddEventVC.step vc action = some vc') :
    (∀ u ∈ vc'.uploads, u ∈ vc.uploads ∨ ∃ form, action = .addEventTapped form u.key ∧ form.Filled) ∧
      ∀ key metaData error, action = .uploaded key metaData error → ∃ u ∈ vc.uploads, u.key = key := by
  cases action with
  | addEventTapped form key =>
    refine ⟨fun u hu => ?_, fun key metaData error h => by cases h⟩
    by_cases hfilled : form.Filled
    · have hadd := (addEventTapped_filled hfilled).symm.trans h
      simp only [AddEventVC.addEvent, Option.bind_eq_bind, Option.bind_eq_some_iff] at hadd
      obtain ⟨image, -, data, -, hadd⟩ := hadd
      cases hadd
      rcases List.mem_append.1 hu with hu | hu
      · exact .inl hu
      · rw [List.mem_singleton.1 hu]
        exact .inr ⟨form, rfl, hfilled⟩
    · cases (addEventTapped_unfilled hfilled).symm.trans h
      exact .inl hu
  | uploaded key metaData error =>
    obtain ⟨upload, hupload, h⟩ := Option.bind_eq_some_iff.1 h
    refine ⟨fun u hu => .inl ?_, fun key' metaData' error' he => ?_⟩
    · have hsame : vc'.uploads = vc.uploads.eraseP (·.key = key) := by
        cases error with
        | true =>
          cases h
          rfl
        | false =>
          obtain ⟨_, -, h⟩ := Option.bind_eq_some_iff.1 h
          obtain ⟨_, -, h⟩ := Option.bind_eq_some_iff.1 h
          cases h
          rfl
      rw [hsame] at hu
      exact List.mem_of_mem_eraseP hu
    · cases he
      exact ⟨upload, List.mem_of_find?_eq_some hupload, by simpa using List.find?_some hupload⟩

/-- One call writes to the node what it submits. -/
theorem Node.step (hn : Node subs vc) (h : AddEventVC.step vc action = some vc')
    (hkeys : ((submit subs action).map (·.key)).Nodup) : Node (submit subs action) vc' := by
  obtain ⟨huploads, hkey⟩ := uploads_step h
  constructor
  · rcases step_cases h with ⟨form, key, rfl, hfilled, hnode⟩ | ⟨key, url, rfl, hnode⟩ | ⟨hsubs, hnode⟩
    · have hsubmit : submit subs (.addEventTapped form key) = subs ++ [⟨key, form.submission⟩] := if_pos hfilled
      rw [hsubmit] at hkeys ⊢
      rw [List.map_append] at hkeys
      have hnew : key ∉ (subs.map entry).map Prod.fst := by
        rw [keys_entry]
        exact fun hmem => (List.nodup_append.1 hkeys).2.2 key hmem key (List.mem_singleton_self key) rfl
      rw [hnode, hn.entries, setValue_of_notMem hnew, List.map_append]
      rfl
    · have hold : (subs.map (·.key)).Nodup := hkeys.sublist (keys_submit subs _).sublist
      obtain ⟨u, hu, rfl⟩ := hkey key _ _ rfl
      have hmem : u.key ∈ (subs.map entry).map Prod.fst := by
        rw [keys_entry]
        exact hn.uploads u hu
      rw [hnode, AddEventVC.setURL, hn.entries, setValue_of_mem (by rwa [keys_entry]) hmem, List.map_map]
      refine (List.map_congr_left fun s hs => ?_).trans (List.map_map).symm
      simp only [Function.comp_apply]
      by_cases hs' : s.key = u.key
      · have hlookup : (subs.map entry).lookup u.key = some s.model.fields :=
          lookup_of_mem (by rwa [keys_entry]) (hs' ▸ List.mem_map_of_mem hs)
        rw [if_pos hs', if_pos (show (entry s).1 = u.key from hs'), hlookup, Option.getD_some, fields_setValue]
        exact congrArg (·, _) hs'.symm
      · rw [if_neg hs', if_neg (show ¬(entry s).1 = u.key from hs')]
    · rw [hsubs, hnode, hn.entries]
  · intro u hu
    have hsub := (keys_submit subs action).subset
    rcases huploads u hu with hold | ⟨form, rfl, hfilled⟩
    · exact hsub (hn.uploads u hold)
    · rw [submit, if_pos hfilled, List.map_append]
      exact List.mem_append_right _ (List.mem_singleton_self _)

/-- **The node is what has been submitted**, in the order of the submissions. -/
theorem node_run (hkeys : ((submissions ws).map (·.key)).Nodup) (h : run AddEventVC.step {} ws = some vc) :
    Node (submissions ws) vc := by
  refine run_induction (I := fun p u => ((submissions p).map (·.key)).Nodup → Node (submissions p) u)
    (fun _ => ⟨rfl, List.forall_mem_nil _⟩) ?_ ws h hkeys
  intro p u action v _ hu hstep hkeys
  rw [submissions_snoc] at hkeys ⊢
  exact (hu (hkeys.sublist (keys_submit _ action).sublist)).step hstep hkeys

/-- The value that the node has after these submissions. -/
def valueOf (subs : List (Recorded Submission)) : DataSnapshot :=
  ⟨"events", .object ((listing subs).map fun s => (s.key, .object s.model.fields))⟩

theorem Node.value (hn : Node subs vc) : vc.value = valueOf subs := by
  have hsort : (subs.map entry).mergeSort (fun a b => decide (a.1 ≤ b.1)) = (listing subs).map entry :=
    (List.map_mergeSort (f := entry) fun _ _ _ _ => rfl).symm
  rw [AddEventVC.value, hn.entries, hsort, List.map_map]
  rfl

theorem children_valueOf (subs : List (Recorded Submission)) : (valueOf subs).children = (listing subs).map recordOf := by
  change List.map _ (List.map _ (listing subs)) = _
  rw [List.map_map]
  rfl

theorem mem_listing {s : Recorded Submission} : s ∈ listing subs ↔ s ∈ subs := List.mem_mergeSort

end CareDirect.Events
