import CareDirect.Cells.Live
import CareDirect.Directory.Dialling

/-!
# Calling a trainer from a cell

A tap in `TrainingVC` dials the number in the phone label of the cell, while the list changes with every snapshot. From
the node to the phone: at every moment a tap on a row on screen dials the stripped phone text of the record in this place
of the last snapshot that had records, and whatever has been dialled was the number of a trainer in the list of its
moment (`calls_run`).
-/

namespace CareDirect.Cells

open Directory PartialRun

/-- The controller with its table, and the addresses opened. -/
structure TrainingScreen where
  live : Live Directory.TrainingVC TrainerLabels := { vc := {} }
  opened : List String := []

namespace TrainingScreen

inductive Event
  | live (e : LiveEvent DataSnapshot)
  /-- A tap on a row on screen. -/
  | tap (row : ℕ)

/-- The end of `tableView(_:didSelectRowAt:)`, from the text of the label; `none` is a trap. -/
def dial (foundation : Directory.Foundation) (phone : Option String) : Option String := do
  let siteString ← phone
  let url := "TEL://" ++ Directory.TrainingVC.strippedNumber foundation siteString
  if foundation.isURL url then some url else none

/-- `tableView(_:didSelectRowAt:)`; a cell that is not there is a trap. -/
def didSelectRowAt (foundation : Directory.Foundation) (s : TrainingScreen) (row : ℕ) : Option TrainingScreen := do
  let resourceCell ← s.live.table.cellForRow row
  let url ← dial foundation (resourceCell.labels.bind TrainerLabels.lblPhone)
  some { s with opened := s.opened ++ [url] }

def step (storage : Storage) (foundation : Directory.Foundation) (s : TrainingScreen) : Event → Option TrainingScreen
  | .live e => (Live.step (TrainingVC.controller storage) s.live e).map fun live => { s with live }
  | .tap row => s.didSelectRowAt foundation row

def Event.toLive : Event → Option (LiveEvent DataSnapshot)
  | .live e => some e
  | .tap _ => none

/-- The snapshots that have been delivered. -/
def snapshots (es : List Event) : List DataSnapshot := (es.filterMap Event.toLive).filterMap LiveEvent.toCall

variable {storage : Storage} {foundation : Directory.Foundation} {s t : TrainingScreen} {e : Event} {es : List Event}
  {row : ℕ} {url : String}

/-! ## Steps -/

theorem step_live (h : s.step storage foundation e = some t) : e.toLive = none ∧ t.live = s.live ∨
    ∃ e', e.toLive = some e' ∧ Live.step (TrainingVC.controller storage) s.live e' = some t.live := by
  cases e with
  | live e =>
    obtain ⟨live, hlive, rfl⟩ := Option.map_eq_some_iff.1 h
    exact .inr ⟨e, rfl, hlive⟩
  | tap row =>
    simp only [step, didSelectRowAt, Option.bind_eq_bind, Option.bind_eq_some_iff] at h
    obtain ⟨_, -, _, -, h⟩ := h
    cases h
    exact .inl ⟨rfl, rfl⟩

theorem run_live (h : run (step storage foundation) {} es = some s) :
    run (Live.step (TrainingVC.controller storage)) { vc := {} } (es.filterMap Event.toLive) = some s.live :=
  run_view TrainingScreen.live Event.toLive (fun _ _ _ he => step_live he) h

/-- The list is that of the last snapshot with records. -/
theorem trainers_run (h : run (step storage foundation) {} es = some s) (ht : WellTyped trainerKeys (snapshots es)) :
    s.live.vc.trainers = (lastChildren (snapshots es)).map trainerOf := by
  have hvc : run Directory.TrainingVC.observerBlock {} (snapshots es) = some s.live.vc := Live.run_vc (run_live h)
  rw [Option.some.inj (hvc.symm.trans (TrainingVC.run_eq ht))]

/-- A tap dials the number of the record, whatever cell shows it. -/
theorem tap_eq (h : run (step storage foundation) {} es = some s) (ht : WellTyped trainerKeys (snapshots es))
    (hcell : (s.live.table.cellForRow row).isSome = true) : ∃ record, (lastChildren (snapshots es))[row]? = some record ∧
      s.step storage foundation (.tap row) =
        (dial foundation (record.text "Phone")).map fun url => { s with opened := s.opened ++ [url] } := by
  obtain ⟨trainer, cell, htrainer, hfound, hlabels⟩ := (labelled_run (run_live h)).cellForRow hcell
  have hrow : s.live.vc.trainers[row]? = some trainer := htrainer
  rw [trainers_run h ht, List.getElem?_map] at hrow
  obtain ⟨record, hrecord, rfl⟩ := Option.map_eq_some_iff.1 hrow
  refine ⟨record, hrecord, ?_⟩
  simp only [step, didSelectRowAt, hfound, hlabels, Option.bind_eq_bind, Option.bind_some]
  change (dial foundation (record.text "Phone")).bind _ = _
  cases dial foundation (record.text "Phone") with
  | none => rfl
  | some url => rfl

/-- What a tap that does not trap opens. -/
theorem tap_some (h : s.step storage foundation (.tap row) = some t) : (s.live.table.cellForRow row).isSome = true := by
  obtain ⟨cell, hcell, -⟩ := Option.bind_eq_some_iff.1 h
  exact Option.isSome_iff_exists.2 ⟨cell, hcell⟩

/-! ## Runs -/

/-- The number was dialled by a tap, and was that of the record in the tapped row at that moment. -/
def Dialled (foundation : Directory.Foundation) (es : List Event) (url : String) : Prop :=
  ∃ p row record, p ++ [.tap row] <+: es ∧ (lastChildren (snapshots p))[row]? = some record ∧
    dial foundation (record.text "Phone") = some url

theorem snapshots_mono {p : List Event} (h : p <+: es) : snapshots p <+: snapshots es :=
  (h.filterMap _).filterMap _

theorem opened_run (h : run (step storage foundation) {} es = some s) (ht : WellTyped trainerKeys (snapshots es)) :
    ∀ url ∈ s.opened, Dialled foundation es url := by
  refine run_induction (I := fun p u => WellTyped trainerKeys (snapshots p) → ∀ url ∈ u.opened, Dialled foundation p url)
    (fun _ => List.forall_mem_nil _) ?_ es h ht
  intro p u e v hp hu he ht url hurl
  have hprefix : p <+: p ++ [e] := List.prefix_append p [e]
  have htp : WellTyped trainerKeys (snapshots p) := fun snapshot hs => ht snapshot ((snapshots_mono hprefix).subset hs)
  have hold : url ∈ u.opened → Dialled foundation (p ++ [e]) url := fun hmem => by
    obtain ⟨q, row, record, hq, hrecord⟩ := hu htp url hmem
    exact ⟨q, row, record, hq.trans hprefix, hrecord⟩
  cases e with
  | live e =>
    obtain ⟨live, -, rfl⟩ := Option.map_eq_some_iff.1 he
    exact hold hurl
  | tap row =>
    obtain ⟨record, hrecord, htap⟩ := tap_eq hp htp (tap_some he)
    rw [he] at htap
    obtain ⟨url', hdial, rfl⟩ := Option.map_eq_some_iff.1 htap.symm
    rcases List.mem_append.1 hurl with hmem | hmem
    · exact hold hmem
    · cases List.mem_singleton.1 hmem
      exact ⟨p, row, record, List.prefix_rfl, hrecord, hdial⟩

/-- **Calls.** In every order of snapshots with text fields, requests for cells, downloads and taps: a tap on a row on
screen dials the stripped phone text of the record in this place of the last snapshot that had records, or traps where
there is no such text or it is no address; and every number dialled so far was dialled by a tap, as that of the record in
the tapped row at that moment, of whose ASCII digits none is lost. -/
theorem calls_run (h : run (step storage foundation) {} es = some s) (ht : WellTyped trainerKeys (snapshots es)) :
    (∀ row, (s.live.table.cellForRow row).isSome = true → ∃ record, (lastChildren (snapshots es))[row]? = some record ∧
      s.step storage foundation (.tap row) =
        (dial foundation (record.text "Phone")).map fun url => { s with opened := s.opened ++ [url] }) ∧
    ∀ url ∈ s.opened, ∃ p row record text, p ++ [.tap row] <+: es ∧
      (lastChildren (snapshots p))[row]? = some record ∧ record.text "Phone" = some text ∧
      dial foundation (some text) = some url ∧ (text.toList.filter Char.isDigit).Sublist url.toList := by
  refine ⟨fun row hcell => tap_eq h ht hcell, fun url hurl => ?_⟩
  obtain ⟨p, row, record, hp, hrecord, hdial⟩ := opened_run h ht url hurl
  obtain ⟨text, htext, hurl⟩ := Option.bind_eq_some_iff.1 hdial
  refine ⟨p, row, record, text, hp, hrecord, htext, htext ▸ hdial, ?_⟩
  simp only at hurl
  split at hurl
  · cases hurl
    rw [String.toList_append]
    exact TrainingVC.digits_kept.trans (List.sublist_append_right _ _)
  · cases hurl

/-- A trainer is delivered, displayed and called. -/
def sampleCalls : List Event :=
  [.live (.call ⟨"trainers", .object [("t1", .object [("Name", .string "Ann"), ("Phone", .string "206-383-2319")])]⟩),
    .live (.table (.cellForRowAt 0 none)), .tap 0]

theorem calls_run_sample : ∃ s, run (step sampleStorage Directory.sampleFoundation) {} sampleCalls = some s ∧
    s.opened = ["TEL://2063832319"] ∧ ∀ url ∈ s.opened, ∃ p row record, p ++ [.tap row] <+: sampleCalls ∧
      (lastChildren (snapshots p))[row]? = some record ∧
      dial Directory.sampleFoundation (record.text "Phone") = some url := by
  have htext : WellTyped trainerKeys (snapshots sampleCalls) := by
    intro snapshot hs record hr
    cases List.mem_singleton.1 hs
    cases List.mem_singleton.1 hr
    decide
  obtain ⟨s, hrun, hopened⟩ : ∃ s, run (step sampleStorage Directory.sampleFoundation) {} sampleCalls = some s ∧
      s.opened = ["TEL://2063832319"] := ⟨_, rfl, by decide⟩
  refine ⟨s, hrun, hopened, fun url hurl => ?_⟩
  obtain ⟨p, row, record, text, hp, hrecord, hphone, hdial, -⟩ := (calls_run hrun htext).2 url hurl
  exact ⟨p, row, record, hp, hrecord, hphone ▸ hdial⟩

end TrainingScreen

end CareDirect.Cells
