import CareDirect.Lib.Spawning
import CareDirect.Results.Observers
import CareDirect.Screener.Coherence

/-!
# The screener and the results screens it opens

Every segue of `QuestionVC` creates a `ScreenerResultsVC` with the array of that moment. A screen that has been left
stays alive through its observers, and the same questionnaire can open another one. So the screener and its screens are a
main system with instances (`Spawning`), and no screen sees what the screener attaches afterwards, or what another
screen is called with (`compass_run`).

On a screen, rows are displayed and tapped while the observers go on adding to `arrayOfResourceArrays`. The array only
grows, so a row keeps its record, and a tap opens the website of the record that the row has shown (`taps_run`).
-/

namespace CareDirect.Results

open PartialRun ScreenerResultsVC

/-! ## A results screen -/

/-- The controller, and what has been displayed and opened. -/
structure ResultsScreen where
  vc : ScreenerResultsVC
  /-- The cells made so far: section, row and text. -/
  cells : List (ℕ × ℕ × Option String) := []
  /-- The websites opened so far. -/
  sites : List String := []

namespace ResultsScreen

inductive Event
  /-- Firebase calls the `i`-th block. -/
  | services (i : ℕ) (snapshot : DataSnapshot)
  | cellForRowAt (sectionIndex row : ℕ)
  | didSelectRowAt (sectionIndex row : ℕ)

/-- `tableView(_:didSelectRowAt:)`; `isURL` says which strings `URL(string:)` accepts. -/
def didSelectRowAt (isURL : String → Bool) (s : ResultsScreen) (sectionIndex row : ℕ) : Option ResultsScreen := do
  let thisRes ← s.vc.thisResource sectionIndex row
  let siteString ← thisRes.website
  if isURL siteString then some { s with sites := s.sites ++ [siteString] } else none

def step (isURL : String → Bool) (s : ResultsScreen) : Event → Option ResultsScreen
  | .services i snapshot => do
    let vc ← ScreenerResultsVC.step s.vc (i, snapshot)
    some { s with vc }
  | .cellForRowAt sectionIndex row => do
    let text ← s.vc.cellForRowAt sectionIndex row
    some { s with cells := s.cells ++ [(sectionIndex, row, text)] }
  | .didSelectRowAt sectionIndex row => s.didSelectRowAt isURL sectionIndex row

/-- The screen after `viewDidLoad`. -/
def opened (cats : List String) : ResultsScreen := { vc := ScreenerResultsVC.opened cats }

/-- The calls of the blocks. -/
def Event.call : Event → Option (ℕ × DataSnapshot)
  | .services i snapshot => some (i, snapshot)
  | _ => none

variable {isURL : String → Bool} {s t : ResultsScreen} {es : List Event} {e : Event} {cats : List String}

/-- What one event does to the controller. -/
theorem step_vc (h : s.step isURL e = some t) :
    e.call = none ∧ t.vc = s.vc ∨ ∃ call, e.call = some call ∧ ScreenerResultsVC.step s.vc call = some t.vc := by
  cases e with
  | services i snapshot =>
    obtain ⟨vc, hvc, h⟩ := Option.bind_eq_some_iff.1 h
    cases h
    exact .inr ⟨_, rfl, hvc⟩
  | cellForRowAt sectionIndex row =>
    obtain ⟨text, -, h⟩ := Option.bind_eq_some_iff.1 h
    cases h
    exact .inl ⟨rfl, rfl⟩
  | didSelectRowAt sectionIndex row =>
    obtain ⟨res, -, h⟩ := Option.bind_eq_some_iff.1 h
    obtain ⟨site, -, h⟩ := Option.bind_eq_some_iff.1 h
    split at h
    · cases h
      exact .inl ⟨rfl, rfl⟩
    · cases h

/-- The controller runs on the calls of its blocks alone. -/
theorem run_vc (h : run (step isURL) s es = some t) :
    run ScreenerResultsVC.step s.vc (es.filterMap Event.call) = some t.vc :=
  run_view ResultsScreen.vc Event.call (fun _ _ _ he => step_vc he) h

/-! ## Rows stay -/

/-- A call adds arrays behind those that are there. -/
theorem arrays_step {vc vc' : ScreenerResultsVC} {call : ℕ × DataSnapshot}
    (h : ScreenerResultsVC.step vc call = some vc') : vc.arrayOfResourceArrays <+: vc'.arrayOfResourceArrays := by
  unfold ScreenerResultsVC.step at h
  simp only [Option.bind_eq_bind, Option.bind_eq_some_iff] at h
  obtain ⟨observer, -, ⟨observer', pushed⟩, hblock, he⟩ := h
  cases he
  obtain ⟨-, rfl⟩ := observerBlock_some hblock
  exact List.prefix_append _ _

theorem arrays_run {vc vc' : ScreenerResultsVC} {calls : List (ℕ × DataSnapshot)}
    (h : run ScreenerResultsVC.step vc calls = some vc') : vc.arrayOfResourceArrays <+: vc'.arrayOfResourceArrays :=
  run_rel (R := fun u v => u.arrayOfResourceArrays <+: v.arrayOfResourceArrays) (fun _ => List.prefix_rfl)
    (fun _ _ _ => List.IsPrefix.trans) (fun _ _ _ => arrays_step) h

/-- A row that is there keeps its record. -/
theorem thisResource_run (h : run (step isURL) s es = some t) {sectionIndex row : ℕ} {res : ResourcesModel}
    (hres : s.vc.thisResource sectionIndex row = some res) : t.vc.thisResource sectionIndex row = some res := by
  obtain ⟨array, harray, hrow⟩ := Option.bind_eq_some_iff.1 hres
  obtain ⟨new, hnew⟩ := arrays_run (run_vc h)
  have hold : t.vc.arrayOfResourceArrays[sectionIndex]? = some array := by
    rw [← hnew, List.getElem?_append_left (List.getElem?_eq_some_iff.1 harray).1, harray]
  exact Option.bind_eq_some_iff.2 ⟨array, hold, hrow⟩

/-- Every cell has the name of the record in its row. -/
def Truthful (s : ResultsScreen) : Prop :=
  ∀ sectionIndex row text, (sectionIndex, row, text) ∈ s.cells →
    ∃ res, s.vc.thisResource sectionIndex row = some res ∧ res.name = text

theorem Truthful.step (hs : s.Truthful) (h : s.step isURL e = some t) : t.Truthful := by
  have hkeep : ∀ sectionIndex row res, s.vc.thisResource sectionIndex row = some res →
      t.vc.thisResource sectionIndex row = some res := by
    have hrun : run (ResultsScreen.step isURL) s [e] = some t := by rw [run_cons, h, Option.bind_some, run_nil]
    exact fun _ _ _ hres => thisResource_run hrun hres
  have hold : ∀ sectionIndex row text, (sectionIndex, row, text) ∈ s.cells →
      ∃ res, t.vc.thisResource sectionIndex row = some res ∧ res.name = text := by
    intro sectionIndex row text hcell
    obtain ⟨res, hres, hname⟩ := hs sectionIndex row text hcell
    exact ⟨res, hkeep _ _ _ hres, hname⟩
  cases e with
  | services i snapshot =>
    obtain ⟨vc, hvc, h⟩ := Option.bind_eq_some_iff.1 h
    cases h
    exact hold
  | cellForRowAt sectionIndex row =>
    obtain ⟨text, htext, h⟩ := Option.bind_eq_some_iff.1 h
    cases h
    intro sectionIndex' row' text' hcell
    rcases List.mem_append.1 hcell with hcell | hcell
    · exact hold sectionIndex' row' text' hcell
    · cases List.mem_singleton.1 hcell
      exact Option.map_eq_some_iff.1 htext
  | didSelectRowAt sectionIndex row =>
    obtain ⟨res, -, h⟩ := Option.bind_eq_some_iff.1 h
    obtain ⟨site, -, h⟩ := Option.bind_eq_some_iff.1 h
    split at h
    · cases h
      exact hold
    · cases h

/-- **A tap opens what is shown.** Once a row has been displayed there is one record for it: its name is the text of the
cell and, whatever the observers add before the tap, a tap opens its website; the program stops exactly where that is
missing or no URL. -/
theorem taps_run (h : run (step isURL) (opened cats) es = some s) {sectionIndex row : ℕ} {text : Option String}
    (hcell : (sectionIndex, row, text) ∈ s.cells) :
    ∃ res : ResourcesModel, res.name = text ∧ ∀ es' t, run (step isURL) s es' = some t →
      t.step isURL (.didSelectRowAt sectionIndex row) =
        match res.website with
        | some site => if isURL site then some { t with sites := t.sites ++ [site] } else none
        | none => none := by
  have hempty : (opened cats).Truthful := fun _ _ _ hcell => absurd hcell List.not_mem_nil
  have htruthful : s.Truthful := run_invariant hempty (fun _ _ _ hu he => hu.step he) h
  obtain ⟨res, hres, hname⟩ := htruthful sectionIndex row text hcell
  refine ⟨res, hname, fun es' t ht => ?_⟩
  have hlater := thisResource_run ht hres
  simp only [step, didSelectRowAt, hlater, Option.bind_eq_bind, Option.bind_some]
  cases res.website <;> rfl

/-- The sample, its one resource for housing displayed. -/
theorem taps_run_sample : ∃ s, run (step fun _ => true) (opened ["Housing"])
      [.services 0 sampleServices, .cellForRowAt 0 0] = some s ∧
    ∃ res : ResourcesModel, res.name = some "Shelter" ∧ ∀ es' t, run (step fun _ => true) s es' = some t →
      t.step (fun _ => true) (.didSelectRowAt 0 0) =
        match res.website with
        | some site => if true then some { t with sites := t.sites ++ [site] } else none
        | none => none :=
  ⟨_, rfl, @taps_run _ _ [.services 0 sampleServices, .cellForRowAt 0 0] ["Housing"] rfl 0 0 _
    (List.mem_singleton_self _)⟩

end ResultsScreen

/-! ## The screener with its screens -/

/-- One event for the screener or for one of the screens it has opened. -/
def compassStep (isURL : String → Bool) :
    Spawning.System Screener.QuestionVC ResultsScreen → Spawning.Event Screener.Event ResultsScreen.Event →
      Option (Spawning.System Screener.QuestionVC ResultsScreen) :=
  Spawning.step Screener.step (ResultsScreen.step isURL) fun vc => vc.presented.map ResultsScreen.opened

section

open Spawning

variable {isURL : String → Bool} {es : List (Spawning.Event Screener.Event ResultsScreen.Event)}
  {c : System Screener.QuestionVC ResultsScreen} {k : ℕ} {cats : List String} {screen : ResultsScreen}

theorem compass_apart (h : run (compassStep isURL) ⟨.initial, []⟩ es = some c) :
    Apart Screener.step (ResultsScreen.step isURL) (fun vc => vc.presented.map ResultsScreen.opened) .initial es c :=
  run_spawning (fun _ _ _ he => (Screener.QuestionVC.step_presented_prefix he).map _) rfl h

/-- The screen of a segue has been called with the calls of its own observers. -/
theorem screen_run (h : run (compassStep isURL) ⟨.initial, []⟩ es = some c) (hcats : c.main.presented[k]? = some cats)
    (hscreen : c.instances[k]? = some screen) : run ScreenerResultsVC.step (ScreenerResultsVC.opened cats)
      ((instanceEvents k es).filterMap ResultsScreen.Event.call) = some screen.vc := by
  have hopened : (c.main.presented.map ResultsScreen.opened)[k]? = some (ResultsScreen.opened cats) := by
    rw [List.getElem?_map, hcats, Option.map_some]
  exact ResultsScreen.run_vc ((compass_apart h).own k _ _ hopened hscreen)

theorem screens_length (h : run (compassStep isURL) ⟨.initial, []⟩ es = some c) :
    c.instances.length = c.main.presented.length := by
  rw [(compass_apart h).length, List.length_map]

/-- **Screens do not interfere.** In every order of touches, questionnaires, services and taps: there is a screen for
every segue; its headers are the categories attached at that segue, whatever is attached later; and its rows come from
the calls of its own observers alone, whatever the other screens are called with. The screener runs as if there were no
screens. -/
theorem compass_run (h : run (compassStep isURL) ⟨.initial, []⟩ es = some c) :
    run Screener.step .initial (mainEvents es) = some c.main ∧ c.instances.length = c.main.presented.length ∧
      ∀ k cats screen, c.main.presented[k]? = some cats → c.instances[k]? = some screen →
        (∀ i < cats.length, screen.vc.titleForHeaderInSection i = some cats[i]?) ∧
        run ScreenerResultsVC.step (ScreenerResultsVC.opened cats)
          ((instanceEvents k es).filterMap ResultsScreen.Event.call) = some screen.vc := by
  refine ⟨(compass_apart h).main, screens_length h, fun k cats screen hcats hscreen => ?_⟩
  have hvc := screen_run h hcats hscreen
  refine ⟨fun i hi => ?_, hvc⟩
  rw [titleForHeaderInSection, (run_logged hvc).categories, List.getElem?_eq_getElem hi]
  exact congrArg (Option.map some) (List.getElem?_eq_getElem hi)

end

/-- The sample questionnaire answered up to the results, and the services delivered to the screen. -/
def sampleCompass : List (Spawning.Event Screener.Event ResultsScreen.Event) :=
  ([.qgroup Screener.sampleSnapshot, .touch .yes, .next, .touch .notSure, .next, .touch .no, .next].map .main) ++
    [.call 0 (.services 0 sampleServices)]

theorem compass_run_sample : ∃ c, run (compassStep fun _ => true) ⟨.initial, []⟩ sampleCompass = some c ∧
    c.main.presented = [["Housing"]] ∧ c.instances.length = 1 := by
  obtain ⟨c, hc, hpresented⟩ : ∃ c, run (compassStep fun _ => true) ⟨.initial, []⟩ sampleCompass = some c ∧
    c.main.presented = [["Housing"]] := ⟨_, rfl, by decide⟩
  refine ⟨c, hc, hpresented, ?_⟩
  rw [(compass_run hc).2.1, hpresented]
  rfl

end CareDirect.Results
