import CareDirect.Results.Compass
import CareDirect.Results.Sections
import CareDirect.Screener.Outcome

/-!
# From the answers to the websites

The whole way through the Care Compass: a questionnaire is loaded, its questions are answered, the first results screen
opens, the services arrive there, and a row is tapped. The categories on the screen are the outcome of the walks on the
answers; whether each of them lists its own services is decided by the services and the order in which the observers
are called (`RightOrder`), and where it does, a tap on the row of a service opens its website (`advice_run`).
-/

namespace CareDirect.Results

open GuidedWalk PartialRun Screener Spawning ScreenerResultsVC

/-- One questionnaire, which is loaded before the first press. -/
def Questioned (gs : List QuestionGroup) (es : List Screener.Event) : Prop :=
  ∃ (touches : List Radio) (snapshot : DataSnapshot) (rest : List Screener.Event), Loads snapshot gs ∧
    (∀ e ∈ rest, QuestionVC.NoSnapshot e) ∧ es = touches.map .touch ++ .qgroup snapshot :: rest

variable {gs : List QuestionGroup} {isURL : String → Bool} {cats : List String} {services : DataSnapshot}

/-- The first results screen gets the outcome of the walks. -/
theorem first_presented {es : List Screener.Event} {vc : QuestionVC} (hq : Questioned gs es)
    (h : run Screener.step .initial es = some vc) : vc.presented.head? =
      outcome hits goesOn (gs.map QuestionGroup.content) (answersOf .deselected es) := by
  obtain ⟨touches, snapshot, rest, hl, hrest, rfl⟩ := hq
  obtain ⟨vc₀, hopened, hradios, hopen⟩ := QuestionVC.opening touches hl
  rw [hopen] at h
  have hrep := (hopened.rep hl.groups hl.questions (unmarked_of_decodes hl.decodes)).run hrest h
  rw [hrep.result, answer_outcome, hradios, answersOf_touches]
  rfl

/-- Where the sections are right, a tap opens the website of the service. -/
theorem tap_service {screen : ResultsScreen} (hcategories : screen.vc.attachedResourceCategories = some cats)
    (hright : SectionsRight services screen.vc) {s row : ℕ} {category site : String} {res : ResourcesModel}
    (hcategory : cats[s]? = some category) (hres : (matching category services)[row]? = some res)
    (hsite : res.website = some site) (hurl : isURL site = true) :
    screen.step isURL (.didSelectRowAt s row) = some { screen with sites := screen.sites ++ [site] } := by
  have hs : s < cats.length := (List.getElem?_eq_some_iff.1 hcategory).1
  have hlists := (sectionsRight_iff_lists hcategories).1 hright s hs
  rw [found_eq hcategory] at hlists
  have hrow := (hlists.2 row (List.getElem?_eq_some_iff.1 hres).1).trans hres
  simp only [ResultsScreen.step, ResultsScreen.didSelectRowAt, hrow, hsite, Option.bind_eq_bind, Option.bind_some, hurl,
    if_true]

/-- **From the answers to the websites.** One questionnaire, loaded before the first press, and answers that decide the
walks: there is a first results screen, and its sections are headed by the groups whose walks hit. When the services have
reached each of its observers once, the sections list the services of their categories exactly when the order of the
calls is right; and then a tap on the row of a service opens its website. -/
theorem advice_run {es : List (Spawning.Event Screener.Event ResultsScreen.Event)}
    {c : System QuestionVC ResultsScreen} (h : run (compassStep isURL) ⟨.initial, []⟩ es = some c)
    (hq : Questioned gs (mainEvents es))
    (hwalk : outcome hits goesOn (gs.map QuestionGroup.content) (answersOf .deselected (mainEvents es)) = some cats) :
    ∃ screen, c.instances[0]? = some screen ∧
      (∀ i < cats.length, screen.vc.titleForHeaderInSection i = some cats[i]?) ∧
      ∀ (services : DataSnapshot) (order : List ℕ), order.Perm (List.range cats.length) →
        (instanceEvents 0 es).filterMap ResultsScreen.Event.call = firstCalls services order →
        (SectionsRight services screen.vc ↔ RightOrder cats services order) ∧
        (RightOrder cats services order → ∀ s category row res site, cats[s]? = some category →
          (matching category services)[row]? = some res → res.website = some site → isURL site = true →
          screen.step isURL (.didSelectRowAt s row) = some { screen with sites := screen.sites ++ [site] }) := by
  have hcats : c.main.presented[0]? = some cats := by
    rw [← List.head?_eq_getElem?, first_presented hq (compass_apart h).main, hwalk]
  obtain ⟨screen, hscreen⟩ : ∃ screen, c.instances[0]? = some screen := by
    have hlt := (List.getElem?_eq_some_iff.1 hcats).1
    rw [← screens_length h] at hlt
    exact ⟨_, List.getElem?_eq_getElem hlt⟩
  have hvc := screen_run h hcats hscreen
  have hcategories := (run_logged hvc).categories
  refine ⟨screen, hscreen, fun i hi => ?_, fun services order hperm hcalls => ?_⟩
  · rw [titleForHeaderInSection, hcategories, List.getElem?_eq_getElem hi]
    exact congrArg (Option.map some) (List.getElem?_eq_getElem hi)
  · rw [hcalls] at hvc
    have hright := sectionsRight_iff hvc hperm
    refine ⟨hright, fun horder s category row res site hcategory hres hsite hurl => ?_⟩
    exact tap_service hcategories (hright.2 horder) hcategory hres hsite hurl

/-- The sample: an answer leads to housing, the one service for it is delivered, and its website opened. -/
theorem advice_run_sample : ∃ c screen, run (compassStep fun _ => true) ⟨.initial, []⟩ sampleCompass = some c ∧
    c.instances[0]? = some screen ∧ screen.step (fun _ => true) (.didSelectRowAt 0 0) =
      some { screen with sites := screen.sites ++ ["https://shelter.example"] } := by
  obtain ⟨c, hc⟩ : ∃ c, run (compassStep fun _ => true) ⟨.initial, []⟩ sampleCompass = some c := ⟨_, rfl⟩
  have hq : Questioned _ (mainEvents sampleCompass) :=
    ⟨[], Screener.sampleSnapshot, [.touch .yes, .next, .touch .notSure, .next, .touch .no, .next], sample_loads,
      by simp [QuestionVC.NoSnapshot], rfl⟩
  have hright : RightOrder ["Housing"] sampleServices [0] := rightOrder_range.2 (.inr (by decide))
  obtain ⟨screen, hscreen, -, hcalled⟩ := @advice_run _ _ ["Housing"] _ _ hc hq (by decide)
  have htap := (hcalled sampleServices [0] (.refl _) rfl).2 hright
  exact ⟨c, screen, hc, hscreen, htap 0 "Housing" 0 _ _ rfl rfl rfl rfl⟩

end CareDirect.Results
