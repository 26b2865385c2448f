import CareDirect.Screener.Coherence
import CareDirect.Screener.RadioGroups

/-!
# The scene of `QuestionVC`

The controller's model keeps three flags for its radio buttons and selects by clearing the other two. In the scene the
buttons are `DLRadioButton` objects of which only `radioYes` has the outlet collection `otherButtons`. Here the
controller runs over the real buttons: touches go to `touchUpInside`, the answer comes from `selectedButton` of
`radioYes`, and a press deselects by three assignments. Over the wiring of the storyboard the two agree on every list of
events, traps included (`scene_run`).
-/

namespace CareDirect.Screener

open PartialRun Buttons

/-- The objects behind the three outlets. -/
def Radio.ref : Radio → Ref
  | .yes => 0
  | .no => 1
  | .notSure => 2

/-- The group of the scene, in the order of the outlet collection. -/
def radioGroup : List Ref := [Radio.no.ref, Radio.notSure.ref, Radio.yes.ref]

theorem Radio.ref_mem (a : Radio) : a.ref ∈ radioGroup := by cases a <;> decide

/-- Loading the scene: the outlet collection of `radioYes` is connected, the other two buttons have none. -/
def Buttons.awake : Option Buttons := setOtherButtons 2 {} Radio.yes.ref [Radio.no.ref, Radio.notSure.ref]

/-- The flags of the three buttons. -/
def Buttons.radios (bs : Buttons) : RadioGroup where
  radioYes := (bs.button Radio.yes.ref).selected
  radioNo := (bs.button Radio.no.ref).selected
  radioNotSure := (bs.button Radio.notSure.ref).selected

/-- What `radioYes.selected()` tells the controller. -/
def RadioGroup.telling (c : Option Ref) : RadioGroup where
  radioYes := decide (c = some Radio.yes.ref)
  radioNo := decide (c = some Radio.no.ref)
  radioNotSure := decide (c = some Radio.notSure.ref)

/-- The assignments at the head of `loadNextQuestion` and `loadNextQuestionGroup`. -/
def Buttons.deselectRadios (bs : Buttons) : Buttons :=
  ((bs.setSelected Radio.yes.ref false).setSelected Radio.notSure.ref false).setSelected Radio.no.ref false

/-- The controller and its buttons. The field `radios` of the controller is not used. -/
structure Scene where
  vc : QuestionVC
  buttons : Buttons

namespace Scene

def nextQuestionButton (s : Scene) : Option Scene := do
  let selectedButton := s.buttons.selectedButton Radio.yes.ref
  let vc ← { s.vc with radios := .telling selectedButton }.nextQuestionButton
  -- Both branches of an answered press load a question or a group, and both deselect the three buttons.
  some { vc, buttons := if selectedButton = none then s.buttons else s.buttons.deselectRadios }

def step (s : Scene) : Event → Option Scene
  | .touch radio => some { s with buttons := s.buttons.touchUpInside radio.ref }
  | .next => s.nextQuestionButton
  | .qgroup snapshot => do
    let vc ← s.vc.loadQuestionsFromFB snapshot
    some { s with vc }
  | .back => some s

/-- The scene in the terms of the controller's model. -/
def view (s : Scene) : QuestionVC := { s.vc with radios := s.buttons.radios }

/-- The buttons are wired as in the storyboard and show at most one selection. -/
def Wired (s : Scene) : Prop := s.buttons.Group radioGroup ∧ ∃ c, s.buttons.Shows radioGroup c

variable {s t : Scene}

theorem radios_eq {bs : Buttons} {c : Option Ref} (hs : bs.Shows radioGroup c) : bs.radios = .telling c := by
  have hsel : ∀ a : Radio, (bs.button a.ref).selected = decide (c = some a.ref) := by
    intro a
    rw [Bool.eq_iff_iff, hs.selected _ (Radio.ref_mem a), decide_eq_true_iff]
  rw [Buttons.radios, RadioGroup.telling, hsel, hsel, hsel]

theorem telling_ref (a : Radio) (radios : RadioGroup) : RadioGroup.telling (some a.ref) = radios.touchUpInside a := by
  cases a <;> rfl

theorem telling_none : RadioGroup.telling none = .deselected := rfl

/-- The selected button of the scene is one of the three. -/
theorem exists_ref {c : Option Ref} (hc : ∀ r ∈ c, r ∈ radioGroup) : c = none ∨ ∃ a : Radio, c = some a.ref := by
  cases c with
  | none => exact .inl rfl
  | some r =>
    right
    have hr := hc r rfl
    simp only [radioGroup, List.mem_cons, List.not_mem_nil, or_false] at hr
    rcases hr with rfl | rfl | rfl
    · exact ⟨.no, rfl⟩
    · exact ⟨.notSure, rfl⟩
    · exact ⟨.yes, rfl⟩

theorem deselectRadios_eq (bs : Buttons) : bs.deselectRadios =
    [ButtonEvent.setSelected Radio.yes.ref false, .setSelected Radio.notSure.ref false,
      .setSelected Radio.no.ref false].foldl Buttons.step bs := rfl

/-- The three assignments leave no choice. -/
theorem shows_deselectRadios {bs : Buttons} {c : Option Ref} (hg : bs.Group radioGroup)
    (hs : bs.Shows radioGroup c) : bs.deselectRadios.Shows radioGroup none := by
  have hapart : ∀ e ∈ [ButtonEvent.setSelected Radio.yes.ref false, .setSelected Radio.notSure.ref false,
      .setSelected Radio.no.ref false], bs.Apart radioGroup e.button := by
    simp only [List.forall_mem_cons, List.not_mem_nil, false_implies, implies_true, and_true, ButtonEvent.button]
    exact ⟨.inl (Radio.ref_mem _), .inl (Radio.ref_mem _), .inl (Radio.ref_mem _)⟩
  have hrun := Shows.run _ hg hs hapart
  rw [← deselectRadios_eq] at hrun
  convert hrun using 1
  rcases exists_ref hs.mem with rfl | ⟨a, rfl⟩
  · rfl
  · cases a <;> rfl

/-! ## One step -/

theorem radios_touchUpInside {bs : Buttons} {c : Option Ref} (hg : bs.Group radioGroup) (hs : bs.Shows radioGroup c)
    (a : Radio) : (bs.touchUpInside a.ref).radios = bs.radios.touchUpInside a := by
  have hstep := Shows.step (e := .touchUpInside a.ref) hg hs (.inl (Radio.ref_mem a))
  rw [choose, if_pos (Radio.ref_mem a)] at hstep
  rw [← telling_ref a bs.radios]
  exact radios_eq hstep

theorem load_radios (vc : QuestionVC) (radios : RadioGroup) (snapshot : DataSnapshot) :
    { vc with radios }.loadQuestionsFromFB snapshot =
      (vc.loadQuestionsFromFB snapshot).map fun vc => { vc with radios } := by
  ext v
  rw [Option.map_eq_some_iff]
  constructor
  · intro h
    obtain ⟨gs, r, q, hgs, hr, hq, rfl⟩ := QuestionVC.loadQuestionsFromFB_some.1 h
    exact ⟨_, QuestionVC.loadQuestionsFromFB_some.2 ⟨gs, r, q, hgs, hr, hq, rfl⟩, rfl⟩
  · rintro ⟨u, hu, rfl⟩
    obtain ⟨gs, r, q, hgs, hr, hq, rfl⟩ := QuestionVC.loadQuestionsFromFB_some.1 hu
    exact QuestionVC.loadQuestionsFromFB_some.2 ⟨gs, r, q, hgs, hr, hq, rfl⟩

/-- The controller sees through `radioYes` what the flags of the three buttons say. -/
theorem nextQuestionButton_view (hw : s.Wired) :
    s.view.nextQuestionButton = (s.nextQuestionButton).map view := by
  obtain ⟨hg, c, hs⟩ := hw
  have htold : s.buttons.selectedButton Radio.yes.ref = c := hs.selectedButton hg (Radio.ref_mem .yes)
  have hview : s.view = { s.vc with radios := .telling c } := by rw [view, radios_eq hs]
  rw [nextQuestionButton, htold, ← hview]
  simp only [Option.bind_eq_bind, Option.map_bind]
  rcases exists_ref hs.mem with rfl | ⟨a, rfl⟩
  · have hnone : s.view.radios.selected = none := by rw [hview, telling_none]; rfl
    rw [QuestionVC.nextQuestionButton_unselected hnone]
    rfl
  · have hsel : s.view.radios.selected = some a := by
      rw [hview]
      cases a <;> rfl
    cases hn : s.view.nextQuestionButton with
    | none => rfl
    | some v =>
      have hradios := ((QuestionVC.nextQuestionButton_press hsel).1 hn).radios
      simp only [Option.bind_some, Function.comp_apply, Option.map_some, Option.some.injEq, view]
      rw [if_neg (by simp), radios_eq (shows_deselectRadios hg hs), telling_none, ← hradios]

theorem step_view (hw : s.Wired) (e : Event) : Screener.step s.view e = (s.step e).map view := by
  cases e with
  | touch a =>
    obtain ⟨hg, c, hs⟩ := hw
    simp [Screener.step, step, view, radios_touchUpInside hg hs]
  | next => exact nextQuestionButton_view hw
  | qgroup snapshot =>
    rw [Screener.step, view, load_radios, step]
    cases s.vc.loadQuestionsFromFB snapshot <;> rfl
  | back => rfl

theorem Wired.step {e : Event} (hw : s.Wired) (h : s.step e = some t) : t.Wired := by
  obtain ⟨hg, c, hs⟩ := hw
  cases e with
  | touch a =>
    cases h
    exact ⟨hg.step (.touchUpInside a.ref), _, Shows.step (e := .touchUpInside a.ref) hg hs (.inl (Radio.ref_mem a))⟩
  | next =>
    simp only [Scene.step, nextQuestionButton, Option.bind_eq_bind, Option.bind_eq_some_iff, Option.some.injEq] at h
    obtain ⟨vc, -, rfl⟩ := h
    show Buttons.Group (ite _ _ _) _ ∧ ∃ c, Buttons.Shows (ite _ _ _) _ c
    split_ifs
    · exact ⟨hg, c, hs⟩
    · have hrun : s.buttons.deselectRadios.Group radioGroup := by
        rw [deselectRadios_eq]
        exact hg.run _
      exact ⟨hrun, none, shows_deselectRadios hg hs⟩
  | qgroup snapshot =>
    simp only [Scene.step, Option.bind_eq_bind, Option.bind_eq_some_iff, Option.some.injEq] at h
    obtain ⟨vc, -, rfl⟩ := h
    exact ⟨hg, c, hs⟩
  | back =>
    cases h
    exact ⟨hg, c, hs⟩

/-! ## Runs -/

/-- The storyboard wires the three buttons, with nothing selected. -/
theorem exists_awake : ∃ bs, Buttons.awake = some bs ∧ bs.Group radioGroup ∧ bs.Shows radioGroup none := by
  obtain ⟨bs, hset⟩ : ∃ bs, setOtherButtons 2 {} Radio.yes.ref [Radio.no.ref, Radio.notSure.ref] = some bs :=
    ⟨_, setOtherButtons_eq 0 _ rfl⟩
  have hoff : ∀ r, (bs.button r).selected = false := fun r => setOtherButtons_selected rfl hset
  exact ⟨bs, hset, setOtherButtons_group rfl hset (fun _ _ => rfl) (by decide),
    fun r _ => by simp [hoff r], by simp⟩

/-- **The scene is the model.** From the storyboard's scene every list of events ends, or traps, as it does for the
controller whose radio buttons are three flags; at the end the buttons show these flags. -/
theorem scene_run : ∃ bs, Buttons.awake = some bs ∧ ∀ es : List Event,
    (run Scene.step ⟨.initial, bs⟩ es).map view = run Screener.step .initial es := by
  obtain ⟨bs, hawake, hg, hs⟩ := exists_awake
  have hview : view ⟨.initial, bs⟩ = .initial := by
    rw [view, radios_eq hs]
    rfl
  refine ⟨bs, hawake, fun es => ?_⟩
  have hw : Wired ⟨.initial, bs⟩ := ⟨hg, none, hs⟩
  have hrun := run_embed_of (fun _ e hu => step_view hu e) (fun _ _ _ hu hv => hu.step hv) es hw
  rw [hview] at hrun
  exact hrun.symm

end Scene

end CareDirect.Screener
