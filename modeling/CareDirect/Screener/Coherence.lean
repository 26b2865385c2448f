import CareDirect.Lib.Positions
import CareDirect.Screener.Press

/-!
# The cursor of the screener

`Coherent gs vc`: the five fields that say where the user is agree with each other and with the questionnaire `gs`.
`Screening gs vc` is what a run with one snapshot keeps: as long as the group index is in range the state is coherent
and no results have been shown, and once it is out of range they have (`Screening.event`, `Screening.events`). A press
moves the cursor to the next question of the group or to the start of the next group (`Press.move`).
-/

namespace CareDirect.Screener

open Positions PartialRun

/-- What a group says to the user, without the flag. -/
def QuestionGroup.content (g : QuestionGroup) : String × List ScreenerQuestion := (g.title, g.questions)

namespace QuestionVC

variable {vc vc' : QuestionVC} {a : Radio} {gs : List (String × List ScreenerQuestion)}

@[simp] abbrev position (vc : QuestionVC) : ℕ × ℕ := (vc.questionGroupIndex, vc.questionIndex)

@[simp] abbrev contents (vc : QuestionVC) : List (String × List ScreenerQuestion) :=
  vc.groups.values.map QuestionGroup.content

theorem length_contents : vc.contents.length = vc.questionGroups.length := by simp

theorem length_of_contents (h : vc.contents = gs) : gs.length = vc.questionGroups.length := by
  rw [← h, length_contents]

theorem getElem?_contents (i : Nat) :
    vc.contents[i]? = vc.questionGroups[i]?.map fun r => (vc.groups.obj r).content := by
  simp [ObjectArray.getElem?_values, Function.comp_def]

@[simp] theorem mark_contents : (vc.mark a).contents = vc.contents := by
  rcases mark_cases vc a with ⟨-, h⟩ | ⟨-, -, h⟩
  · rw [h]
  · rw [h]
    exact ObjectArray.map_values_modify (g := QuestionGroup.content)
      (f := fun g => { g with attachResource := true }) rfl

/-! ## What every press does -/

@[simp] theorem displayIf_groups {b : Bool} : (vc.displayIf b).groups = vc.groups := by
  cases b <;> rfl

@[simp] theorem displayIf_questionGroupIndex {b : Bool} :
    (vc.displayIf b).questionGroupIndex = vc.questionGroupIndex := by
  cases b <;> rfl

@[simp] theorem displayIf_questionIndex {b : Bool} : (vc.displayIf b).questionIndex = vc.questionIndex := by
  cases b <;> rfl

@[simp] theorem displayIf_currentQuestionGroup {b : Bool} :
    (vc.displayIf b).currentQuestionGroup = vc.currentQuestionGroup := by
  cases b <;> rfl

@[simp] theorem displayIf_radios {b : Bool} : (vc.displayIf b).radios = vc.radios := by
  cases b <;> rfl

@[simp] theorem displayIf_presented {b : Bool} : (vc.displayIf b).presented = vc.presented := by
  cases b <;> simp [displayIf]

theorem Press.presented_prefix (h : Press vc a vc') : vc.presented <+: vc'.presented := by
  cases h with
  | question q on hq => simp
  | group r q past hr hq => simp
  | results past hend => simp

theorem Press.contents (h : Press vc a vc') : vc'.contents = vc.contents := by
  cases h with
  | question q on hq => simp
  | group r q past hr hq => simp
  | results past hend => simp

theorem Press.move (h : Press vc a vc') : Move vc.position vc'.position := by
  cases h with
  | question q on hq => simpa using Move.next
  | group r q past hr hq => simpa using Move.leave
  | results past hend => simpa using Move.leave

/-- An answered press deselects the three radio buttons. -/
theorem Press.radios (h : Press vc a vc') : vc'.radios = .deselected := by
  cases h with
  | question q on hq => simp
  | group r q past hr hq => simp
  | results past hend => simp

/-! ## Coherence -/

/-- The groups are those of `gs`, the group index is in range, and the current group and question are those at the
two indices. -/
structure Coherent (gs : List (String × List ScreenerQuestion)) (vc : QuestionVC) : Prop where
  contents : vc.contents = gs
  inRange : vc.questionGroupIndex < vc.questionGroups.length
  group : vc.questionGroups[vc.questionGroupIndex]? = some vc.currentQuestionGroup
  question : vc.group.questions[vc.questionIndex]? = some vc.currentQuestion

theorem Coherent.displayIf {b : Bool} (h : Coherent gs vc) : Coherent gs (vc.displayIf b) := by
  cases b <;> exact ⟨h.contents, h.inRange, h.group, h.question⟩

/-- From a coherent state a press leads to a coherent one, or ends in the results. -/
theorem Coherent.press (h : Coherent gs vc) (hp : Press vc a vc') :
    Coherent gs vc' ∧ vc'.presented = vc.presented ∨
      vc'.questionGroupIndex = gs.length ∧
        vc'.presented = vc.presented ++ [(vc.mark a).attachedResourceCategories] := by
  have hlen := length_of_contents h.contents
  have hrange := h.inRange
  cases hp with
  | question q on hq =>
    refine .inl ⟨⟨?_, ?_, ?_, ?_⟩, by simp⟩
    · simpa using h.contents
    · simpa using hrange
    · simpa using h.group
    · simpa using hq
  | group r q past hr hq =>
    refine .inl ⟨Coherent.displayIf ⟨?_, ?_, ?_, ?_⟩, by simp⟩
    · simpa using h.contents
    · simpa using (List.getElem?_eq_some_iff.1 hr).1
    · simpa using hr
    · simpa using hq
  | results past hend =>
    refine .inr ⟨?_, by simp⟩
    simp only [displayIf_questionGroupIndex, performSegue_questionGroupIndex, toEnd_questionGroupIndex,
      mark_questionGroupIndex]
    omega

/-! ## Runs with one snapshot -/

/-- The group index is in range while no results have been shown, and then the state is coherent. -/
structure Screening (gs : List (String × List ScreenerQuestion)) (vc : QuestionVC) : Prop where
  contents : vc.contents = gs
  asking : vc.questionGroupIndex < gs.length → Coherent gs vc ∧ vc.presented = []
  ended : gs.length ≤ vc.questionGroupIndex → vc.presented ≠ []

theorem Screening.asking_iff (h : Screening gs vc) : vc.questionGroupIndex < gs.length ↔ vc.presented = [] := by
  constructor
  · exact fun hlt => (h.asking hlt).2
  · intro hp
    by_contra hle
    exact h.ended (Nat.le_of_not_lt hle) hp

theorem Screening.coherent (h : Screening gs vc) (hp : vc.presented = []) : Coherent gs vc :=
  (h.asking (h.asking_iff.2 hp)).1

theorem Screening.press (h : Screening gs vc) (hp : Press vc a vc') : Screening gs vc' := by
  have hcontents : vc'.contents = gs := hp.contents.trans h.contents
  by_cases hlt : vc.questionGroupIndex < gs.length
  · obtain ⟨hco, hnone⟩ := h.asking hlt
    rcases hco.press hp with ⟨hco', hsame⟩ | ⟨hindex, hseg⟩
    · have hlen := length_of_contents hcontents
      exact ⟨hcontents, fun _ => ⟨hco', hsame.trans hnone⟩, fun hle => absurd hco'.inRange (by omega)⟩
    · exact ⟨hcontents, fun hlt' => absurd hlt' (by omega), fun _ => by simp [hseg]⟩
  · have hended := h.ended (Nat.le_of_not_lt hlt)
    have hle := hp.move.fst_le.1
    simp only at hle
    refine ⟨hcontents, fun hlt' => absurd hlt' (by omega), fun _ hnone => hended ?_⟩
    exact List.prefix_nil.1 (hnone ▸ hp.presented_prefix)

/-- Neither a snapshot nor a press with a button selected. -/
inductive Idle (vc : QuestionVC) : Event → QuestionVC → Prop
  | touch (b : Radio) : Idle vc (.touch b) { vc with radios := vc.radios.touchUpInside b }
  | alert (h : vc.radios.selected = none) :
      Idle vc .next (vc.displayMyAlertMessage "Please Select one of the options!")
  | back : Idle vc .back vc

/-- **One event** is idle, an answered press or a delivery. -/
theorem step_cases {e : Event} (h : step vc e = some vc') :
    Idle vc e vc' ∨ (∃ a, e = .next ∧ vc.radios.selected = some a ∧ Press vc a vc') ∨
      ∃ snapshot, e = .qgroup snapshot ∧ vc.loadQuestionsFromFB snapshot = some vc' := by
  cases e with
  | touch b => cases h; exact .inl (.touch b)
  | next =>
    cases hs : vc.radios.selected with
    | none =>
      change vc.nextQuestionButton = _ at h
      rw [nextQuestionButton_unselected hs] at h
      cases h
      exact .inl (.alert hs)
    | some a => exact .inr (.inl ⟨a, rfl, rfl, (nextQuestionButton_press hs).1 h⟩)
  | qgroup snapshot => exact .inr (.inr ⟨snapshot, rfl, h⟩)
  | back => cases h; exact .inl .back

theorem Idle.coherent {e : Event} (h : Idle vc e vc') (hc : Coherent gs vc) : Coherent gs vc' := by
  cases h <;> exact ⟨hc.contents, hc.inRange, hc.group, hc.question⟩

theorem Idle.presented {e : Event} (h : Idle vc e vc') : vc'.presented = vc.presented := by
  cases h <;> simp

theorem Idle.position {e : Event} (h : Idle vc e vc') : vc'.position = vc.position := by
  cases h <;> rfl

theorem Idle.groups {e : Event} (h : Idle vc e vc') : vc'.groups = vc.groups := by
  cases h <;> rfl

/-- A delivery performs no segue. -/
theorem load_presented {snapshot : DataSnapshot} (h : vc.loadQuestionsFromFB snapshot = some vc') :
    vc'.presented = vc.presented := by
  obtain ⟨gs, r, q, -, -, -, rfl⟩ := loadQuestionsFromFB_some.1 h
  simp

/-- What has been handed over stays handed over. -/
theorem step_presented_prefix {e : Event} (h : step vc e = some vc') : vc.presented <+: vc'.presented := by
  rcases step_cases h with hi | ⟨a, -, -, hp⟩ | ⟨snapshot, -, hl⟩
  · exact hi.presented ▸ List.prefix_rfl
  · exact hp.presented_prefix
  · exact load_presented hl ▸ List.prefix_rfl

/-- Before the results, no results have been shown earlier either. -/
theorem presented_nil_of_step {e : Event} (h : step vc e = some vc') (hnone : vc'.presented = []) : vc.presented = [] :=
  List.prefix_nil.1 (hnone ▸ step_presented_prefix h)

theorem Screening.idle {e : Event} (h : Screening gs vc) (hi : Idle vc e vc') : Screening gs vc' := by
  have hindex : vc'.questionGroupIndex = vc.questionGroupIndex := congrArg Prod.fst hi.position
  refine ⟨?_, fun hlt => ?_, fun hle => ?_⟩
  · rw [QuestionVC.contents, hi.groups]; exact h.contents
  · obtain ⟨hc, hp⟩ := h.asking (hindex ▸ hlt)
    exact ⟨hi.coherent hc, hi.presented.trans hp⟩
  · rw [hi.presented]; exact h.ended (hindex ▸ hle)

/-- The event is not a snapshot. -/
def NoSnapshot (e : Event) : Prop := ∀ snapshot, e ≠ .qgroup snapshot

theorem Screening.event {e : Event} (h : Screening gs vc) (he : NoSnapshot e) (hs : step vc e = some vc') :
    Screening gs vc' := by
  rcases step_cases hs with hi | ⟨a, -, -, hp⟩ | ⟨snapshot, hsnap, -⟩
  · exact h.idle hi
  · exact h.press hp
  · exact absurd hsnap (he snapshot)

theorem Screening.events {es : List Event} (h : Screening gs vc) (hes : ∀ e ∈ es, NoSnapshot e)
    (hr : run step vc es = some vc') : Screening gs vc' := by
  induction es generalizing vc with
  | nil => cases hr; exact h
  | cons e es ih =>
    rw [run_cons, Option.bind_eq_some_iff] at hr
    obtain ⟨w, hw, hr⟩ := hr
    exact ih (h.event (hes e List.mem_cons_self) hw) (fun e' he' => hes e' (List.mem_cons_of_mem _ he')) hr

theorem solid_of_contents (h : vc.contents = gs) (hne : ∀ c ∈ gs, c.2 ≠ []) : vc.Solid := by
  intro g hg
  exact hne g.content (h ▸ List.mem_map_of_mem hg)

theorem contents_nonempty {gs : List QuestionGroup} (hne : ∀ g ∈ gs, g.questions ≠ []) :
    ∀ c ∈ gs.map QuestionGroup.content, c.2 ≠ [] := by
  intro c hc
  obtain ⟨g, hg, rfl⟩ := List.mem_map.1 hc
  exact hne g hg

/-- With questions in every group no event but a snapshot can trap. -/
theorem Screening.total {es : List Event} (h : Screening gs vc) (hne : ∀ c ∈ gs, c.2 ≠ [])
    (hes : ∀ e ∈ es, NoSnapshot e) : ∃ vc', run step vc es = some vc' := by
  have hstep : ∀ u e, Screening gs u → NoSnapshot e → ∃ v, step u e = some v ∧ Screening gs v := by
    intro u e hu he
    have hex : ∃ v, step u e = some v := by
      cases e with
      | touch b => exact ⟨_, rfl⟩
      | next =>
        cases hs : u.radios.selected with
        | none => exact ⟨_, nextQuestionButton_unselected hs⟩
        | some a =>
          obtain ⟨v, hv⟩ := (solid_of_contents hu.contents hne).press a
          exact ⟨v, (nextQuestionButton_press hs).2 hv⟩
      | qgroup snapshot => exact absurd rfl (he snapshot)
      | back => exact ⟨_, rfl⟩
    obtain ⟨v, hv⟩ := hex
    exact ⟨v, hv, hu.event he hv⟩
  obtain ⟨t, ht, -⟩ := run_total hstep h hes
  exact ⟨t, ht⟩

/-! ## The first delivery -/

/-- Nothing has been loaded, answered or shown yet. -/
structure Fresh (vc : QuestionVC) : Prop where
  groups : vc.groups = .beside {}
  position : vc.position = (0, 0)
  attached : vc.attachedResourceCategories = []
  presented : vc.presented = []
  steps : vc.steps = []

/-- The state right after the first delivery of the questionnaire `gs`. -/
structure Opened (gs : List QuestionGroup) (vc : QuestionVC) : Prop where
  screening : Screening (gs.map QuestionGroup.content) vc
  position : vc.position = (0, 0)
  values : vc.groups.values = gs
  attached : vc.attachedResourceCategories = []
  presented : vc.presented = []
  steps : vc.steps = [(1, gs.length)]
  screen : vc.screen = some (vc.group.title, vc.currentQuestion.question)

theorem Fresh.load {snapshot : DataSnapshot} {gs : List QuestionGroup} (h : Fresh vc) (hl : Loads snapshot gs) :
    ∃ vc', vc.loadQuestionsFromFB snapshot = some vc' ∧ Opened gs vc' ∧ vc'.radios = vc.radios := by
  have hvalues : (vc.groups.appendAll gs).values = gs := by
    rw [ObjectArray.values_appendAll, h.groups]; rfl
  obtain ⟨g, rest, rfl⟩ := List.exists_cons_of_ne_nil hl.groups
  obtain ⟨q, qs, hqs⟩ := List.exists_cons_of_ne_nil (hl.questions g List.mem_cons_self)
  have hfirst := ObjectArray.getElem?_values (vc.groups.appendAll (g :: rest)) 0
  rw [hvalues, List.getElem?_cons_zero, eq_comm, Option.map_eq_some_iff] at hfirst
  obtain ⟨r, hr, hg⟩ := hfirst
  have hq : ((vc.groups.appendAll (g :: rest)).obj r).questions[0]? = some q := by rw [hg, hqs]; rfl
  have hempty : vc.groups.refs = [] := by rw [h.groups]; rfl
  have hlen := ObjectArray.length_refs_appendAll (g :: rest) vc.groups
  obtain ⟨hgi, hqi⟩ := Prod.mk.inj h.position
  refine ⟨_, loadQuestionsFromFB_some.2 ⟨_, r, q, hl.decodes, hr, hq, rfl⟩, ?_, rfl⟩
  refine ⟨⟨?_, fun _ => ⟨⟨?_, ?_, ?_, ?_⟩, ?_⟩, ?_⟩, h.position, hvalues, h.attached, ?_, ?_, ?_⟩
  · simp only [contents, displayCurrentQuestion_groups, delivered_groups, hvalues]
  · simp only [contents, displayCurrentQuestion_groups, delivered_groups, hvalues]
  · simp only [questionGroups, displayCurrentQuestion_groups, delivered_groups,
      displayCurrentQuestion_questionGroupIndex, delivered_questionGroupIndex, hgi, hlen, List.length_cons]
    omega
  · simpa [hgi] using hr
  · simpa [hqi] using hq
  · simpa using h.presented
  · intro hle
    simp [hgi] at hle
  · simpa using h.presented
  · have hsteps : vc.calls.filterMap UICall.step? = [] := h.steps
    simp [hsteps, hgi, hempty, Nat.add_comm]
  · simp

/-- The radio buttons after the touches `touches`. -/
def touched (touches : List Radio) : RadioGroup := touches.foldl RadioGroup.touchUpInside .deselected

theorem run_touches (touches : List Radio) :
    run step initial (touches.map .touch) = some { initial with radios := touched touches } := by
  induction touches using List.reverseRecOn with
  | nil => rfl
  | append_singleton touches b ih =>
    rw [List.map_append, List.map_singleton, run_snoc, ih]
    simp [step, touched]

/-- A run whose first snapshot arrives before the first press: some touches, and the delivery. -/
theorem opening {snapshot : DataSnapshot} {gs : List QuestionGroup} (touches : List Radio) (hl : Loads snapshot gs) :
    ∃ vc, Opened gs vc ∧ vc.radios = touched touches ∧
      ∀ es, run step initial (touches.map .touch ++ .qgroup snapshot :: es) = run step vc es := by
  have hfresh : Fresh { initial with radios := touched touches } := ⟨rfl, rfl, rfl, rfl, rfl⟩
  obtain ⟨vc, hvc, hopen, hradios⟩ := hfresh.load hl
  refine ⟨vc, hopen, hradios, fun es => ?_⟩
  have hstep : step { initial with radios := touched touches } (.qgroup snapshot) = some vc := hvc
  rw [run_append, run_touches, Option.bind_some, run_cons, hstep, Option.bind_some]

end QuestionVC

end CareDirect.Screener
