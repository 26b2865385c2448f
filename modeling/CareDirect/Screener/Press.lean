import CareDirect.Screener.QuestionVC

/-!
# What a press and a delivery can do

`nextQuestionButton` and the `qgroup` block in relational form. An answered press attaches the group when the answer
hits (`mark`), and then does one of three things (`Press`): the next question of the group, the first question of the
next group, or the results segue. `nextQuestionButton_press` says that these are all, `loadQuestionsFromFB_some` says
the same of a delivery; the invariants of the later files are read off them.
-/

namespace CareDirect.Screener

/-- The answer a button stands for. -/
def Radio.answer : Radio → Option Bool
  | .yes => some true
  | .no => some false
  | .notSure => none

/-- The answer is Yes or No and is the one that attaches the resource. -/
def hits (q : ScreenerQuestion) (a : Radio) : Bool :=
  match a.answer with
  | some b => q.answerCorrespondingToResource == some b
  | none => false

/-- The answer leads to the next question of the group. -/
def goesOn (q : ScreenerQuestion) (a : Radio) : Bool :=
  match a.answer with
  | some b => q.alwaysGoToNextQuestion || q.answerWhichGoesToNext == some b
  | none => true

namespace QuestionVC

variable {vc vc' : QuestionVC} {a : Radio}

/-! ## What the user has seen -/

/-- The array handed over, when the call is the results segue. -/
@[simp] def UICall.segue? : UICall → Option (List String)
  | .screenerResultsSegue cats => some cats
  | _ => none

/-- The numbers formatted into the step label, when the call displays a question. -/
@[simp] def UICall.step? : UICall → Option (Nat × Nat)
  | .display _ _ i n => some (i, n)
  | _ => none

/-- The texts of the category and the question label, when the call displays a question. -/
@[simp] def UICall.labels? : UICall → Option (String × String)
  | .display c q _ _ => some (c, q)
  | _ => none

/-- The arrays handed over at the results segues, oldest first. -/
@[simp] abbrev presented (vc : QuestionVC) : List (List String) := vc.calls.filterMap UICall.segue?

/-- The numbers formatted into the step label, oldest first. -/
@[simp] abbrev steps (vc : QuestionVC) : List (Nat × Nat) := vc.calls.filterMap UICall.step?

/-- What the category and the question label show. -/
@[simp] abbrev screen (vc : QuestionVC) : Option (String × String) := (vc.calls.filterMap UICall.labels?).getLast?

/-! ## Attaching -/

/-- The first half of an answered press. -/
def mark (vc : QuestionVC) (a : Radio) : QuestionVC :=
  match a.answer with
  | some b => vc.attachResource (some b)
  | none => vc

/-- The answer either changes nothing, or it hits a group that is not attached yet. -/
theorem mark_cases (vc : QuestionVC) (a : Radio) :
    (hits vc.currentQuestion a = true → vc.group.attachResource = true) ∧ vc.mark a = vc ∨
    hits vc.currentQuestion a = true ∧ vc.group.attachResource = false ∧ vc.mark a =
      { vc with
        groups := vc.groups.modify vc.currentQuestionGroup fun g => { g with attachResource := true }
        attachedResourceCategories := vc.attachedResourceCategories ++ [vc.group.title] } := by
  unfold mark hits attachResource
  cases a.answer with
  | none => exact .inl ⟨fun h => absurd h Bool.false_ne_true, rfl⟩
  | some b =>
    simp only [beq_iff_eq]
    split
    · rename_i hb
      split
      · rename_i hf; exact .inr ⟨hb, hf, rfl⟩
      · rename_i hf; exact .inl ⟨fun _ => by simpa using hf, rfl⟩
    · rename_i hb; exact .inl ⟨fun h => absurd h hb, rfl⟩

@[simp] theorem mark_questionGroups : (vc.mark a).questionGroups = vc.questionGroups := by
  rcases mark_cases vc a with ⟨-, h⟩ | ⟨-, -, h⟩
  · rw [h]
  · rw [h]
    exact ObjectArray.refs_modify

@[simp] theorem mark_currentQuestionGroup : (vc.mark a).currentQuestionGroup = vc.currentQuestionGroup := by
  rcases mark_cases vc a with ⟨-, h⟩ | ⟨-, -, h⟩ <;> rw [h]

@[simp] theorem mark_currentQuestion : (vc.mark a).currentQuestion = vc.currentQuestion := by
  rcases mark_cases vc a with ⟨-, h⟩ | ⟨-, -, h⟩ <;> rw [h]

@[simp] theorem mark_questionGroupIndex : (vc.mark a).questionGroupIndex = vc.questionGroupIndex := by
  rcases mark_cases vc a with ⟨-, h⟩ | ⟨-, -, h⟩ <;> rw [h]

@[simp] theorem mark_questionIndex : (vc.mark a).questionIndex = vc.questionIndex := by
  rcases mark_cases vc a with ⟨-, h⟩ | ⟨-, -, h⟩ <;> rw [h]

@[simp] theorem mark_calls : (vc.mark a).calls = vc.calls := by
  rcases mark_cases vc a with ⟨-, h⟩ | ⟨-, -, h⟩ <;> rw [h]

@[simp] theorem mark_title (r : Ref) : ((vc.mark a).groups.obj r).title = (vc.groups.obj r).title := by
  rcases mark_cases vc a with ⟨-, h⟩ | ⟨-, -, h⟩
  · rw [h]
  · rw [h]
    exact ObjectArray.read_modify (g := QuestionGroup.title) (f := fun g => { g with attachResource := true }) rfl

@[simp] theorem mark_questions (r : Ref) : ((vc.mark a).groups.obj r).questions = (vc.groups.obj r).questions := by
  rcases mark_cases vc a with ⟨-, h⟩ | ⟨-, -, h⟩
  · rw [h]
  · rw [h]
    exact ObjectArray.read_modify (g := QuestionGroup.questions) (f := fun g => { g with attachResource := true }) rfl

/-! ## The second half of an answered press -/

/-- `loadNextQuestion` inside the group. -/
@[simps] def toQuestion (vc : QuestionVC) (q : ScreenerQuestion) : QuestionVC :=
  { vc with radios := .deselected, questionIndex := vc.questionIndex + 1, currentQuestion := q }

/-- `loadNextQuestionGroup` before the end. -/
@[simps] def toGroup (vc : QuestionVC) (r : Ref) (q : ScreenerQuestion) : QuestionVC :=
  { vc with
    radios := .deselected
    questionGroupIndex := vc.questionGroupIndex + 1
    questionIndex := 0
    currentQuestionGroup := r
    currentQuestion := q }

/-- `loadNextQuestionGroup` past the end: the indices move on, the current group and question stay. -/
@[simps] def toEnd (vc : QuestionVC) : QuestionVC :=
  { vc with radios := .deselected, questionGroupIndex := vc.questionGroupIndex + 1, questionIndex := 0 }

/-- `loadNextQuestion` displays the question once more after `loadNextQuestionGroup` has returned. -/
def displayIf (vc : QuestionVC) (again : Bool) : QuestionVC := if again then vc.displayCurrentQuestion else vc

theorem loadNextQuestionGroup_eq (vc : QuestionVC) :
    vc.loadNextQuestionGroup =
      if vc.questionGroupIndex + 1 < vc.questionGroups.length then
        (vc.questionGroups[vc.questionGroupIndex + 1]?).bind fun r =>
          ((vc.groups.obj r).questions[0]?).bind fun q => some (vc.toGroup r q).displayCurrentQuestion
      else some vc.toEnd.performSegue := rfl

/-- The fall-through to the next group ignores the index that was counted up before. -/
theorem loadNextQuestion_eq (vc : QuestionVC) :
    vc.loadNextQuestion =
      if vc.questionIndex + 1 < vc.group.questions.length then
        (vc.group.questions[vc.questionIndex + 1]?).bind fun q => some (vc.toQuestion q).displayCurrentQuestion
      else vc.loadNextQuestionGroup.bind fun w => some w.displayCurrentQuestion := rfl

theorem loadNextQuestionGroup_some :
    vc.loadNextQuestionGroup = some vc' ↔
      (∃ r q, vc.questionGroups[vc.questionGroupIndex + 1]? = some r ∧ (vc.groups.obj r).questions[0]? = some q ∧
        vc' = (vc.toGroup r q).displayCurrentQuestion) ∨
      vc.questionGroups.length ≤ vc.questionGroupIndex + 1 ∧ vc' = vc.toEnd.performSegue := by
  rw [loadNextQuestionGroup_eq]
  by_cases h : vc.questionGroupIndex + 1 < vc.questionGroups.length
  · rw [if_pos h, List.getElem?_eq_getElem h, Option.bind_some, Option.bind_eq_some_iff]
    constructor
    · rintro ⟨q, hq, he⟩; exact .inl ⟨_, q, rfl, hq, (Option.some.inj he).symm⟩
    · rintro (⟨r, q, hr, hq, rfl⟩ | ⟨hle, -⟩)
      · cases hr; exact ⟨q, hq, rfl⟩
      · omega
  · rw [if_neg h, List.getElem?_eq_none (Nat.le_of_not_lt h)]
    constructor
    · intro he; exact .inr ⟨Nat.le_of_not_lt h, (Option.some.inj he).symm⟩
    · rintro (⟨r, q, hr, -⟩ | ⟨-, rfl⟩)
      · cases hr
      · rfl

theorem loadNextQuestion_some :
    vc.loadNextQuestion = some vc' ↔
      (∃ q, vc.group.questions[vc.questionIndex + 1]? = some q ∧ vc' = (vc.toQuestion q).displayCurrentQuestion) ∨
      vc.group.questions.length ≤ vc.questionIndex + 1 ∧
        ∃ w, vc.loadNextQuestionGroup = some w ∧ vc' = w.displayCurrentQuestion := by
  rw [loadNextQuestion_eq]
  by_cases h : vc.questionIndex + 1 < vc.group.questions.length
  · rw [if_pos h, List.getElem?_eq_getElem h, Option.bind_some]
    constructor
    · intro he; exact .inl ⟨_, rfl, (Option.some.inj he).symm⟩
    · rintro (⟨q, hq, rfl⟩ | ⟨hle, -⟩)
      · cases hq; rfl
      · omega
  · rw [if_neg h, List.getElem?_eq_none (Nat.le_of_not_lt h), Option.bind_eq_some_iff]
    constructor
    · rintro ⟨w, hw, he⟩; exact .inr ⟨Nat.le_of_not_lt h, w, hw, (Option.some.inj he).symm⟩
    · rintro (⟨q, hq, -⟩ | ⟨-, w, hw, rfl⟩)
      · cases hq
      · exact ⟨w, hw, rfl⟩

/-- An answered press. `past`: the group has no further question for an answer that goes on. -/
inductive Press (vc : QuestionVC) (a : Radio) : QuestionVC → Prop
  | question (q : ScreenerQuestion) (on : goesOn vc.currentQuestion a = true)
      (hq : vc.group.questions[vc.questionIndex + 1]? = some q) :
      Press vc a ((vc.mark a).toQuestion q).displayCurrentQuestion
  | group (r : Ref) (q : ScreenerQuestion)
      (past : goesOn vc.currentQuestion a = true → vc.group.questions.length ≤ vc.questionIndex + 1)
      (hr : vc.questionGroups[vc.questionGroupIndex + 1]? = some r)
      (hq : (vc.groups.obj r).questions[0]? = some q) :
      Press vc a (((vc.mark a).toGroup r q).displayCurrentQuestion.displayIf (goesOn vc.currentQuestion a))
  | results
      (past : goesOn vc.currentQuestion a = true → vc.group.questions.length ≤ vc.questionIndex + 1)
      (hend : vc.questionGroups.length ≤ vc.questionGroupIndex + 1) :
      Press vc a ((vc.mark a).toEnd.performSegue.displayIf (goesOn vc.currentQuestion a))

theorem selectedAnswer_title (a : Radio) : selectedAnswer a.title = a.answer := by
  cases a <;> decide

theorem nextQuestionButton_selected (h : vc.radios.selected = some a) :
    vc.nextQuestionButton =
      if goesOn vc.currentQuestion a then (vc.mark a).loadNextQuestion else (vc.mark a).loadNextQuestionGroup := by
  have hq : ∀ b, a.answer = some b → (vc.attachResource (some b)).currentQuestion = vc.currentQuestion := by
    intro b hb
    simpa [mark, hb] using @mark_currentQuestion vc a
  unfold nextQuestionButton
  simp only [h, Option.map_some, selectedAnswer_title]
  cases hb : a.answer with
  | none => simp [goesOn, mark, hb]
  | some b =>
    simp only [goesOn, mark, hb, hq b hb, Bool.or_eq_true, beq_iff_eq]
    split
    · rename_i h1; rw [if_pos (.inl h1)]
    · rename_i h1
      split
      · rename_i h2; rw [if_pos (.inr h2)]
      · rename_i h2; rw [if_neg (not_or.2 ⟨h1, h2⟩)]

theorem nextQuestionButton_unselected (h : vc.radios.selected = none) :
    vc.nextQuestionButton = some (vc.displayMyAlertMessage "Please Select one of the options!") := by
  unfold nextQuestionButton
  rw [h]
  rfl

/-- **An answered press does one of the three things of `Press`, and nothing else.** -/
theorem nextQuestionButton_press (h : vc.radios.selected = some a) :
    vc.nextQuestionButton = some vc' ↔ Press vc a vc' := by
  have hgroup : (vc.mark a).group.questions = vc.group.questions := by simp [group]
  rw [nextQuestionButton_selected h]
  constructor
  · cases hg : goesOn vc.currentQuestion a with
    | true =>
      simp only [if_true, loadNextQuestion_some, loadNextQuestionGroup_some]
      rintro (⟨q, hq, rfl⟩ | ⟨hle, w, ⟨r, q, hr, hq, rfl⟩ | ⟨hend, rfl⟩, rfl⟩)
      · exact .question q hg (by simpa [hgroup] using hq)
      · simpa [displayIf, hg] using @Press.group vc a r q (fun _ => by simpa [hgroup] using hle)
          (by simpa using hr) (by simpa using hq)
      · simpa [displayIf, hg] using @Press.results vc a (fun _ => by simpa [hgroup] using hle)
          (by simpa using hend)
    | false =>
      simp only [Bool.false_eq_true, if_false, loadNextQuestionGroup_some]
      rintro (⟨r, q, hr, hq, rfl⟩ | ⟨hend, rfl⟩)
      · simpa [displayIf, hg] using @Press.group vc a r q (fun h => by rw [hg] at h; cases h)
          (by simpa using hr) (by simpa using hq)
      · simpa [displayIf, hg] using @Press.results vc a (fun h => by rw [hg] at h; cases h)
          (by simpa using hend)
  · rintro (⟨q, hg, hq⟩ | ⟨r, q, hpast, hr, hq⟩ | ⟨hpast, hend⟩)
    · rw [if_pos hg, loadNextQuestion_some]
      exact .inl ⟨q, by simpa [hgroup] using hq, rfl⟩
    · have hload : (vc.mark a).loadNextQuestionGroup = some ((vc.mark a).toGroup r q).displayCurrentQuestion :=
        loadNextQuestionGroup_some.2 (.inl ⟨r, q, by simpa using hr, by simpa using hq, rfl⟩)
      cases hg : goesOn vc.currentQuestion a with
      | true => rw [if_pos rfl, loadNextQuestion_some]; exact .inr ⟨by simpa [hgroup] using hpast hg, _, hload, rfl⟩
      | false => rw [if_neg Bool.false_ne_true, hload]; rfl
    · have hload : (vc.mark a).loadNextQuestionGroup = some (vc.mark a).toEnd.performSegue :=
        loadNextQuestionGroup_some.2 (.inr ⟨by simpa using hend, rfl⟩)
      cases hg : goesOn vc.currentQuestion a with
      | true => rw [if_pos rfl, loadNextQuestion_some]; exact .inr ⟨by simpa [hgroup] using hpast hg, _, hload, rfl⟩
      | false => rw [if_neg Bool.false_ne_true, hload]; rfl

/-! ## Deliveries -/

/-- The groups that a snapshot of `qgroup` decodes to. -/
def questionGroupsOf (snapshot : DataSnapshot) : Option (List QuestionGroup) :=
  snapshot.value.asArray.bind fun qGroups => qGroups.mapM questionGroup

/-- The state after the loop of the block and the two assignments of `setupQuestionView`. The indices stay. -/
@[simps] def delivered (vc : QuestionVC) (gs : List QuestionGroup) (r : Ref) (q : ScreenerQuestion) : QuestionVC :=
  { vc with groups := vc.groups.appendAll gs, currentQuestionGroup := r, currentQuestion := q }

theorem loadLoop_eq : ∀ (qGroups : List Json) (vc : QuestionVC),
    (qGroups.foldlM (fun (vc : QuestionVC) qGroup => do
      let thisQuestionGroup ← questionGroup qGroup
      some { vc with groups := vc.groups.append thisQuestionGroup }) vc) =
    (qGroups.mapM questionGroup).map fun gs => { vc with groups := vc.groups.appendAll gs }
  | [], vc => rfl
  | qGroup :: qGroups, vc => by
    rw [List.foldlM_cons, List.mapM_cons]
    cases h : questionGroup qGroup with
    | none => simp
    | some g =>
      have ih := loadLoop_eq qGroups { vc with groups := vc.groups.append g }
      simp only [Option.bind_eq_bind, Option.bind_some] at ih ⊢
      rw [ih]
      cases qGroups.mapM questionGroup <;> rfl

theorem loadQuestionsFromFB_some {snapshot : DataSnapshot} :
    vc.loadQuestionsFromFB snapshot = some vc' ↔
      ∃ gs r q, questionGroupsOf snapshot = some gs ∧ (vc.groups.appendAll gs).refs[0]? = some r ∧
        ((vc.groups.appendAll gs).obj r).questions[0]? = some q ∧
        vc' = (vc.delivered gs r q).displayCurrentQuestion := by
  unfold loadQuestionsFromFB
  simp only [loadLoop_eq]
  unfold questionGroupsOf setupQuestionView
  simp only [Option.bind_eq_bind, Option.bind_eq_some_iff, Option.map_eq_some_iff, Option.some.injEq]
  constructor
  · rintro ⟨arr, harr, -, ⟨gs, hgs, rfl⟩, r, hr, q, hq, rfl⟩
    exact ⟨gs, r, q, ⟨arr, harr, hgs⟩, hr, hq, rfl⟩
  · rintro ⟨gs, r, q, ⟨arr, harr, hgs⟩, hr, hq, rfl⟩
    exact ⟨arr, harr, _, ⟨gs, hgs, rfl⟩, r, hr, q, hq, rfl⟩

/-! ## No trap -/

/-- Every group has a question. -/
def Solid (vc : QuestionVC) : Prop := ∀ g ∈ vc.groups.values, g.questions ≠ []

theorem Solid.first (h : vc.Solid) {i : Nat} {r : Ref} (hr : vc.questionGroups[i]? = some r) :
    ∃ q, (vc.groups.obj r).questions[0]? = some q := by
  have hne := h _ (List.mem_map_of_mem (List.mem_of_getElem? hr))
  exact ⟨_, List.getElem?_eq_getElem (List.length_pos_of_ne_nil hne)⟩

/-- A press does not trap when every group has a question. -/
theorem Solid.press (h : vc.Solid) (a : Radio) : ∃ vc', Press vc a vc' := by
  by_cases hq : goesOn vc.currentQuestion a = true ∧ vc.questionIndex + 1 < vc.group.questions.length
  · exact ⟨_, .question _ hq.1 (List.getElem?_eq_getElem hq.2)⟩
  have hpast : goesOn vc.currentQuestion a = true → vc.group.questions.length ≤ vc.questionIndex + 1 :=
    fun hon => Nat.le_of_not_lt fun hlt => hq ⟨hon, hlt⟩
  by_cases hg : vc.questionGroupIndex + 1 < vc.questionGroups.length
  · have hr := List.getElem?_eq_getElem hg
    obtain ⟨q, hq⟩ := h.first hr
    exact ⟨_, .group _ q hpast hr hq⟩
  · exact ⟨_, .results hpast (Nat.le_of_not_lt hg)⟩

end QuestionVC

/-- The snapshot decodes to the questionnaire `gs`: it has a group, and every group has a question. -/
structure Loads (snapshot : DataSnapshot) (gs : List QuestionGroup) : Prop where
  decodes : QuestionVC.questionGroupsOf snapshot = some gs
  groups : gs ≠ []
  questions : ∀ g ∈ gs, g.questions ≠ []

theorem mapM_forall {α β : Type} {f : α → Option β} {P : β → Prop} (hf : ∀ x y, f x = some y → P y) :
    ∀ {xs : List α} {ys : List β}, xs.mapM f = some ys → ∀ y ∈ ys, P y
  | [], ys, h, y, hy => by
    cases h
    exact absurd hy List.not_mem_nil
  | x :: xs, ys, h, y, hy => by
    simp only [List.mapM_cons, Option.bind_eq_bind, Option.bind_eq_some_iff] at h
    obtain ⟨z, hz, zs, hzs, he⟩ := h
    cases he
    rcases List.mem_cons.1 hy with rfl | hy
    · exact hf x y hz
    · exact mapM_forall hf hzs y hy

/-- A group arrives with its flag down. -/
theorem unmarked_of_decodes {snapshot : DataSnapshot} {gs : List QuestionGroup}
    (h : QuestionVC.questionGroupsOf snapshot = some gs) : ∀ g ∈ gs, g.attachResource = false := by
  obtain ⟨qGroups, -, hm⟩ := Option.bind_eq_some_iff.1 h
  refine mapM_forall (fun qGroup g hg => ?_) hm
  unfold QuestionVC.questionGroup at hg
  simp only [Option.bind_eq_bind, Option.bind_eq_some_iff, Option.some.injEq] at hg
  obtain ⟨_, -, _, -, _, -, _, -, _, -, _, -, rfl⟩ := hg
  rfl

/-! ## A questionnaire -/

/-- A question as it is stored. -/
def questionJson (question answerCountToRes answerWhichGoesToNext : String) (alwaysGoToNext : Bool) : Json :=
  .object
    [("question", .string question), ("alwaysGoToNext", .bool alwaysGoToNext),
      ("answerCountToRes", .string answerCountToRes), ("answerWhichGoesToNext", .string answerWhichGoesToNext)]

/-- Two groups, the first with two questions. -/
def sampleSnapshot : DataSnapshot where
  key := "qgroup"
  value := .array
    [.object
      [("Title", .string "Education"),
        ("Questions", .array
          [questionJson "Are you currently in school or a GED program?" "No" "Yes" false,
            questionJson "Have you missed more than 1 class a week?" "Yes" "n/a" false])],
      .object
      [("Title", .string "Housing"),
        ("Questions", .array [questionJson "Do you have a reliable place to live?" "No" "n/a" false])]]

def sampleGroups : List QuestionGroup :=
  [{ title := "Education"
     questions :=
      [{ question := "Are you currently in school or a GED program?"
         answerCorrespondingToResource := some false
         answerWhichGoesToNext := some true },
        { question := "Have you missed more than 1 class a week?"
          answerCorrespondingToResource := some true }] },
    { title := "Housing"
      questions :=
      [{ question := "Do you have a reliable place to live?"
         answerCorrespondingToResource := some false }] }]

theorem sample_loads : Loads sampleSnapshot sampleGroups where
  decodes := by decide
  groups := by decide
  questions := by decide

end CareDirect.Screener
