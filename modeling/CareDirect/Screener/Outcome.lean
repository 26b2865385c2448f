import CareDirect.Lib.GuidedWalk
import CareDirect.Screener.Coherence

/-!
# The outcome of the screener

The controller refines the guided walk of `GuidedWalk`: `Rep vc st` relates its state to a stage of the walk, an
answered press is one answer of the walk (`Asking.press`), and everything else leaves the stage alone. So the array
handed over at the first results segue is the outcome of the walks of the groups on the answers given
(`screener_outcome`).
-/

namespace CareDirect.Screener

open GuidedWalk PartialRun

/-- The answers of a run: a press of Next while a button is selected gives the answer of that button, and deselects
it. -/
def answersOf : RadioGroup → List Event → List Radio
  | _, [] => []
  | radios, .touch b :: es => answersOf (radios.touchUpInside b) es
  | radios, .next :: es =>
    match radios.selected with
    | some a => a :: answersOf .deselected es
    | none => answersOf radios es
  | radios, .qgroup _ :: es => answersOf radios es
  | radios, .back :: es => answersOf radios es

namespace QuestionVC

variable {vc vc' : QuestionVC} {a : Radio} {done ts : List String} {hit : Bool} {t : String} {q : ScreenerQuestion}
  {qs : List ScreenerQuestion} {rest : List (String × List ScreenerQuestion)}

/-- The groups after the current one. -/
def later (vc : QuestionVC) : List QuestionGroup :=
  (vc.questionGroups.drop (vc.questionGroupIndex + 1)).map vc.groups.obj

/-- The controller waits for the answer to `q`, with `qs` and `rest` to come, and has attached `done` and, if `hit`,
the current group. -/
structure Asking (vc : QuestionVC) (done : List String) (hit : Bool) (t : String) (q : ScreenerQuestion)
    (qs : List ScreenerQuestion) (rest : List (String × List ScreenerQuestion)) : Prop where
  presented : vc.presented = []
  current : vc.questionGroups[vc.questionGroupIndex]? = some vc.currentQuestionGroup
  title : vc.group.title = t
  questions : vc.group.questions.drop vc.questionIndex = q :: qs
  question : vc.currentQuestion = q
  flag : vc.group.attachResource = hit
  attached : vc.attachedResourceCategories = close done hit t
  later : vc.later.map QuestionGroup.content = rest
  unmarked : ∀ g ∈ vc.later, g.attachResource = false
  nonempty : ∀ g ∈ vc.later, g.questions ≠ []

/-- The controller stands at a stage of the walk. -/
def Rep (vc : QuestionVC) : Stage ScreenerQuestion String → Prop
  | .asking done hit t q qs rest => Asking vc done hit t q qs rest
  | .finished ts => vc.presented.head? = some ts

theorem Rep.result {st : Stage ScreenerQuestion String} (h : Rep vc st) : vc.presented.head? = st.result := by
  cases st with
  | asking done hit t q qs rest => rw [Asking.presented h]; rfl
  | finished ts => exact h

/-! ## The step -/

/-- The flag of the current group is the only object data that an answer changes. -/
theorem mark_obj_of_ne {r : Ref} (h : r ≠ vc.currentQuestionGroup) :
    (vc.mark a).groups.obj r = vc.groups.obj r := by
  rcases mark_cases vc a with ⟨-, hm⟩ | ⟨-, -, hm⟩
  · rw [hm]
  · simp only [hm, ObjectArray.obj_modify_of_ne h]

theorem Asking.mark_later (h : Asking vc done hit t q qs rest) : (vc.mark a).later = vc.later := by
  unfold QuestionVC.later
  rw [mark_questionGroups, mark_questionGroupIndex]
  refine List.map_congr_left fun r hr => mark_obj_of_ne ?_
  exact vc.groups.ne_of_mem_drop h.current hr

/-- The first half of a press records the hit, in the flag and in the array. -/
theorem Asking.mark (h : Asking vc done hit t q qs rest) (a : Radio) :
    Asking (vc.mark a) done (hit || hits q a) t q qs rest := by
  have hflag : (vc.mark a).group.attachResource = (hit || hits q a) ∧
      (vc.mark a).attachedResourceCategories = close done (hit || hits q a) t := by
    have hf := h.flag
    have ha := h.attached
    rcases mark_cases vc a with ⟨himp, hm⟩ | ⟨hhit, hfalse, hm⟩
    · rw [h.question, hf] at himp
      have hor : (hit || hits q a) = hit := by
        cases hit with
        | true => rfl
        | false => cases hq : hits q a with
          | true => exact absurd (himp hq) Bool.false_ne_true
          | false => rfl
      rw [hm, hor]
      exact ⟨hf, ha⟩
    · rw [h.question] at hhit
      have hhit0 : hit = false := hf.symm.trans hfalse
      subst hhit0
      rw [hm, hhit]
      refine ⟨?_, ?_⟩
      · simp
      · change vc.attachedResourceCategories ++ [vc.group.title] = done ++ [t]
        rw [ha, h.title]
        rfl
  refine ⟨?_, ?_, ?_, ?_, ?_, hflag.1, hflag.2, ?_, ?_, ?_⟩
  · simpa using h.presented
  · simpa using h.current
  · simpa using h.title
  · simpa using h.questions
  · simpa using h.question
  · rw [h.mark_later]; exact h.later
  · rw [h.mark_later]; exact h.unmarked
  · rw [h.mark_later]; exact h.nonempty

theorem drop_succ_eq {α : Type*} {l : List α} {i : ℕ} {x : α} {xs : List α} (h : l.drop i = x :: xs) :
    l.drop (i + 1) = xs := by
  rw [← List.drop_drop, h, List.drop_succ_cons, List.drop_zero]

theorem getElem?_of_drop {α : Type*} {l : List α} {i : ℕ} {x : α} {xs : List α} (h : l.drop i = x :: xs) :
    l[i + 1]? = xs[0]? := by
  rw [← drop_succ_eq h, List.getElem?_drop]

theorem Asking.displayIf {b : Bool} (h : Asking vc done hit t q qs rest) :
    Asking (vc.displayIf b) done hit t q qs rest := by
  cases b with
  | false => exact h
  | true =>
    exact ⟨by simpa [QuestionVC.displayIf] using h.presented, h.current, h.title, h.questions, h.question, h.flag,
      h.attached, h.later, h.unmarked, h.nonempty⟩

/-- When no question is left for the answer, it ends the walk of the group. -/
theorem Asking.answer_of_past (h : Asking vc done hit t q qs rest)
    (past : goesOn vc.currentQuestion a = true → vc.group.questions.length ≤ vc.questionIndex + 1) :
    (Stage.asking done hit t q qs rest).answer hits goesOn a = enter (close done (hit || hits q a) t) rest := by
  cases qs with
  | nil => rfl
  | cons q' qs =>
    have hoff : goesOn q a = false := by
      cases hg : goesOn q a with
      | false => rfl
      | true =>
        have hlen := congrArg List.length h.questions
        have hle := past (h.question ▸ hg)
        simp only [List.length_drop, List.length_cons] at hlen
        omega
    rw [Stage.answer, hoff]
    rfl

/-- `loadNextQuestion` inside the group goes on with the walk of the group. -/
theorem Asking.toQuestion {q' : ScreenerQuestion} (h : Asking vc done hit t q (q' :: qs) rest) :
    Asking (vc.toQuestion q').displayCurrentQuestion done hit t q' qs rest := by
  refine ⟨by simpa using h.presented, h.current, h.title, ?_, rfl, h.flag, h.attached, h.later, h.unmarked, h.nonempty⟩
  exact drop_succ_eq h.questions

/-- `loadNextQuestionGroup` before the end enters the next group. -/
theorem Asking.toGroup {r : Ref} {q' : ScreenerQuestion} (h : Asking vc done hit t q qs rest)
    (hr : vc.questionGroups[vc.questionGroupIndex + 1]? = some r) (hq : (vc.groups.obj r).questions[0]? = some q') :
    ∃ t' qs' rest', enter (close done hit t) rest = .asking (close done hit t) false t' q' qs' rest' ∧
      Asking (vc.toGroup r q').displayCurrentQuestion (close done hit t) false t' q' qs' rest' := by
  have hlater : vc.later = vc.groups.obj r :: (vc.toGroup r q').later := by
    obtain ⟨hlt, he⟩ := List.getElem?_eq_some_iff.1 hr
    simp only [QuestionVC.later, List.drop_eq_getElem_cons hlt, he, List.map_cons, toGroup_groups, questionGroups,
      toGroup_questionGroupIndex]
  obtain ⟨xs, hxs⟩ : ∃ xs, (vc.groups.obj r).questions = q' :: xs := by
    cases hxs : (vc.groups.obj r).questions with
    | nil => rw [hxs] at hq; cases hq
    | cons x xs => rw [hxs] at hq; cases hq; exact ⟨xs, rfl⟩
  have hrest := h.later
  have hun := h.unmarked
  have hne := h.nonempty
  rw [hlater] at hrest hun hne
  rw [List.map_cons, QuestionGroup.content, hxs] at hrest
  refine ⟨_, xs, _, by rw [← hrest]; rfl, by simpa using h.presented, hr, rfl, hxs, rfl, hun _ List.mem_cons_self,
    h.attached, rfl, ?_, ?_⟩
  · exact fun g hg => hun g (List.mem_cons_of_mem _ hg)
  · exact fun g hg => hne g (List.mem_cons_of_mem _ hg)

/-- **An answered press is one answer of the walk.** -/
theorem Asking.press (h : Asking vc done hit t q qs rest) (hp : Press vc a vc') :
    Rep vc' ((Stage.asking done hit t q qs rest).answer hits goesOn a) := by
  have hm := h.mark a
  cases hp with
  | question q' on hq =>
    rw [getElem?_of_drop h.questions] at hq
    cases qs with
    | nil => cases hq
    | cons q'' qs =>
      cases hq
      rw [Stage.answer, if_pos (h.question ▸ on)]
      exact hm.toQuestion
  | group r q' past hr hq =>
    obtain ⟨t', qs', rest', henter, hasking⟩ := hm.toGroup (by simpa using hr) (by simpa using hq)
    rw [h.answer_of_past past, henter]
    exact hasking.displayIf
  | results past hend =>
    rw [h.answer_of_past past]
    have hrest : rest = [] := by
      rw [← h.later, QuestionVC.later, List.drop_of_length_le hend]
      rfl
    subst hrest
    have hpres : vc.calls.filterMap UICall.segue? = [] := h.presented
    have hatt := hm.attached
    show ((vc.mark a).toEnd.performSegue.displayIf _).presented.head? = some (close done (hit || hits q a) t)
    rw [displayIf_presented]
    simp [hpres, hatt]

/-! ## The run -/

theorem Idle.asking {e : Event} (hi : Idle vc e vc') (h : Asking vc done hit t q qs rest) :
    Asking vc' done hit t q qs rest := by
  have hp := hi.presented.trans h.presented
  cases hi <;> exact ⟨hp, h.current, h.title, h.questions, h.question, h.flag, h.attached, h.later, h.unmarked,
    h.nonempty⟩

theorem Idle.rep {e : Event} (hi : Idle vc e vc') {st : Stage ScreenerQuestion String} (h : Rep vc st) :
    Rep vc' st := by
  cases st with
  | asking done hit t q qs rest => exact hi.asking h
  | finished ts =>
    show vc'.presented.head? = some ts
    rw [hi.presented]
    exact h

/-- Once the results have been shown, the first array handed over stays the first. -/
theorem Press.rep (hp : Press vc a vc') {st : Stage ScreenerQuestion String} (h : Rep vc st) :
    Rep vc' (st.answer hits goesOn a) := by
  cases st with
  | asking done hit t q qs rest => exact Asking.press h hp
  | finished ts =>
    obtain ⟨more, hmore⟩ := hp.presented_prefix
    show vc'.presented.head? = some ts
    rw [← hmore, List.head?_append, show vc.presented.head? = some ts from h]
    rfl

/-- The answers of a run, one event at a time. -/
theorem answersOf_step {e : Event} {es : List Event} (h : step vc e = some vc') (he : NoSnapshot e) :
    Idle vc e vc' ∧ answersOf vc.radios (e :: es) = answersOf vc'.radios es ∨
      ∃ a, Press vc a vc' ∧ answersOf vc.radios (e :: es) = a :: answersOf vc'.radios es := by
  rcases step_cases h with hi | ⟨a, rfl, hs, hp⟩ | ⟨snapshot, hsnap, -⟩
  · refine .inl ⟨hi, ?_⟩
    cases hi with
    | touch b => rfl
    | alert hs =>
      show (match vc.radios.selected with
        | some a => a :: answersOf .deselected es
        | none => answersOf vc.radios es) = _
      rw [hs]
      rfl
    | back => rfl
  · refine .inr ⟨a, hp, ?_⟩
    rw [hp.radios]
    show (match vc.radios.selected with
      | some a => a :: answersOf .deselected es
      | none => answersOf vc.radios es) = _
    rw [hs]
  · exact absurd hsnap (he snapshot)

/-- **A run is the walk on its answers.** -/
theorem Rep.run : ∀ {es : List Event} {vc : QuestionVC} {st : Stage ScreenerQuestion String}, Rep vc st →
    (∀ e ∈ es, NoSnapshot e) → PartialRun.run step vc es = some vc' →
    Rep vc' ((answersOf vc.radios es).foldl (Stage.answer hits goesOn) st)
  | [], vc, st, h, _, hr => by cases hr; exact h
  | e :: es, vc, st, h, hes, hr => by
    rw [run_cons, Option.bind_eq_some_iff] at hr
    obtain ⟨w, hw, hr⟩ := hr
    have hrest : ∀ e ∈ es, NoSnapshot e := fun e' he' => hes e' (List.mem_cons_of_mem _ he')
    rcases @answersOf_step _ _ _ es hw (hes e List.mem_cons_self) with ⟨hi, ha⟩ | ⟨a, hp, ha⟩
    · rw [ha]
      exact Rep.run (hi.rep h) hrest hr
    · rw [ha, List.foldl_cons]
      exact Rep.run (hp.rep h) hrest hr

/-- The first delivery puts the controller at the first stage of the walk. -/
theorem Opened.rep {gs : List QuestionGroup} (h : Opened gs vc) (hgs : gs ≠ [])
    (hne : ∀ g ∈ gs, g.questions ≠ []) (hun : ∀ g ∈ gs, g.attachResource = false) :
    Rep vc (enter [] (gs.map QuestionGroup.content)) := by
  have hco := h.screening.coherent h.presented
  obtain ⟨hgi, hqi⟩ := Prod.mk.inj h.position
  obtain ⟨g, gs, rfl⟩ := List.exists_cons_of_ne_nil hgs
  obtain ⟨q, qs, hqs⟩ := List.exists_cons_of_ne_nil (hne g List.mem_cons_self)
  have hvalues : vc.questionGroups.map vc.groups.obj = g :: gs := h.values
  have hgroup := hco.group
  rw [hgi] at hgroup
  have hg : vc.group = g := by
    have := ObjectArray.getElem?_values vc.groups 0
    rw [h.values, hgroup] at this
    exact (Option.some.inj this).symm
  have hlater : vc.later = gs := by
    rw [later, hgi, List.map_drop, hvalues]
    rfl
  have hquestion : vc.currentQuestion = q := by
    have := hco.question
    rw [hqi, hg, hqs] at this
    exact (Option.some.inj this).symm
  show Rep vc (enter [] ((g.title, g.questions) :: gs.map QuestionGroup.content))
  rw [hqs]
  refine ⟨h.presented, hco.group, by rw [hg], by rw [hqi, hg, hqs]; rfl, hquestion, ?_, h.attached, by rw [hlater],
    ?_, ?_⟩
  · rw [hg]; exact hun g List.mem_cons_self
  · rw [hlater]; exact fun g' hg' => hun g' (List.mem_cons_of_mem _ hg')
  · rw [hlater]; exact fun g' hg' => hne g' (List.mem_cons_of_mem _ hg')

end QuestionVC

theorem answersOf_touches (es : List Event) : ∀ (touches : List Radio) (radios : RadioGroup),
    answersOf radios (touches.map .touch ++ es) = answersOf (touches.foldl RadioGroup.touchUpInside radios) es
  | [], _ => rfl
  | b :: touches, radios => answersOf_touches es touches (radios.touchUpInside b)

open QuestionVC in
/-- **The outcome of the screener.** With one snapshot, before the first press, no event traps, and the array handed
over at the first results segue is the outcome of the walks on the answers given; no segue is performed before these
decide it. -/
theorem screener_outcome {snapshot : DataSnapshot} {gs : List QuestionGroup} (hl : Loads snapshot gs)
    (touches : List Radio) {es : List Event} (hes : ∀ e ∈ es, NoSnapshot e) :
    ∃ vc, run step initial (touches.map .touch ++ .qgroup snapshot :: es) = some vc ∧
      vc.presented.head? = outcome hits goesOn (gs.map QuestionGroup.content)
        (answersOf .deselected (touches.map .touch ++ .qgroup snapshot :: es)) := by
  obtain ⟨vc₀, hopened, hradios, hopen⟩ := opening touches hl
  obtain ⟨vc, hrun⟩ := hopened.screening.total (contents_nonempty hl.questions) hes
  have hrep := (hopened.rep hl.groups hl.questions (unmarked_of_decodes hl.decodes)).run hes hrun
  refine ⟨vc, (hopen es).trans hrun, ?_⟩
  rw [hrep.result, answer_outcome, hradios, answersOf_touches]
  rfl

/-- On the sample, three answers: in school, then not sure, then no reliable place to live. -/
theorem screener_outcome_sample :
    ∃ vc, run step QuestionVC.initial
        ([Radio.no].map .touch ++ .qgroup sampleSnapshot ::
          [.touch .yes, .next, .next, .touch .notSure, .next, .touch .no, .next]) = some vc ∧
      vc.presented.head? = some ["Housing"] := by
  obtain ⟨vc, hrun, hout⟩ := @screener_outcome _ _ sample_loads [.no]
    [.touch .yes, .next, .next, .touch .notSure, .next, .touch .no, .next] (by simp [QuestionVC.NoSnapshot])
  exact ⟨vc, hrun, hout.trans (by decide)⟩

end CareDirect.Screener
