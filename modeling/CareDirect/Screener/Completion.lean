import CareDirect.Screener.Coherence

/-!
# The end of the screener and Back

After the results the user can go back to the same controller and press Next again. The end-of-questionnaire branch
leaves the group and the question in place while the indices move on, and `loadNextQuestion` displays once more after
the segue. `Completes` is what the end should be: step labels in range, a group index at most the number of groups, and
a segue at every further answered press. It holds exactly on the runs that never answer after the results, nor the last
question of the last group with an answer that goes on (`completes_iff`).
-/

namespace CareDirect.Screener

open PartialRun

namespace QuestionVC

variable {vc vc' : QuestionVC} {a : Radio} {gs : List (String × List ScreenerQuestion)} {e : Event} {es : List Event}

/-- The first number of the step label is between 1 and the second. -/
def StepsInRange (vc : QuestionVC) : Prop := ∀ s ∈ vc.steps, 1 ≤ s.1 ∧ s.1 ≤ s.2

/-- The screener stays within the questionnaire in every state that the run reaches, and after the results every
answered press shows them again and leaves the question. -/
structure Completes (touches : List Radio) (snapshot : DataSnapshot) (es : List Event) : Prop where
  steps : ∀ p vc, p <+: es → run step initial (touches.map .touch ++ .qgroup snapshot :: p) = some vc → vc.StepsInRange
  index : ∀ p vc, p <+: es → run step initial (touches.map .touch ++ .qgroup snapshot :: p) = some vc →
    vc.questionGroupIndex ≤ vc.questionGroups.length
  absorbing : ∀ p vc vc', p ++ [.next] <+: es →
    run step initial (touches.map .touch ++ .qgroup snapshot :: p) = some vc → vc.radios.selected ≠ none →
    vc.presented ≠ [] → step vc .next = some vc' →
    vc'.presented.length = vc.presented.length + 1 ∧ vc'.currentQuestionGroup = vc.currentQuestionGroup ∧
      vc'.currentQuestion = vc.currentQuestion

/-- The cursor is at the last question of the last group. -/
def AtLast (vc : QuestionVC) : Prop :=
  vc.questionGroupIndex + 1 = vc.questionGroups.length ∧ vc.questionIndex + 1 = vc.group.questions.length

/-- The answer `a` is given before the results, and it does not go on from the last question. -/
def Within (vc : QuestionVC) (a : Radio) : Prop :=
  vc.presented = [] ∧ (vc.AtLast → goesOn vc.currentQuestion a = false)

instance (vc : QuestionVC) : Decidable vc.AtLast := inferInstanceAs (Decidable (_ ∧ _))

instance (vc : QuestionVC) (a : Radio) : Decidable (vc.Within a) := inferInstanceAs (Decidable (_ ∧ (_ → _)))

/-- Every answer of the run is within the questionnaire. -/
def AnswersWithin (touches : List Radio) (snapshot : DataSnapshot) (es : List Event) : Prop :=
  ∀ p vc a, p ++ [.next] <+: es → run step initial (touches.map .touch ++ .qgroup snapshot :: p) = some vc →
    vc.radios.selected = some a → vc.Within a

/-! ## The step -/

/-- What holds as long as the answers are within the questionnaire. -/
structure InRange (gs : List (String × List ScreenerQuestion)) (vc : QuestionVC) : Prop where
  screening : Screening gs vc
  steps : vc.StepsInRange
  index : vc.questionGroupIndex ≤ vc.questionGroups.length

theorem Idle.steps (hi : Idle vc e vc') : vc'.steps = vc.steps := by
  cases hi <;> simp

theorem Idle.inRange (hi : Idle vc e vc') (h : InRange gs vc) : InRange gs vc' := by
  refine ⟨h.screening.idle hi, ?_, ?_⟩
  · unfold StepsInRange
    rw [hi.steps]
    exact h.steps
  · rw [(Prod.mk.inj hi.position).1, questionGroups, hi.groups]
    exact h.index

theorem StepsInRange.display (h : vc.StepsInRange) (hlt : vc.questionGroupIndex < vc.questionGroups.length) :
    vc.displayCurrentQuestion.StepsInRange := by
  intro s hs
  have happend : vc.displayCurrentQuestion.steps =
      vc.steps ++ [(vc.questionGroupIndex + 1, vc.questionGroups.length)] := by simp
  rw [happend] at hs
  rcases List.mem_append.1 hs with hs | hs
  · exact h s hs
  · rw [List.mem_singleton.1 hs]
    exact ⟨Nat.succ_le_succ (Nat.zero_le _), hlt⟩

/-- The position past the last question of a coherent state, for an answer that goes on. -/
theorem Coherent.atLast (h : Coherent gs vc) (hlast : vc.group.questions.length ≤ vc.questionIndex + 1)
    (hend : vc.questionGroups.length ≤ vc.questionGroupIndex + 1) : vc.AtLast := by
  have hq := (List.getElem?_eq_some_iff.1 h.question).1
  have hg := h.inRange
  exact ⟨by omega, by omega⟩

theorem InRange.press (h : InRange gs vc) (hp : Press vc a vc') (hw : vc.Within a) : InRange gs vc' := by
  have hco := h.screening.coherent hw.1
  have hlt := hco.inRange
  have hmark : (vc.mark a).StepsInRange := by
    unfold StepsInRange QuestionVC.steps
    rw [mark_calls]
    exact h.steps
  refine ⟨h.screening.press hp, ?_, ?_⟩
  · cases hp with
    | question q on hq => exact @StepsInRange.display ((vc.mark a).toQuestion q) hmark (by simpa using hlt)
    | group r q past hr hq =>
      have hlt' : ((vc.mark a).toGroup r q).questionGroupIndex < ((vc.mark a).toGroup r q).questionGroups.length := by
        simpa using (List.getElem?_eq_some_iff.1 hr).1
      have hdisplay := @StepsInRange.display ((vc.mark a).toGroup r q) hmark hlt'
      cases hg : goesOn vc.currentQuestion a with
      | true => exact hdisplay.display hlt'
      | false => exact hdisplay
    | results past hend =>
      cases hg : goesOn vc.currentQuestion a with
      | true => exact absurd (hw.2 (hco.atLast (past hg) hend)) (by simp [hg])
      | false =>
        show (vc.mark a).toEnd.performSegue.StepsInRange
        intro s hs
        exact hmark s (by simpa using hs)
  · have hle := hp.move.fst_le.2
    have hlen : vc'.questionGroups.length = vc.questionGroups.length := by
      rw [← length_contents, hp.contents, length_contents]
    simp only at hle
    omega

/-- Outside the questionnaire the step label or the group index leaves the range. -/
theorem Screening.overrun (h : Screening gs vc) (hindex : vc.questionGroupIndex ≤ vc.questionGroups.length)
    (hp : Press vc a vc') (hw : ¬ vc.Within a) :
    ¬ (vc'.StepsInRange ∧ vc'.questionGroupIndex ≤ vc'.questionGroups.length) := by
  rintro ⟨hsteps, hindex'⟩
  have hlen := length_of_contents h.contents
  by_cases hnone : vc.presented = []
  · have hco := h.coherent hnone
    have hlast : vc.AtLast ∧ goesOn vc.currentQuestion a = true := by
      simpa [Within, hnone] using hw
    obtain ⟨⟨hg, hq⟩, hon⟩ := hlast
    cases hp with
    | question q on hq' =>
      have := (List.getElem?_eq_some_iff.1 hq').1
      omega
    | group r q past hr hq' =>
      have := (List.getElem?_eq_some_iff.1 hr).1
      omega
    | results past hend =>
      rw [hon] at hsteps
      have := (hsteps (vc.questionGroupIndex + 2, vc.questionGroups.length) (by simp [displayIf])).2
      simp only at this
      omega
  · have hge : gs.length ≤ vc.questionGroupIndex := Nat.le_of_not_lt fun hlt => hnone (h.asking_iff.1 hlt)
    cases hp with
    | question q on hq' =>
      have := (hsteps (vc.questionGroupIndex + 1, vc.questionGroups.length) (by simp)).2
      simp only at this
      omega
    | group r q past hr hq' =>
      have := (List.getElem?_eq_some_iff.1 hr).1
      omega
    | results past hend =>
      have hlt : vc.questionGroupIndex + 1 ≤ vc.questionGroups.length := by simpa using hindex'
      omega

/-! ## The run -/

theorem InRange.run {vc₀ : QuestionVC} (h₀ : InRange gs vc₀) (hes : ∀ e ∈ es, NoSnapshot e)
    (hw : ∀ p vc a, p ++ [.next] <+: es → PartialRun.run step vc₀ p = some vc → vc.radios.selected = some a →
      vc.Within a)
    (hr : PartialRun.run step vc₀ es = some vc) : InRange gs vc := by
  induction es using List.reverseRecOn generalizing vc with
  | nil => cases hr; exact h₀
  | append_singleton es e ih =>
    obtain ⟨u, hu, hstep⟩ := run_snoc_some.1 hr
    have hrange : InRange gs u :=
      ih (fun e' he' => hes e' (List.mem_append_left _ he'))
        (fun p w a hp => hw p w a (hp.trans (List.prefix_append es [e]))) hu
    rcases step_cases hstep with hi | ⟨a, rfl, hs, hp⟩ | ⟨snapshot, hsnap, -⟩
    · exact hi.inRange hrange
    · exact hrange.press hp (hw es u a List.prefix_rfl hu hs)
    · exact absurd hsnap (hes e (by simp) snapshot)

theorem Opened.inRange {gs : List QuestionGroup} (h : Opened gs vc) (hgs : gs ≠ []) :
    InRange (gs.map QuestionGroup.content) vc := by
  have hco := h.screening.coherent h.presented
  refine ⟨h.screening, ?_, Nat.le_of_lt hco.inRange⟩
  intro s hs
  rw [h.steps, List.mem_singleton] at hs
  rw [hs]
  exact ⟨Nat.le_refl 1, List.length_pos_of_ne_nil hgs⟩

end QuestionVC

open QuestionVC in
/-- **The end is absorbing exactly while nobody answers past it.** With one snapshot, before the first press. -/
theorem completes_iff {snapshot : DataSnapshot} {gs : List QuestionGroup} (hl : Loads snapshot gs)
    (touches : List Radio) {es : List Event} (hes : ∀ e ∈ es, NoSnapshot e) :
    Completes touches snapshot es ↔ AnswersWithin touches snapshot es := by
  obtain ⟨vc₀, hopened, -, hopen⟩ := opening touches hl
  have hquiet : ∀ {p}, p <+: es → ∀ e ∈ p, NoSnapshot e := fun hp e he => hes e (hp.subset he)
  constructor
  · intro hc p vc a hp hr hs
    by_contra hw
    have hpre : p <+: es := (List.prefix_append p _).trans hp
    have hscreening := hopened.screening.events (hquiet hpre) ((hopen p).symm.trans hr)
    have hsolid := solid_of_contents hscreening.contents (contents_nonempty hl.questions)
    obtain ⟨vc', hpress⟩ := hsolid.press a
    have hr' : run step initial (touches.map .touch ++ .qgroup snapshot :: (p ++ [.next])) = some vc' := by
      rw [hopen] at hr ⊢
      exact run_snoc_some.2 ⟨vc, hr, (nextQuestionButton_press hs).2 hpress⟩
    exact hscreening.overrun (hc.index p vc hpre hr) hpress hw ⟨hc.steps _ vc' hp hr', hc.index _ vc' hp hr'⟩
  · intro hw
    have hrange : ∀ p vc, p <+: es → run step initial (touches.map .touch ++ .qgroup snapshot :: p) = some vc →
        InRange (gs.map QuestionGroup.content) vc := by
      intro p vc hp hr
      refine (hopened.inRange hl.groups).run (hquiet hp) (fun p' w a hp' hw' => ?_) ((hopen p).symm.trans hr)
      exact hw p' w a (hp'.trans hp) ((hopen p').trans hw')
    refine ⟨fun p vc hp hr => (hrange p vc hp hr).steps, fun p vc hp hr => (hrange p vc hp hr).index, ?_⟩
    intro p vc vc' hp hr hs hne
    obtain ⟨a, ha⟩ := Option.ne_none_iff_exists'.1 hs
    exact absurd (hw p vc a hp hr ha).1 hne

/-- Two answers that end the sample, and Back. -/
theorem completes_sample :
    QuestionVC.Completes [] sampleSnapshot [.touch .no, .next, .touch .yes, .next, .back] := by
  refine (completes_iff sample_loads [] (by simp [QuestionVC.NoSnapshot])).2 ?_
  intro p vc a hp hr hs
  have hwithin : ∀ q ∈ [[.touch .no], [.touch .no, .next, .touch .yes]],
      (run step QuestionVC.initial (.qgroup sampleSnapshot :: q)).all
        (fun vc => vc.radios.selected.all fun a => decide (vc.Within a)) = true := by decide
  have hmem : p ∈ [[.touch .no], [.touch .no, .next, .touch .yes]] := by
    rcases p with _ | ⟨e₁, _ | ⟨e₂, _ | ⟨e₃, _ | ⟨e₄, _ | ⟨e₅, p⟩⟩⟩⟩⟩ <;> simp at hp ⊢
    · exact hp
    · exact hp
  have hall := hwithin p hmem
  rw [show run step QuestionVC.initial (.qgroup sampleSnapshot :: p) = some vc from hr] at hall
  simpa [hs] using hall

open QuestionVC in
/-- One more answer after the results of the sample and Back: the group index is beyond the number of groups. -/
theorem completes_fails :
    ¬ Completes [] sampleSnapshot [.touch .no, .next, .touch .yes, .next, .back, .touch .yes, .next] := by
  intro hc
  have hreach : (run step initial
      [.qgroup sampleSnapshot, .touch .no, .next, .touch .yes, .next, .back, .touch .yes, .next]).map
      (fun vc => (vc.questionGroupIndex, vc.questionGroups.length)) = some (3, 2) := by decide
  obtain ⟨vc, hr, hvc⟩ := Option.map_eq_some_iff.1 hreach
  obtain ⟨hindex, hlen⟩ := Prod.mk.inj hvc
  have := hc.index _ vc List.prefix_rfl hr
  omega

end CareDirect.Screener
