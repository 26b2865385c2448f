import CareDirect.Screener.Live
import CareDirect.Screener.Progress

/-!
# The same questionnaire once more

A delivery of the questionnaire that is already loaded appends its groups once more, goes back to its first question
and keeps the indices. So it is never unseen (`redelivery_seen`): there are twice as many groups, and a user who is
never sure, and so is asked the rest of the group and every question of the groups after it, needs more answers to
reach the results (`remaining_load`).
-/

namespace CareDirect.Screener

open PartialRun

namespace QuestionVC

variable {vc vc' : QuestionVC} {snapshot : DataSnapshot} {gs : List QuestionGroup}

/-- A user answers by what the labels show; `k` answers. -/
def session (user : Option (String × String) → Radio) : ℕ → QuestionVC → Option QuestionVC
  | 0, vc => some vc
  | k + 1, vc => (run step vc [.touch (user vc.screen), .next]).bind (session user k)

/-- For every user, the questions asked and the arrays handed over from now on are the same. -/
def SameSession (vc vc' : QuestionVC) : Prop :=
  ∀ user k, (session user k vc).map (fun w => (w.screen, w.presented)) =
    (session user k vc').map fun w => (w.screen, w.presented)

/-- Another delivery of `snapshot` changes neither the question on screen nor the number of groups, nor what any user
sees afterwards. -/
def RedeliveryNoOp (snapshot : DataSnapshot) (vc : QuestionVC) : Prop :=
  ∃ vc', step vc (.qgroup snapshot) = some vc' ∧ vc'.screen = vc.screen ∧
    vc'.questionGroups.length = vc.questionGroups.length ∧ SameSession vc' vc

/-! ## A user who is never sure -/

/-- The answers that a user who is never sure gives before the results: for the rest of the current group, and for
every question of the groups after it. -/
def remaining (vc : QuestionVC) : ℕ :=
  max 1 (vc.group.questions.length - vc.questionIndex) +
    (lengths (vc.contents.drop (vc.questionGroupIndex + 1))).sum

theorem one_le_remaining (vc : QuestionVC) : 1 ≤ vc.remaining :=
  Nat.le_trans (Nat.le_max_left 1 _) (Nat.le_add_right _ _)

theorem goesOn_notSure (q : ScreenerQuestion) : goesOn q .notSure = true := rfl

theorem remaining_eq (vc : QuestionVC) {L g i : ℕ} (hL : vc.group.questions.length = L) (hp : vc.position = (g, i)) :
    vc.remaining = max 1 (L - i) + (lengths (vc.contents.drop (g + 1))).sum := by
  obtain ⟨hg, hi⟩ := Prod.mk.inj hp
  rw [remaining, hL, hg, hi]

/-- An answer of this user uses up one of the remaining ones, the last one shows the results. -/
theorem Press.remaining (hp : Press vc .notSure vc') :
    vc'.presented = vc.presented ∧ vc.remaining = vc'.remaining + 1 ∨ vc.remaining = 1 ∧ vc'.presented ≠ [] := by
  have hcontents := hp.contents
  have hvc := vc.remaining_eq rfl rfl
  cases hp with
  | question q on hq =>
    have hlt := (List.getElem?_eq_some_iff.1 hq).1
    have hvc' := remaining_eq ((vc.mark .notSure).toQuestion q).displayCurrentQuestion
      (L := vc.group.questions.length) (g := vc.questionGroupIndex) (i := vc.questionIndex + 1) (by simp) (by simp)
    rw [hcontents] at hvc'
    exact .inl ⟨by simp, by omega⟩
  | group r q past hr hq =>
    have hle := past (goesOn_notSure _)
    have hpos := (List.getElem?_eq_some_iff.1 hq).1
    have hnext := vc.getElem?_contents (vc.questionGroupIndex + 1)
    rw [hr] at hnext
    obtain ⟨hin, he⟩ := List.getElem?_eq_some_iff.1 hnext
    rw [List.drop_eq_getElem_cons hin, he, lengths, List.map_cons, List.sum_cons] at hvc
    have hvc' := remaining_eq
      (((vc.mark .notSure).toGroup r q).displayCurrentQuestion.displayIf (goesOn vc.currentQuestion .notSure))
      (L := (vc.groups.obj r).questions.length) (g := vc.questionGroupIndex + 1) (i := 0) (by simp) (by simp)
    rw [hcontents, lengths] at hvc'
    simp only [QuestionGroup.content] at hvc
    exact .inl ⟨by simp, by omega⟩
  | results past hend =>
    refine .inr ⟨?_, by simp⟩
    have hle := past (goesOn_notSure _)
    rw [List.drop_of_length_le (by rwa [length_contents])] at hvc
    simp only [lengths, List.map_nil, List.sum_nil] at hvc
    omega

/-- One answer of this user. -/
theorem round_notSure (hs : ∀ c ∈ vc.contents, c.2 ≠ []) :
    ∃ w, run step vc [.touch .notSure, .next] = some w ∧ w.contents = vc.contents ∧
      (w.presented = vc.presented ∧ vc.remaining = w.remaining + 1 ∨ vc.remaining = 1 ∧ w.presented ≠ []) := by
  have hsolid : Solid { vc with radios := vc.radios.touchUpInside .notSure } := solid_of_contents rfl hs
  obtain ⟨w, hp⟩ := hsolid.press .notSure
  refine ⟨w, ?_, hp.contents, hp.remaining⟩
  have hnext := (nextQuestionButton_press rfl).2 hp
  simpa [step] using hnext

/-- Until the remaining answers are used up, this user sees no results. -/
theorem session_before : ∀ (k : ℕ) {vc : QuestionVC}, (∀ c ∈ vc.contents, c.2 ≠ []) → vc.presented = [] →
    k < vc.remaining → ∃ w, session (fun _ => .notSure) k vc = some w ∧ w.presented = []
  | 0, vc, _, hnone, _ => ⟨vc, rfl, hnone⟩
  | k + 1, vc, hs, hnone, hk => by
    obtain ⟨w, hw, hcontents, ⟨hsame, hrem⟩ | ⟨hlast, -⟩⟩ := round_notSure hs
    · obtain ⟨w', hw', hnone'⟩ := session_before k (hcontents ▸ hs) (hsame.trans hnone) (by omega)
      exact ⟨w', by rw [session, hw]; exact hw', hnone'⟩
    · omega

/-- With the last one the results are shown. -/
theorem session_end : ∀ (k : ℕ) {vc : QuestionVC}, (∀ c ∈ vc.contents, c.2 ≠ []) → vc.remaining = k + 1 →
    ∃ w, session (fun _ => .notSure) (k + 1) vc = some w ∧ w.presented ≠ []
  | 0, vc, hs, hk => by
    obtain ⟨w, hw, -, ⟨-, hrem⟩ | ⟨-, hne⟩⟩ := round_notSure hs
    · have hpos := one_le_remaining w
      omega
    · exact ⟨w, by rw [session, hw]; rfl, hne⟩
  | k + 1, vc, hs, hk => by
    obtain ⟨w, hw, hcontents, ⟨-, hrem⟩ | ⟨hlast, -⟩⟩ := round_notSure hs
    · obtain ⟨w', hw', hne⟩ := session_end k (hcontents ▸ hs) (by omega)
      exact ⟨w', by rw [session, hw]; exact hw', hne⟩
    · omega

/-- More remaining answers mean another session. -/
theorem not_sameSession (hs : ∀ c ∈ vc.contents, c.2 ≠ []) (hs' : ∀ c ∈ vc'.contents, c.2 ≠ [])
    (hnone : vc'.presented = []) (hlt : vc.remaining < vc'.remaining) : ¬ SameSession vc' vc := by
  intro hsame
  obtain ⟨k, hk⟩ := Nat.exists_eq_succ_of_ne_zero (Nat.ne_of_gt (one_le_remaining vc))
  obtain ⟨w, hw, hne⟩ := session_end k hs hk
  obtain ⟨w', hw', hnone'⟩ := session_before (k + 1) hs' hnone (by omega)
  have heq := hsame (fun _ => .notSure) (k + 1)
  rw [hw, hw', Option.map_some, Option.map_some, Option.some.injEq, Prod.mk.injEq] at heq
  exact hne (heq.2.symm.trans hnone')

/-! ## The redelivery -/

/-- The redelivery adds all questions of the questionnaire to the remaining ones, and takes fewer than those of the
current group away. -/
theorem remaining_load (hco : Coherent (gs.map QuestionGroup.content) vc)
    (hgs : questionGroupsOf snapshot = some gs) (h : vc.loadQuestionsFromFB snapshot = some vc') :
    vc.remaining < vc'.remaining := by
  have hcontents := load_contents h hgs
  have hposition : vc'.position = vc.position := by
    obtain ⟨gs', r, q, -, -, -, rfl⟩ := loadQuestionsFromFB_some.1 h
    simp
  have hvc := vc.remaining_eq rfl rfl
  have hvc' := vc'.remaining_eq rfl hposition
  have hin : vc.questionGroupIndex + 1 ≤ vc.contents.length := length_contents ▸ hco.inRange
  rw [hcontents, List.drop_append_of_le_length hin, lengths, List.map_append, List.sum_append] at hvc'
  have hquestion := (List.getElem?_eq_some_iff.1 hco.question).1
  have hall := Positions.sum_take_add_le hco.lengths_current
  rw [lengths] at hvc
  simp only [lengths] at hall
  omega

/-- The labels of the first question of a questionnaire. -/
def firstScreen (gs : List (String × List ScreenerQuestion)) : Option (String × String) :=
  gs[0]?.bind fun c => c.2[0]?.map fun q => (c.1, q.question)

/-- A delivery shows the first question there is. -/
theorem load_screen (h : vc.loadQuestionsFromFB snapshot = some vc') : vc'.screen = firstScreen vc'.contents := by
  obtain ⟨gs', r, q, -, hr, hq, rfl⟩ := loadQuestionsFromFB_some.1 h
  have hfirst := (vc.delivered gs' r q).displayCurrentQuestion.getElem?_contents 0
  rw [show (vc.delivered gs' r q).displayCurrentQuestion.questionGroups[0]? = some r by simpa using hr] at hfirst
  rw [firstScreen, hfirst]
  simp [QuestionGroup.content, hq]

end QuestionVC

open QuestionVC in
/-- **A redelivery is never unseen.** In every state before the results that follows the first delivery of a
questionnaire, another delivery of it doubles the number of groups, goes back to its first question and changes what
some user sees afterwards. -/
theorem redelivery_seen {snapshot : DataSnapshot} {gs : List QuestionGroup} (hl : Loads snapshot gs)
    (touches : List Radio) {es : List Event} (hes : ∀ e ∈ es, NoSnapshot e) {vc : QuestionVC}
    (hr : run step initial (touches.map .touch ++ .qgroup snapshot :: es) = some vc) (hnone : vc.presented = []) :
    (∃ vc', step vc (.qgroup snapshot) = some vc' ∧ vc'.questionGroups.length = 2 * vc.questionGroups.length ∧
      vc'.screen = firstScreen (gs.map QuestionGroup.content) ∧ ¬ SameSession vc' vc) ∧
    ¬ RedeliveryNoOp snapshot vc := by
  obtain ⟨vc₀, hopened, -, hopen⟩ := opening touches hl
  rw [hopen] at hr
  have hco := (hopened.screening.events hes hr).coherent hnone
  have hquestions := contents_nonempty hl.questions
  obtain ⟨vc', hload⟩ := (solid_of_contents hco.contents hquestions).load hl
  have hcontents : vc'.contents = gs.map QuestionGroup.content ++ gs.map QuestionGroup.content := by
    rw [load_contents hload hl.decodes, hco.contents]
  have hsession : ¬ SameSession vc' vc := by
    refine not_sameSession (hco.contents.symm ▸ hquestions) ?_ ((load_presented hload).trans hnone)
      (remaining_load hco hl.decodes hload)
    intro c hc
    rw [hcontents, List.mem_append, or_self] at hc
    exact hquestions c hc
  refine ⟨⟨vc', hload, ?_, ?_, hsession⟩, ?_⟩
  · have hlen := length_of_contents hco.contents
    rw [List.length_map] at hlen
    rw [length_load hload hl.decodes, hlen, Nat.two_mul]
  · obtain ⟨c, cs, hcs⟩ := List.exists_cons_of_ne_nil (l := gs.map QuestionGroup.content) (by simpa using hl.groups)
    rw [load_screen hload, hcontents, hcs]
    rfl
  · rintro ⟨w, hw, -, -, hsame⟩
    cases hload.symm.trans hw
    exact hsession hsame

/-- The sample again after its first question has been answered No. -/
theorem redelivery_seen_sample :
    ∃ vc, run step QuestionVC.initial [.qgroup sampleSnapshot, .touch .no, .next] = some vc ∧
      ¬ QuestionVC.RedeliveryNoOp sampleSnapshot vc := by
  obtain ⟨vc, hr, hnone⟩ := Option.map_eq_some_iff.1 (by decide :
    (run step QuestionVC.initial [.qgroup sampleSnapshot, .touch .no, .next]).map (·.presented) = some [])
  exact ⟨vc, hr, (redelivery_seen sample_loads [] (by simp [QuestionVC.NoSnapshot]) hr hnone).2⟩

open QuestionVC in
/-- The sample again at the second question: the first question is asked again. -/
theorem redelivery_restarts :
    ∃ vc, run step initial [.qgroup sampleSnapshot, .touch .yes, .next] = some vc ∧ vc.presented = [] ∧
      vc.screen = some ("Education", "Have you missed more than 1 class a week?") ∧
      ¬ RedeliveryNoOp sampleSnapshot vc := by
  have hreach : (run step initial [.qgroup sampleSnapshot, .touch .yes, .next]).map
      (fun vc => (vc.presented, vc.screen, (step vc (.qgroup sampleSnapshot)).map fun vc' => vc'.screen)) =
      some ([], some ("Education", "Have you missed more than 1 class a week?"),
        some (some ("Education", "Are you currently in school or a GED program?"))) := by decide
  obtain ⟨vc, hr, hvc⟩ := Option.map_eq_some_iff.1 hreach
  simp only [Prod.mk.injEq] at hvc
  obtain ⟨hnone, hscreen, hagain⟩ := hvc
  refine ⟨vc, hr, hnone, hscreen, ?_⟩
  rintro ⟨vc', hload, hsame, -, -⟩
  rw [hload, Option.map_some, hsame, hscreen] at hagain
  exact absurd hagain (by decide)

end CareDirect.Screener
