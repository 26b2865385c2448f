import CareDirect.Screener.Outcome

/-!
# Results before the questionnaire

Until the first snapshot arrives the controller holds a placeholder group with a placeholder question, on which Next is
enabled. An answered press on it performs the results segue (`Unloaded.press`). So the segue waits for the first
question of every group exactly on the runs without such a press (`no_early_results`).

`Asked gs h vc` is the invariant of the other runs: after the events `h`, the first question of every group that the
cursor has left, or is inside of, has been shown and answered.
-/

namespace CareDirect.Screener

open Positions PartialRun

namespace QuestionVC

variable {vc vc' : QuestionVC} {a : Radio} {gs : List (String × List ScreenerQuestion)} {e : Event} {es : List Event}

/-- A press of Next, with a button selected, while the first question of group `g` is current and on the screen. -/
def AnswersFirst (g : ℕ) (vc : QuestionVC) (e : Event) : Prop :=
  e = .next ∧ vc.radios.selected ≠ none ∧ vc.questionGroups[g]? = some vc.currentQuestionGroup ∧
    vc.questionIndex = 0 ∧ vc.group.questions[0]? = some vc.currentQuestion ∧
    vc.screen = some (vc.group.title, vc.currentQuestion.question)

/-- A results segue is performed only after a snapshot has been loaded and the first question of every group has been
shown and answered. -/
def NoEarlyResults (es : List Event) : Prop :=
  ∀ p e r u v, es = p ++ e :: r → run step initial p = some u → step u e = some v → v.presented ≠ u.presented →
    (∃ snapshot, .qgroup snapshot ∈ p) ∧
      ∀ g < v.questionGroups.length, Occurs step initial (p ++ [e]) (AnswersFirst g)

/-! ## Before the first snapshot -/

/-- No group is loaded, and the current one is the placeholder with its one question. -/
structure Unloaded (vc : QuestionVC) : Prop where
  groups : vc.questionGroups = []
  single : vc.group.questions.length = 1

/-- **A press on the placeholder shows the results.** -/
theorem Unloaded.press (h : Unloaded vc) (hp : Press vc a vc') : Unloaded vc' ∧ vc'.presented ≠ vc.presented := by
  have hsingle := h.single
  cases hp with
  | question q on hq =>
    have := (List.getElem?_eq_some_iff.1 hq).1
    omega
  | group r q past hr hq =>
    rw [h.groups] at hr
    cases hr
  | results past hend =>
    refine ⟨⟨?_, ?_⟩, ?_⟩
    · simpa using h.groups
    · simpa using hsingle
    · simp

theorem Idle.unloaded (hi : Idle vc e vc') (h : Unloaded vc) : Unloaded vc' := by
  cases hi <;> exact ⟨h.groups, h.single⟩

/-- No event but a snapshot traps before the first snapshot. -/
theorem Unloaded.step (h : Unloaded vc) (he : NoSnapshot e) : ∃ vc', Screener.step vc e = some vc' ∧ Unloaded vc' := by
  have hsolid : vc.Solid := by
    intro g hg
    have hnil : vc.groups.values = [] := by
      rw [ObjectArray.values, show vc.groups.refs = [] from h.groups]
      rfl
    rw [hnil] at hg
    exact absurd hg List.not_mem_nil
  cases e with
  | touch b => exact ⟨_, rfl, (Idle.touch b).unloaded h⟩
  | next =>
    cases hs : vc.radios.selected with
    | none => exact ⟨_, nextQuestionButton_unselected hs, (Idle.alert hs).unloaded h⟩
    | some a =>
      obtain ⟨vc', hp⟩ := hsolid.press a
      exact ⟨vc', (nextQuestionButton_press hs).2 hp, (h.press hp).1⟩
  | qgroup snapshot => exact absurd rfl (he snapshot)
  | back => exact ⟨_, rfl, h⟩

/-- An answer before the first snapshot is a press that shows the results. -/
theorem Unloaded.answered (h : Unloaded vc) (hes : ∀ e ∈ es, NoSnapshot e) (ha : answersOf vc.radios es ≠ []) :
    ∃ p e r u v, es = p ++ e :: r ∧ run Screener.step vc p = some u ∧ Screener.step u e = some v ∧
      v.presented ≠ u.presented := by
  induction es generalizing vc with
  | nil => exact absurd rfl ha
  | cons e es ih =>
    obtain ⟨w, hw, hunloaded⟩ := h.step (hes e List.mem_cons_self)
    rcases @answersOf_step _ _ _ es hw (hes e List.mem_cons_self) with ⟨-, heq⟩ | ⟨a, hp, -⟩
    · rw [heq] at ha
      obtain ⟨p, e', r, u, v, rfl, hu, hv, hne⟩ :=
        ih hunloaded (fun e' he' => hes e' (List.mem_cons_of_mem _ he')) ha
      exact ⟨e :: p, e', r, u, v, rfl, by rw [run_cons, hw]; exact hu, hv, hne⟩
    · exact ⟨[], e, es, vc, w, rfl, rfl, hw, (h.press hp).2⟩

theorem Idle.fresh (hi : Idle vc e vc') (h : Fresh vc) : Fresh vc' := by
  refine ⟨hi.groups.trans h.groups, hi.position.trans h.position, ?_, hi.presented.trans h.presented, ?_⟩
  · cases hi <;> exact h.attached
  · cases hi <;> simpa using h.steps

/-- Without an answer nothing happens before the first snapshot. -/
theorem Fresh.run {p c : List Event} (h : Fresh vc) (hes : ∀ e ∈ p ++ c, NoSnapshot e)
    (ha : answersOf vc.radios (p ++ c) = []) (hr : PartialRun.run step vc p = some vc') :
    Fresh vc' ∧ answersOf vc'.radios c = [] := by
  induction p generalizing vc with
  | nil => cases hr; exact ⟨h, ha⟩
  | cons e p ih =>
    rw [run_cons, Option.bind_eq_some_iff] at hr
    obtain ⟨w, hw, hr⟩ := hr
    rw [List.cons_append] at ha hes
    rcases @answersOf_step _ _ _ (p ++ c) hw (hes e List.mem_cons_self) with ⟨hi, heq⟩ | ⟨a, -, heq⟩
    · exact ih (hi.fresh h) (fun e' he' => hes e' (List.mem_cons_of_mem _ he')) (heq ▸ ha) hr
    · rw [heq] at ha
      cases ha

/-! ## After the snapshot -/

theorem Press.screen (hp : Press vc a vc') (h : vc'.presented = vc.presented) :
    vc'.screen = some (vc'.group.title, vc'.currentQuestion.question) := by
  cases hp with
  | question q on hq => simp
  | group r q past hr hq => cases hg : goesOn vc.currentQuestion a <;> simp [displayIf]
  | results past hend => simp at h

theorem Idle.screen (hi : Idle vc e vc') : vc'.screen = vc.screen := by
  cases hi <;> simp

/-- After the events `h`: a question before the results is on the screen, and the first question of every group up to
the cursor has been shown and answered. -/
structure Asked (gs : List (String × List ScreenerQuestion)) (h : List Event) (vc : QuestionVC) : Prop where
  screening : Screening gs vc
  shown : vc.presented = [] → vc.screen = some (vc.group.title, vc.currentQuestion.question)
  past : ∀ g < gs.length, g < vc.questionGroupIndex → Occurs step initial h (AnswersFirst g)
  current : vc.questionGroupIndex < gs.length → vc.questionIndex ≠ 0 →
    Occurs step initial h (AnswersFirst vc.questionGroupIndex)

theorem Asked.idle {h : List Event} (ha : Asked gs h vc) (hi : Idle vc e vc') : Asked gs (h ++ [e]) vc' := by
  obtain ⟨hgi, hqi⟩ := Prod.mk.inj hi.position
  refine ⟨ha.screening.idle hi, fun hnone => ?_, fun g hg hlt => ?_, fun hlt hne => ?_⟩
  · rw [hi.screen, ha.shown (hi.presented.symm.trans hnone)]
    cases hi <;> rfl
  · exact (ha.past g hg (hgi ▸ hlt)).append [e]
  · rw [hgi] at hlt ⊢
    exact (ha.current hlt (hqi ▸ hne)).append [e]

theorem Asked.press {h : List Event} (ha : Asked gs h vc) (hr : run step initial h = some vc)
    (hs : vc.radios.selected = some a) (hp : Press vc a vc') : Asked gs (h ++ [.next]) vc' := by
  have hmove := hp.move.eq_or
  simp only [Prod.mk.injEq] at hmove
  -- the press itself answers the first question of the group, unless that has happened before
  have hcurrent : vc.questionGroupIndex < gs.length →
      Occurs step initial (h ++ [.next]) (AnswersFirst vc.questionGroupIndex) := by
    intro hlt
    obtain ⟨hco, hnone⟩ := ha.screening.asking hlt
    by_cases hqi : vc.questionIndex = 0
    · have hq := hco.question
      rw [hqi] at hq
      exact (occurs_snoc hr).2 (.inr ⟨rfl, by simp [hs], hco.group, hqi, hq, ha.shown hnone⟩)
    · exact (ha.current hlt hqi).append _
  refine ⟨ha.screening.press hp, fun hnone => ?_, fun g hg hlt => ?_, fun hlt hne => ?_⟩
  · have hbefore : vc.presented = [] := List.prefix_nil.1 (hnone ▸ hp.presented_prefix)
    exact hp.screen (hnone.trans hbefore.symm)
  · by_cases hgi : g < vc.questionGroupIndex
    · exact (ha.past g hg hgi).append _
    · have heq : g = vc.questionGroupIndex := by omega
      rw [heq] at hg ⊢
      exact hcurrent hg
  · have hgi : vc'.questionGroupIndex = vc.questionGroupIndex := by omega
    rw [hgi] at hlt ⊢
    exact hcurrent hlt

theorem Asked.step {h : List Event} (ha : Asked gs h vc) (hr : run Screener.step initial h = some vc)
    (he : NoSnapshot e) (hs : Screener.step vc e = some vc') : Asked gs (h ++ [e]) vc' := by
  rcases step_cases hs with hi | ⟨a, rfl, hsel, hp⟩ | ⟨snapshot, hsnap, -⟩
  · exact ha.idle hi
  · exact ha.press hr hsel hp
  · exact absurd hsnap (he snapshot)

theorem Asked.run {h : List Event} (ha : Asked gs h vc) (hr : PartialRun.run Screener.step initial h = some vc)
    (hes : ∀ e ∈ es, NoSnapshot e) (hrun : PartialRun.run Screener.step vc es = some vc') : Asked gs (h ++ es) vc' := by
  induction es generalizing h vc with
  | nil =>
    cases hrun
    rwa [List.append_nil]
  | cons e es ih =>
    rw [run_cons, Option.bind_eq_some_iff] at hrun
    obtain ⟨w, hw, hrun⟩ := hrun
    have hnext := ih (ha.step hr (hes e List.mem_cons_self) hw) (run_snoc_some.2 ⟨vc, hr, hw⟩)
      (fun e' he' => hes e' (List.mem_cons_of_mem _ he')) hrun
    rwa [List.append_assoc, List.singleton_append] at hnext

theorem Opened.asked {gs : List QuestionGroup} (h : Opened gs vc) (es : List Event) :
    Asked (gs.map QuestionGroup.content) es vc := by
  obtain ⟨hgi, hqi⟩ := Prod.mk.inj h.position
  refine ⟨h.screening, fun _ => h.screen, fun g _ hlt => ?_, fun _ hne => absurd hqi hne⟩
  rw [hgi] at hlt
  exact absurd hlt (Nat.not_lt_zero g)

/-- At a results segue the cursor has left every group. -/
theorem Asked.all {h : List Event} (ha : Asked gs h vc) (hne : vc.presented ≠ []) :
    ∀ g < vc.questionGroups.length, Occurs Screener.step initial h (AnswersFirst g) := by
  intro g hg
  have hlen := length_of_contents ha.screening.contents
  have hle : gs.length ≤ vc.questionGroupIndex := Nat.le_of_not_lt fun hlt => hne (ha.screening.asking hlt).2
  exact ha.past g (by omega) (by omega)

end QuestionVC

open QuestionVC in
/-- **No results before the questionnaire.** With one snapshot, at any point of the run, the results segue waits for it
and for the first question of every group exactly when nothing is answered before the snapshot. -/
theorem no_early_results {snapshot : DataSnapshot} {gs : List QuestionGroup} (hl : Loads snapshot gs)
    {pre post : List Event} (hpre : ∀ e ∈ pre, NoSnapshot e) (hpost : ∀ e ∈ post, NoSnapshot e) :
    NoEarlyResults (pre ++ .qgroup snapshot :: post) ↔ answersOf .deselected pre = [] := by
  constructor
  · intro hearly
    by_contra ha
    have hunloaded : Unloaded initial := ⟨rfl, rfl⟩
    obtain ⟨p, e, r, u, v, rfl, hu, hv, hne⟩ := hunloaded.answered hpre ha
    obtain ⟨⟨snapshot', hmem⟩, -⟩ := hearly p e (r ++ .qgroup snapshot :: post) u v (by simp) hu hv hne
    exact hpre _ (List.mem_append_left _ hmem) snapshot' rfl
  · intro ha p e r u v hes hu hv hne
    have hfresh : Fresh initial := ⟨rfl, rfl, rfl, rfl, rfl⟩
    have hload : e ≠ .qgroup snapshot := by
      intro he
      subst he
      exact hne (load_presented hv)
    rcases List.append_eq_append_iff.1 hes with ⟨q, rfl, hq⟩ | ⟨q, rfl, hq⟩
    · rcases List.cons_eq_append_iff.1 hq with ⟨-, hr⟩ | ⟨q, rfl, rfl⟩
      · exact absurd (List.cons.inj hr).1 hload
      · -- the segue comes after the delivery
        obtain ⟨w, hw, hu'⟩ := run_append_some.1 hu
        rw [run_cons, Option.bind_eq_some_iff] at hu'
        obtain ⟨w', hw', hu'⟩ := hu'
        have hw₀ := (@Fresh.run _ _ pre [] hfresh (by simpa using hpre) (by rw [List.append_nil]; exact ha) hw).1
        obtain ⟨w'', hw'', hopened, -⟩ := hw₀.load hl
        cases hw'.symm.trans hw''
        have hquiet : ∀ e' ∈ q, NoSnapshot e' := fun e' he' => hpost e' (List.mem_append_left _ he')
        have hasked := (hopened.asked (pre ++ [.qgroup snapshot])).run (run_snoc_some.2 ⟨w, hw, hw'⟩) hquiet hu'
        rw [List.append_assoc, List.singleton_append] at hasked
        have hnext := hasked.step hu (hpost e (by simp)) hv
        refine ⟨⟨snapshot, by simp⟩, hnext.all fun hnil => hne ?_⟩
        exact hnil.trans (presented_nil_of_step hv hnil).symm
    · rcases List.cons_eq_append_iff.1 hq with ⟨-, hr⟩ | ⟨q, rfl, rfl⟩
      · exact absurd (List.cons.inj hr).1.symm hload
      · -- before the delivery every event is idle
        obtain ⟨-, hidle⟩ := hfresh.run hpre ha hu
        rcases @answersOf_step _ _ _ q hv (hpre e (by simp)) with ⟨hi, -⟩ | ⟨a, -, heq⟩
        · exact absurd hi.presented hne
        · rw [heq] at hidle
          cases hidle

theorem no_early_results_sample :
    QuestionVC.NoEarlyResults ([.touch .yes, .back] ++ .qgroup sampleSnapshot :: [.next, .next, .touch .no, .next]) :=
  (no_early_results sample_loads (by simp [QuestionVC.NoSnapshot]) (by simp [QuestionVC.NoSnapshot])).2 (by decide)

open QuestionVC in
/-- An answer on the placeholder shows the results before the sample has arrived. -/
theorem early_results : ¬ NoEarlyResults ([.touch .yes, .next] ++ .qgroup sampleSnapshot :: []) := by
  intro hearly
  have hreach : (run step initial [.touch .yes]).map (fun u => (u.presented, (step u .next).map presented)) =
      some ([], some [[]]) := by decide
  obtain ⟨u, hu, hpair⟩ := Option.map_eq_some_iff.1 hreach
  obtain ⟨hbefore, hafter⟩ := Prod.mk.inj hpair
  obtain ⟨v, hv, hpresented⟩ := Option.map_eq_some_iff.1 hafter
  have hne : v.presented ≠ u.presented := by
    rw [hbefore, hpresented]
    simp
  obtain ⟨⟨snapshot, hmem⟩, -⟩ := hearly [.touch .yes] .next [.qgroup sampleSnapshot] u v rfl hu hv hne
  simp at hmem

end CareDirect.Screener
