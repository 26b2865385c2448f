import CareDirect.Screener.Coherence

/-!
# Questionnaires that change while they are answered

The `qgroup` observer stays registered, so its block runs again on every change of the data. The block appends to
`questionGroups` without clearing it and calls `setupQuestionView`, which resets the current group and question but
neither index. So a delivery before the results leaves an incoherent state, and the cursor is coherent with the latest
questionnaire exactly on the runs without one (`live_coherence`).
-/

namespace CareDirect.Screener

open PartialRun

namespace QuestionVC

variable {vc vc' : QuestionVC} {snapshot : DataSnapshot} {gs : List QuestionGroup}

/-! ## Deliveries -/

/-- The groups of a delivery come after those already there. -/
theorem load_contents (h : vc.loadQuestionsFromFB snapshot = some vc') (hgs : questionGroupsOf snapshot = some gs) :
    vc'.contents = vc.contents ++ gs.map QuestionGroup.content := by
  obtain ⟨gs', r, q, hgs', -, -, rfl⟩ := loadQuestionsFromFB_some.1 h
  rw [hgs] at hgs'
  cases hgs'
  simp

theorem length_load (h : vc.loadQuestionsFromFB snapshot = some vc')
    (hgs : questionGroupsOf snapshot = some gs) : vc'.questionGroups.length = vc.questionGroups.length + gs.length := by
  simpa using congrArg List.length (load_contents h hgs)

/-- A delivery of a questionnaire does not trap. -/
theorem Solid.load (hs : vc.Solid) (hl : Loads snapshot gs) : ∃ vc', vc.loadQuestionsFromFB snapshot = some vc' := by
  have hne : (vc.groups.appendAll gs).values ≠ [] := by
    rw [ObjectArray.values_appendAll]
    exact List.append_ne_nil_of_right_ne_nil _ hl.groups
  have hsolid : ∀ g ∈ (vc.groups.appendAll gs).values, g.questions ≠ [] := by
    intro g hg
    rw [ObjectArray.values_appendAll] at hg
    rcases List.mem_append.1 hg with hg | hg
    · exact hs g hg
    · exact hl.questions g hg
  have hrefs : (vc.groups.appendAll gs).refs ≠ [] := by
    intro h
    rw [ObjectArray.values, h] at hne
    exact hne rfl
  have hr := List.getElem?_eq_getElem (List.length_pos_of_ne_nil hrefs)
  have hmem := List.mem_map_of_mem (f := (vc.groups.appendAll gs).obj) (List.mem_of_getElem? hr)
  have hq := List.getElem?_eq_getElem (List.length_pos_of_ne_nil (hsolid _ hmem))
  exact ⟨_, loadQuestionsFromFB_some.2 ⟨gs, _, _, hl.decodes, hr, hq, rfl⟩⟩

/-! ## Coherence with the latest questionnaire -/

/-- The latest snapshot after the events `es`, `snapshot` being the one before them. -/
def latest (snapshot : DataSnapshot) (es : List Event) : DataSnapshot :=
  es.foldl (fun snapshot e => match e with
    | .qgroup snapshot' => snapshot'
    | _ => snapshot) snapshot

theorem latest_snoc_load (es : List Event) (snapshot' : DataSnapshot) :
    latest snapshot (es ++ [.qgroup snapshot']) = snapshot' := by
  simp [latest]

theorem latest_snoc_of_noSnapshot (es : List Event) {e : Event} (he : NoSnapshot e) :
    latest snapshot (es ++ [e]) = latest snapshot es := by
  cases e with
  | qgroup snapshot' => exact absurd rfl (he snapshot')
  | touch b => simp [latest]
  | next => simp [latest]
  | back => simp [latest]

/-- The latest snapshot is the one before the events or arrives with one of them. -/
theorem latest_cases : ∀ (es : List Event) (snapshot : DataSnapshot),
    latest snapshot es = snapshot ∨ .qgroup (latest snapshot es) ∈ es
  | [], _ => .inl rfl
  | e :: es, snapshot => by
    cases e with
    | qgroup snapshot' =>
      rcases latest_cases es snapshot' with h | h
      · exact .inr (h.symm ▸ List.mem_cons_self)
      · exact .inr (List.mem_cons_of_mem _ h)
    | touch b => exact (latest_cases es snapshot).imp_right (List.mem_cons_of_mem _)
    | next => exact (latest_cases es snapshot).imp_right (List.mem_cons_of_mem _)
    | back => exact (latest_cases es snapshot).imp_right (List.mem_cons_of_mem _)

/-- In every state that the run reaches before the results, the cursor is coherent with the latest questionnaire. The
first snapshot arrives after the touches `touches`. -/
def LiveCoherent (touches : List Radio) (snapshot : DataSnapshot) (es : List Event) : Prop :=
  ∀ p vc, p <+: es → run step initial (touches.map .touch ++ .qgroup snapshot :: p) = some vc → vc.presented = [] →
    ∃ gs, questionGroupsOf (latest snapshot p) = some gs ∧ Coherent (gs.map QuestionGroup.content) vc

/-- Every further snapshot arrives after the results have been shown. -/
def QuietUntilResults (touches : List Radio) (snapshot : DataSnapshot) (es : List Event) : Prop :=
  ∀ p snapshot' vc, p ++ [.qgroup snapshot'] <+: es →
    run step initial (touches.map .touch ++ .qgroup snapshot :: p) = some vc → vc.presented ≠ []

/-- Before the results nothing but the first snapshot has been delivered, and the cursor is coherent with it. -/
theorem quiet_invariant {vc₀ : QuestionVC} (hopened : Opened gs vc₀) : ∀ {es : List Event} {vc : QuestionVC},
    (∀ p snapshot' vc, p ++ [.qgroup snapshot'] <+: es → run step vc₀ p = some vc → vc.presented ≠ []) →
    run step vc₀ es = some vc → vc.presented = [] →
    latest snapshot es = snapshot ∧ Screening (gs.map QuestionGroup.content) vc := by
  intro es
  induction es using List.reverseRecOn with
  | nil =>
    intro vc _ hr _
    cases hr
    exact ⟨rfl, hopened.screening⟩
  | append_singleton es e ih =>
    intro vc hquiet hr hnone
    obtain ⟨u, hu, hstep⟩ := run_snoc_some.1 hr
    have hunone : u.presented = [] := presented_nil_of_step hstep hnone
    obtain ⟨hlatest, hscreening⟩ := ih (fun p s w hp => hquiet p s w (hp.trans (List.prefix_append es [e]))) hu hunone
    have he : NoSnapshot e := by
      intro snapshot' hs
      subst hs
      exact hquiet es snapshot' u List.prefix_rfl hu hunone
    exact ⟨(latest_snoc_of_noSnapshot es he).trans hlatest, hscreening.event he hstep⟩

/-- A delivery before the results leaves more groups than the questionnaire delivered has. -/
theorem load_not_coherent {c : List (String × List ScreenerQuestion)} (hl : Loads snapshot gs)
    (h : vc.loadQuestionsFromFB snapshot = some vc') (hco : Coherent c vc) :
    ¬ Coherent (gs.map QuestionGroup.content) vc' := by
  intro hco'
  have hlen := length_load h hl.decodes
  have hlen' := length_of_contents hco'.contents
  rw [List.length_map] at hlen'
  have := hco.inRange
  omega

end QuestionVC

open QuestionVC in
/-- **Coherence under updates.** For well-formed snapshots, the cursor is coherent with the latest questionnaire in
every state before the results exactly when no snapshot but the first arrives before the results. -/
theorem live_coherence {snapshot : DataSnapshot} {gs : List QuestionGroup} (hl : Loads snapshot gs)
    (touches : List Radio) {es : List Event} (hes : ∀ snapshot', .qgroup snapshot' ∈ es → ∃ gs', Loads snapshot' gs') :
    LiveCoherent touches snapshot es ↔ QuietUntilResults touches snapshot es := by
  obtain ⟨vc₀, hopened, -, hopen⟩ := opening touches hl
  constructor
  · intro hlive p snapshot' vc hp hr hnone
    have hsnap : .qgroup snapshot' ∈ es := hp.subset (List.mem_append_right p List.mem_cons_self)
    obtain ⟨gs', hl'⟩ := hes snapshot' hsnap
    have hpre : p <+: es := (List.prefix_append p _).trans hp
    obtain ⟨gs'', hgs'', hco⟩ := hlive p vc hpre hr hnone
    have hsolid : vc.Solid := by
      rcases latest_cases p snapshot with hlast | hlast
      · rw [hlast, hl.decodes] at hgs''
        cases hgs''
        exact solid_of_contents hco.contents (contents_nonempty hl.questions)
      · obtain ⟨d, hd⟩ := hes _ (hpre.subset hlast)
        rw [hd.decodes] at hgs''
        cases hgs''
        exact solid_of_contents hco.contents (contents_nonempty hd.questions)
    obtain ⟨vc', hload⟩ := hsolid.load hl'
    have hr' : run step initial (touches.map .touch ++ .qgroup snapshot :: (p ++ [.qgroup snapshot'])) = some vc' := by
      rw [hopen] at hr ⊢
      rw [run_snoc, hr]
      exact hload
    obtain ⟨d, hd, hco'⟩ := hlive _ vc' hp hr' ((load_presented hload).trans hnone)
    rw [latest_snoc_load, hl'.decodes] at hd
    cases hd
    exact load_not_coherent hl' hload hco hco'
  · intro hquiet p vc hp hr hnone
    rw [hopen] at hr
    have hq : ∀ p' snapshot' w, p' ++ [.qgroup snapshot'] <+: p → run step vc₀ p' = some w → w.presented ≠ [] := by
      intro p' snapshot' w hp' hw
      exact hquiet p' snapshot' w (hp'.trans hp) ((hopen p').trans hw)
    obtain ⟨hlatest, hscreening⟩ := quiet_invariant hopened hq hr hnone
    exact ⟨gs, hlatest ▸ hl.decodes, hscreening.coherent hnone⟩

/-- A run of the sample without a further delivery. -/
theorem live_coherence_sample : QuestionVC.LiveCoherent [] sampleSnapshot [.touch .yes, .next, .touch .no, .next] := by
  refine (live_coherence sample_loads [] (by simp)).2 ?_
  intro p snapshot' vc hp
  have hmem : Event.qgroup snapshot' ∈ [Event.touch .yes, .next, .touch .no, .next] :=
    hp.subset (List.mem_append_right p List.mem_cons_self)
  simp at hmem

open QuestionVC in
/-- The sample delivered again after its first question has been answered: four groups instead of two. -/
theorem live_coherence_fails : ¬ LiveCoherent [] sampleSnapshot [.touch .yes, .next, .qgroup sampleSnapshot] := by
  intro hlive
  have hreach : (run step initial [.qgroup sampleSnapshot, .touch .yes, .next, .qgroup sampleSnapshot]).map
      (fun vc => (vc.presented, vc.questionGroups.length)) = some ([], 4) := by decide
  obtain ⟨vc, hr, hvc⟩ := Option.map_eq_some_iff.1 hreach
  obtain ⟨hnone, hlen⟩ := Prod.mk.inj hvc
  obtain ⟨gs, hgs, hco⟩ := hlive _ vc List.prefix_rfl hr hnone
  have hdecodes : questionGroupsOf sampleSnapshot = some sampleGroups := by decide
  cases hdecodes.symm.trans hgs
  have hlen' := length_of_contents hco.contents
  rw [hlen] at hlen'
  exact absurd hlen' (by decide)

end CareDirect.Screener
