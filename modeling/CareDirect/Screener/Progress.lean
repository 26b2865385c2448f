import CareDirect.Screener.Coherence

/-!
# Progress and termination of the screener

With one snapshot, before the first press, the position of the cursor is a walk over the questionnaire in the sense of
`Positions.Walk` (`cursor_walk`): an answered press moves it to the next question of the group or to the start of the
next group, and it is inside the questionnaire until the results are shown. The bounds on the number of presses, and
that no question is asked twice, are those of the walk (`screener_progress`).
-/

namespace CareDirect.Screener

open Positions PartialRun

/-- The answers `answers 0, …, answers (k - 1)`, each given by a touch of its button and a press of Next. -/
def presses (answers : ℕ → Radio) : ℕ → List Event
  | 0 => []
  | k + 1 => presses answers k ++ [.touch (answers k), .next]

namespace QuestionVC

variable {vc vc' : QuestionVC} {a : Radio} {gs : List (String × List ScreenerQuestion)}

theorem noSnapshot_presses (answers : ℕ → Radio) : ∀ k, ∀ e ∈ presses answers k, NoSnapshot e
  | 0, e, he => absurd he List.not_mem_nil
  | k + 1, e, he => by
    rcases List.mem_append.1 he with he | he
    · exact noSnapshot_presses answers k e he
    · intro snapshot hs
      subst hs
      simp at he

/-- The number of questions of each group. -/
def lengths (gs : List (String × List ScreenerQuestion)) : List ℕ := gs.map fun c => c.2.length

theorem Coherent.lengths_current (h : Coherent gs vc) :
    (lengths gs)[vc.questionGroupIndex]? = some vc.group.questions.length := by
  have hcontent := vc.getElem?_contents vc.questionGroupIndex
  rw [h.contents, h.group] at hcontent
  simp only [lengths, List.getElem?_map, hcontent, Option.map_some]
  rfl

/-- A coherent cursor is inside the questionnaire. -/
theorem Coherent.inside (h : Coherent gs vc) : Inside (lengths gs) vc.position :=
  ⟨_, h.lengths_current, (List.getElem?_eq_some_iff.1 h.question).1⟩

/-! ## An answer -/

/-- A touch of a button and a press of Next are a press with the answer of that button. -/
theorem run_answer (h : run step vc [.touch a, .next] = some vc') :
    ∃ w, Idle vc (.touch a) w ∧ Press w a vc' := by
  have hs : (vc.radios.touchUpInside a).selected = some a := by cases a <;> rfl
  refine ⟨_, .touch a, ?_⟩
  rw [← nextQuestionButton_press hs]
  simpa [step] using h

/-- The states between the answers of an endless supply. -/
structure Answering (gs : List (String × List ScreenerQuestion)) (answers : ℕ → Radio) (vc : ℕ → QuestionVC) :
    Prop where
  start : (vc 0).position = (0, 0)
  screening : ∀ k, Screening gs (vc k)
  answer : ∀ k, run step (vc k) [.touch (answers k), .next] = some (vc (k + 1))

namespace Answering

variable {answers : ℕ → Radio} {st : ℕ → QuestionVC} (h : Answering gs answers st)
include h

/-- **The cursor walks over the questionnaire** until it has left the last group. -/
theorem walk : Walk (lengths gs) fun k => (st k).position := by
  refine ⟨h.start, fun k hk => ?_, fun k hk => ?_⟩
  · exact ((h.screening k).asking (by simpa [lengths] using hk)).1.inside
  · obtain ⟨w, hi, hp⟩ := run_answer (h.answer k)
    have hm := hp.move
    rwa [hi.position] at hm

/-- The segue is performed once at the step that leaves the last group. -/
theorem presented_end {n : ℕ} (hend : (st n).questionGroupIndex = gs.length)
    (hbefore : ∀ k < n, (st k).questionGroupIndex < gs.length) (hgs : gs ≠ []) : (st n).presented.length = 1 := by
  cases n with
  | zero =>
    have h0 : (st 0).questionGroupIndex = 0 := congrArg Prod.fst h.start
    exact absurd (List.length_eq_zero_iff.1 (hend.symm.trans h0)) hgs
  | succ n =>
    obtain ⟨hco, hnone⟩ := (h.screening n).asking (hbefore n (Nat.lt_succ_self n))
    obtain ⟨w, hi, hp⟩ := run_answer (h.answer n)
    have hw : w.presented = [] := hi.presented.trans hnone
    rcases (hi.coherent hco).press hp with ⟨hco', -⟩ | ⟨-, hseg⟩
    · have hlen := length_of_contents hco'.contents
      exact absurd hco'.inRange (by omega)
    · rw [hseg, hw]
      rfl

/-- The buttons are deselected after an answer, so the next press is refused and only shows the alert. -/
theorem refuses (k : ℕ) :
    step (st (k + 1)) .next =
      some { st (k + 1) with calls := (st (k + 1)).calls ++ [.alert "Please Select one of the options!"] } := by
  obtain ⟨w, -, hp⟩ := run_answer (h.answer k)
  refine nextQuestionButton_unselected ?_
  rw [hp.radios]
  rfl

end Answering

/-- An endless supply of answers never traps. -/
theorem Opened.answering {gs : List QuestionGroup} (h : Opened gs vc) (hne : ∀ g ∈ gs, g.questions ≠ [])
    (answers : ℕ → Radio) :
    ∃ st : ℕ → QuestionVC, (∀ k, run step vc (presses answers k) = some (st k)) ∧
      Answering (gs.map QuestionGroup.content) answers st := by
  have hex : ∀ k, ∃ w, run step vc (presses answers k) = some w := fun k =>
    h.screening.total (contents_nonempty hne) (noSnapshot_presses answers k)
  choose st hst using hex
  refine ⟨st, hst, ?_, fun k => h.screening.events (noSnapshot_presses answers k) (hst k), fun k => ?_⟩
  · have h0 : vc = st 0 := Option.some.inj (hst 0)
    rw [← h0]
    exact h.position
  · exact run_split (hst k) (hst (k + 1))

end QuestionVC

open QuestionVC in
/-- **Progress and termination.** With one snapshot, before the first press, and an endless supply of answers: nothing
traps; there is a number `n` of answers, between the number of groups and the number of questions, such that the first
results segue is performed at the `n`-th answered press; before it the cursor is coherent and goes up at every press,
it is at the first question of every group exactly once and at no question twice; and a press without a new selection
shows the alert and changes nothing else. -/
theorem screener_progress {snapshot : DataSnapshot} {gs : List QuestionGroup} (hl : Loads snapshot gs)
    (touches : List Radio) (answers : ℕ → Radio) :
    ∃ (vc : ℕ → QuestionVC) (n : ℕ),
      (∀ k, run step initial (touches.map .touch ++ .qgroup snapshot :: presses answers k) = some (vc k)) ∧
      gs.length ≤ n ∧ n ≤ (gs.map fun g => g.questions.length).sum ∧
      (∀ k < n, (vc k).presented = [] ∧ Coherent (gs.map QuestionGroup.content) (vc k) ∧
        Prod.Lex (· < ·) (· < ·) (vc k).position (vc (k + 1)).position) ∧
      (vc n).presented.length = 1 ∧
      (∀ g < gs.length, ∃! k, k < n ∧ (vc k).position = (g, 0)) ∧
      (∀ j < n, ∀ k < n, (vc j).position = (vc k).position → j = k) ∧
      ∀ k, step (vc (k + 1)) .next =
        some { vc (k + 1) with calls := (vc (k + 1)).calls ++ [.alert "Please Select one of the options!"] } := by
  obtain ⟨vc₀, hopened, -, hopen⟩ := opening touches hl
  obtain ⟨st, hst, ha⟩ := hopened.answering hl.questions answers
  have hlen : (lengths (gs.map QuestionGroup.content)).length = gs.length := by simp [lengths]
  have hsum : (lengths (gs.map QuestionGroup.content)).sum = (gs.map fun g => g.questions.length).sum := by
    simp [lengths, QuestionGroup.content, Function.comp_def]
  obtain ⟨n, hlo, hhi, hend, hbefore⟩ := ha.walk.exists_end
  rw [hlen] at hlo hend
  have hin : ∀ k < n, (st k).questionGroupIndex < (gs.map QuestionGroup.content).length := by
    intro k hk
    simpa [lengths] using hbefore k hk
  refine ⟨st, n, fun k => (hopen _).trans (hst k), hlo, hsum ▸ hhi, fun k hk => ?_, ?_, fun g hg => ?_,
    fun j hj k hk he => ?_, ha.refuses⟩
  · obtain ⟨hco, hnone⟩ := (ha.screening k).asking (hin k hk)
    exact ⟨hnone, hco, (ha.walk.move k (hbefore k hk)).lex⟩
  · exact ha.presented_end (by simpa using hend) hin (by simpa using hl.groups)
  · exact ha.walk.start_once hbefore (hend.trans hlen.symm) (hlen.symm ▸ hg)
  · exact ha.walk.injective hbefore hj hk he

/-- On the sample, always answering No: the first answer leaves the first group, so there are fewer answers than
questions. -/
theorem screener_progress_sample :
    ∃ (vc : ℕ → QuestionVC) (n : ℕ),
      run step QuestionVC.initial (.qgroup sampleSnapshot :: presses (fun _ => .no) n) = some (vc n) ∧
      2 ≤ n ∧ n ≤ 3 ∧ (vc n).presented.length = 1 := by
  obtain ⟨vc, n, hrun, hlo, hhi, -, hone, -⟩ := screener_progress sample_loads [] fun _ => .no
  exact ⟨vc, n, hrun n, hlo, hhi, hone⟩

end CareDirect.Screener
