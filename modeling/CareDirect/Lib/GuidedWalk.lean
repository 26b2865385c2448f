import Mathlib.Data.List.Basic

/-!
# Guided walks through a grouped questionnaire

A questionnaire is a list of groups, a group a tag and a list of questions. An answer to a question may count as a hit
(`hits`), and it says whether the walk goes on to the next question of the group (`goesOn`); otherwise the walk of the
group ends, as it does past the last question. The outcome is the list of the tags whose walk had a hit.

`walk` and `outcome` say this by recursion on the questions. `Stage.answer` is the same process one answer at a time;
`answer_outcome` says that a list of answers leads it to the outcome, and to no end before the outcome is decided.
-/

namespace GuidedWalk

variable {Q A T : Type*} (hits goesOn : Q → A → Bool)

/-- The walk of one group: whether some answer hit, and the answers left. It is `none` while the answers given do not
finish it. -/
def walk : List Q → List A → Option (Bool × List A)
  | [], as => some (false, as)
  | _ :: _, [] => none
  | q :: qs, a :: as =>
    if goesOn q a then (walk qs as).map fun r => (hits q a || r.1, r.2) else some (hits q a, as)

/-- The tags of the groups whose walk hits, in order; `none` while the answers given do not finish every walk. -/
def outcome : List (T × List Q) → List A → Option (List T)
  | [], _ => some []
  | (t, qs) :: gs, as =>
    (walk hits goesOn qs as).bind fun r => (outcome gs r.2).map fun ts => if r.1 then t :: ts else ts

/-! ## One answer at a time -/

/-- Either a question waits for an answer, or all groups are done. `asking done hit t q qs gs`: the tags attached by
the groups before, whether the group `t` has been hit, the question asked, the questions after it and the groups
after it. -/
inductive Stage (Q T : Type*)
  | asking (done : List T) (hit : Bool) (t : T) (q : Q) (qs : List Q) (gs : List (T × List Q))
  | finished (ts : List T)

/-- The first question of the next group that has one. -/
def enter (done : List T) : List (T × List Q) → Stage Q T
  | [] => .finished done
  | (_, []) :: gs => enter done gs
  | (t, q :: qs) :: gs => .asking done false t q qs gs

/-- The tags attached once the group `t` is left. -/
def close (done : List T) (hit : Bool) (t : T) : List T := if hit then done ++ [t] else done

def Stage.answer : Stage Q T → A → Stage Q T
  | .finished ts, _ => .finished ts
  | .asking done hit t q (q' :: qs) gs, a =>
    if goesOn q a then .asking done (hit || hits q a) t q' qs gs else enter (close done (hit || hits q a) t) gs
  | .asking done hit t q [] gs, a => enter (close done (hit || hits q a) t) gs

/-- The tags once the stage is finished. -/
def Stage.result : Stage Q T → Option (List T)
  | .asking .. => none
  | .finished ts => some ts

/-- What a stage still makes of the answers `as`. -/
def Stage.pending : Stage Q T → List A → Option (List T)
  | .finished ts, _ => some ts
  | .asking done hit t q qs gs, as =>
    (walk hits goesOn (q :: qs) as).bind fun r =>
      (outcome hits goesOn gs r.2).map fun ts => close done (hit || r.1) t ++ ts

variable {hits goesOn}

theorem pending_nil (st : Stage Q T) : st.pending hits goesOn [] = st.result := by
  cases st <;> simp [Stage.pending, Stage.result, walk]

theorem pending_enter (done : List T) (as : List A) : ∀ gs : List (T × List Q),
    (enter done gs).pending hits goesOn as = (outcome hits goesOn gs as).map (done ++ ·)
  | [] => by simp [enter, Stage.pending, outcome]
  | (_, []) :: gs => by
    rw [enter, pending_enter done as gs]
    simp [outcome, walk]
  | (t, q :: qs) :: gs => by
    cases h : walk hits goesOn (q :: qs) as with
    | none => simp [enter, Stage.pending, outcome, h]
    | some r =>
      have hclose : ∀ ts : List T, close done r.1 t ++ ts = done ++ if r.1 then t :: ts else ts := by
        intro ts
        cases r.1 <;> simp [close]
      simp [enter, Stage.pending, outcome, h, hclose, Function.comp_def]

/-- An answer moves the stage without changing what the whole list of answers leads to. -/
theorem pending_answer (st : Stage Q T) (a : A) (as : List A) :
    (st.answer hits goesOn a).pending hits goesOn as = st.pending hits goesOn (a :: as) := by
  cases st with
  | finished ts => rfl
  | asking done hit t q qs gs =>
    cases qs with
    | nil =>
      rw [Stage.answer, pending_enter]
      cases hg : goesOn q a <;> simp [Stage.pending, walk, hg]
    | cons q' qs =>
      cases hg : goesOn q a with
      | true =>
        cases h : walk hits goesOn (q' :: qs) as <;>
          simp [Stage.answer, Stage.pending, walk, hg, h, Bool.or_assoc]
      | false =>
        simp [Stage.answer, hg, pending_enter]
        simp [Stage.pending, walk, hg]

theorem foldl_answer_pending (as : List A) : ∀ (bs : List A) (st : Stage Q T),
    (bs.foldl (Stage.answer hits goesOn) st).pending hits goesOn as = st.pending hits goesOn (bs ++ as)
  | [], _ => rfl
  | b :: bs, st => by rw [List.foldl_cons, foldl_answer_pending as bs, pending_answer, List.cons_append]

/-- **One answer at a time is the walk.** The answers `as` finish the process exactly when they finish the walks, with
the tags of the groups whose walk hits. -/
theorem answer_outcome (gs : List (T × List Q)) (as : List A) :
    (as.foldl (Stage.answer hits goesOn) (enter [] gs)).result = outcome hits goesOn gs as := by
  rw [← @pending_nil _ A _ hits goesOn, foldl_answer_pending, List.append_nil, pending_enter]
  simp

end GuidedWalk
