import Mathlib.Data.List.Induction

/-!
# Runs of a partial step function

A system is a step function `step : σ → ε → Option σ`; `none` means that the event stops the program (a trap). A run
feeds it a list of events. This file has no system of its own: it gives the rules by which a property of one step
becomes a property of a run.

- `run_induction`: an invariant over the history of events and the state;
- `run_rel`: a preorder that every step respects holds between the ends of a run;
- `run_embed`, `run_embed_of`: a system that is another one in other words;
- `run_total`: a run whose events are all acceptable does not trap;
- `throughout_iff`: a property of all states of a run, as a condition on its steps;
- `run_viewed`, `run_view_of`, `run_view`: what a part of the state does by itself;
- `Occurs`: some step of a run satisfies a predicate on the state before the step and its event;
- `Since`: some step does, and no later event is of a given kind.
-/

namespace PartialRun

variable {σ ε : Type*} {step : σ → ε → Option σ}

/-- The state after the events `es`, or `none` when one of them traps. -/
def run (step : σ → ε → Option σ) (s : σ) (es : List ε) : Option σ := es.foldlM step s

@[simp] theorem run_nil (s : σ) : run step s [] = some s := rfl

@[simp] theorem run_cons (s : σ) (e : ε) (es : List ε) : run step s (e :: es) = (step s e).bind (run step · es) := rfl

theorem run_append (s : σ) (p r : List ε) : run step s (p ++ r) = (run step s p).bind (run step · r) := by
  simp [run, List.foldlM_append]

theorem run_snoc (s : σ) (p : List ε) (e : ε) : run step s (p ++ [e]) = (run step s p).bind (step · e) := by
  rw [run_append]
  simp

theorem run_append_some {s t : σ} {p r : List ε} :
    run step s (p ++ r) = some t ↔ ∃ u, run step s p = some u ∧ run step u r = some t := by
  rw [run_append, Option.bind_eq_some_iff]

theorem run_snoc_some {s t : σ} {p : List ε} {e : ε} :
    run step s (p ++ [e]) = some t ↔ ∃ u, run step s p = some u ∧ step u e = some t := by
  rw [run_snoc, Option.bind_eq_some_iff]

/-- A run from a split list of events passes through the state after the first part. -/
theorem run_split {s t u : σ} {p r : List ε} (hp : run step s p = some u) (h : run step s (p ++ r) = some t) :
    run step u r = some t := by
  obtain ⟨v, hv, hr⟩ := run_append_some.1 h
  rw [hp] at hv
  rwa [Option.some.inj hv]

/-! ## Invariants -/

/-- **Induction on a run**, with the events so far in the invariant. -/
theorem run_induction {s : σ} {I : List ε → σ → Prop} (h0 : I [] s)
    (hstep : ∀ p u e v, run step s p = some u → I p u → step u e = some v → I (p ++ [e]) v) :
    ∀ es {t}, run step s es = some t → I es t := by
  intro es
  induction es using List.reverseRecOn with
  | nil => rintro t h; cases h; exact h0
  | append_singleton p e ih =>
    intro t h
    obtain ⟨u, hu, he⟩ := run_snoc_some.1 h
    exact hstep p u e t hu (ih hu) he

/-- An invariant of the states alone. -/
theorem run_invariant {s : σ} {I : σ → Prop} (h0 : I s) (hstep : ∀ u e v, I u → step u e = some v → I v)
    {es : List ε} {t : σ} (h : run step s es = some t) : I t :=
  run_induction (I := fun _ u => I u) h0 (fun _ u e v _ hu he => hstep u e v hu he) es h

/-- What every event has that is not a trap, all events of a run have. -/
theorem run_forall {P : ε → Prop} (hstep : ∀ u e v, step u e = some v → P e) {s t : σ} {es : List ε}
    (h : run step s es = some t) : ∀ e ∈ es, P e := by
  refine run_induction (I := fun p _ => ∀ e ∈ p, P e) (List.forall_mem_nil _) ?_ es h
  intro p u e v _ hu he
  exact List.forall_mem_append.2 ⟨hu, List.forall_mem_singleton.2 (hstep u e v he)⟩

/-- A preorder that every step respects holds between the ends of a run. -/
theorem run_rel {R : σ → σ → Prop} (hrefl : ∀ s, R s s) (htrans : ∀ s t u, R s t → R t u → R s u)
    (hstep : ∀ u e v, step u e = some v → R u v) {s t : σ} {es : List ε} (h : run step s es = some t) : R s t :=
  run_induction (I := fun _ u => R s u) (hrefl s) (fun _ u e v _ hu he => htrans s u v hu (hstep u e v he)) es h

/-- A run of acceptable events does not trap, and keeps the invariant that makes them acceptable. -/
theorem run_total {I : σ → Prop} {ok : ε → Prop} (hstep : ∀ u e, I u → ok e → ∃ v, step u e = some v ∧ I v) :
    ∀ {es : List ε} {s : σ}, I s → (∀ e ∈ es, ok e) → ∃ t, run step s es = some t ∧ I t
  | [], s, h0, _ => ⟨s, rfl, h0⟩
  | e :: es, s, h0, hok => by
    obtain ⟨v, hv, hI⟩ := hstep s e h0 (hok e List.mem_cons_self)
    obtain ⟨t, ht, hIt⟩ := run_total hstep hI (fun e' he' => hok e' (List.mem_cons_of_mem _ he'))
    exact ⟨t, by simp [hv, ht], hIt⟩

/-- A system that is a smaller one in other words runs as the smaller one does. -/
theorem run_embed {σ' ε' : Type*} {step' : σ' → ε' → Option σ'} {embed : σ' → σ} {event : ε → ε'}
    (hstep : ∀ u e, step (embed u) e = (step' u (event e)).map embed) (s : σ') (es : List ε) :
    run step (embed s) es = (run step' s (es.map event)).map embed := by
  induction es generalizing s with
  | nil => rfl
  | cons e es ih =>
    rw [run_cons, hstep, List.map_cons, run_cons]
    cases step' s (event e) with
    | none => rfl
    | some u => exact ih u

/-- The same under an invariant of the smaller system, for systems with the same events. -/
theorem run_embed_of {σ' : Type*} {step' : σ' → ε → Option σ'} {embed : σ' → σ} {I : σ' → Prop}
    (hstep : ∀ u e, I u → step (embed u) e = (step' u e).map embed)
    (hinv : ∀ u e v, I u → step' u e = some v → I v) (es : List ε) :
    ∀ {s : σ'}, I s → run step (embed s) es = (run step' s es).map embed := by
  induction es with
  | nil => exact fun _ => rfl
  | cons e es ih =>
    intro s hs
    rw [run_cons, hstep s e hs, run_cons]
    cases hu : step' s e with
    | none => rfl
    | some u => exact ih (hinv s e u hs hu)

section

variable {σ' ε' : Type*} {step' : σ' → ε' → Option σ'} {I : σ → Prop} {s t : σ} {es : List ε}

/-- The events `es` as a smaller system sees them: `visible u e` is what it sees of `e` in the state `u`. -/
def viewed (step : σ → ε → Option σ) (visible : σ → ε → Option ε') : σ → List ε → List ε'
  | _, [] => []
  | u, e :: es => (visible u e).toList ++ (step u e).elim [] (viewed step visible · es)

/-- One event more. -/
theorem viewed_snoc {visible : σ → ε → Option ε'} (h : run step s es = some t) (e : ε) :
    viewed step visible s (es ++ [e]) = viewed step visible s es ++ (visible t e).toList := by
  induction es generalizing s with
  | nil =>
    cases h
    have hlast : (step t e).elim [] (fun _ => ([] : List ε')) = [] := by cases step t e <;> rfl
    simp only [List.nil_append, viewed, hlast, List.append_nil]
  | cons e' es ih =>
    obtain ⟨u, hu, h⟩ := Option.bind_eq_some_iff.1 h
    simp only [List.cons_append, viewed, hu, Option.elim_some, ih h, List.append_assoc]

/-- What does not depend on the state is seen event by event. -/
theorem viewed_eq_filterMap {visible : ε → Option ε'} (h : run step s es = some t) :
    viewed step (fun _ => visible) s es = es.filterMap visible := by
  refine run_induction (I := fun p _ => viewed step (fun _ => visible) s p = p.filterMap visible) rfl ?_ es h
  intro p u e v hp hu _
  rw [viewed_snoc hp, hu, List.filterMap_append]
  cases hvisible : visible e with
  | none => rw [List.filterMap_cons_none hvisible]; rfl
  | some e' => rw [List.filterMap_cons_some hvisible]; rfl

/-- **A view of a run.** Where, under an invariant, every step either leaves a view of the state alone or takes the step
of a smaller system in it, the view of a run is a run of that system. -/
theorem run_viewed (view : σ → σ') (visible : σ → ε → Option ε')
    (hstep : ∀ u e v, I u → step u e = some v → I v ∧ (visible u e = none ∧ view v = view u ∨
      ∃ e', visible u e = some e' ∧ step' (view u) e' = some (view v))) (h0 : I s) (h : run step s es = some t) :
    I t ∧ run step' (view s) (viewed step visible s es) = some (view t) := by
  refine run_induction (I := fun p u => I u ∧ run step' (view s) (viewed step visible s p) = some (view u)) ⟨h0, rfl⟩
    ?_ es h
  rintro p u e v hp ⟨hI, hu⟩ he
  obtain ⟨hv, hview⟩ := hstep u e v hI he
  refine ⟨hv, ?_⟩
  rw [viewed_snoc hp]
  rcases hview with ⟨hvisible, hv⟩ | ⟨e', hvisible, hv⟩
  · rw [hvisible, Option.toList_none, List.append_nil, hu, hv]
  · rw [hvisible, Option.toList_some, run_snoc, hu]
    exact hv

/-- The same, where what is seen of an event does not depend on the state. -/
theorem run_view_of (view : σ → σ') (visible : ε → Option ε')
    (hstep : ∀ u e v, I u → step u e = some v → I v ∧ (visible e = none ∧ view v = view u ∨
      ∃ e', visible e = some e' ∧ step' (view u) e' = some (view v))) (h0 : I s) (h : run step s es = some t) :
    I t ∧ run step' (view s) (es.filterMap visible) = some (view t) := by
  rw [← viewed_eq_filterMap h]
  exact run_viewed view (fun _ => visible) hstep h0 h

theorem run_view (view : σ → σ') (visible : ε → Option ε')
    (hstep : ∀ u e v, step u e = some v → visible e = none ∧ view v = view u ∨
      ∃ e', visible e = some e' ∧ step' (view u) e' = some (view v)) (h : run step s es = some t) :
    run step' (view s) (es.filterMap visible) = some (view t) :=
  (run_view_of (I := fun _ => True) view visible (fun u e v _ he => ⟨trivial, hstep u e v he⟩) trivial h).2

end

/-! ## Every step -/

/-- A step of a run that does not trap. -/
theorem run_step {s t u : σ} {p r : List ε} {e : ε} (h : run step s (p ++ e :: r) = some t)
    (hu : run step s p = some u) : ∃ v, step u e = some v := by
  have hrest := run_split hu h
  rw [run_cons, Option.bind_eq_some_iff] at hrest
  obtain ⟨v, hv, -⟩ := hrest
  exact ⟨v, hv⟩

/-- **What a run needs.** `K` says of one step what it needs to keep `I`. Then `I` holds throughout a run exactly when
every step meets `K`. -/
theorem throughout_iff {I : List ε → σ → Prop} {K : List ε → σ → ε → Prop} {s : σ} {es : List ε} (h0 : I [] s)
    (hstep : ∀ p u e v, run step s p = some u → I p u → step u e = some v → (I (p ++ [e]) v ↔ K p u e))
    (htrap : ∀ p e r u, es = p ++ e :: r → run step s p = some u → step u e = none → K p u e) :
    (∀ p u, p <+: es → run step s p = some u → I p u) ↔
      ∀ p e r u, es = p ++ e :: r → run step s p = some u → K p u e := by
  constructor
  · intro h p e r u he hu
    cases hv : step u e with
    | none => exact htrap p e r u he hu hv
    | some v =>
      have hp : p <+: es := ⟨e :: r, he.symm⟩
      have hpe : p ++ [e] <+: es := ⟨r, by rw [he, List.append_assoc, List.singleton_append]⟩
      exact (hstep p u e v hu (h p u hp hu) hv).1 (h (p ++ [e]) v hpe (run_snoc_some.2 ⟨u, hu, hv⟩))
  · intro h p
    induction p using List.reverseRecOn with
    | nil =>
      intro u _ hu
      cases hu
      exact h0
    | append_singleton p e ih =>
      intro v hp hv
      obtain ⟨u, hu, hv⟩ := run_snoc_some.1 hv
      obtain ⟨r, hr⟩ := hp
      have he : es = p ++ e :: r := by rw [← hr, List.append_assoc, List.singleton_append]
      exact (hstep p u e v hu (ih u ⟨e :: r, he.symm⟩ hu) hv).2 (h p e r u he hu)

/-! ## Some step -/

/-- Some step of the run is taken in a state, and on an event, that satisfy `P`. -/
def Occurs (step : σ → ε → Option σ) (s : σ) (es : List ε) (P : σ → ε → Prop) : Prop :=
  ∃ p e r u, es = p ++ e :: r ∧ run step s p = some u ∧ P u e

variable {s u : σ} {es : List ε} {e : ε} {P : σ → ε → Prop}

/-- The steps of a run that is one event longer. -/
theorem occurs_snoc (hu : run step s es = some u) : Occurs step s (es ++ [e]) P ↔ Occurs step s es P ∨ P u e := by
  constructor
  · rintro ⟨p, e', r, v, h, hv, hP⟩
    rcases List.eq_nil_or_concat r with rfl | ⟨r', e'', rfl⟩
    · obtain ⟨rfl, h'⟩ := List.append_inj' h rfl
      cases h'
      rw [hu] at hv
      cases hv
      exact .inr hP
    · rw [List.concat_eq_append, ← List.cons_append, ← List.append_assoc] at h
      obtain ⟨rfl, -⟩ := List.append_inj' h rfl
      exact .inl ⟨p, e', r', v, rfl, hv, hP⟩
  · rintro (⟨p, e', r, v, rfl, hv, hP⟩ | hP)
    · exact ⟨p, e', r ++ [e], v, by simp, hv, hP⟩
    · exact ⟨es, e, [], u, rfl, hu, hP⟩

theorem Occurs.append (h : Occurs step s es P) (r : List ε) : Occurs step s (es ++ r) P := by
  obtain ⟨p, e, r', u, rfl, hu, hP⟩ := h
  exact ⟨p, e, r' ++ r, u, by simp, hu, hP⟩

/-- Some step of the run satisfies `P`, and no later event satisfies `Q`. -/
def Since (step : σ → ε → Option σ) (s : σ) (es : List ε) (P : σ → ε → Prop) (Q : ε → Prop) : Prop :=
  ∃ p e r u, es = p ++ e :: r ∧ run step s p = some u ∧ P u e ∧ ∀ e' ∈ r, ¬ Q e'

theorem since_snoc {Q : ε → Prop} (hu : run step s es = some u) :
    Since step s (es ++ [e]) P Q ↔ Since step s es P Q ∧ ¬ Q e ∨ P u e := by
  constructor
  · rintro ⟨p, e', r, v, h, hv, hP, hQ⟩
    rcases List.eq_nil_or_concat r with rfl | ⟨r', e'', rfl⟩
    · obtain ⟨rfl, h'⟩ := List.append_inj' h rfl
      cases h'
      rw [hu] at hv
      cases hv
      exact .inr hP
    · rw [List.concat_eq_append] at h hQ
      rw [← List.cons_append, ← List.append_assoc] at h
      obtain ⟨rfl, h'⟩ := List.append_inj' h rfl
      cases h'
      obtain ⟨hold, hlast⟩ := List.forall_mem_append.1 hQ
      exact .inl ⟨⟨p, e', r', v, rfl, hv, hP, hold⟩, hlast e (List.mem_singleton_self e)⟩
  · rintro (⟨⟨p, e', r, v, rfl, hv, hP, hQ⟩, he⟩ | hP)
    · exact ⟨p, e', r ++ [e], v, by simp, hv, hP, List.forall_mem_append.2 ⟨hQ, List.forall_mem_singleton.2 he⟩⟩
    · exact ⟨es, e, [], u, rfl, hu, hP, List.forall_mem_nil _⟩

end PartialRun
