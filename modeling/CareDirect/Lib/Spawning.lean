import CareDirect.Lib.Run
import Mathlib.Data.List.Basic

/-!
# A system that creates instances

A main system creates instances of another one as it goes; the instances stay alive, and events for any of them come
between events for the main system. `born s` is what the main system has created when it is in state `s`, and it only
grows. Then the instances do not interfere: the main system runs on its own events, and the `k`-th instance on its own
events from the state it was created in (`run_spawning`).
-/

namespace Spawning

variable {σ τ ε ι : Type*}

/-- The main system and the instances created so far. -/
structure System (σ τ : Type*) where
  main : σ
  instances : List τ

inductive Event (ε ι : Type*)
  | main (e : ε)
  | call (k : ℕ) (e : ι)

/-- One event. An event for an instance that has not been created is a trap. -/
def step (mainStep : σ → ε → Option σ) (instanceStep : τ → ι → Option τ) (born : σ → List τ) (s : System σ τ) :
    Event ε ι → Option (System σ τ)
  | .main e =>
    (mainStep s.main e).map fun main => ⟨main, s.instances ++ (born main).drop (born s.main).length⟩
  | .call k e =>
    s.instances[k]?.bind fun c => (instanceStep c e).map fun c => { s with instances := s.instances.set k c }

def Event.toMain : Event ε ι → Option ε
  | .main e => some e
  | .call .. => none

def Event.toInstance (k : ℕ) : Event ε ι → Option ι
  | .main _ => none
  | .call k' e => if k' = k then some e else none

/-- The events of the main system. -/
def mainEvents (es : List (Event ε ι)) : List ε := es.filterMap Event.toMain

/-- The events of the `k`-th instance. -/
def instanceEvents (k : ℕ) (es : List (Event ε ι)) : List ι := es.filterMap (Event.toInstance k)

variable {mainStep : σ → ε → Option σ} {instanceStep : τ → ι → Option τ} {born : σ → List τ} {s t : System σ τ}
  {es : List (Event ε ι)} {e : Event ε ι}

/-- After the events `es`, the main system started in `m`. -/
structure Apart (mainStep : σ → ε → Option σ) (instanceStep : τ → ι → Option τ) (born : σ → List τ) (m : σ)
    (es : List (Event ε ι)) (s : System σ τ) : Prop where
  main : PartialRun.run mainStep m (mainEvents es) = some s.main
  length : s.instances.length = (born s.main).length
  own : ∀ k c₀ c, (born s.main)[k]? = some c₀ → s.instances[k]? = some c →
    PartialRun.run instanceStep c₀ (instanceEvents k es) = some c
  /-- What is not yet created has had no events. -/
  unborn : ∀ k, (born s.main).length ≤ k → instanceEvents k es = []

theorem mainEvents_snoc (es : List (Event ε ι)) (e : Event ε ι) :
    mainEvents (es ++ [e]) = mainEvents es ++ e.toMain.toList := by
  rw [mainEvents, List.filterMap_append, ← mainEvents]
  cases h : e.toMain <;> simp [h]

theorem instanceEvents_snoc (k : ℕ) (es : List (Event ε ι)) (e : Event ε ι) :
    instanceEvents k (es ++ [e]) = instanceEvents k es ++ (e.toInstance k).toList := by
  rw [instanceEvents, List.filterMap_append, ← instanceEvents]
  cases h : e.toInstance k <;> simp [h]

theorem Apart.step {m : σ} (hborn : ∀ u e v, mainStep u e = some v → born u <+: born v)
    (hs : Apart mainStep instanceStep born m es s) (h : step mainStep instanceStep born s e = some t) :
    Apart mainStep instanceStep born m (es ++ [e]) t := by
  cases e with
  | main e =>
    obtain ⟨main, hmain, rfl⟩ := Option.map_eq_some_iff.1 h
    obtain ⟨new, hnew⟩ := hborn _ _ _ hmain
    have hdrop : (born main).drop (born s.main).length = new := by rw [← hnew, List.drop_left]
    have hown : ∀ k, instanceEvents k (es ++ [.main e]) = instanceEvents k es := fun k => by
      rw [instanceEvents_snoc]
      exact List.append_nil _
    constructor
    · rw [mainEvents_snoc]
      exact PartialRun.run_snoc_some.2 ⟨s.main, hs.main, hmain⟩
    · change (s.instances ++ (born main).drop (born s.main).length).length = (born main).length
      rw [hdrop, ← hnew, List.length_append, List.length_append, hs.length]
    · intro k c₀ c hc₀ hc
      rw [hown]
      simp only [hdrop] at hc
      simp only [← hnew] at hc₀
      by_cases hk : k < (born s.main).length
      · rw [List.getElem?_append_left hk] at hc₀
        rw [List.getElem?_append_left (hs.length ▸ hk)] at hc
        exact hs.own k c₀ c hc₀ hc
      · rw [List.getElem?_append_right (Nat.le_of_not_lt hk)] at hc₀
        rw [List.getElem?_append_right (hs.length ▸ Nat.le_of_not_lt hk), hs.length, hc₀] at hc
        rw [hs.unborn k (Nat.le_of_not_lt hk)]
        exact hc
    · intro k hk
      rw [hown]
      refine hs.unborn k (Nat.le_trans ?_ hk)
      rw [← hnew, List.length_append]
      exact Nat.le_add_right _ _
  | call k e =>
    obtain ⟨c, hc, h⟩ := Option.bind_eq_some_iff.1 h
    obtain ⟨c', hc', rfl⟩ := Option.map_eq_some_iff.1 h
    have hk := (List.getElem?_eq_some_iff.1 hc).1
    constructor
    · rw [mainEvents_snoc]
      exact (congrArg _ (List.append_nil _)).trans hs.main
    · rw [List.length_set, hs.length]
    · intro j c₀ d hc₀ hd
      rw [instanceEvents_snoc, Event.toInstance]
      by_cases hj : k = j
      · subst hj
        rw [List.getElem?_set_self hk] at hd
        cases hd
        rw [if_pos rfl]
        exact PartialRun.run_snoc_some.2 ⟨c, hs.own k c₀ c hc₀ hc, hc'⟩
      · rw [List.getElem?_set_ne hj] at hd
        rw [if_neg hj, Option.toList_none, List.append_nil]
        exact hs.own j c₀ d hc₀ hd
    · intro j hj
      have hne : k ≠ j := fun h => absurd (hs.length ▸ h ▸ hk) (Nat.not_lt.2 hj)
      rw [instanceEvents_snoc, Event.toInstance, if_neg hne, Option.toList_none, List.append_nil]
      exact hs.unborn j hj

/-- **Instances do not interfere.** -/
theorem run_spawning {m : σ} (hborn : ∀ u e v, mainStep u e = some v → born u <+: born v) (hm : born m = [])
    (h : PartialRun.run (step mainStep instanceStep born) ⟨m, []⟩ es = some t) :
    Apart mainStep instanceStep born m es t := by
  have hstart : Apart mainStep instanceStep born m [] ⟨m, []⟩ :=
    ⟨rfl, by rw [hm], fun k c₀ c _ hc => by simp at hc, fun _ _ => rfl⟩
  exact PartialRun.run_induction hstart (fun p u e v _ hu he => hu.step hborn he) es h

end Spawning
