import Mathlib.Algebra.BigOperators.Group.List.Basic
import Mathlib.Algebra.GroupWithZero.Nat
import Mathlib.Data.List.TakeDrop
import Mathlib.Data.Nat.Find
import Mathlib.Data.Prod.Lex

/-!
# Walks over the positions of a list of groups

A position `(g, i)` is index `i` of group `g`; `ns` is the list of the lengths of the groups. A walk starts at `(0, 0)`
and, as long as it is inside a group, moves to the next index of the group or to the start of the next group.

- every move goes up in the lexicographic order (`Move.lex`) and in the number of indices passed (`rank_lt`);
- a walk leaves the last group after at least as many moves as there are groups and at most as many as there are
  indices (`Walk.exists_end`);
- until then it is at the start of every group exactly once, and nowhere twice (`Walk.start_once`, `Walk.injective`).
-/

namespace Positions

/-- One move: within a group or to the start of the next one. -/
inductive Move : ℕ × ℕ → ℕ × ℕ → Prop
  | next {g i : ℕ} : Move (g, i) (g, i + 1)
  | leave {g i : ℕ} : Move (g, i) (g + 1, 0)

/-- `p` is an index of one of the groups. -/
def Inside (ns : List ℕ) (p : ℕ × ℕ) : Prop := ∃ n, ns[p.1]? = some n ∧ p.2 < n

/-- A walk, constrained only as long as it has not left the last group. -/
structure Walk (ns : List ℕ) (f : ℕ → ℕ × ℕ) : Prop where
  start : f 0 = (0, 0)
  inside : ∀ k, (f k).1 < ns.length → Inside ns (f k)
  move : ∀ k, (f k).1 < ns.length → Move (f k) (f (k + 1))

/-- The number of indices before `p`. -/
def rank (ns : List ℕ) (p : ℕ × ℕ) : ℕ := (ns.take p.1).sum + p.2

variable {ns : List ℕ} {p q : ℕ × ℕ}

theorem Move.eq_or (h : Move p q) : q = (p.1, p.2 + 1) ∨ q = (p.1 + 1, 0) := by
  cases h with
  | next => exact .inl rfl
  | leave => exact .inr rfl

theorem Move.lex (h : Move p q) : Prod.Lex (· < ·) (· < ·) p q := by
  cases h with
  | next => exact .right _ (Nat.lt_succ_self _)
  | leave => exact .left _ _ (Nat.lt_succ_self _)

theorem Move.fst_le (h : Move p q) : p.1 ≤ q.1 ∧ q.1 ≤ p.1 + 1 := by
  cases h <;> simp

/-- A move to another group is a move to its start. -/
theorem Move.eq_start (h : Move p q) (hlt : p.1 < q.1) : q = (q.1, 0) := by
  cases h with
  | next => exact absurd hlt (Nat.lt_irrefl _)
  | leave => rfl

theorem sum_take_succ {g n : ℕ} (h : ns[g]? = some n) : (ns.take (g + 1)).sum = (ns.take g).sum + n := by
  rw [List.take_add_one, h]
  simp

theorem rank_lt (hp : Inside ns p) (h : Move p q) : rank ns p < rank ns q := by
  obtain ⟨n, hn, hi⟩ := hp
  cases h with
  | next => simp [rank]
  | leave => simp only [rank, sum_take_succ hn]; simp only at hi; omega

/-- The indices up to the end of a group are among all indices. -/
theorem sum_take_add_le {g n : ℕ} (h : ns[g]? = some n) : (ns.take g).sum + n ≤ ns.sum := by
  rw [← sum_take_succ h, ← List.sum_take_add_sum_drop ns (g + 1)]
  exact Nat.le_add_right _ _

theorem rank_lt_sum (hp : Inside ns p) : rank ns p < ns.sum := by
  obtain ⟨n, hn, hi⟩ := hp
  have hle := sum_take_add_le hn
  unfold rank
  omega

namespace Walk

variable {f : ℕ → ℕ × ℕ} (h : Walk ns f)
include h

/-- As long as it has not left the last group, a walk has passed at least one index a move. -/
theorem le_rank : ∀ k, (∀ j < k, (f j).1 < ns.length) → k ≤ rank ns (f k)
  | 0, _ => Nat.zero_le _
  | k + 1, hk => by
    have hin := hk k (Nat.lt_succ_self k)
    have ih := le_rank k fun j hj => hk j (Nat.lt_succ_of_lt hj)
    have := rank_lt (h.inside k hin) (h.move k hin)
    omega

/-- … and at most one group a move. -/
theorem fst_le : ∀ k, (∀ j < k, (f j).1 < ns.length) → (f k).1 ≤ k
  | 0, _ => by simp [h.start]
  | k + 1, hk => by
    have ih := fst_le k fun j hj => hk j (Nat.lt_succ_of_lt hj)
    have := (h.move k (hk k (Nat.lt_succ_self k))).fst_le
    omega

/-- **A walk ends**, after at least as many moves as there are groups and at most as many as there are indices. -/
theorem exists_end : ∃ n, ns.length ≤ n ∧ n ≤ ns.sum ∧ (f n).1 = ns.length ∧ ∀ k < n, (f k).1 < ns.length := by
  have hex : ∃ n, ns.length ≤ (f n).1 := by
    by_contra hne
    have hall : ∀ n, (f n).1 < ns.length := fun n => Nat.lt_of_not_le fun hle => hne ⟨n, hle⟩
    have hle := h.le_rank ns.sum fun j _ => hall j
    have := rank_lt_sum (h.inside _ (hall ns.sum))
    omega
  classical
  refine ⟨Nat.find hex, ?_⟩
  have hend := Nat.find_spec hex
  have hbefore : ∀ k < Nat.find hex, (f k).1 < ns.length := fun k hk => Nat.lt_of_not_le (Nat.find_min hex hk)
  have hfst := h.fst_le _ hbefore
  have hexact : (f (Nat.find hex)).1 = ns.length := by
    cases hn : Nat.find hex with
    | zero => rw [hn] at hend hfst; omega
    | succ k =>
      rw [hn] at hend hbefore
      have hk := hbefore k (Nat.lt_succ_self k)
      have := (h.move k hk).fst_le
      omega
  refine ⟨by omega, ?_, hexact, hbefore⟩
  -- at the last move but one the walk is still inside, with one index passed a move
  cases hn : Nat.find hex with
  | zero => exact Nat.zero_le _
  | succ k =>
    rw [hn] at hbefore
    have hk := hbefore k (Nat.lt_succ_self k)
    have hle := h.le_rank k fun j hj => hbefore j (Nat.lt_succ_of_lt hj)
    have := rank_lt_sum (h.inside k hk)
    omega

variable {n : ℕ} (hn : ∀ k < n, (f k).1 < ns.length)
include hn

theorem rank_strictMono {j k : ℕ} (hj : j < k) (hk : k ≤ n) : rank ns (f j) < rank ns (f k) := by
  induction k with
  | zero => omega
  | succ k ih =>
    have hin := hn k (by omega)
    have hlt := rank_lt (h.inside k hin) (h.move k hin)
    rcases Nat.lt_or_eq_of_le (Nat.le_of_lt_succ hj) with hj | rfl
    · exact Nat.lt_trans (ih hj (by omega)) hlt
    · exact hlt

/-- No position is visited twice. -/
theorem injective {j k : ℕ} (hj : j < n) (hk : k < n) (he : f j = f k) : j = k := by
  rcases Nat.lt_trichotomy j k with hlt | heq | hlt
  · have := h.rank_strictMono hn hlt (by omega); rw [he] at this; omega
  · exact heq
  · have := h.rank_strictMono hn hlt (by omega); rw [he] at this; omega

theorem start_visited : ∀ k ≤ n, ∀ g ≤ (f k).1, ∃ j ≤ k, f j = (g, 0)
  | 0, _, g, hg => by
    rw [h.start] at hg
    exact ⟨0, Nat.le_refl _, by rw [h.start, Nat.le_zero.1 hg]⟩
  | k + 1, hk, g, hg => by
    have hm := h.move k (hn k hk)
    by_cases hgk : g ≤ (f k).1
    · obtain ⟨j, hj, he⟩ := start_visited k (by omega) g hgk
      exact ⟨j, by omega, he⟩
    · have hle := hm.fst_le
      have he : g = (f (k + 1)).1 := by omega
      exact ⟨k + 1, Nat.le_refl _, he ▸ hm.eq_start (by omega)⟩

/-- The start of every group is visited exactly once. -/
theorem start_once (hend : (f n).1 = ns.length) {g : ℕ} (hg : g < ns.length) : ∃! k, k < n ∧ f k = (g, 0) := by
  obtain ⟨j, hj, he⟩ := h.start_visited hn n (Nat.le_refl n) g (by omega)
  have hjn : j < n := by
    rcases Nat.lt_or_eq_of_le hj with hlt | rfl
    · exact hlt
    · rw [he] at hend; simp only at hend; omega
  exact ⟨j, ⟨hjn, he⟩, fun k ⟨hk, hek⟩ => h.injective hn hk hjn (hek.trans he.symm)⟩

end Walk

end Positions
