import Mathlib.Data.List.Infix
import Mathlib.Data.Nat.Notation

/-!
# Backtracking patterns

Regular expressions over named sets of characters, with the two constructs that are not regular operations on
languages: look-ahead and the start anchor. A pattern is matched at a position of the input; `Matches p b xs rest` says
that `p` can consume `xs` with `rest` still to come, `b` telling whether the position is the start of the input.

- `ends` is the matcher: all remainders that the alternatives of a pattern can leave (`mem_ends`);
- `fullMatch` asks for the alternative that leaves nothing (`fullMatch_iff`);
- a look-ahead of the form "somewhere a character of `s`" in front of a pattern is a side condition
  (`matches_ahead_seq`).
-/

/-- Patterns over sets of characters named by `σ`. -/
inductive Pattern (σ : Type*)
  | empty
  /-- One character of the set. -/
  | set (s : σ)
  /-- At least `lo` and at most `hi` characters of the set. -/
  | many (s : σ) (lo : ℕ) (hi : Option ℕ)
  | seq (p q : Pattern σ)
  /-- `p` matches here; nothing is consumed. -/
  | ahead (p : Pattern σ)
  /-- The position is the start of the input. -/
  | start
  deriving DecidableEq

namespace Pattern

variable {σ α : Type*} (mem : σ → α → Bool)

/-- `p` consumes `xs` before `rest`; `b`: at the start of the input. -/
def Matches : Pattern σ → Bool → List α → List α → Prop
  | empty, _, xs, _ => xs = []
  | set s, _, xs, _ => ∃ x, xs = [x] ∧ mem s x = true
  | many s lo hi, _, xs, _ => (∀ x ∈ xs, mem s x = true) ∧ lo ≤ xs.length ∧ ∀ m, hi = some m → xs.length ≤ m
  | seq p q, b, xs, rest =>
    ∃ ys zs, xs = ys ++ zs ∧ p.Matches b ys (zs ++ rest) ∧ q.Matches (b && ys.isEmpty) zs rest
  | ahead p, b, xs, rest => xs = [] ∧ ∃ ys zs, rest = ys ++ zs ∧ p.Matches b ys zs
  | start, b, xs, _ => b = true ∧ xs = []

/-! ## The matcher -/

/-- The remainders after `lo` to `hi` elements that satisfy `f`. -/
def manyEnds (f : α → Bool) : ℕ → Option ℕ → List α → List (List α)
  | lo, _, [] => if lo = 0 then [[]] else []
  | lo, hi, x :: xs =>
    (if lo = 0 then [x :: xs] else []) ++
      if f x = true ∧ hi ≠ some 0 then manyEnds f (lo - 1) (hi.map (· - 1)) xs else []

/-- The remainders that a match of the pattern at the head of the list can leave. -/
def ends : Pattern σ → Bool → List α → List (List α)
  | empty, _, xs => [xs]
  | set _, _, [] => []
  | set s, _, x :: xs => if mem s x = true then [xs] else []
  | many s lo hi, _, xs => manyEnds (mem s) lo hi xs
  | seq p q, b, xs => (p.ends b xs).flatMap fun ys => q.ends (b && ys.length == xs.length) ys
  | ahead p, b, xs => if (p.ends b xs).isEmpty then [] else [xs]
  | start, b, xs => if b = true then [xs] else []

/-- The pattern matches the whole input. -/
def fullMatch (p : Pattern σ) (xs : List α) : Bool := (p.ends mem true xs).any List.isEmpty

variable {mem} {f : α → Bool} {p q : Pattern σ} {s : σ} {b : Bool} {xs rest : List α}

theorem mem_manyEnds {t : List α} : ∀ {xs : List α} {lo : ℕ} {hi : Option ℕ}, t ∈ manyEnds f lo hi xs ↔
    ∃ ys, xs = ys ++ t ∧ (∀ y ∈ ys, f y = true) ∧ lo ≤ ys.length ∧ ∀ m, hi = some m → ys.length ≤ m
  | [], lo, hi => by
    rw [manyEnds]
    constructor
    · intro ht
      split at ht
      · rename_i hlo
        rw [List.mem_singleton.1 ht]
        exact ⟨[], rfl, by simp, by omega, by simp⟩
      · exact absurd ht List.not_mem_nil
    · rintro ⟨ys, hys, -, hlo, -⟩
      obtain ⟨rfl, rfl⟩ := List.append_eq_nil_iff.1 hys.symm
      rw [if_pos (Nat.le_zero.1 hlo)]
      exact List.mem_singleton_self _
  | x :: xs, lo, hi => by
    rw [manyEnds, List.mem_append]
    constructor
    · rintro (ht | ht)
      · split at ht
        · rename_i hlo
          rw [List.mem_singleton.1 ht]
          exact ⟨[], rfl, by simp, by omega, by simp⟩
        · exact absurd ht List.not_mem_nil
      · split at ht
        · rename_i hx
          obtain ⟨ys, rfl, hys, hlo, hhi⟩ := mem_manyEnds.1 ht
          refine ⟨x :: ys, rfl, List.forall_mem_cons.2 ⟨hx.1, hys⟩, by simp only [List.length_cons]; omega, ?_⟩
          intro m hm
          have hm0 : m ≠ 0 := fun h0 => hx.2 (by rw [hm, h0])
          have := hhi (m - 1) (by rw [hm]; rfl)
          simp only [List.length_cons]
          omega
        · exact absurd ht List.not_mem_nil
    · rintro ⟨_ | ⟨y, ys⟩, hys, hall, hlo, hhi⟩
      · left
        rw [if_pos (Nat.le_zero.1 hlo)]
        exact List.mem_singleton.2 hys.symm
      · right
        obtain ⟨rfl, rfl⟩ := List.cons.inj hys
        obtain ⟨hx, hall⟩ := List.forall_mem_cons.1 hall
        rw [List.length_cons] at hlo
        have hhi0 : hi ≠ some 0 := fun h0 => by simpa using hhi 0 h0
        rw [if_pos ⟨hx, hhi0⟩]
        refine mem_manyEnds.2 ⟨ys, rfl, hall, by omega, fun m hm => ?_⟩
        obtain ⟨k, hk, rfl⟩ := Option.map_eq_some_iff.1 hm
        have := hhi k hk
        rw [List.length_cons] at this
        omega

/-- Nothing has been consumed when nothing is missing. -/
theorem isEmpty_eq (ys t : List α) : (t.length == (ys ++ t).length) = ys.isEmpty := by
  cases ys with
  | nil => simp
  | cons y ys =>
    have hne : t.length ≠ (y :: ys ++ t).length := by
      rw [List.length_append, List.length_cons]
      omega
    simpa using hne

/-- **The matcher is right.** -/
theorem mem_ends : ∀ {p : Pattern σ} {b : Bool} {xs t : List α},
    t ∈ p.ends mem b xs ↔ ∃ ys, xs = ys ++ t ∧ p.Matches mem b ys t
  | empty, b, xs, t => by simp [ends, Matches, eq_comm]
  | set s, b, [], t => by simp [ends, Matches]
  | set s, b, x :: xs, t => by
    rw [ends]
    constructor
    · intro ht
      split at ht
      · rename_i hx
        rw [List.mem_singleton.1 ht]
        exact ⟨[x], rfl, x, rfl, hx⟩
      · exact absurd ht List.not_mem_nil
    · rintro ⟨ys, hys, y, rfl, hy⟩
      obtain ⟨rfl, rfl⟩ := List.cons.inj hys
      rw [if_pos hy]
      exact List.mem_singleton_self _
  | many s lo hi, b, xs, t => mem_manyEnds
  | seq p q, b, xs, t => by
    rw [ends, List.mem_flatMap]
    constructor
    · rintro ⟨u, hu, ht⟩
      obtain ⟨ys, rfl, hp⟩ := mem_ends.1 hu
      obtain ⟨zs, rfl, hq⟩ := mem_ends.1 ht
      rw [isEmpty_eq] at hq
      exact ⟨ys ++ zs, (List.append_assoc _ _ _).symm, ys, zs, rfl, hp, hq⟩
    · rintro ⟨_, rfl, ys, zs, rfl, hp, hq⟩
      refine ⟨zs ++ t, mem_ends.2 ⟨ys, List.append_assoc _ _ _, hp⟩, mem_ends.2 ⟨zs, rfl, ?_⟩⟩
      rwa [List.append_assoc, isEmpty_eq]
  | ahead p, b, xs, t => by
    have hp : (p.ends mem b xs).isEmpty = false ↔ ∃ ys zs, xs = ys ++ zs ∧ p.Matches mem b ys zs := by
      rw [List.isEmpty_eq_false_iff_exists_mem, exists_comm]
      exact exists_congr fun u => mem_ends
    rw [ends]
    cases hempty : (p.ends mem b xs).isEmpty with
    | true =>
      have hnone : ¬ ∃ ys zs, xs = ys ++ zs ∧ p.Matches mem b ys zs := by
        rw [← hp, hempty]
        exact Bool.noConfusion
      simp only [if_true, List.not_mem_nil, false_iff]
      rintro ⟨_, rfl, rfl, hex⟩
      exact hnone hex
    | false =>
      simp only [Bool.false_eq_true, if_false, List.mem_singleton]
      constructor
      · rintro rfl
        exact ⟨[], rfl, rfl, hp.1 hempty⟩
      · rintro ⟨_, rfl, rfl, -⟩
        rfl
  | start, b, xs, t => by
    cases b with
    | true => simp [ends, Matches, eq_comm]
    | false => simp [ends, Matches]

/-- A full match consumes the whole input. -/
theorem fullMatch_iff : p.fullMatch mem xs = true ↔ p.Matches mem true xs [] := by
  rw [fullMatch, List.any_eq_true]
  constructor
  · rintro ⟨t, ht, hempty⟩
    rw [List.isEmpty_iff.1 hempty] at ht
    obtain ⟨ys, rfl, hp⟩ := mem_ends.1 ht
    rwa [List.append_nil]
  · intro hp
    exact ⟨[], mem_ends.2 ⟨xs, (List.append_nil xs).symm, hp⟩, rfl⟩

/-! ## Repetitions and sequences -/

theorem matches_many {lo : ℕ} {hi : Option ℕ} : (many s lo hi).Matches mem b xs rest ↔
    (∀ x ∈ xs, mem s x = true) ∧ lo ≤ xs.length ∧ ∀ m, hi = some m → xs.length ≤ m := Iff.rfl

theorem matches_start_seq : (seq start q).Matches mem b xs rest ↔ b = true ∧ q.Matches mem true xs rest := by
  cases b <;> simp [Matches]

theorem matches_set_seq :
    (seq (set s) q).Matches mem b xs rest ↔ ∃ x zs, xs = x :: zs ∧ mem s x = true ∧ q.Matches mem false zs rest := by
  simp only [Matches]
  constructor
  · rintro ⟨_, zs, rfl, ⟨x, rfl, hx⟩, hq⟩
    exact ⟨x, zs, rfl, hx, by simpa using hq⟩
  · rintro ⟨x, zs, rfl, hx, hq⟩
    exact ⟨[x], zs, rfl, ⟨x, rfl, hx⟩, by simpa using hq⟩

/-- A non-empty repetition leaves the start of the input behind. -/
theorem matches_many_seq {lo : ℕ} {hi : Option ℕ} (hlo : 0 < lo) :
    (seq (many s lo hi) q).Matches mem b xs rest ↔
      ∃ ys zs, xs = ys ++ zs ∧ (many s lo hi).Matches mem b ys (zs ++ rest) ∧ q.Matches mem false zs rest := by
  have hne : ∀ ys zs, (many s lo hi).Matches mem b ys (zs ++ rest) → ys.isEmpty = false := by
    rintro (_ | ⟨y, ys⟩) zs ⟨-, hlen, -⟩
    · exact absurd hlen (Nat.not_le_of_lt hlo)
    · rfl
  constructor
  · rintro ⟨ys, zs, rfl, hm, hq⟩
    rw [hne ys zs hm, Bool.and_false] at hq
    exact ⟨ys, zs, rfl, hm, hq⟩
  · rintro ⟨ys, zs, rfl, hm, hq⟩
    refine ⟨ys, zs, rfl, hm, ?_⟩
    rwa [hne ys zs hm, Bool.and_false]

/-- **A look-ahead for a character of `s`** behind any number of characters of `d`. -/
theorem matches_ahead_seq {d : σ} : (seq (ahead (seq (many d 0 none) (set s))) q).Matches mem b xs rest ↔
    (∃ ys x zs, xs ++ rest = ys ++ x :: zs ∧ (∀ y ∈ ys, mem d y = true) ∧ mem s x = true) ∧
      q.Matches mem b xs rest := by
  simp only [Matches]
  constructor
  · rintro ⟨_, zs, rfl, ⟨rfl, us, vs, hsplit, ys, _, rfl, ⟨hys, -⟩, x, rfl, hx⟩, hq⟩
    exact ⟨⟨ys, x, vs, by simpa using hsplit, hys, hx⟩, by simpa using hq⟩
  · rintro ⟨⟨ys, x, zs, hsplit, hys, hx⟩, hq⟩
    refine ⟨[], xs, rfl, ⟨rfl, ys ++ [x], zs, by simpa using hsplit, ys, [x], rfl, ⟨hys, by simp, by simp⟩, x, rfl,
      hx⟩, by simpa using hq⟩

end Pattern
