import Mathlib.Data.List.Infix
import Mathlib.Data.List.TakeDrop

/-!
# Journals with an accumulator for every tag

Tagged items arrive one after the other. Every arrival is added to the accumulator of its tag, and a copy of the
accumulator is pushed to one common list. Everything is a function of the arrivals so far, `log`: the accumulators
(`items`) and the list of copies (`copies`).

- there is one copy an arrival (`length_copies`), and it holds the arrivals of its tag so far (`getElem?_copies`);
- the copies of a block of arrivals of one tag are its prefixes (`copies_block`);
- an item is in one of the first `n` copies exactly when it is one of the first `n` arrivals (`mem_take_copies`);
- when the blocks of the tags arrive one after the other, the copies at the positions `s < n` are the whole blocks of
  the tags `s` only in special cases (`Placed`, `placed_range`, `placed_all`).
-/

namespace Journal

variable {ι α : Type*}

/-- The non-empty prefixes of a list, shortest first. -/
def prefixes : List α → List (List α)
  | [] => []
  | x :: xs => [x] :: (prefixes xs).map (x :: ·)

@[simp] theorem length_prefixes : ∀ xs : List α, (prefixes xs).length = xs.length
  | [] => rfl
  | x :: xs => by simp [prefixes, length_prefixes xs]

theorem getElem?_prefixes : ∀ (xs : List α) {k : ℕ}, k < xs.length → (prefixes xs)[k]? = some (xs.take (k + 1))
  | [], k, h => absurd h (Nat.not_lt_zero k)
  | x :: xs, 0, _ => by simp [prefixes]
  | x :: xs, k + 1, h => by
    have hk : k < xs.length := Nat.lt_of_succ_lt_succ h
    simp [prefixes, getElem?_prefixes xs hk]

section Log

variable [DecidableEq ι]

/-- The accumulator of the tag `i`. -/
def items (i : ι) (log : List (ι × α)) : List α := (log.filter (·.1 = i)).map Prod.snd

/-- The copies that the arrivals of the list push after the arrivals `before`. -/
def copies : List (ι × α) → List (ι × α) → List (List α)
  | _, [] => []
  | before, x :: log => items x.1 (before ++ [x]) :: copies (before ++ [x]) log

variable {i j : ι} {before log log' : List (ι × α)} {x : α} {xs : List α}

/-! ## Accumulators -/

@[simp] theorem items_nil : items i ([] : List (ι × α)) = [] := rfl

@[simp] theorem items_append : items i (log ++ log') = items i log ++ items i log' := by
  simp [items]

@[simp] theorem items_block : items i (xs.map (i, ·)) = xs := by
  simp [items, List.filter_map, Function.comp_def]

theorem items_block_of_ne (h : j ≠ i) : items i (xs.map (j, ·)) = [] := by
  simp [items, List.filter_map, Function.comp_def, h]

theorem mem_items : x ∈ items i log ↔ (i, x) ∈ log := by
  simp [items]

/-! ## Copies -/

@[simp] theorem length_copies : ∀ (log before : List (ι × α)), (copies before log).length = log.length
  | [], _ => rfl
  | x :: log, before => by rw [copies, List.length_cons, length_copies log, List.length_cons]

theorem copies_append : ∀ (log before : List (ι × α)),
    copies before (log ++ log') = copies before log ++ copies (before ++ log) log'
  | [], before => by simp [copies]
  | x :: log, before => by
    rw [List.cons_append, copies, copies_append log, copies, List.cons_append, List.append_assoc, List.singleton_append]

/-- A copy holds the arrivals of its tag so far. -/
theorem getElem?_copies : ∀ (log before : List (ι × α)) (k : ℕ),
    (copies before log)[k]? = log[k]?.map fun x => items x.1 (before ++ log.take (k + 1))
  | [], _, _ => by simp [copies]
  | x :: log, before, 0 => by simp [copies]
  | x :: log, before, k + 1 => by
    rw [copies, List.getElem?_cons_succ, getElem?_copies log, List.getElem?_cons_succ, List.take_succ_cons,
      List.append_assoc, List.singleton_append]

theorem take_copies : ∀ (log before : List (ι × α)) (n : ℕ), (copies before log).take n = copies before (log.take n)
  | [], _, _ => by simp [copies]
  | _ :: _, _, 0 => rfl
  | x :: log, before, n + 1 => by simp [copies, take_copies log]

theorem mem_copies : (∃ c ∈ copies [] log, x ∈ c) ↔ x ∈ log.map Prod.snd := by
  constructor
  · rintro ⟨c, hc, hx⟩
    obtain ⟨k, hk⟩ := List.mem_iff_getElem?.1 hc
    rw [getElem?_copies, Option.map_eq_some_iff] at hk
    obtain ⟨y, -, rfl⟩ := hk
    rw [List.nil_append, mem_items] at hx
    exact List.mem_map_of_mem (List.mem_of_mem_take hx)
  · intro hx
    obtain ⟨⟨i, x⟩, hy, rfl⟩ := List.mem_map.1 hx
    obtain ⟨k, hk⟩ := List.mem_iff_getElem?.1 hy
    have hcopy := getElem?_copies log [] k
    rw [hk, Option.map_some] at hcopy
    refine ⟨_, List.mem_of_getElem? hcopy, ?_⟩
    rw [List.nil_append, mem_items]
    exact List.mem_of_getElem? (List.getElem?_take_of_succ.trans hk)

/-- **The first copies show the first arrivals.** -/
theorem mem_take_copies (n : ℕ) : (∃ c ∈ (copies [] log).take n, x ∈ c) ↔ x ∈ (log.take n).map Prod.snd := by
  rw [take_copies, mem_copies]

/-! ## Blocks -/

/-- A block of arrivals of one tag pushes the prefixes of the block, each after what the tag had before. -/
theorem copies_block : ∀ (xs : List α) (before : List (ι × α)),
    copies before (xs.map (i, ·)) = (prefixes xs).map (items i before ++ ·)
  | [], _ => rfl
  | x :: xs, before => by
    have hone : items i [(i, x)] = [x] := by simp [items]
    simp [copies, prefixes, copies_block xs, hone, Function.comp_def]

/-- Blocks of different tags push their prefixes one after the other. -/
theorem copies_blocks (f : ι → List α) : ∀ (is : List ι) (before : List (ι × α)), is.Nodup →
    (∀ i ∈ is, items i before = []) →
    copies before (is.flatMap fun i => (f i).map (i, ·)) = is.flatMap fun i => prefixes (f i)
  | [], _, _, _ => rfl
  | i :: is, before, hnd, hfresh => by
    obtain ⟨hi, hnd⟩ := List.nodup_cons.1 hnd
    have hrest : ∀ j ∈ is, items j (before ++ (f i).map (i, ·)) = [] := by
      intro j hj
      have hne : i ≠ j := fun he => hi (he ▸ hj)
      rw [items_append, hfresh j (List.mem_cons_of_mem _ hj), items_block_of_ne hne, List.append_nil]
    rw [List.flatMap_cons, copies_append, copies_block, hfresh i List.mem_cons_self, copies_blocks f is _ hnd hrest]
    simp

end Log

/-! ## Copies by position -/

theorem length_flatMap_prefixes (f : ι → List α) : ∀ is : List ι,
    (is.flatMap fun i => prefixes (f i)).length = (is.flatMap f).length
  | [] => rfl
  | i :: is => by simp [length_flatMap_prefixes f is]

/-- The copy at a position is a prefix of the block that the position falls into. -/
theorem getElem?_flatMap_prefixes (f : ι → List α) {y : List α} : ∀ (is : List ι) (s : ℕ),
    (is.flatMap fun i => prefixes (f i))[s]? = some y ↔
      ∃ p i q t, is = p ++ i :: q ∧ t < (f i).length ∧ s = (p.flatMap f).length + t ∧ y = (f i).take (t + 1)
  | [], s => by simp
  | i :: is, s => by
    rw [List.flatMap_cons]
    by_cases hs : s < (f i).length
    · rw [List.getElem?_append_left (by simpa using hs), getElem?_prefixes _ hs]
      constructor
      · intro hy
        exact ⟨[], i, is, s, rfl, hs, (Nat.zero_add s).symm, (Option.some.inj hy).symm⟩
      · rintro ⟨p, j, q, t, heq, ht, hst, rfl⟩
        cases p with
        | nil =>
          obtain ⟨rfl, -⟩ := List.cons.inj heq
          rw [hst, List.flatMap_nil, List.length_nil, Nat.zero_add]
        | cons j' p =>
          obtain ⟨rfl, -⟩ := List.cons.inj heq
          rw [List.flatMap_cons, List.length_append] at hst
          omega
    · rw [List.getElem?_append_right (by simpa using hs), length_prefixes, getElem?_flatMap_prefixes f is]
      constructor
      · rintro ⟨p, j, q, t, rfl, ht, hst, rfl⟩
        refine ⟨i :: p, j, q, t, rfl, ht, ?_, rfl⟩
        rw [List.flatMap_cons, List.length_append]
        omega
      · rintro ⟨p, j, q, t, heq, ht, hst, rfl⟩
        cases p with
        | nil =>
          obtain ⟨rfl, -⟩ := List.cons.inj heq
          rw [List.flatMap_nil, List.length_nil] at hst
          omega
        | cons j' p =>
          obtain ⟨rfl, rfl⟩ := List.cons.inj heq
          rw [List.flatMap_cons, List.length_append] at hst
          exact ⟨p, j, q, t, rfl, ht, by omega, rfl⟩

/-- The blocks of `order` arrive one after the other, and the copy at every position `s < n` is the whole block of
`s`: the position falls `t` places into a block whose first `t + 1` items are that block. -/
def Placed (f : ℕ → List α) (n : ℕ) (order : List ℕ) : Prop :=
  ∀ s < n, ∃ p i q t, order = p ++ i :: q ∧ t < (f i).length ∧ s = (p.flatMap f).length + t ∧ f s = (f i).take (t + 1)

variable {f : ℕ → List α} {n : ℕ}

theorem placed_iff {order : List ℕ} :
    Placed f n order ↔ ∀ s < n, (order.flatMap fun i => prefixes (f i))[s]? = some (f s) :=
  forall₂_congr fun s _ => (getElem?_flatMap_prefixes f order s).symm

theorem length_flatMap_of_one {is : List ℕ} (h : ∀ i ∈ is, (f i).length = 1) : (is.flatMap f).length = is.length := by
  induction is with
  | nil => rfl
  | cons i is ih =>
    rw [List.flatMap_cons, List.length_append, h i List.mem_cons_self,
      ih fun j hj => h j (List.mem_cons_of_mem _ hj), List.length_cons]
    omega

/-- With blocks of one item the copies are the blocks in the order of arrival. -/
theorem placed_of_one {order : List ℕ} (hlen : order.length = n) (hone : ∀ i ∈ order, (f i).length = 1)
    (hat : ∀ s i, order[s]? = some i → f s = f i) : Placed f n order := by
  intro s hs
  have hget := List.getElem?_eq_getElem (hlen.symm ▸ hs)
  have hi := hone _ (List.mem_of_getElem? hget)
  refine ⟨order.take s, order[s], order.drop (s + 1), 0, ?_, by omega, ?_, ?_⟩
  · rw [← List.drop_eq_getElem_cons, List.take_append_drop]
  · rw [length_flatMap_of_one fun i hm => hone i (List.mem_of_mem_take hm), List.length_take]
    omega
  · rw [hat s _ hget, List.take_of_length_le (by omega)]

theorem Placed.ne_nil {order : List ℕ} (h : Placed f n order) {s : ℕ} (hs : s < n) : f s ≠ [] := by
  obtain ⟨p, i, q, t, -, ht, -, hfs⟩ := h s hs
  rw [hfs, ne_eq, List.take_eq_nil_iff]
  rintro (h0 | hnil)
  · omega
  · rw [hnil] at ht
    exact Nat.not_lt_zero t ht

theorem range_split {s : ℕ} (hs : s < n) : ∃ q, List.range n = List.range s ++ s :: q := by
  obtain ⟨k, rfl⟩ := Nat.exists_eq_add_of_lt hs
  refine ⟨(List.range k).map fun i => s + (i + 1), ?_⟩
  rw [Nat.add_assoc, List.range_add, List.range_succ_eq_map, List.map_cons, List.map_map]
  rfl

/-- In the order of the tags, the copies are the whole blocks when every block has exactly one item, and only then. -/
theorem placed_range : Placed f n (List.range n) ↔ ∀ s < n, (f s).length = 1 := by
  constructor
  · intro h s
    induction s using Nat.strong_induction_on with
    | h s ih =>
      intro hs
      -- the blocks before `s` have pushed `s` copies, so the copy at `s` is the first item of the block of `s`
      obtain ⟨q, hq⟩ := range_split hs
      have hcopy := placed_iff.1 h s hs
      have hbefore : ((List.range s).flatMap fun i => prefixes (f i)).length = s := by
        rw [length_flatMap_prefixes, length_flatMap_of_one, List.length_range]
        intro i hi
        have hlt := List.mem_range.1 hi
        exact ih i hlt (by omega)
      rw [hq, List.flatMap_append, List.getElem?_append_right (by omega), hbefore, Nat.sub_self,
        List.flatMap_cons] at hcopy
      obtain ⟨x, xs, hxs⟩ := List.exists_cons_of_ne_nil (h.ne_nil hs)
      rw [hxs, prefixes, List.cons_append, List.getElem?_cons_zero] at hcopy
      rw [hxs, ← Option.some.inj hcopy]
      rfl
  · intro hone
    refine placed_of_one List.length_range (fun i hi => hone i (List.mem_range.1 hi)) fun s i hsi => ?_
    obtain ⟨hs, rfl⟩ := List.getElem?_eq_some_iff.1 hsi
    rw [List.getElem_range]

/-- In every order: all blocks are one and the same item. -/
theorem placed_all : (∀ order, order.Perm (List.range n) → Placed f n order) ↔
    ∀ i < n, (f i).length = 1 ∧ ∀ j < n, f i = f j := by
  constructor
  · intro h
    have hone := placed_range.1 (h _ (.refl _))
    -- with the block of `i` first, the copy at `0` is that block
    have hfirst : ∀ i < n, f 0 = f i := by
      intro i hi
      have hperm : (i :: (List.range n).erase i).Perm (List.range n) :=
        (List.perm_cons_erase (List.mem_range.2 hi)).symm
      have hcopy := placed_iff.1 (h _ hperm) 0 (by omega)
      obtain ⟨x, hx⟩ := List.length_eq_one_iff.1 (hone i hi)
      rw [List.flatMap_cons, hx, prefixes, List.cons_append, List.getElem?_cons_zero] at hcopy
      rw [hx, Option.some.inj hcopy]
    exact fun i hi => ⟨hone i hi, fun j hj => (hfirst i hi).symm.trans (hfirst j hj)⟩
  · intro h order hperm
    have hmem : ∀ i ∈ order, i < n := fun i hi => List.mem_range.1 (hperm.mem_iff.1 hi)
    have hlen : order.length = n := hperm.length_eq.trans List.length_range
    refine placed_of_one hlen (fun i hi => (h i (hmem i hi)).1) fun s i hsi => ?_
    have hs : s < n := hlen ▸ (List.getElem?_eq_some_iff.1 hsi).1
    exact (h s hs).2 i (hmem i (List.mem_of_getElem? hsi))

end Journal
