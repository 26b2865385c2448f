import Mathlib.Data.List.Nodup
import Mathlib.Data.List.Perm.Basic
import Mathlib.Logic.Function.Basic

/-!
# Arrays of freshly created objects

Instances of a class are shared: an array holds references, and a write through one reference is seen through every
other reference to the same object. An `ObjectArray α` is the store of all live objects together with one array of
references to some of them. Only new objects are ever appended, so its references are pairwise distinct and below the
next free reference; both facts are fields, and an array with an aliased or a dangling entry cannot be built.

- `append`, `appendAll`: new objects at the end; objects that were live before keep their contents
  (`obj_append_of_lt`, `obj_appendAll_of_lt`);
- `modify`: a write through a reference; what the write does not change can be read off as before
  (`map_values_modify`), and a flag it raises adds one entry to the flagged objects (`flagged_modify`).
-/

/-- A reference to an object. -/
abbrev Ref := Nat

/-- The live objects, and an array of references to some of them. -/
structure ObjectArray (α : Type*) where
  next : Ref
  obj : Ref → α
  refs : List Ref
  nodup : refs.Nodup
  below : ∀ r ∈ refs, r < next

namespace ObjectArray

variable {α β : Type*}

/-- The empty array beside one live object, at reference `0`, that is not an element of it. -/
def beside (a : α) : ObjectArray α := ⟨1, fun _ => a, [], List.nodup_nil, by simp⟩

/-- A new object `a`, appended to the array. -/
def append (s : ObjectArray α) (a : α) : ObjectArray α where
  next := s.next + 1
  obj := Function.update s.obj s.next a
  refs := s.refs ++ [s.next]
  nodup := List.nodup_append.2
    ⟨s.nodup, List.nodup_singleton _, fun r hr r' hr' => by
      rw [List.mem_singleton.1 hr']; exact Nat.ne_of_lt (s.below r hr)⟩
  below := fun r hr => by
    rcases List.mem_append.1 hr with hr | hr
    · exact Nat.lt_succ_of_lt (s.below r hr)
    · rw [List.mem_singleton.1 hr]; exact Nat.lt_succ_self _

/-- The new objects `as`, appended in order. -/
def appendAll (s : ObjectArray α) (as : List α) : ObjectArray α := as.foldl append s

/-- A write through the reference `r`. -/
def modify (s : ObjectArray α) (r : Ref) (f : α → α) : ObjectArray α :=
  { s with obj := Function.update s.obj r (f (s.obj r)) }

/-- The contents of the elements of the array. -/
def values (s : ObjectArray α) : List α := s.refs.map s.obj

/-! ## Appending -/

variable (s : ObjectArray α) (a : α) {r r' : Ref}

@[simp] theorem refs_append : (s.append a).refs = s.refs ++ [s.next] := rfl

theorem obj_append_next : (s.append a).obj s.next = a := Function.update_self _ _ _

theorem obj_append_of_lt (h : r < s.next) : (s.append a).obj r = s.obj r :=
  Function.update_of_ne (Nat.ne_of_lt h) _ _

@[simp] theorem values_append : (s.append a).values = s.values ++ [a] := by
  have hold : s.refs.map (s.append a).obj = s.refs.map s.obj :=
    List.map_congr_left fun r hr => s.obj_append_of_lt a (s.below r hr)
  simp [values, hold, obj_append_next]

@[simp] theorem appendAll_nil : s.appendAll [] = s := rfl

@[simp] theorem appendAll_cons (as : List α) : s.appendAll (a :: as) = (s.append a).appendAll as := rfl

@[simp] theorem values_appendAll : ∀ (as : List α) (s : ObjectArray α), (s.appendAll as).values = s.values ++ as
  | [], s => by simp
  | a :: as, s => by simp [values_appendAll as]

theorem next_le_appendAll : ∀ (as : List α) (s : ObjectArray α), s.next ≤ (s.appendAll as).next
  | [], _ => Nat.le_refl _
  | a :: as, s => Nat.le_trans (Nat.le_succ _) (next_le_appendAll as (s.append a))

theorem obj_appendAll_of_lt : ∀ (as : List α) (s : ObjectArray α), r < s.next → (s.appendAll as).obj r = s.obj r
  | [], _, _ => rfl
  | a :: as, s, h => by
    rw [appendAll_cons, obj_appendAll_of_lt as _ (Nat.lt_succ_of_lt h), obj_append_of_lt s a h]

@[simp] theorem length_refs_appendAll : ∀ (as : List α) (s : ObjectArray α),
    (s.appendAll as).refs.length = s.refs.length + as.length
  | [], s => rfl
  | a :: as, s => by
    rw [appendAll_cons, length_refs_appendAll as, refs_append, List.length_append, List.length_singleton,
      List.length_cons]
    omega

@[simp] theorem length_values : s.values.length = s.refs.length := List.length_map _

theorem getElem?_values (i : Nat) : s.values[i]? = s.refs[i]?.map s.obj := List.getElem?_map

/-- An element and a later one are different objects. -/
theorem ne_of_mem_drop {i : Nat} (hr : s.refs[i]? = some r) (hr' : r' ∈ s.refs.drop (i + 1)) : r' ≠ r := by
  rintro rfl
  obtain ⟨j, hj⟩ := List.mem_iff_getElem?.1 hr'
  rw [List.getElem?_drop] at hj
  have hi := (List.getElem?_eq_some_iff.1 hr).1
  have := (List.getElem?_inj hi s.nodup).1 (hr.trans hj.symm)
  omega

/-! ## Writing -/

variable {s} {f : α → α} {g : α → β} {p : α → Bool}

@[simp] theorem refs_modify : (s.modify r f).refs = s.refs := rfl

@[simp] theorem obj_modify_self : (s.modify r f).obj r = f (s.obj r) := Function.update_self _ _ _

theorem obj_modify_of_ne (h : r' ≠ r) : (s.modify r f).obj r' = s.obj r' := Function.update_of_ne h _ _

/-- What the write leaves alone is read through every reference as before. -/
theorem read_modify (hg : g (f (s.obj r)) = g (s.obj r)) : g ((s.modify r f).obj r') = g (s.obj r') := by
  by_cases h : r' = r
  · rw [h, obj_modify_self, hg]
  · rw [obj_modify_of_ne h]

/-- What the write leaves alone is read off the array as before. -/
theorem map_values_modify (hg : g (f (s.obj r)) = g (s.obj r)) : (s.modify r f).values.map g = s.values.map g := by
  simp only [values, List.map_map, refs_modify]
  exact List.map_congr_left fun r' _ => read_modify hg

theorem filter_perm_of_raised {q q' : Ref → Bool} : ∀ {rs : List Ref}, rs.Nodup → r ∈ rs → q r = false →
    q' r = true → (∀ r' ≠ r, q' r' = q r') → (rs.filter q').Perm (rs.filter q ++ [r])
  | [], _, hr, _, _, _ => absurd hr List.not_mem_nil
  | r₀ :: rs, hnd, hr, hq, hq', hne => by
    obtain ⟨hr₀, hnd⟩ := List.nodup_cons.1 hnd
    by_cases h : r₀ = r
    · subst h
      have hrest : rs.filter q' = rs.filter q :=
        List.filter_congr fun r' hr' => hne r' (fun he => hr₀ (he ▸ hr'))
      simp only [List.filter_cons, hq, hq', if_true, Bool.false_eq_true, if_false, hrest]
      exact (List.perm_append_singleton _ _).symm
    · have hmem : r ∈ rs := (List.mem_cons.1 hr).resolve_left (Ne.symm h)
      have ih := filter_perm_of_raised hnd hmem hq hq' hne
      simp only [List.filter_cons, hne r₀ h]
      split
      · exact ih.cons _
      · exact ih

/-- A write that raises the flag `p` of an element adds exactly that element to the flagged ones. -/
theorem flagged_modify (hr : r ∈ s.refs) (hp : p (s.obj r) = false) (hp' : p (f (s.obj r)) = true)
    (hg : g (f (s.obj r)) = g (s.obj r)) :
    (((s.modify r f).values.filter p).map g).Perm ((s.values.filter p).map g ++ [g (s.obj r)]) := by
  have hperm : (s.refs.filter (fun r' => p ((s.modify r f).obj r'))).Perm
      (s.refs.filter (fun r' => p (s.obj r')) ++ [r]) :=
    filter_perm_of_raised s.nodup hr hp (by simpa using hp') (fun r' h => by rw [obj_modify_of_ne h])
  have hmap := hperm.map (fun r' => g (s.obj r'))
  have hread : ∀ r', g ((s.modify r f).obj r') = g (s.obj r') := fun r' => read_modify hg
  simpa [values, List.filter_map, Function.comp_def, hread] using hmap

end ObjectArray
