import Mathlib.Data.List.Basic

/-!
# Dictionaries

A dictionary is a list of keys with their values. A write replaces the value of its key, and a key that is not there is
added at the end. A read finds what was written last under its key (`lookup_setValue`), so that a write keeps whatever
holds of the values under the other keys (`lookup_setValue_of_ne`). The order is that of the first writes
(`setValue_of_notMem`, `setValue_of_mem`).
-/

namespace Dictionary

variable {κ α : Type*} [DecidableEq κ]

def setValue : List (κ × α) → κ → α → List (κ × α)
  | [], key, value => [(key, value)]
  | f :: fields, key, value => if f.1 = key then (key, value) :: fields else f :: setValue fields key value

variable {fields : List (κ × α)} {key key' : κ} {value : α}

@[simp] theorem lookup_setValue_self : (setValue fields key value).lookup key = some value := by
  induction fields with
  | nil => simp [setValue]
  | cons f fields ih =>
    unfold setValue
    split
    · exact List.lookup_cons_self
    · rename_i hf
      rw [List.lookup_cons, beq_false_of_ne (Ne.symm hf)]
      exact ih

theorem lookup_setValue_of_ne (h : key' ≠ key) : (setValue fields key value).lookup key' = fields.lookup key' := by
  induction fields with
  | nil => simp [setValue, h]
  | cons f fields ih =>
    unfold setValue
    split
    · rename_i hf
      rw [List.lookup_cons, beq_false_of_ne h, List.lookup_cons, hf, beq_false_of_ne h]
    · rw [List.lookup_cons, List.lookup_cons, ih]

/-! ## Where a write goes -/

/-- A new key is added at the end. -/
theorem setValue_of_notMem (h : key ∉ fields.map Prod.fst) : setValue fields key value = fields ++ [(key, value)] := by
  induction fields with
  | nil => rfl
  | cons f fields ih =>
    rw [List.map_cons, List.mem_cons, not_or] at h
    rw [setValue, if_neg (Ne.symm h.1), ih h.2, List.cons_append]

/-- A key that is there once gets its value in place. -/
theorem setValue_of_mem (hkeys : (fields.map Prod.fst).Nodup) (h : key ∈ fields.map Prod.fst) :
    setValue fields key value = fields.map fun f => if f.1 = key then (key, value) else f := by
  induction fields with
  | nil => cases h
  | cons f fields ih =>
    rw [List.map_cons, List.nodup_cons] at hkeys
    rw [setValue, List.map_cons]
    by_cases hf : f.1 = key
    · have hrest : fields.map (fun f => if f.1 = key then (key, value) else f) = fields.map id := by
        refine List.map_congr_left fun f' hf' => if_neg fun hkey => hkeys.1 ?_
        rw [hf, ← hkey]
        exact List.mem_map_of_mem hf'
      rw [if_pos hf, if_pos hf, hrest, List.map_id]
    · rw [List.map_cons, List.mem_cons] at h
      rw [if_neg hf, if_neg hf, ih hkeys.2 (h.resolve_left (Ne.symm hf))]

/-- Where no key is repeated, every entry can be read. -/
theorem lookup_of_mem (hkeys : (fields.map Prod.fst).Nodup) (h : (key, value) ∈ fields) :
    fields.lookup key = some value := by
  obtain ⟨before, after, rfl⟩ := List.append_of_mem h
  refine List.lookup_eq_some_iff.2 ⟨before, after, rfl, fun f hf => ?_⟩
  rw [List.map_append, List.map_cons] at hkeys
  exact bne_iff_ne.2 (Ne.symm ((List.nodup_append.1 hkeys).2.2 f.1 (List.mem_map_of_mem hf) key List.mem_cons_self))

end Dictionary
