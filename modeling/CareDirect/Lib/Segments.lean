import Mathlib.Data.List.Basic

/-!
# Lists read in segments

A list is cut into segments, and a segment is kept as a whole when one of its elements has `q`. Meant are the elements
that have `p`, which have `q` as well.

- `filter_sublist_keep`: no element that is meant gets lost;
- `keep_eq_filter_iff`: nothing else is kept exactly when a segment that is kept is made of such elements alone.
-/

namespace Segments

variable {α : Type*} {p q : α → Bool} {segment : List α} {segments : List (List α)}

/-- The segments that have an element with `q`, one after the other. -/
def keep (q : α → Bool) (segments : List (List α)) : List α := (segments.filter (·.any q)).flatten

theorem keep_cons : keep q (segment :: segments) = (if segment.any q then segment else []) ++ keep q segments := by
  unfold keep
  rw [List.filter_cons]
  split
  · rw [List.flatten_cons]
  · rw [List.nil_append]

theorem filter_sublist_segment (hpq : ∀ a, p a = true → q a = true) (segment : List α) :
    (segment.filter p).Sublist (if segment.any q then segment else []) := by
  split
  · exact List.filter_sublist
  · rename_i hany
    have hnone : segment.filter p = [] := by
      rw [List.filter_eq_nil_iff]
      exact fun a ha hp => hany (List.any_eq_true.2 ⟨a, ha, hpq a hp⟩)
    rw [hnone]

theorem filter_sublist_keep (hpq : ∀ a, p a = true → q a = true) (segments : List (List α)) :
    (segments.flatten.filter p).Sublist (keep q segments) := by
  induction segments with
  | nil => exact .slnil
  | cons segment segments ih =>
    rw [List.flatten_cons, List.filter_append, keep_cons]
    exact (filter_sublist_segment hpq segment).append ih

/-- What a segment adds is what is meant of it, when it is made of such elements or dropped. -/
theorem segment_eq_filter_iff (hpq : ∀ a, p a = true → q a = true) :
    (if segment.any q then segment else []) = segment.filter p ↔
      (segment.any q = true → ∀ a ∈ segment, p a = true) := by
  by_cases hany : segment.any q = true
  · rw [if_pos hany, eq_comm, List.filter_eq_self]
    exact ⟨fun h _ => h, fun h => h hany⟩
  · have hsub := filter_sublist_segment hpq segment
    rw [if_neg hany] at hsub ⊢
    exact iff_of_true (List.sublist_nil.1 hsub).symm fun h => absurd h hany

/-- **Exactly what is meant.** -/
theorem keep_eq_filter_iff (hpq : ∀ a, p a = true → q a = true) :
    keep q segments = segments.flatten.filter p ↔
      ∀ segment ∈ segments, segment.any q = true → ∀ a ∈ segment, p a = true := by
  induction segments with
  | nil => exact iff_of_true rfl (List.forall_mem_nil _)
  | cons segment segments ih =>
    rw [keep_cons, List.flatten_cons, List.filter_append, List.forall_mem_cons, ← ih, ← segment_eq_filter_iff hpq]
    constructor
    · intro h
      -- neither part is too short, so the parts are equal
      have hsegment := (filter_sublist_segment hpq segment).length_le
      have hrest := (filter_sublist_keep hpq segments).length_le
      have hlength := congrArg List.length h
      rw [List.length_append, List.length_append] at hlength
      exact List.append_inj h (by omega)
    · rintro ⟨hsegment, hrest⟩
      rw [hsegment, hrest]

end Segments
