import CareDirect.Lib.Run
import Mathlib.Data.List.Basic

/-!
# Lists refilled from batches of records

A list is kept by a loop over the records of a batch. `decode` says what a record adds: `none` is a trap, `some none`
adds nothing. A batch with records clears the list first; an empty batch is passed over.

- `append_some`: the loop, as a `filterMap`;
- `refill_some`: one batch;
- `run_refill`: a sequence of batches leaves what the last non-empty one holds.
-/

namespace Refill

variable {ρ α : Type*} {decode : ρ → Option (Option α)} {list list' : List α} {records : List ρ}

/-- One round of the loop. -/
def add (decode : ρ → Option (Option α)) (list : List α) (record : ρ) : Option (List α) :=
  (decode record).map fun x => list ++ x.toList

/-- `if count > 0 { list.removeAll(); for record in records { … list.append(…) } }` -/
def refill (decode : ρ → Option (Option α)) (list : List α) (records : List ρ) : Option (List α) :=
  if records.length > 0 then records.foldlM (add decode) [] else some list

/-! ## One batch -/

/-- No record is a trap. -/
def Readable (decode : ρ → Option (Option α)) (records : List ρ) : Prop := ∀ r ∈ records, (decode r).isSome

/-- What the records add, in order. -/
def decoded (decode : ρ → Option (Option α)) (records : List ρ) : List α := records.filterMap fun r => (decode r).join

@[simp] theorem decoded_nil : decoded decode [] = [] := rfl

@[simp] theorem decoded_cons {r : ρ} :
    decoded decode (r :: records) = (decode r).join.toList ++ decoded decode records := by
  unfold decoded
  rw [List.filterMap_cons]
  cases (decode r).join <;> rfl

theorem readable_nil : Readable decode [] := List.forall_mem_nil _

theorem readable_cons {r : ρ} : Readable decode (r :: records) ↔ (decode r).isSome ∧ Readable decode records :=
  List.forall_mem_cons

/-- Records whose decoding is known. -/
theorem readable_of_eq {g : ρ → Option α} (h : ∀ r ∈ records, decode r = some (g r)) : Readable decode records :=
  fun r hr => by rw [h r hr]; rfl

theorem decoded_eq {g : ρ → Option α} (h : ∀ r ∈ records, decode r = some (g r)) :
    decoded decode records = records.filterMap g :=
  List.filterMap_congr fun r hr => by rw [h r hr, Option.join_some]

/-- A part of the entries that each record fixes. -/
theorem map_decoded {β : Type*} {g : α → β} {p : ρ → Bool} {f : ρ → β} (hread : Readable decode records)
    (h : ∀ r x, decode r = some x → x.map g = if p r then some (f r) else none) :
    (decoded decode records).map g = (records.filter p).map f := by
  rw [decoded, List.map_filterMap, ← List.filterMap_eq_map, List.filterMap_filter]
  refine List.filterMap_congr fun r hr => ?_
  obtain ⟨x, hx⟩ := Option.isSome_iff_exists.1 (hread r hr)
  rw [hx, Option.join_some, h r x hx]
  rfl

theorem append_some : ∀ {records : List ρ} {list : List α},
    records.foldlM (add decode) list = some list' ↔ Readable decode records ∧ list' = list ++ decoded decode records
  | [], list => by simp [readable_nil, eq_comm]
  | r :: records, list => by
    rw [List.foldlM_cons, Option.bind_eq_bind, readable_cons]
    cases hr : decode r with
    | none => simp [add, hr]
    | some x =>
      simp only [add, hr, Option.map_some, Option.bind_some, append_some, decoded_cons, Option.isSome_some, true_and,
        Option.join_some, List.append_assoc]

theorem refill_some : refill decode list records = some list' ↔
    Readable decode records ∧ list' = if records = [] then list else decoded decode records := by
  unfold refill
  cases records with
  | nil => simp [readable_nil, eq_comm]
  | cons r records =>
    have hne := List.cons_ne_nil r records
    rw [if_pos (List.length_pos_iff.2 hne), append_some, if_neg hne, List.nil_append]

/-! ## A sequence of batches -/

/-- The last batch that has a record. -/
def lastNonempty (batches : List (List ρ)) : List ρ :=
  batches.foldl (fun last records => if records = [] then last else records) []

@[simp] theorem lastNonempty_nil : lastNonempty ([] : List (List ρ)) = [] := rfl

@[simp] theorem lastNonempty_snoc (batches : List (List ρ)) (records : List ρ) :
    lastNonempty (batches ++ [records]) = if records = [] then lastNonempty batches else records := by
  simp [lastNonempty, List.foldl_append]

theorem lastNonempty_mem (batches : List (List ρ)) : lastNonempty batches = [] ∨ lastNonempty batches ∈ batches := by
  induction batches using List.reverseRecOn with
  | nil => exact .inl rfl
  | append_singleton batches records ih =>
    rw [lastNonempty_snoc]
    split
    · exact ih.imp_right (List.mem_append_left _)
    · exact .inr List.mem_concat_self

theorem run_refill : ∀ {batches : List (List ρ)} {list : List α},
    PartialRun.run (refill decode) [] batches = some list ↔
      (∀ records ∈ batches, Readable decode records) ∧ list = decoded decode (lastNonempty batches) := by
  intro batches
  induction batches using List.reverseRecOn with
  | nil => simp [eq_comm]
  | append_singleton batches records ih =>
    intro list
    simp only [PartialRun.run_snoc_some, ih, refill_some, lastNonempty_snoc, List.forall_mem_append,
      List.forall_mem_singleton]
    constructor
    · rintro ⟨_, ⟨hbatches, rfl⟩, hrecords, rfl⟩
      exact ⟨⟨hbatches, hrecords⟩, by split <;> rfl⟩
    · rintro ⟨⟨hbatches, hrecords⟩, rfl⟩
      exact ⟨_, ⟨hbatches, rfl⟩, hrecords, by split <;> rfl⟩

end Refill
