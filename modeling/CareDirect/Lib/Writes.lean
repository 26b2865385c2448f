import CareDirect.Lib.ObjectArray

/-!
# A loop that writes to objects

`writeAll f obj rs` is the heap after a loop over the references `rs` that replaces the object at `r` by `f r` of it. An
object outside the list is untouched (`writeAll_of_notMem`), and where writing twice is writing once the loop writes
every object of the list once, whatever the order and the repetitions (`writeAll_of_mem`).
-/

namespace Writes

variable {α β : Type*} {f : Ref → α → α} {r : Ref}

/-- One pass of the loop. -/
def writeOne (f : Ref → α → α) (obj : Ref → α) (r : Ref) : Ref → α := Function.update obj r (f r (obj r))

def writeAll (f : Ref → α → α) (obj : Ref → α) (rs : List Ref) : Ref → α := rs.foldl (writeOne f) obj

@[simp] theorem writeOne_self (obj : Ref → α) : writeOne f obj r r = f r (obj r) := Function.update_self _ _ _

theorem writeOne_of_ne (obj : Ref → α) {r' : Ref} (h : r' ≠ r) : writeOne f obj r r' = obj r' :=
  Function.update_of_ne h _ _

@[simp] theorem writeAll_nil (obj : Ref → α) : writeAll f obj [] = obj := rfl

@[simp] theorem writeAll_cons (obj : Ref → α) (r : Ref) (rs : List Ref) :
    writeAll f obj (r :: rs) = writeAll f (writeOne f obj r) rs := rfl

theorem writeAll_of_notMem {rs : List Ref} (obj : Ref → α) (h : r ∉ rs) : writeAll f obj rs r = obj r := by
  induction rs generalizing obj with
  | nil => rfl
  | cons r' rs ih =>
    rw [List.mem_cons, not_or] at h
    rw [writeAll_cons, ih _ h.2, writeOne_of_ne obj h.1]

/-- An object that is written once more holds what the last write left. -/
theorem writeAll_of_mem {rs : List Ref} (hf : ∀ a, f r (f r a) = f r a) (obj : Ref → α) (h : r ∈ rs) :
    writeAll f obj rs r = f r (obj r) := by
  induction rs generalizing obj with
  | nil => cases h
  | cons r' rs ih =>
    rw [writeAll_cons]
    by_cases hr : r ∈ rs
    · rw [ih _ hr]
      by_cases he : r = r'
      · subst he
        rw [writeOne_self, hf]
      · rw [writeOne_of_ne obj he]
    · obtain rfl : r = r' := (List.mem_cons.1 h).resolve_right hr
      rw [writeAll_of_notMem _ hr, writeOne_self]

/-- What no write changes, the loop does not change. -/
theorem map_writeAll {g : α → β} (hg : ∀ r a, g (f r a) = g a) (obj : Ref → α) (rs : List Ref) (r : Ref) :
    g (writeAll f obj rs r) = g (obj r) := by
  induction rs generalizing obj with
  | nil => rfl
  | cons r' rs ih =>
    rw [writeAll_cons, ih]
    by_cases he : r = r'
    · subst he
      rw [writeOne_self, hg]
    · rw [writeOne_of_ne obj he]

end Writes
