import CareDirect.Lib.Run
import CareDirect.Lib.Writes

/-!
# `DLRadioButton`

The radio button of the screener's scene, from `DLRadioButton.m`: how buttons are wired into a group
(`setOtherButtons:`), and how selecting one deselects the others (`setSelected:`). A button is an object, and every
method writes to its own object and to those of `_otherButtons`, so the model is a heap of buttons together with the
class variable `_groupModifing`. Icons, colours and animations do not take part.

Both setters call themselves on the other buttons of the group; the class variable is what stops them. `depth` bounds
the nesting of these calls and `none` is the overflow of the stack; two levels are always enough
(`setOtherButtons_eq`, `setMultipleSelectionEnabled_eq`).
-/

namespace CareDirect.Screener

open Writes

/-- The properties of a button that its methods read. A button loaded from the storyboard starts with these. -/
structure DLRadioButton where
  otherButtons : List Ref := []
  selected : Bool := false
  multipleSelectionEnabled : Bool := false
  deriving DecidableEq, Repr

/-- The live buttons, and the class variable. -/
structure Buttons where
  button : Ref → DLRadioButton := fun _ => {}
  isGroupModifing : Bool := false

namespace Buttons

variable (bs : Buttons) (self r : Ref)

/-- An assignment to instance variables of one button. -/
def write (f : DLRadioButton → DLRadioButton) : Buttons := { bs with button := writeOne (fun _ => f) bs.button self }

/-- A loop of such assignments, `f r` being the one to the button `r`. -/
def writes (f : Ref → DLRadioButton → DLRadioButton) (rs : List Ref) : Buttons :=
  { bs with button := writeAll f bs.button rs }

/-- `+ groupModifing:` -/
def groupModifing (chaining : Bool) : Buttons := { bs with isGroupModifing := chaining }

/-- What both setters begin with: unless a group is being modified, the loop over `buttons` runs with the class variable
set. -/
def modifyGroup (buttons : List Ref) (body : Buttons → Ref → Option Buttons) : Option Buttons :=
  if bs.isGroupModifing = false then do
    let bs ← buttons.foldlM body (bs.groupModifing true)
    some (bs.groupModifing false)
  else some bs

/-- `setOtherButtons:`. `removeObject:` removes every occurrence. -/
def setOtherButtons : ℕ → Buttons → Ref → List Ref → Option Buttons
  | 0, _, _, _ => none
  | depth + 1, bs, self, otherButtons => do
    let bs ← bs.modifyGroup otherButtons fun bs radioButton =>
      setOtherButtons depth bs radioButton ((otherButtons ++ [self]).filter (· ≠ radioButton))
    some (bs.write self fun b => { b with otherButtons })

/-- `setMultipleSelectionEnabled:` -/
def setMultipleSelectionEnabled : ℕ → Buttons → Ref → Bool → Option Buttons
  | 0, _, _, _ => none
  | depth + 1, bs, self, multipleSelectionEnabled => do
    let bs ← bs.modifyGroup (bs.button self).otherButtons fun bs radioButton =>
      setMultipleSelectionEnabled depth bs radioButton multipleSelectionEnabled
    some (bs.write self fun b => { b with multipleSelectionEnabled })

mutual

/-- `setSelected:`; the assignment is the one of `UIButton`. -/
def setSelected (bs : Buttons) (self : Ref) (selected : Bool) : Buttons :=
  let bs := bs.write self fun b => { b with selected }
  if (bs.button self).multipleSelectionEnabled = false ∧ selected = true then bs.deselectOtherButtons self else bs
termination_by 2 * selected.toNat
decreasing_by
  rename_i h
  simp [h.2]

/-- `deselectOtherButtons` -/
def deselectOtherButtons (bs : Buttons) (self : Ref) : Buttons :=
  (bs.button self).otherButtons.foldl (fun bs button => bs.setSelected button false) bs
termination_by 1

end

/-- `touchUpInside` -/
def touchUpInside : Buttons :=
  if (bs.button self).multipleSelectionEnabled = true then bs.setSelected self !(bs.button self).selected
  else bs.setSelected self true

/-- `selectedButton` -/
def selectedButton : Option Ref :=
  if (bs.button self).multipleSelectionEnabled = false then
    if (bs.button self).selected = true then some self
    else (bs.button self).otherButtons.find? fun radioButton => (bs.button radioButton).selected
  else none

/-- `selectedButtons` -/
def selectedButtons : List Ref :=
  (if (bs.button self).selected = true then [self] else []) ++
    (bs.button self).otherButtons.filter fun radioButton => (bs.button radioButton).selected

/-! ## Writes -/

variable {bs self r} {f : DLRadioButton → DLRadioButton}

@[simp] theorem write_self : (bs.write self f).button self = f (bs.button self) :=
  writeOne_self (f := fun _ => f) bs.button

theorem write_of_ne (h : r ≠ self) : (bs.write self f).button r = bs.button r :=
  writeOne_of_ne (f := fun _ => f) bs.button h

theorem writes_of_mem {f : Ref → DLRadioButton → DLRadioButton} {rs : List Ref} (hf : ∀ b, f r (f r b) = f r b)
    (h : r ∈ rs) : (bs.writes f rs).button r = f r (bs.button r) :=
  writeAll_of_mem hf bs.button h

theorem writes_of_notMem {f : Ref → DLRadioButton → DLRadioButton} {rs : List Ref} (h : r ∉ rs) :
    (bs.writes f rs).button r = bs.button r :=
  writeAll_of_notMem bs.button h

theorem map_writes {β : Type} {g : DLRadioButton → β} {f : Ref → DLRadioButton → DLRadioButton}
    (hg : ∀ r b, g (f r b) = g b) (rs : List Ref) : g ((bs.writes f rs).button r) = g (bs.button r) :=
  map_writeAll hg bs.button rs r

theorem map_write {β : Type} {g : DLRadioButton → β} (hg : ∀ b, g (f b) = g b) :
    g ((bs.write self f).button r) = g (bs.button r) :=
  map_writeAll (f := fun _ => f) (fun _ b => hg b) bs.button [self] r

/-- While a group is being modified, a loop of assignments keeps the class variable. -/
theorem foldlM_write {body : Buttons → Ref → Option Buttons} {f : Ref → DLRadioButton → DLRadioButton}
    (hbody : ∀ bs r, bs.isGroupModifing = true → body bs r = some (bs.write r (f r))) (rs : List Ref) (bs : Buttons)
    (h : bs.isGroupModifing = true) : rs.foldlM body bs = some (bs.writes f rs) := by
  induction rs generalizing bs with
  | nil => rfl
  | cons r rs ih =>
    rw [List.foldlM_cons, hbody bs r h]
    exact ih _ h

/-- So the bracket is the loop, and the class variable is clear again afterwards. -/
theorem modifyGroup_eq {body : Buttons → Ref → Option Buttons} {f : Ref → DLRadioButton → DLRadioButton}
    (hbody : ∀ bs r, bs.isGroupModifing = true → body bs r = some (bs.write r (f r))) (rs : List Ref)
    (h : bs.isGroupModifing = false) : bs.modifyGroup rs body = some (bs.writes f rs) := by
  rw [modifyGroup, if_pos h, foldlM_write hbody rs _ rfl]
  simp only [Option.bind_eq_bind, Option.bind_some]
  rw [writes, groupModifing, groupModifing, writes, ← h]

/-! ## Wiring a group -/

theorem setOtherButtons_of_modifing (depth : ℕ) (otherButtons : List Ref) (h : bs.isGroupModifing = true) :
    setOtherButtons (depth + 1) bs self otherButtons = some (bs.write self fun b => { b with otherButtons }) := by
  simp [setOtherButtons, modifyGroup, h]

theorem setOtherButtons_eq (depth : ℕ) (otherButtons : List Ref) (h : bs.isGroupModifing = false) :
    setOtherButtons (depth + 2) bs self otherButtons =
      some ((bs.writes (fun r b => { b with otherButtons := (otherButtons ++ [self]).filter (· ≠ r) })
        otherButtons).write self fun b => { b with otherButtons }) := by
  rw [setOtherButtons, modifyGroup_eq (f := fun r b => { b with otherButtons := (otherButtons ++ [self]).filter (· ≠ r) })
    (fun bs r hr => setOtherButtons_of_modifing depth _ hr) otherButtons h]
  rfl

theorem setMultipleSelectionEnabled_of_modifing (depth : ℕ) (enabled : Bool) (h : bs.isGroupModifing = true) :
    setMultipleSelectionEnabled (depth + 1) bs self enabled =
      some (bs.write self fun b => { b with multipleSelectionEnabled := enabled }) := by
  simp [setMultipleSelectionEnabled, modifyGroup, h]

theorem setMultipleSelectionEnabled_eq (depth : ℕ) (enabled : Bool) (h : bs.isGroupModifing = false) :
    setMultipleSelectionEnabled (depth + 2) bs self enabled =
      some ((bs.writes (fun _ b => { b with multipleSelectionEnabled := enabled }) (bs.button self).otherButtons).write
        self fun b => { b with multipleSelectionEnabled := enabled }) := by
  rw [setMultipleSelectionEnabled,
    modifyGroup_eq (f := fun _ b => { b with multipleSelectionEnabled := enabled })
      (fun bs r hr => setMultipleSelectionEnabled_of_modifing depth enabled hr) _ h]
  rfl

/-! ## Selecting -/

@[simp] theorem setSelected_false : bs.setSelected self false = bs.write self fun b => { b with selected := false } := by
  rw [setSelected]
  simp

theorem deselectOtherButtons_eq :
    bs.deselectOtherButtons self = bs.writes (fun _ b => { b with selected := false }) (bs.button self).otherButtons := by
  rw [deselectOtherButtons]
  generalize (bs.button self).otherButtons = rs
  induction rs generalizing bs with
  | nil => rfl
  | cons r rs ih => rw [List.foldl_cons, setSelected_false, ih]; rfl

theorem setSelected_true (h : (bs.button self).multipleSelectionEnabled = false) :
    bs.setSelected self true =
      (bs.write self fun b => { b with selected := true }).writes (fun _ b => { b with selected := false })
        (bs.button self).otherButtons := by
  rw [setSelected]
  simp [h, deselectOtherButtons_eq]

theorem setSelected_of_multiple (selected : Bool) (h : (bs.button self).multipleSelectionEnabled = true) :
    bs.setSelected self selected = bs.write self fun b => { b with selected } := by
  rw [setSelected]
  simp [h]

end Buttons

end CareDirect.Screener
