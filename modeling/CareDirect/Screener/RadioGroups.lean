import CareDirect.Screener.DLRadioButton

/-!
# Groups of radio buttons

`setOtherButtons:` on one button wires a whole group: afterwards every button of it lists exactly the others, unless the
button was given itself (`setOtherButtons_wires`). A wired group is a choice of at most one of its buttons. The choice
is an `Option Ref` with the two operations of `choose`, and the buttons represent it along every run of touches and
assignments, also when other buttons of the program are used in between (`run_selectedButton`). With multiple selection
enabled a button is a checkbox and the group has no selected button (`run_multiple`).
-/

namespace CareDirect.Screener

open Writes

/-- What the user or the program does to a button. -/
inductive ButtonEvent
  | touchUpInside (button : Ref)
  | setSelected (button : Ref) (selected : Bool)
  deriving DecidableEq, Repr

@[simp] def ButtonEvent.button : ButtonEvent → Ref
  | .touchUpInside r => r
  | .setSelected r _ => r

namespace Buttons

variable {bs bs' : Buttons} {G : List Ref} {self r : Ref} {c : Option Ref}

def step (bs : Buttons) : ButtonEvent → Buttons
  | .touchUpInside r => bs.touchUpInside r
  | .setSelected r selected => bs.setSelected r selected

/-- The buttons `G` list each other, and one of them can be selected at a time. -/
structure Group (bs : Buttons) (G : List Ref) : Prop where
  others : ∀ r ∈ G, ∀ r', r' ∈ (bs.button r).otherButtons ↔ r' ∈ G ∧ r' ≠ r
  single : ∀ r ∈ G, (bs.button r).multipleSelectionEnabled = false

/-! ## Wiring -/

/-- What `setOtherButtons:` leaves in each button. -/
theorem setOtherButtons_button {depth : ℕ} {otherButtons : List Ref} (h : bs.isGroupModifing = false)
    (hset : setOtherButtons (depth + 2) bs self otherButtons = some bs') (r : Ref) :
    bs'.button r = if r = self then { bs.button self with otherButtons }
      else if r ∈ otherButtons then
        { bs.button r with otherButtons := (otherButtons ++ [self]).filter (· ≠ r) }
      else bs.button r := by
  rw [setOtherButtons_eq depth otherButtons h, Option.some.injEq] at hset
  rw [← hset]
  split_ifs with he hr
  · rw [he, write_self]
    by_cases hself : self ∈ otherButtons
    · rw [writes_of_mem (fun _ => rfl) hself]
    · rw [writes_of_notMem hself]
  · rw [write_of_ne he, writes_of_mem (fun _ => rfl) hr]
  · rw [write_of_ne he, writes_of_notMem hr]

section Set

variable {depth : ℕ} {otherButtons : List Ref} (h : bs.isGroupModifing = false)
  (hset : setOtherButtons (depth + 2) bs self otherButtons = some bs')

include h hset

theorem setOtherButtons_isGroupModifing : bs'.isGroupModifing = false := by
  rw [setOtherButtons_eq depth otherButtons h, Option.some.injEq] at hset
  rw [← hset]
  exact h

theorem setOtherButtons_of_notMem (hr : r ∉ otherButtons ++ [self]) : bs'.button r = bs.button r := by
  rw [List.mem_append, List.mem_singleton, not_or] at hr
  rw [setOtherButtons_button h hset, if_neg hr.2, if_neg hr.1]

theorem setOtherButtons_selected : (bs'.button r).selected = (bs.button r).selected := by
  rw [setOtherButtons_button h hset]
  split_ifs with he hr
  · rw [he]
  · rfl
  · rfl

theorem setOtherButtons_group (hm : ∀ r ∈ otherButtons ++ [self], (bs.button r).multipleSelectionEnabled = false)
    (hself : self ∉ otherButtons) : bs'.Group (otherButtons ++ [self]) where
  others r hr r' := by
    rw [setOtherButtons_button h hset]
    split_ifs with he hr'
    · subst he
      simp only [List.mem_append, List.mem_singleton]
      constructor
      · exact fun h' => ⟨.inl h', fun he => hself (he ▸ h')⟩
      · exact fun h' => h'.1.resolve_right h'.2
    · rw [List.mem_filter, decide_eq_true_iff]
    · exact absurd hr (by simp [he, hr'])
  single r hr := by
    rw [setOtherButtons_button h hset]
    split_ifs with he hr'
    · exact he ▸ hm r hr
    · exact hm r hr
    · exact hm r hr

/-- A button that is given itself lists itself. -/
theorem setOtherButtons_not_group (hself : self ∈ otherButtons) : ¬bs'.Group (otherButtons ++ [self]) := by
  intro hg
  have hin : self ∈ otherButtons ++ [self] := List.mem_append_right _ List.mem_cons_self
  have hlists : self ∈ (bs'.button self).otherButtons := by rwa [setOtherButtons_button h hset, if_pos rfl]
  exact ((hg.others self hin self).1 hlists).2 rfl

end Set

/-- **Wiring a group.** The nested calls end at the second level, the class variable is clear again, buttons outside the
group and all selections are untouched, and the buttons form a group exactly when the button was not given itself. -/
theorem setOtherButtons_wires (depth : ℕ) (otherButtons : List Ref) (h : bs.isGroupModifing = false)
    (hm : ∀ r ∈ otherButtons ++ [self], (bs.button r).multipleSelectionEnabled = false) :
    ∃ bs', setOtherButtons (depth + 2) bs self otherButtons = some bs' ∧ bs'.isGroupModifing = false ∧
      (∀ r ∉ otherButtons ++ [self], bs'.button r = bs.button r) ∧
      (∀ r, (bs'.button r).selected = (bs.button r).selected) ∧
      (bs'.Group (otherButtons ++ [self]) ↔ self ∉ otherButtons) := by
  obtain ⟨bs', hset⟩ : ∃ bs', setOtherButtons (depth + 2) bs self otherButtons = some bs' :=
    ⟨_, setOtherButtons_eq depth otherButtons h⟩
  refine ⟨bs', hset, setOtherButtons_isGroupModifing h hset, fun r hr => setOtherButtons_of_notMem h hset hr,
    fun r => setOtherButtons_selected h hset, ?_, setOtherButtons_group h hset hm⟩
  exact fun hg hself => setOtherButtons_not_group h hset hself hg

/-- Three fresh buttons, wired from the first. -/
theorem setOtherButtons_wires_three : ∃ bs', setOtherButtons 2 {} 0 [1, 2] = some bs' ∧ bs'.Group [1, 2, 0] := by
  obtain ⟨bs', hset, -, -, -, hgroup⟩ := @setOtherButtons_wires {} 0 0 [1, 2] rfl (fun _ _ => rfl)
  exact ⟨bs', hset, hgroup.2 (by decide)⟩

/-! ## What one write of the selection changes -/

/-- What does not depend on the selection stays. -/
theorem map_setSelected {β : Type} {g : DLRadioButton → β} (hg : ∀ b s, g { b with selected := s } = g b)
    (selected : Bool) : g ((bs.setSelected self selected).button r) = g (bs.button r) := by
  cases selected with
  | false => rw [setSelected_false, map_write fun b => hg b false]
  | true =>
    cases h : (bs.button self).multipleSelectionEnabled with
    | true => rw [setSelected_of_multiple true h, map_write fun b => hg b true]
    | false => rw [setSelected_true h, map_writes fun _ b => hg b false, map_write fun b => hg b true]

theorem write_selected (b : Bool) :
    ((bs.write self fun b' => { b' with selected := b }).button r).selected =
      if r = self then b else (bs.button r).selected := by
  split_ifs with h
  · rw [h, write_self]
  · rw [write_of_ne h]

theorem setSelected_false_selected :
    ((bs.setSelected self false).button r).selected = if r = self then false else (bs.button r).selected := by
  rw [setSelected_false, write_selected]

/-- Selecting a button deselects those it lists, itself too when it does. -/
theorem setSelected_true_selected (h : (bs.button self).multipleSelectionEnabled = false) :
    ((bs.setSelected self true).button r).selected =
      if r ∈ (bs.button self).otherButtons then false else if r = self then true else (bs.button r).selected := by
  rw [setSelected_true h]
  split_ifs with hr he
  · rw [writes_of_mem (fun _ => rfl) hr]
  · rw [writes_of_notMem hr, write_selected, if_pos he]
  · rw [writes_of_notMem hr, write_selected, if_neg he]

/-- In either mode a touch is one assignment. -/
theorem step_eq (bs : Buttons) (e : ButtonEvent) : ∃ b, bs.step e = bs.setSelected e.button b := by
  cases e with
  | touchUpInside r =>
    by_cases h : (bs.button r).multipleSelectionEnabled = true
    · exact ⟨!(bs.button r).selected, if_pos h⟩
    · exact ⟨true, if_neg h⟩
  | setSelected r b => exact ⟨b, rfl⟩

theorem map_step {β : Type} {g : DLRadioButton → β} (hg : ∀ b s, g { b with selected := s } = g b) (e : ButtonEvent) :
    g ((bs.step e).button r) = g (bs.button r) := by
  obtain ⟨b, h⟩ := step_eq bs e
  rw [h, map_setSelected hg]

@[simp] theorem step_otherButtons (e : ButtonEvent) :
    ((bs.step e).button r).otherButtons = (bs.button r).otherButtons :=
  map_step (g := DLRadioButton.otherButtons) (fun _ _ => rfl) e

@[simp] theorem step_multipleSelectionEnabled (e : ButtonEvent) :
    ((bs.step e).button r).multipleSelectionEnabled = (bs.button r).multipleSelectionEnabled :=
  map_step (g := DLRadioButton.multipleSelectionEnabled) (fun _ _ => rfl) e

theorem Group.step (h : bs.Group G) (e : ButtonEvent) : (bs.step e).Group G where
  others r hr r' := by rw [step_otherButtons, h.others r hr]
  single r hr := by rw [step_multipleSelectionEnabled, h.single r hr]

/-! ## A group is a choice -/

/-- What an event does to the choice of the group `G`. -/
def choose (G : List Ref) (c : Option Ref) : ButtonEvent → Option Ref
  | .touchUpInside r => if r ∈ G then some r else c
  | .setSelected r true => if r ∈ G then some r else c
  | .setSelected r false => if c = some r then none else c

/-- The buttons of `G` show the choice `c`. -/
structure Shows (bs : Buttons) (G : List Ref) (c : Option Ref) : Prop where
  selected : ∀ r ∈ G, (bs.button r).selected = true ↔ c = some r
  mem : ∀ r ∈ c, r ∈ G

/-- A button that has nothing to do with the group `G`, or belongs to it. -/
def Apart (bs : Buttons) (G : List Ref) (self : Ref) : Prop :=
  self ∈ G ∨ ∀ r ∈ (bs.button self).otherButtons, r ∉ G

theorem Apart.step {e : ButtonEvent} (h : bs.Apart G self) : (bs.step e).Apart G self := by
  rw [Apart, step_otherButtons]
  exact h

theorem Group.select (hg : bs.Group G) (hself : self ∈ G) :
    (bs.setSelected self true).Shows G (some self) where
  selected r hr := by
    rw [setSelected_true_selected (hg.single self hself)]
    by_cases he : r = self
    · have hnot : ¬(r ∈ G ∧ r ≠ self) := fun h => h.2 he
      rw [if_neg (mt (hg.others self hself r).1 hnot), if_pos he, he]
      simp
    · rw [if_pos ((hg.others self hself r).2 ⟨hr, he⟩)]
      simpa using Ne.symm he
  mem r hr := by
    cases hr
    exact hself

theorem Shows.deselect (hs : bs.Shows G c) :
    (bs.setSelected self false).Shows G (if c = some self then none else c) where
  selected r hr := by
    rw [setSelected_false_selected]
    by_cases he : r = self
    · subst he
      rw [if_pos rfl]
      split_ifs with hc
      · simp
      · simpa using hc
    · rw [if_neg he, hs.selected r hr]
      split_ifs with hc
      · simpa [hc] using Ne.symm he
      · rfl
  mem r hr := by
    split_ifs at hr with hc
    · cases hr
    · exact hs.mem r hr

/-- An assignment to a button that has nothing to do with the group. -/
theorem Shows.apart (hs : bs.Shows G c) (hself : self ∉ G) (ha : ∀ r ∈ (bs.button self).otherButtons, r ∉ G)
    (b : Bool) : (bs.setSelected self b).Shows G c where
  selected r hr := by
    have hne : r ≠ self := fun h => hself (h ▸ hr)
    have hother : r ∉ (bs.button self).otherButtons := fun h => ha r h hr
    cases b with
    | false => rw [setSelected_false_selected, if_neg hne, hs.selected r hr]
    | true =>
      cases hm : (bs.button self).multipleSelectionEnabled with
      | true => rw [setSelected_of_multiple true hm, write_selected, if_neg hne, hs.selected r hr]
      | false => rw [setSelected_true_selected hm, if_neg hother, if_neg hne, hs.selected r hr]
  mem := hs.mem

/-- One event on the buttons is one operation on the choice. -/
theorem Shows.step {e : ButtonEvent} (hg : bs.Group G) (hs : bs.Shows G c) (ha : bs.Apart G e.button) :
    (bs.step e).Shows G (choose G c e) := by
  by_cases hmem : e.button ∈ G
  · cases e with
    | touchUpInside r =>
      simp only [ButtonEvent.button] at hmem
      have hm : ¬(bs.button r).multipleSelectionEnabled = true := by simp [hg.single r hmem]
      rw [Buttons.step, touchUpInside, if_neg hm, choose, if_pos hmem]
      exact hg.select hmem
    | setSelected r b =>
      cases b with
      | false => exact hs.deselect
      | true =>
        simp only [ButtonEvent.button] at hmem
        rw [choose, if_pos hmem]
        exact hg.select hmem
  · have hnone : c ≠ some e.button := fun h => hmem (hs.mem _ h)
    obtain ⟨b, hb⟩ := step_eq bs e
    have hc : choose G c e = c := by
      cases e with
      | touchUpInside r => exact if_neg hmem
      | setSelected r b =>
        cases b with
        | false => exact if_neg hnone
        | true => exact if_neg hmem
    rw [hb, hc]
    exact hs.apart hmem (ha.resolve_left hmem) b

theorem Shows.run (es : List ButtonEvent) : ∀ {bs : Buttons} {c : Option Ref}, bs.Group G → bs.Shows G c →
    (∀ e ∈ es, bs.Apart G e.button) → (es.foldl Buttons.step bs).Shows G (es.foldl (choose G) c) := by
  induction es with
  | nil => exact fun _ hs _ => hs
  | cons e es ih =>
    intro bs c hg hs ha
    have hstep := hs.step hg (ha e List.mem_cons_self)
    exact ih (hg.step e) hstep fun e' he' => (ha e' (List.mem_cons_of_mem _ he')).step

theorem Group.run (hg : bs.Group G) (es : List ButtonEvent) : (es.foldl Buttons.step bs).Group G := by
  induction es generalizing bs with
  | nil => exact hg
  | cons e es ih => exact ih (hg.step e)

/-- Every button of the group answers with the choice. -/
theorem Shows.selectedButton (hg : bs.Group G) (hs : bs.Shows G c) (hself : self ∈ G) : bs.selectedButton self = c := by
  rw [Buttons.selectedButton, if_pos (hg.single self hself)]
  split_ifs with hsel
  · exact ((hs.selected self hself).1 hsel).symm
  · cases c with
    | none =>
      apply List.find?_eq_none.2
      intro r hr hsel'
      have hmem := ((hg.others self hself r).1 hr).1
      simpa using (hs.selected r hmem).1 hsel'
    | some r =>
      have hr := hs.mem r rfl
      have hne : r ≠ self := by
        rintro rfl
        exact hsel ((hs.selected r hr).2 rfl)
      have hin := (hg.others self hself r).2 ⟨hr, hne⟩
      cases hfind : (bs.button self).otherButtons.find? fun r' => (bs.button r').selected with
      | none => exact absurd ((hs.selected r hr).2 rfl) (by simpa using List.find?_eq_none.1 hfind r hin)
      | some r' =>
        have hmem := ((hg.others self hself r').1 (List.mem_of_find?_eq_some hfind)).1
        have hsel' : (bs.button r').selected = true := by simpa using List.find?_some hfind
        rw [(hs.selected r' hmem).1 hsel']

theorem Shows.mem_selectedButtons (hg : bs.Group G) (hs : bs.Shows G c) (hself : self ∈ G) :
    r ∈ bs.selectedButtons self ↔ c = some r := by
  have hmem : r ∈ bs.selectedButtons self ↔
      (bs.button r).selected = true ∧ (r = self ∨ r ∈ (bs.button self).otherButtons) := by
    rw [selectedButtons, List.mem_append, List.mem_filter]
    by_cases he : r = self
    · subst he
      cases (bs.button r).selected <;> simp
    · by_cases hsel : (bs.button self).selected = true
      · simp [hsel, he, and_comm]
      · simp [hsel, he, and_comm]
  rw [hmem, hg.others self hself]
  constructor
  · rintro ⟨hsel, rfl | ⟨hr, -⟩⟩
    · exact (hs.selected r hself).1 hsel
    · exact (hs.selected r hr).1 hsel
  · intro hc
    have hr := hs.mem r hc
    refine ⟨(hs.selected r hr).2 hc, ?_⟩
    by_cases he : r = self
    · exact .inl he
    · exact .inr ⟨hr, he⟩

/-- **A radio group is a choice.** Whatever sequence of touches and assignments, on its own buttons and on buttons that
have nothing to do with it, every button of a wired group answers with the choice that the sequence leaves. -/
theorem run_selectedButton {es : List ButtonEvent} (hg : bs.Group G) (hs : bs.Shows G c)
    (ha : ∀ e ∈ es, bs.Apart G e.button) (hself : self ∈ G) :
    (es.foldl step bs).selectedButton self = es.foldl (choose G) c ∧
      ∀ r, r ∈ (es.foldl step bs).selectedButtons self ↔ es.foldl (choose G) c = some r :=
  have hrun := Shows.run es hg hs ha
  ⟨hrun.selectedButton (hg.run es) hself, fun _ => hrun.mem_selectedButtons (hg.run es) hself⟩

/-- Three wired buttons, two of them touched. -/
theorem run_selectedButton_three : ∃ bs, setOtherButtons 2 {} 0 [1, 2] = some bs ∧
    ([.touchUpInside 0, .touchUpInside 2].foldl step bs).selectedButton 1 = some 2 := by
  obtain ⟨bs, hset⟩ : ∃ bs, setOtherButtons 2 {} 0 [1, 2] = some bs := ⟨_, setOtherButtons_eq 0 _ rfl⟩
  have hg : bs.Group [1, 2, 0] := setOtherButtons_group rfl hset (fun _ _ => rfl) (by decide)
  have hs : bs.Shows [1, 2, 0] none :=
    ⟨fun r _ => by simp [setOtherButtons_selected rfl hset], by simp⟩
  have ha : ∀ e ∈ [ButtonEvent.touchUpInside 0, .touchUpInside 2], bs.Apart [1, 2, 0] e.button := by
    simp [Apart]
  have hself : 1 ∈ [1, 2, 0] := by decide
  exact ⟨bs, hset, (run_selectedButton hg hs ha hself).1⟩

/-! ## Multiple selection -/

/-- From any button of a wired group the setter reaches the whole group and nothing else. -/
theorem setMultipleSelectionEnabled_button {depth : ℕ} {enabled : Bool} (h : bs.isGroupModifing = false)
    (hset : setMultipleSelectionEnabled (depth + 2) bs self enabled = some bs') (hg : bs.Group G) (hself : self ∈ G)
    (r : Ref) : bs'.button r =
      if r ∈ G then { bs.button r with multipleSelectionEnabled := enabled } else bs.button r := by
  rw [setMultipleSelectionEnabled_eq depth enabled h, Option.some.injEq] at hset
  rw [← hset]
  by_cases he : r = self
  · subst he
    have hnot : r ∉ (bs.button r).otherButtons := fun hr => ((hg.others r hself r).1 hr).2 rfl
    rw [write_self, writes_of_notMem hnot, if_pos hself]
  · rw [write_of_ne he]
    split_ifs with hr
    · rw [writes_of_mem (fun _ => rfl) ((hg.others self hself r).2 ⟨hr, he⟩)]
    · rw [writes_of_notMem (fun hr' => hr ((hg.others self hself r).1 hr').1)]

theorem touchUpInside_of_multiple (h : (bs.button self).multipleSelectionEnabled = true) :
    ((bs.touchUpInside self).button r).selected =
      if r = self then !(bs.button r).selected else (bs.button r).selected := by
  rw [touchUpInside, if_pos h, setSelected_of_multiple _ h, write_selected]
  split_ifs with he
  · rw [he]
  · rfl

/-- Touches in a group of checkboxes. -/
theorem touches_of_multiple {touches : List Ref} (hmulti : ∀ r ∈ G, (bs.button r).multipleSelectionEnabled = true)
    (ht : ∀ r ∈ touches, r ∈ G) (hr : r ∈ G) :
    (((touches.foldl touchUpInside bs).button r).selected =
      ((bs.button r).selected ^^ decide (touches.count r % 2 = 1))) ∧
      (touches.foldl touchUpInside bs).selectedButton r = none := by
  induction touches generalizing bs with
  | nil => simp [selectedButton, hmulti r hr]
  | cons t touches ih =>
    have htouch := touchUpInside_of_multiple (r := r) (hmulti t (ht t List.mem_cons_self))
    have hkeep : ∀ r ∈ G, ((bs.touchUpInside t).button r).multipleSelectionEnabled = true := by
      intro r hr
      rw [← hmulti r hr]
      exact step_multipleSelectionEnabled (.touchUpInside t)
    obtain ⟨hrun, hnone⟩ := ih hkeep fun r hr => ht r (List.mem_cons_of_mem _ hr)
    refine ⟨?_, hnone⟩
    rw [List.foldl_cons, hrun, htouch, List.count_cons]
    by_cases he : r = t
    · subst he
      have hflip : decide ((touches.count r + 1) % 2 = 1) = !decide (touches.count r % 2 = 1) := by
        rcases Nat.mod_two_eq_zero_or_one (touches.count r) with hc | hc
        · rw [Nat.add_mod, hc]
          rfl
        · rw [Nat.add_mod, hc]
          rfl
      simp [hflip]
    · simp [he, Ne.symm he]

/-- **Checkboxes.** Multiple selection can be enabled from any one of the buttons, its nested calls being one level deep;
after that, a button of the group is selected after a sequence of touches when the parity of its own touches says so, and
`selectedButton` answers `nil`. -/
theorem run_multiple (depth : ℕ) (h : bs.isGroupModifing = false) (hg : bs.Group G) (hself : self ∈ G) :
    ∃ bs', setMultipleSelectionEnabled (depth + 2) bs self true = some bs' ∧
      ∀ touches : List Ref, (∀ r ∈ touches, r ∈ G) → ∀ r ∈ G,
        (((touches.foldl touchUpInside bs').button r).selected =
          ((bs.button r).selected ^^ decide (touches.count r % 2 = 1))) ∧
          (touches.foldl touchUpInside bs').selectedButton r = none := by
  obtain ⟨bs', hset⟩ : ∃ bs', setMultipleSelectionEnabled (depth + 2) bs self true = some bs' :=
    ⟨_, setMultipleSelectionEnabled_eq depth true h⟩
  refine ⟨bs', hset, fun touches ht r hr => ?_⟩
  have hmulti : ∀ r ∈ G, (bs'.button r).multipleSelectionEnabled = true := by
    intro r hr
    rw [setMultipleSelectionEnabled_button h hset hg hself, if_pos hr]
  have hsel : (bs'.button r).selected = (bs.button r).selected := by
    rw [setMultipleSelectionEnabled_button h hset hg hself, if_pos hr]
  rw [← hsel]
  exact touches_of_multiple hmulti ht hr

/-- Three wired buttons made checkboxes, one of them touched twice and another one once. -/
theorem run_multiple_three : ∃ bs bs', setOtherButtons 2 {} 0 [1, 2] = some bs ∧
    setMultipleSelectionEnabled 2 bs 0 true = some bs' ∧
    (([1, 2, 1].foldl touchUpInside bs').button 2).selected = true := by
  obtain ⟨bs, hset⟩ : ∃ bs, setOtherButtons 2 {} 0 [1, 2] = some bs := ⟨_, setOtherButtons_eq 0 _ rfl⟩
  have hg : bs.Group [1, 2, 0] := setOtherButtons_group rfl hset (fun _ _ => rfl) (by decide)
  have hmodifing := setOtherButtons_isGroupModifing rfl hset
  have ht : ∀ r ∈ [1, 2, 1], r ∈ [1, 2, 0] := by decide
  have hself : 0 ∈ [1, 2, 0] := by decide
  obtain ⟨bs', hset', hrun⟩ := run_multiple 0 hmodifing hg hself
  refine ⟨bs, bs', hset, hset', (hrun [1, 2, 1] ht 2 (by decide)).1.trans ?_⟩
  rw [setOtherButtons_selected rfl hset]
  rfl

end Buttons

end CareDirect.Screener
