import CareDirect.Paging.Pages
import Mathlib.Data.Nat.SuccPred
import Mathlib.Order.SuccPred.IntervalSucc
import Mathlib.Tactic.Linarith

/-!
# Touches on the dots

A tap on the pager is looked up among the dots: the first one whose frame, enlarged by 10 on every side, contains the
touch. The constraints put the dots 20 apart, so that the enlarged frames stand side by side, whatever dot is the large
one. So a touch is in the frame of at most one dot, and turns to its page; along the whole row, no touch falls between
two dots (`touches_run`).
-/

namespace CareDirect.Paging

open PartialRun

/-- A point between the first and the last of some marks on a line is between two that follow each other. -/
theorem exists_between_marks {α : Type} [LinearOrder α] {f : ℕ → α} {x : α} {n : ℕ} (h0 : f 0 ≤ x) (hn : x < f n) :
    ∃ i < n, f i ≤ x ∧ x < f (i + 1) := by
  induction n with
  | zero => exact absurd h0 hn.not_ge
  | succ n ih =>
    by_cases hx : x < f n
    · obtain ⟨i, hi, hbetween⟩ := ih hx
      exact ⟨i, hi.trans n.lt_succ_self, hbetween⟩
    · exact ⟨n, n.lt_succ_self, not_lt.1 hx, hn⟩

/-! ## Frames -/

structure CGRect where
  x : ℚ
  y : ℚ
  width : ℚ
  height : ℚ

def CGRect.insetBy (rect : CGRect) (dx dy : ℚ) : CGRect :=
  ⟨rect.x + dx, rect.y + dy, rect.width - 2 * dx, rect.height - 2 * dy⟩

def CGRect.contains (rect : CGRect) (x y : ℚ) : Bool :=
  decide (rect.x ≤ x ∧ x < rect.x + rect.width ∧ rect.y ≤ y ∧ y < rect.y + rect.height)

namespace PageView

/-- The frame of a dot, in a container of this height. -/
def frame (pageView : PageView) (height : ℚ) (item : PageViewItem) : CGRect where
  x := pageView.left (item.tag - 1)
  y := height / 2 - item.constant / 2
  width := item.constant
  height := item.constant

/-- The enlarged frame of the dot contains the touch. -/
def touched (pageView : PageView) (height x y : ℚ) (item : PageViewItem) : Bool :=
  ((pageView.frame height item).insetBy (-10) (-10)).contains x y

end PageView

variable {ds : PaperOnboardingDataSource} {infos : List OnboardingItemInfo} {view : PaperOnboarding}
  {fill : ℕ → Bool} {cur i j : ℕ} {height x y : ℚ}

/-- A data source with pages, and dots that have a size. -/
structure HasDots (ds : PaperOnboardingDataSource) : Prop extends HasPages ds where
  radius : 0 ≤ ds.onboardinPageItemRadius
  selectedRadius : 0 ≤ ds.onboardingPageItemSelectedRadius

/-- Half of the way from the dot before. -/
def mark (ds : PaperOnboardingDataSource) (infos : List OnboardingItemInfo) (cur : ℕ) (fill : ℕ → Bool) (i : ℕ) : ℚ :=
  (dotView ds infos cur fill).left i - 10

theorem constant_nonneg (h : HasDots ds) : 0 ≤ (dot ds infos cur fill i).constant := by
  have hradius := h.radius
  have hselected := h.selectedRadius
  simp only [dot]
  split_ifs
  · linarith
  · linarith

theorem left_of_le (hi : ds.onboardingItemsCount ≤ i) :
    (dotView ds infos cur fill).left (i + 1) = (dotView ds infos cur fill).left i := by
  have hlength : (dots ds infos cur fill).length ≤ i := by rwa [dots, List.length_map, List.length_range]
  simp only [PageView.left, dotView, PageView.moveContainerTo, dotRow, List.take_of_length_le hlength,
    List.take_of_length_le (hlength.trans i.le_succ)]

theorem monotone_mark (h : HasDots ds) : Monotone (mark ds infos cur fill) := by
  refine monotone_nat_of_le_succ fun i => ?_
  unfold mark
  by_cases hi : i < ds.onboardingItemsCount
  · have hconstant : 0 ≤ (dot ds infos cur fill i).constant := constant_nonneg h
    rw [left_succ hi]
    linarith
  · rw [left_of_le (Nat.le_of_not_lt hi)]

/-- Touched dots are those between whose marks the touch is, and that are high enough. -/
theorem touched_dot (hi : i < ds.onboardingItemsCount) :
    (dotView ds infos cur fill).touched height x y (dot ds infos cur fill i) = true ↔
      (mark ds infos cur fill i ≤ x ∧ x < mark ds infos cur fill (i + 1)) ∧
        height / 2 - (dot ds infos cur fill i).constant / 2 - 10 ≤ y ∧
        y < height / 2 + (dot ds infos cur fill i).constant / 2 + 10 := by
  have htag : (dot ds infos cur fill i).tag - 1 = i := rfl
  simp only [PageView.touched, PageView.frame, CGRect.insetBy, CGRect.contains, decide_eq_true_iff, htag, mark,
    left_succ hi]
  constructor
  · rintro ⟨hleft, hright, htop, hbottom⟩
    exact ⟨⟨by linarith, by linarith⟩, by linarith, by linarith⟩
  · rintro ⟨⟨hleft, hright⟩, htop, hbottom⟩
    exact ⟨by linarith, by linarith, by linarith, by linarith⟩

/-! ## Taps -/

/-- A touch on a dot is found. -/
theorem hitTest_dot (h : HasDots ds) (hi : i < ds.onboardingItemsCount)
    (htouched : (dotView ds infos cur fill).touched height x y (dot ds infos cur fill i) = true) :
    (dotView ds infos cur fill).hitTest ((dotView ds infos cur fill).touched height x y) =
      some (dot ds infos cur fill i) := by
  have hmem : dot ds infos cur fill i ∈ dots ds infos cur fill := List.mem_map_of_mem (List.mem_range.2 hi)
  cases hfind : (dotView ds infos cur fill).hitTest ((dotView ds infos cur fill).touched height x y) with
  | none => exact absurd htouched (List.find?_eq_none.1 hfind _ hmem)
  | some item =>
    obtain ⟨j, hj, rfl⟩ := List.mem_map.1 (List.mem_of_find?_eq_some hfind)
    have hfound := (touched_dot (List.mem_range.1 hj)).1 (List.find?_some hfind)
    -- Between the marks of two different dots there is no point.
    have hsame : j = i := by
      by_contra hne
      have hmonotone : Monotone (mark ds infos cur fill) := monotone_mark h
      exact Set.disjoint_left.1 (hmonotone.pairwise_disjoint_on_Ico_succ hne) hfound.1 ((touched_dot hi).1 htouched).1
    rw [hsame]

/-- A tap on a dot turns to its page. -/
theorem Coherent.tap_dot (h : Coherent ds fill view) (hds : HasDots ds) {item : PageViewItem}
    (hitem : view.pageView.containerView.items[i]? = some item)
    (htouched : view.pageView.touched height x y item = true) :
    ∃ view', view.step (.tap true (view.pageView.touched height x y)) = some view' ∧ view'.currentIndex = i := by
  rw [h.pageView] at hitem htouched ⊢
  obtain ⟨hi, hdot⟩ : i < ds.onboardingItemsCount ∧ dot ds view.itemsInfo view.currentIndex fill i = item := by
    have hget : (dots ds view.itemsInfo view.currentIndex fill)[i]? = some item := hitem
    rw [getElem?_dots] at hget
    split_ifs at hget with hi
    exact ⟨hi, Option.some.inj hget⟩
  subst hdot
  have htag : ((dot ds view.itemsInfo view.currentIndex fill i).tag : ℤ) - 1 = i := by simp [dot]
  have hhit := hitTest_dot hds hi htouched
  rw [← h.pageView] at hhit
  simp only [PaperOnboarding.step, PaperOnboarding.tapAction, if_true, ← h.pageView, hhit, htag]
  split_ifs with hsame
  · exact ⟨view, rfl, (Int.ofNat.inj hsame).symm⟩
  · obtain ⟨w, hw, hturned, -⟩ := h.turn hi
    exact ⟨w.call (.onboardingWillTransitonToIndex i), by rw [hw, Option.map_some], hturned.currentIndex⟩

/-- A tap on no dot does nothing. -/
theorem tap_none (h : ∀ item ∈ view.pageView.containerView.items, view.pageView.touched height x y item = false) :
    view.step (.tap true (view.pageView.touched height x y)) = some view := by
  have hhit : view.pageView.hitTest (view.pageView.touched height x y) = none :=
    List.find?_eq_none.2 fun item hitem => by simp [h item hitem]
  simp only [PaperOnboarding.step, PaperOnboarding.tapAction, if_true, hhit]

/-- The row of the dots, enlarged by 10 on every side of its smaller ones, has no gaps. -/
theorem exists_touched (h : HasDots ds) (hcur : cur < ds.onboardingItemsCount) (hleft : -10 ≤ x)
    (hright : x < (dotView ds infos cur fill).containerWidth + 10)
    (htop : height / 2 - 10 ≤ y) (hbottom : y < height / 2 + 10) :
    ∃ i < ds.onboardingItemsCount, (dotView ds infos cur fill).touched height x y (dot ds infos cur fill i) = true := by
  have hwidth : mark ds infos cur fill ds.onboardingItemsCount = (dotView ds infos cur fill).containerWidth + 10 := by
    rw [mark, left_eq le_rfl, if_pos hcur]
    simp only [dotView, PageView.moveContainerTo]
    ring
  have hfirst : mark ds infos cur fill 0 = -10 := by simp [mark, PageView.left]
  rw [← hfirst] at hleft
  rw [← hwidth] at hright
  obtain ⟨i, hi, hbetween⟩ := exists_between_marks hleft hright
  have hconstant : 0 ≤ (dot ds infos cur fill i).constant := constant_nonneg h
  exact ⟨i, hi, (touched_dot hi).2 ⟨hbetween, by linarith, by linarith⟩⟩

/-- **Touches.** Whatever has been tapped, swiped or called before: a touch is on at most one dot; a tap on a dot turns
to its page, and a tap on none does nothing; and the dots have no gaps between them, as high as 10 on either side of
their centres. -/
theorem touches_run (h : HasDots ds) : ∃ start, PaperOnboarding.commonInit ds = some start ∧
    ∀ es view, run PaperOnboarding.step start es = some view → ∀ height x y : ℚ,
      (∀ i item, view.pageView.containerView.items[i]? = some item → view.pageView.touched height x y item = true →
        ∃ view', view.step (.tap true (view.pageView.touched height x y)) = some view' ∧ view'.currentIndex = i) ∧
      ((∀ item ∈ view.pageView.containerView.items, view.pageView.touched height x y item = false) →
        view.step (.tap true (view.pageView.touched height x y)) = some view) ∧
      (-10 ≤ x → x < view.pageView.containerWidth + 10 → height / 2 - 10 ≤ y → y < height / 2 + 10 →
        ∃ item ∈ view.pageView.containerView.items, view.pageView.touched height x y item = true) := by
  obtain ⟨start, hstart, hfresh⟩ := h.commonInit
  refine ⟨start, hstart, fun es view hrun height x y => ?_⟩
  obtain ⟨fill, hcoherent⟩ := coherent_run hfresh.coherent hrun
  refine ⟨fun i item hitem htouched => hcoherent.tap_dot h hitem htouched, tap_none,
    fun hleft hright htop hbottom => ?_⟩
  rw [hcoherent.pageView] at hright ⊢
  obtain ⟨i, hi, htouched⟩ := exists_touched h hcoherent.index_lt hleft hright htop hbottom
  exact ⟨_, List.mem_map_of_mem (List.mem_range.2 hi), htouched⟩

/-- On the second page, a tap 5 to the left of the third dot. -/
theorem touches_run_onboarding : ∃ start view view', PaperOnboarding.commonInit Onboarding.dataSource = some start ∧
    run PaperOnboarding.step start sampleSwipes = some view ∧ view.currentIndex = 1 ∧
      view.step (.tap true (view.pageView.touched 30 95 15)) = some view' ∧ view'.currentIndex = 2 := by
  have hdots : HasDots Onboarding.dataSource := ⟨hasPages_onboarding, by decide, by decide⟩
  obtain ⟨start, hstart, h⟩ := touches_run hdots
  cases hstart
  obtain ⟨view', hstep, hindex⟩ := (h sampleSwipes _ rfl 30 95 15).1 2 _ rfl (by decide +kernel)
  exact ⟨_, _, view', rfl, rfl, rfl, hstep, hindex⟩

end CareDirect.Paging
