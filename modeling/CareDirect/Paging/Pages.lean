import CareDirect.Paging.Onboarding
import Mathlib.Algebra.BigOperators.Group.List.Basic
import Mathlib.Data.List.Basic
import Mathlib.Tactic.Ring

/-!
# What the pager shows

All the copies of the index agree (`Coherent`): whatever is swiped, tapped or called, and whenever the animations end,
the page, the dots and the offset of the dots are those of the current index, which is the index of a page
(`pages_run`). The dots that are filled depend on how the pages were left (`turned`).
-/

namespace CareDirect.Paging

open PartialRun

/-- A `mapM` of partial functions, as a `map`. -/
theorem mapM_eq_some {α β : Type} {f : α → Option β} : ∀ {xs : List α} {ys : List β},
    xs.mapM f = some ys ↔ xs.map f = ys.map some
  | [], ys => by cases ys <;> simp
  | x :: xs, ys => by
    rw [List.mapM_cons, Option.bind_eq_bind, Option.bind_eq_some_iff]
    cases ys with
    | nil => simp [Option.bind_eq_some_iff]
    | cons y ys =>
      simp only [Option.bind_eq_bind, Option.bind_eq_some_iff, Option.pure_def, Option.some.injEq, List.cons.injEq,
        List.map_cons, ← mapM_eq_some]
      constructor
      · rintro ⟨_, hx, _, hxs, rfl, rfl⟩
        exact ⟨hx, hxs⟩
      · rintro ⟨hx, hxs⟩
        exact ⟨y, hx, ys, hxs, rfl, rfl⟩

variable {ds : PaperOnboardingDataSource} {infos : List OnboardingItemInfo} {view view' : PaperOnboarding}
  {fill : ℕ → Bool} {cur index i : ℕ}

/-! ## The dots -/

/-- The `i`-th dot when `cur` is the current index. -/
def dot (ds : PaperOnboardingDataSource) (infos : List OnboardingItemInfo) (cur : ℕ) (fill : ℕ → Bool) (i : ℕ) :
    PageViewItem where
  circleRadius := ds.onboardinPageItemRadius
  selectedCircleRadius := ds.onboardingPageItemSelectedRadius
  itemColor := ds.onboardingPageItemColor i
  tag := i + 1
  image := infos[i]?.map OnboardingItemInfo.pageIcon
  alpha := if i = cur then 1 else 0
  path := (if i = cur then ds.onboardingPageItemSelectedRadius else ds.onboardinPageItemRadius) - 3 / 2
  fillColor := if fill i then ds.onboardingPageItemColor i else .clear
  constant := (if i = cur then ds.onboardingPageItemSelectedRadius else ds.onboardinPageItemRadius) * 2

def dots (ds : PaperOnboardingDataSource) (infos : List OnboardingItemInfo) (cur : ℕ) (fill : ℕ → Bool) :
    List PageViewItem :=
  (List.range ds.onboardingItemsCount).map (dot ds infos cur fill)

theorem getElem?_dots : (dots ds infos cur fill)[i]? =
    if i < ds.onboardingItemsCount then some (dot ds infos cur fill i) else none := by
  rw [dots, List.getElem?_map]
  split_ifs with hi
  · rw [List.getElem?_range hi, Option.map_some]
  · rw [List.getElem?_eq_none (by rw [List.length_range]; omega), Option.map_none]

/-- The dots that are filled after the page `cur` has been left for `index`. -/
def turned (cur index : ℕ) (fill : ℕ → Bool) (i : ℕ) : Bool :=
  if i = cur then decide (cur < index) else if i = index then false else fill i

/-- The container of the dots. -/
def dotRow (ds : PaperOnboardingDataSource) (infos : List OnboardingItemInfo) (cur : ℕ) (fill : ℕ → Bool) :
    PageContrainer where
  items := dots ds infos cur fill
  itemRadius := ds.onboardinPageItemRadius
  selectedItemRadius := ds.onboardingPageItemSelectedRadius
  currentIndex := cur

theorem currenteIndex_self : (dotRow ds infos cur fill).currenteIndex cur = some (dotRow ds infos cur fill) :=
  if_pos rfl

/-- Selecting another dot. -/
theorem currenteIndex_of_ne (hcur : cur < ds.onboardingItemsCount) (hindex : index < ds.onboardingItemsCount)
    (hne : index ≠ cur) : (dotRow ds infos cur fill).currenteIndex index =
      some (dotRow ds infos index (turned cur index fill)) := by
  have hget : (dots ds infos cur fill)[index]? = some (dot ds infos cur fill index) := by
    rw [getElem?_dots, if_pos hindex]
  have hlt : index < (dots ds infos cur fill).length := (List.getElem?_eq_some_iff.1 hget).1
  have hget' : ∀ item, ((dots ds infos cur fill).set index item)[cur]? = some (dot ds infos cur fill cur) := by
    intro item
    rw [List.getElem?_set_ne hne, getElem?_dots, if_pos hcur]
  have hlt' : ∀ item, cur < ((dots ds infos cur fill).set index item).length := fun item =>
    (List.getElem?_eq_some_iff.1 (hget' item)).1
  simp only [PageContrainer.currenteIndex, dotRow, hne, if_false, PageContrainer.animationItem, hget, hget',
    Option.bind_eq_bind, Option.bind_some, Option.some.injEq, PageContrainer.mk.injEq, and_true]
  refine List.ext_getElem? fun j => ?_
  rw [getElem?_dots]
  by_cases hj : j = cur
  · subst hj
    rw [List.getElem?_set_self (hlt' _), if_pos hcur]
    simp [dot, PageViewItem.animationSelected, turned, hne.symm]
  · rw [List.getElem?_set_ne (Ne.symm hj)]
    by_cases hj' : j = index
    · subst hj'
      rw [List.getElem?_set_self hlt, if_pos hindex]
      simp [dot, PageViewItem.animationSelected, turned, hne]
    · rw [List.getElem?_set_ne (Ne.symm hj'), getElem?_dots]
      simp [dot, turned, hj, hj']

/-- The page view, whose container is moved with the index. -/
def dotView (ds : PaperOnboardingDataSource) (infos : List OnboardingItemInfo) (cur : ℕ) (fill : ℕ → Bool) :
    PageView :=
  PageView.moveContainerTo
    { itemsCount := ds.onboardingItemsCount
      itemRadius := ds.onboardinPageItemRadius
      selectedItemRadius := ds.onboardingPageItemSelectedRadius
      containerView := dotRow ds infos cur fill
      containerWidth := ds.onboardingPageItemSelectedRadius * 2 +
        (ds.onboardingItemsCount - 1) * (ds.onboardinPageItemRadius * 2) + 20 * (ds.onboardingItemsCount - 1) } cur

/-- What a call of `currentIndex` makes of the dots that are filled. -/
def refilled (cur index : ℕ) (fill : ℕ → Bool) : ℕ → Bool := if index = cur then fill else turned cur index fill

theorem dotView_currentIndex (hcur : cur < ds.onboardingItemsCount) (hindex : index < ds.onboardingItemsCount) :
    (dotView ds infos cur fill).currentIndex index =
      some (dotView ds infos index (refilled cur index fill)) := by
  have hcontainer : (dotRow ds infos cur fill).currenteIndex index =
      some (dotRow ds infos index (refilled cur index fill)) := by
    unfold refilled
    by_cases hne : index = cur
    · subst hne
      rw [currenteIndex_self, if_pos rfl]
    · rw [currenteIndex_of_ne hcur hindex hne, if_neg hne]
  simp only [dotView, PageView.currentIndex, PageView.moveContainerTo, hindex, if_true, hcontainer,
    Option.bind_eq_bind, Option.bind_some]

/-! ## The invariant -/

/-- All the copies of the index agree, and `fill` says which dots are filled. -/
structure Coherent (ds : PaperOnboardingDataSource) (fill : ℕ → Bool) (view : PaperOnboarding) : Prop where
  itemsCount : view.itemsCount = ds.onboardingItemsCount
  itemsInfo : PaperOnboarding.createItemsInfo ds = some view.itemsInfo
  index_lt : view.currentIndex < ds.onboardingItemsCount
  pageView : view.pageView = dotView ds view.itemsInfo view.currentIndex fill
  page : ∃ info, view.itemsInfo[view.currentIndex]? = some info ∧ view.contentView.currentItem = .ofInfo info

/-- The pages are those of the data source. -/
theorem getElem?_createItemsInfo (h : PaperOnboarding.createItemsInfo ds = some infos)
    (hi : i < ds.onboardingItemsCount) : ∃ info, infos[i]? = some info ∧ ds.onboardingItem i = some info := by
  have hmap := congrArg (·[i]?) (mapM_eq_some.1 h)
  simp only [List.getElem?_map, List.getElem?_range hi, Option.map_some] at hmap
  obtain ⟨info, hinfo, hsome⟩ := Option.map_eq_some_iff.1 hmap.symm
  exact ⟨info, hinfo, hsome.symm⟩

/-- Turning to the page `index`: what changes, and what is announced. -/
structure Turned (view : PaperOnboarding) (index : ℕ) (view' : PaperOnboarding) : Prop where
  currentIndex : view'.currentIndex = index
  itemsInfo : view'.itemsInfo = view.itemsInfo
  circles : ∃ info, view.itemsInfo[index]? = some info ∧
    view'.fillAnimationView = view.fillAnimationView.fillAnimation info.color
  transactions : view'.transactions = view.transactions ++ [index]
  calls : view'.calls = view.calls ++
    [.onboardingWillTransitonToIndex index, .onboardingConfigurationItem index]

/-- A call of `currentIndex` with the index of a page. -/
theorem Coherent.turn (h : Coherent ds fill view) (hindex : index < ds.onboardingItemsCount) :
    ∃ view', view.currentIndexAnimated index = some view' ∧ Turned view index view' ∧
      Coherent ds (refilled view.currentIndex index fill) view' := by
  obtain ⟨info, hinfo, -⟩ := getElem?_createItemsInfo h.itemsInfo hindex
  have hrange : (0 : ℤ) ≤ index ∧ (index : ℤ) < view.itemsCount := by
    rw [h.itemsCount]
    omega
  have hposition : (dotView ds view.itemsInfo view.currentIndex fill).positionItemIndex index = some true := by
    simp only [PageView.positionItemIndex, dotView, PageView.moveContainerTo, dotRow, getElem?_dots, hindex,
      if_true, Option.map_some]
  simp only [PaperOnboarding.currentIndexAnimated, hrange, and_self, if_true, Int.toNat_natCast, PaperOnboarding.call,
    hinfo, h.pageView, hposition, dotView_currentIndex h.index_lt hindex, PaperOnboarding.currentItem,
    Option.bind_eq_bind, Option.bind_some, Option.some.injEq, exists_eq_left', List.append_assoc, List.cons_append,
    List.nil_append]
  exact ⟨⟨rfl, rfl, ⟨info, hinfo, rfl⟩, rfl, rfl⟩, h.itemsCount, h.itemsInfo, hindex, rfl, info, hinfo, rfl⟩

/-! ## The start -/

theorem createItems_dots (hn : 0 < ds.onboardingItemsCount) :
    PageContrainer.createItems ds.onboardingItemsCount ds.onboardinPageItemRadius
      ds.onboardingPageItemSelectedRadius ds.onboardingPageItemColor = some (dots ds [] 0 fun _ => false) := by
  obtain ⟨m, hm⟩ := Nat.exists_eq_add_one.2 hn
  rw [PageContrainer.createItems, if_neg hn.ne', dots, hm, List.range_succ_eq_map, Nat.add_sub_cancel,
    List.range'_eq_map_range, List.map_map, List.map_cons, List.map_map]
  refine congrArg some (congrArg₂ List.cons rfl (List.map_congr_left fun j _ => ?_))
  have htag : 2 + j = j + 1 + 1 := by omega
  simp only [Function.comp_apply, htag, Nat.add_sub_cancel]
  rfl

theorem init_dotView (hn : 0 < ds.onboardingItemsCount) :
    PageView.init ds.onboardingItemsCount ds.onboardinPageItemRadius ds.onboardingPageItemSelectedRadius
      ds.onboardingPageItemColor = some (dotView ds [] 0 fun _ => false) := by
  simp only [PageView.init, createItems_dots hn, PageView.currentIndex, hn, if_true, Option.bind_eq_bind,
    Option.bind_some, PageContrainer.currenteIndex]
  rfl

/-- The dots get their images. -/
theorem configuration_dots (hlength : infos.length = ds.onboardingItemsCount) :
    ((dots ds [] 0 fill).zipIdx.mapM fun (item, index) =>
      infos[index]?.map fun info => { item with image := some info.pageIcon }) = some (dots ds infos 0 fill) := by
  rw [mapM_eq_some]
  refine List.ext_getElem? fun j => ?_
  rw [List.getElem?_map, List.getElem?_map, List.getElem?_zipIdx, getElem?_dots, getElem?_dots]
  split_ifs with hj
  · have hinfo : infos[j]? = some infos[j] := List.getElem?_eq_getElem (hlength ▸ hj)
    simp [hinfo, dot]
  · rfl

/-- After the data source has been set. -/
structure Fresh (ds : PaperOnboardingDataSource) (view : PaperOnboarding) : Prop where
  coherent : Coherent ds (fun _ => false) view
  currentIndex : view.currentIndex = 0
  background : ∃ info, view.itemsInfo[0]? = some info ∧ view.fillAnimationView = { backgroundColor := info.color }
  transactions : view.transactions = []
  calls : view.calls = []

/-- Setting a data source with pages. -/
theorem commonInit_fresh (hn : 0 < ds.onboardingItemsCount) (h : PaperOnboarding.createItemsInfo ds = some infos) :
    ∃ view, PaperOnboarding.commonInit ds = some view ∧ Fresh ds view := by
  obtain ⟨info, hinfo, -⟩ := getElem?_createItemsInfo h hn
  have hlength : infos.length = ds.onboardingItemsCount := by
    have hmap := congrArg List.length (mapM_eq_some.1 h)
    rwa [List.length_map, List.length_map, List.length_range, eq_comm] at hmap
  have hitems : (dotView ds [] 0 fun _ => false).containerView.items = dots ds [] 0 fun _ => false := rfl
  simp only [PaperOnboarding.commonInit, h, hinfo, init_dotView hn, hitems, configuration_dots hlength,
    Option.bind_eq_bind, Option.bind_some, Option.some.injEq, exists_eq_left']
  exact ⟨⟨rfl, h, hn, rfl, info, hinfo, rfl⟩, rfl, ⟨info, hinfo, rfl⟩, rfl, rfl⟩

/-! ## Steps -/

theorem Coherent.call (h : Coherent ds fill view) (c : DelegateCall) : Coherent ds fill (view.call c) :=
  ⟨h.itemsCount, h.itemsInfo, h.index_lt, h.pageView, h.page⟩

/-- A call of `currentIndex` turns to a page, or to none. -/
theorem Coherent.animated (h : Coherent ds fill view) (index : ℤ) :
    (∃ j < ds.onboardingItemsCount, index = j ∧ ∃ view', view.currentIndexAnimated index = some view' ∧
      Turned view j view' ∧ Coherent ds (refilled view.currentIndex j fill) view') ∨
    view.currentIndexAnimated index = some (view.call .onboardingWillTransitonToLeaving) ∨
    view.currentIndexAnimated index = some view := by
  by_cases hneg : index < 0
  · have hout : ¬ (0 ≤ index ∧ index < view.itemsCount) := by omega
    have hleave : ¬ index ≥ view.itemsCount := by omega
    exact .inr (.inr (by rw [PaperOnboarding.currentIndexAnimated, if_neg hout, if_neg hleave]))
  · obtain ⟨j, rfl⟩ := Int.eq_ofNat_of_zero_le (Int.not_lt.1 hneg)
    by_cases hj : j < ds.onboardingItemsCount
    · exact .inl ⟨j, hj, rfl, h.turn hj⟩
    · have hcount := h.itemsCount
      have hout : ¬ (0 ≤ (j : ℤ) ∧ (j : ℤ) < view.itemsCount) := by omega
      have hleave : (j : ℤ) ≥ view.itemsCount := by omega
      exact .inr (.inl (by rw [PaperOnboarding.currentIndexAnimated, if_neg hout, if_pos hleave]))

/-- A tap turns to another page, and announces it a second time. -/
theorem Coherent.tapped (h : Coherent ds fill view) (enabled : Bool) (contains : PageViewItem → Bool) :
    (∃ j < ds.onboardingItemsCount, ∃ w, view.tapAction enabled contains =
        some (w.call (.onboardingWillTransitonToIndex j)) ∧
      Turned view j w ∧ Coherent ds (refilled view.currentIndex j fill) w) ∨
    view.tapAction enabled contains = some view := by
  unfold PaperOnboarding.tapAction
  cases enabled with
  | false => exact .inr rfl
  | true =>
    rw [if_pos rfl]
    cases hhit : view.pageView.hitTest contains with
    | none => exact .inr rfl
    | some pageItem =>
      have hmem : pageItem ∈ dots ds view.itemsInfo view.currentIndex fill := by
        rw [h.pageView] at hhit
        exact List.mem_of_find?_eq_some hhit
      obtain ⟨j, hj, rfl⟩ := List.mem_map.1 hmem
      have htag : ((dot ds view.itemsInfo view.currentIndex fill j).tag : ℤ) - 1 = j := by
        simp [dot]
      simp only [htag]
      split_ifs with hsame
      · exact .inr rfl
      · obtain ⟨w, hw, hturned, hcoherent⟩ := h.turn (List.mem_range.1 hj)
        exact .inl ⟨j, List.mem_range.1 hj, w, by rw [hw, Option.map_some], hturned, hcoherent⟩

/-- What a swipe can turn to. -/
def Event.Reaches (cur index : ℕ) : Event → Prop
  | .swipe _ => index = cur + 1 ∨ index + 1 = cur
  | .tap _ _ | .currentIndex _ => True
  | _ => False

/-- What an event can make of a coherent view. -/
inductive Outcome (ds : PaperOnboardingDataSource) (fill : ℕ → Bool) (view : PaperOnboarding) :
    Event → PaperOnboarding → Prop
  | turned {e : Event} {index : ℕ} {w : PaperOnboarding} (hindex : index < ds.onboardingItemsCount)
    (hreaches : e.Reaches view.currentIndex index) (hturned : Turned view index w)
    (hcoherent : Coherent ds (refilled view.currentIndex index fill) w) : Outcome ds fill view e w
  | tapped {enabled : Bool} {contains : PageViewItem → Bool} {index : ℕ} {w : PaperOnboarding}
    (hindex : index < ds.onboardingItemsCount) (hturned : Turned view index w)
    (hcoherent : Coherent ds (refilled view.currentIndex index fill) w) :
    Outcome ds fill view (.tap enabled contains) (w.call (.onboardingWillTransitonToIndex index))
  | leaving {e : Event} : Outcome ds fill view e (view.call .onboardingWillTransitonToLeaving)
  | same {e : Event} : Outcome ds fill view e view
  | transactionEnds {i index : ℕ} (hindex : view.transactions[i]? = some index) :
    Outcome ds fill view (.transactionEnds i)
      ({ view with transactions := view.transactions.eraseIdx i }.call (.onboardingDidTransitonToIndex index))
  | animationDidStop {i : ℕ} {fillAnimationView : FillAnimationView}
    (hstop : view.fillAnimationView.animationDidStop i = some fillAnimationView) :
    Outcome ds fill view (.animationDidStop i) { view with fillAnimationView }
  | removed {e : Event} {contentView : OnboardingContentView}
    (hitem : contentView.currentItem = view.contentView.currentItem) : Outcome ds fill view e { view with contentView }

theorem Coherent.outcome_animated {e : Event} {target : ℤ} (h : Coherent ds fill view)
    (hreaches : ∀ j : ℕ, target = j → e.Reaches view.currentIndex j)
    (hs : view.currentIndexAnimated target = some view') : Outcome ds fill view e view' := by
  rcases h.animated target with ⟨j, hj, htarget, w, hw, hturned, hcoherent⟩ | hleave | hsame
  · cases hw.symm.trans hs
    exact .turned hj (hreaches j htarget) hturned hcoherent
  · cases hleave.symm.trans hs
    exact .leaving
  · cases hsame.symm.trans hs
    exact .same

/-- **What a step does.** -/
theorem Coherent.outcome {e : Event} (h : Coherent ds fill view) (hs : view.step e = some view') :
    Outcome ds fill view e view' := by
  cases e with
  | currentIndex index => exact h.outcome_animated (fun _ _ => trivial) hs
  | swipe direction =>
    cases direction with
    | left => exact h.outcome_animated (fun j hj => show _ ∨ _ by omega) hs
    | right => exact h.outcome_animated (fun j hj => show _ ∨ _ by omega) hs
    | up => cases hs
    | down => cases hs
  | tap enabled contains =>
    rcases h.tapped enabled contains with ⟨j, hj, w, hw, hturned, hcoherent⟩ | hsame
    · cases hw.symm.trans hs
      exact .tapped hj hturned hcoherent
    · cases hsame.symm.trans hs
      exact .same
  | transactionEnds i =>
    obtain ⟨index, hindex, rfl⟩ := Option.map_eq_some_iff.1 hs
    exact .transactionEnds hindex
  | animationDidStop i =>
    obtain ⟨fillAnimationView, hstop, rfl⟩ := Option.map_eq_some_iff.1 hs
    exact .animationDidStop hstop
  | removeFromSuperview i =>
    obtain ⟨item, -, rfl⟩ := Option.map_eq_some_iff.1 hs
    exact .removed rfl

/-- An event keeps the index and the dots that are filled, or turns to another page. -/
theorem Outcome.coherent {e : Event} (ho : Outcome ds fill view e view') (h : Coherent ds fill view) :
    view'.currentIndex = view.currentIndex ∧ Coherent ds fill view' ∨
      e.Reaches view.currentIndex view'.currentIndex ∧
        Coherent ds (refilled view.currentIndex view'.currentIndex fill) view' := by
  cases ho with
  | turned hindex hreaches hturned hcoherent =>
    rw [hturned.currentIndex]
    exact .inr ⟨hreaches, hcoherent⟩
  | @tapped _ _ index w hindex hturned hcoherent =>
    rw [show (w.call _).currentIndex = index from hturned.currentIndex]
    exact .inr ⟨trivial, hcoherent.call _⟩
  | leaving => exact .inl ⟨rfl, h.call _⟩
  | same => exact .inl ⟨rfl, h⟩
  | transactionEnds hindex => exact .inl ⟨rfl, h.itemsCount, h.itemsInfo, h.index_lt, h.pageView, h.page⟩
  | animationDidStop hstop => exact .inl ⟨rfl, h.itemsCount, h.itemsInfo, h.index_lt, h.pageView, h.page⟩
  | removed hitem =>
    obtain ⟨info, hinfo, hpage⟩ := h.page
    exact .inl ⟨rfl, h.itemsCount, h.itemsInfo, h.index_lt, h.pageView, info, hinfo, hitem.trans hpage⟩

/-! ## Runs -/

theorem coherent_run {es : List Event} (h : Coherent ds fill view)
    (hrun : run PaperOnboarding.step view es = some view') : ∃ fill', Coherent ds fill' view' := by
  refine run_invariant (I := fun u => ∃ fill', Coherent ds fill' u) ⟨fill, h⟩ ?_ hrun
  rintro u e v ⟨fill', hu⟩ he
  rcases (hu.outcome he).coherent hu with ⟨-, hv⟩ | ⟨-, hv⟩
  · exact ⟨_, hv⟩
  · exact ⟨_, hv⟩

/-- What users and the rest of the program can do. -/
def Event.Gesture : Event → Prop
  | .currentIndex _ | .tap _ _ | .swipe .left | .swipe .right => True
  | _ => False

theorem Coherent.gesture {e : Event} (h : Coherent ds fill view) (he : e.Gesture) :
    ∃ view', view.step e = some view' := by
  have hanimated : ∀ index : ℤ, ∃ view', view.currentIndexAnimated index = some view' := by
    intro index
    rcases h.animated index with ⟨j, -, -, w, hw, -⟩ | hleave | hsame
    · exact ⟨w, hw⟩
    · exact ⟨_, hleave⟩
    · exact ⟨_, hsame⟩
  cases e with
  | currentIndex index => exact hanimated index
  | tap enabled contains =>
    rcases h.tapped enabled contains with ⟨j, -, w, hw, -⟩ | hsame
    · exact ⟨_, hw⟩
    · exact ⟨_, hsame⟩
  | swipe direction =>
    cases direction with
    | left => exact hanimated _
    | right => exact hanimated _
    | up => exact he.elim
    | down => exact he.elim
  | transactionEnds i => exact he.elim
  | animationDidStop i => exact he.elim
  | removeFromSuperview i => exact he.elim

/-- The page and the dots are those of the current index. -/
structure Shows (ds : PaperOnboardingDataSource) (view : PaperOnboarding) : Prop where
  index_lt : view.currentIndex < ds.onboardingItemsCount
  page : ∃ info, ds.onboardingItem view.currentIndex = some info ∧ view.contentView.currentItem = .ofInfo info
  count : view.pageView.containerView.items.length = ds.onboardingItemsCount
  dots : ∀ i item, view.pageView.containerView.items[i]? = some item →
    item.tag = i + 1 ∧ (∃ info, ds.onboardingItem i = some info ∧ item.image = some info.pageIcon) ∧
      item.alpha = (if i = view.currentIndex then 1 else 0) ∧
      item.constant = 2 * if i = view.currentIndex then ds.onboardingPageItemSelectedRadius
        else ds.onboardinPageItemRadius

theorem Coherent.shows (h : Coherent ds fill view) : Shows ds view := by
  have hitems : view.pageView.containerView.items = Paging.dots ds view.itemsInfo view.currentIndex fill := by
    rw [h.pageView]
    rfl
  refine ⟨h.index_lt, ?_, ?_, ?_⟩
  · obtain ⟨info, hinfo, hpage⟩ := h.page
    obtain ⟨info', hinfo', hitem⟩ := getElem?_createItemsInfo h.itemsInfo h.index_lt
    cases hinfo.symm.trans hinfo'
    exact ⟨info, hitem, hpage⟩
  · rw [hitems, Paging.dots, List.length_map, List.length_range]
  · intro i item hi
    rw [hitems, getElem?_dots] at hi
    split_ifs at hi with hlt
    cases hi
    obtain ⟨info, hinfo, hitem⟩ := getElem?_createItemsInfo h.itemsInfo hlt
    exact ⟨rfl, ⟨info, hitem, by simp [dot, hinfo]⟩, rfl, mul_comm _ _⟩

/-- A data source with pages. -/
structure HasPages (ds : PaperOnboardingDataSource) : Prop where
  pos : 0 < ds.onboardingItemsCount
  item : ∀ i < ds.onboardingItemsCount, (ds.onboardingItem i).isSome = true

theorem HasPages.commonInit (h : HasPages ds) : ∃ view, PaperOnboarding.commonInit ds = some view ∧ Fresh ds view := by
  have hinfos : ∃ infos, PaperOnboarding.createItemsInfo ds = some infos := by
    refine ⟨(List.range ds.onboardingItemsCount).filterMap ds.onboardingItem, mapM_eq_some.2 ?_⟩
    rw [List.map_filterMap]
    have hsome : ∀ j ∈ List.range ds.onboardingItemsCount,
        (ds.onboardingItem j).map some = some (ds.onboardingItem j) := by
      intro j hj
      obtain ⟨info, hinfo⟩ := Option.isSome_iff_exists.1 (h.item j (List.mem_range.1 hj))
      rw [hinfo]
      rfl
    rw [List.filterMap_congr hsome, List.filterMap_eq_map']
  obtain ⟨infos, hinfos⟩ := hinfos
  exact commonInit_fresh h.pos hinfos

/-- **Paging.** From a data source with pages, whatever happens: the page and the dots that are shown are those of the
current index, which is the index of a page; and no gesture traps. -/
theorem pages_run (h : HasPages ds) : ∃ start, PaperOnboarding.commonInit ds = some start ∧
    ∀ es view, run PaperOnboarding.step start es = some view →
      Shows ds view ∧ ∀ e : Event, e.Gesture → ∃ view', view.step e = some view' := by
  obtain ⟨start, hstart, hfresh⟩ := h.commonInit
  refine ⟨start, hstart, fun es view hrun => ?_⟩
  obtain ⟨fill, hcoherent⟩ := coherent_run hfresh.coherent hrun
  exact ⟨hcoherent.shows, fun e he => hcoherent.gesture he⟩

/-- The pages of the first scene. -/
theorem hasPages_onboarding : HasPages Onboarding.dataSource := ⟨by decide, by decide⟩

/-- Two swipes to the left and one back, as the animations end. -/
def sampleSwipes : List Event :=
  [.swipe .left, .animationDidStop 0, .swipe .left, .swipe .right, .animationDidStop 0, .transactionEnds 1,
    .animationDidStop 0]

theorem run_sampleSwipes : ∃ start view, PaperOnboarding.commonInit Onboarding.dataSource = some start ∧
    run PaperOnboarding.step start sampleSwipes = some view ∧ view.currentIndex = 1 ∧
      view.fillAnimationView.circles = [] :=
  ⟨_, _, rfl, rfl, rfl, rfl⟩

theorem pages_run_onboarding : ∃ start view, PaperOnboarding.commonInit Onboarding.dataSource = some start ∧
    run PaperOnboarding.step start sampleSwipes = some view ∧ view.currentIndex = 1 ∧
      Shows Onboarding.dataSource view := by
  obtain ⟨start, view, hstart, hrun, hindex, -⟩ := run_sampleSwipes
  obtain ⟨start', hstart', h⟩ := pages_run hasPages_onboarding
  cases hstart.symm.trans hstart'
  exact ⟨start, view, hstart, hrun, hindex, (h _ _ hrun).1⟩

/-! ## The place of the selected dot -/

/-- Where the constraints put the left edge of the `i`-th dot, in the container: the dots stand in it from its left edge
on, `space` apart. -/
def PageView.left (pageView : PageView) (i : ℕ) : ℚ :=
  ((pageView.containerView.items.take i).map fun item => item.constant + pageView.space).sum

/-- How far right of the centre of the page view the constraints put the centre of the `i`-th dot. -/
def PageView.dotCentre (pageView : PageView) (i : ℕ) : ℚ :=
  pageView.containerX - pageView.containerWidth / 2 + pageView.left i +
    (pageView.containerView.items[i]?.elim 0 PageViewItem.constant) / 2

theorem left_succ (hi : i < ds.onboardingItemsCount) : (dotView ds infos cur fill).left (i + 1) =
    (dotView ds infos cur fill).left i + ((dot ds infos cur fill i).constant + 20) := by
  have hget : (dots ds infos cur fill)[i]? = some (dot ds infos cur fill i) := by rw [getElem?_dots, if_pos hi]
  simp only [PageView.left, dotView, PageView.moveContainerTo, dotRow, List.take_add_one, hget, Option.toList_some,
    List.map_append, List.map_cons, List.map_nil, List.sum_append, List.sum_cons, List.sum_nil, add_zero]

/-- The dots before the `i`-th one, of which at most one is the selected one. -/
theorem left_eq (hi : i ≤ ds.onboardingItemsCount) : (dotView ds infos cur fill).left i =
    i * (ds.onboardinPageItemRadius * 2 + 20) +
      if cur < i then (ds.onboardingPageItemSelectedRadius - ds.onboardinPageItemRadius) * 2 else 0 := by
  induction i with
  | zero => simp [PageView.left]
  | succ i ih =>
    rw [left_succ hi, ih (Nat.le_of_succ_le hi), dot]
    push_cast
    rcases Nat.lt_trichotomy cur i with h | h | h
    · rw [if_pos h, if_neg (by omega), if_pos (by omega)]
      ring
    · rw [if_neg (by omega), if_pos h.symm, if_pos (by omega)]
      ring
    · rw [if_neg (by omega), if_neg (by omega), if_neg (by omega)]
      ring

theorem Coherent.dotCentre (h : Coherent ds fill view) : view.pageView.dotCentre view.currentIndex =
    (ds.onboardingPageItemSelectedRadius - 2 * ds.onboardinPageItemRadius) *
      ((ds.onboardingItemsCount - 1) / 2 - view.currentIndex) := by
  have hself : (dots ds view.itemsInfo view.currentIndex fill)[view.currentIndex]?.elim 0 PageViewItem.constant =
      ds.onboardingPageItemSelectedRadius * 2 := by
    rw [getElem?_dots, if_pos h.index_lt]
    simp [dot]
  rw [h.pageView, PageView.dotCentre, left_eq h.index_lt.le, if_neg (lt_irrefl _)]
  simp only [dotView, PageView.moveContainerTo, dotRow, hself]
  ring

/-- **The selected dot** is off the centre of the page view by a multiple of the difference between the radius of a
selected dot and the diameter of another one, on every page but the one in the middle. -/
theorem dotCentre_run (h : HasPages ds) : ∃ start, PaperOnboarding.commonInit ds = some start ∧
    ∀ es view, run PaperOnboarding.step start es = some view →
      view.pageView.dotCentre view.currentIndex =
        (ds.onboardingPageItemSelectedRadius - 2 * ds.onboardinPageItemRadius) *
          ((ds.onboardingItemsCount - 1) / 2 - view.currentIndex) := by
  obtain ⟨start, hstart, hfresh⟩ := h.commonInit
  refine ⟨start, hstart, fun es view hrun => ?_⟩
  obtain ⟨fill, hcoherent⟩ := coherent_run hfresh.coherent hrun
  exact hcoherent.dotCentre

/-- Three points to the right of the centre, on the second of four pages. -/
theorem dotCentre_run_onboarding : ∃ start view, PaperOnboarding.commonInit Onboarding.dataSource = some start ∧
    run PaperOnboarding.step start sampleSwipes = some view ∧ view.pageView.dotCentre 1 = 3 := by
  obtain ⟨start, view, hstart, hrun, hindex, -⟩ := run_sampleSwipes
  obtain ⟨start', hstart', h⟩ := dotCentre_run hasPages_onboarding
  cases hstart.symm.trans hstart'
  have hcentre := h _ _ hrun
  rw [hindex] at hcentre
  refine ⟨start, view, hstart, hrun, hcentre.trans ?_⟩
  norm_num [Onboarding.dataSource, Onboarding.onboardingItemsCount]

/-! ## The dots that are filled -/

/-- The dots before the current one, after a swipe. -/
theorem refilled_swipe (hreaches : index = cur + 1 ∨ index + 1 = cur) :
    refilled cur index (fun i => decide (i < cur)) = fun i => decide (i < index) := by
  funext j
  rw [refilled, if_neg (by omega), turned]
  split_ifs <;> simp <;> omega

/-- No jumps: swipes, and animations that end. -/
def Event.Steady : Event → Prop
  | .currentIndex _ | .tap _ _ => False
  | _ => True

theorem Coherent.progress {e : Event} (h : Coherent ds (fun i => decide (i < view.currentIndex)) view) (he : e.Steady)
    (hs : view.step e = some view') : Coherent ds (fun i => decide (i < view'.currentIndex)) view' := by
  rcases (h.outcome hs).coherent h with ⟨hsame, hv⟩ | ⟨hreaches, hv⟩
  · rwa [hsame]
  · cases e with
    | swipe direction => rwa [refilled_swipe hreaches] at hv
    | currentIndex index => exact he.elim
    | tap enabled contains => exact he.elim
    | transactionEnds i => exact hreaches.elim
    | animationDidStop i => exact hreaches.elim
    | removeFromSuperview i => exact hreaches.elim

/-- **Progress.** As long as the pages are only swiped, the dots that are filled are those of the pages before the
current one. -/
theorem progress_run (h : HasPages ds) : ∃ start, PaperOnboarding.commonInit ds = some start ∧
    ∀ es view, (∀ e ∈ es, Event.Steady e) → run PaperOnboarding.step start es = some view →
      ∀ i item, view.pageView.containerView.items[i]? = some item →
        item.fillColor = if i < view.currentIndex then ds.onboardingPageItemColor i else .clear := by
  obtain ⟨start, hstart, hfresh⟩ := h.commonInit
  refine ⟨start, hstart, fun es view hes hrun i item hi => ?_⟩
  have hcoherent : Coherent ds (fun j => decide (j < view.currentIndex)) view := by
    have hzero : Coherent ds (fun j => decide (j < start.currentIndex)) start := by
      rw [hfresh.currentIndex]
      exact hfresh.coherent
    refine run_induction (I := fun p u => (∀ e ∈ p, Event.Steady e) →
      Coherent ds (fun j => decide (j < u.currentIndex)) u) (fun _ => hzero) ?_ es hrun hes
    intro p u e v _ hu he hpe
    exact (hu fun e' he' => hpe e' (List.mem_append_left _ he')).progress (hpe e List.mem_concat_self) he
  have hitems : view.pageView.containerView.items =
      dots ds view.itemsInfo view.currentIndex fun j => decide (j < view.currentIndex) := by
    rw [hcoherent.pageView]
    rfl
  rw [hitems, getElem?_dots] at hi
  split_ifs at hi with hlt
  cases hi
  simp [dot]

theorem progress_run_onboarding : ∃ start view, PaperOnboarding.commonInit Onboarding.dataSource = some start ∧
    run PaperOnboarding.step start sampleSwipes = some view ∧
      ∀ i item, view.pageView.containerView.items[i]? = some item →
        item.fillColor = if i < 1 then Onboarding.dataSource.onboardingPageItemColor i else .clear := by
  obtain ⟨start, view, hstart, hrun, hindex, -⟩ := run_sampleSwipes
  obtain ⟨start', hstart', h⟩ := progress_run hasPages_onboarding
  cases hstart.symm.trans hstart'
  have hsteady : ∀ e ∈ sampleSwipes, Event.Steady e := by simp [sampleSwipes, Event.Steady]
  refine ⟨start, view, hstart, hrun, ?_⟩
  rw [← hindex]
  exact h _ _ hsteady hrun

end CareDirect.Paging
