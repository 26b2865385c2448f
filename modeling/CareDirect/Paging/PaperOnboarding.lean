import CareDirect.Lib.Run
import Mathlib.Data.Rat.Defs

/-!
# The pager `PaperOnboarding`

The view of the pod `paper-onboarding` that the first scene shows: some pages, a row of dots, a coloured background. Its
index is copied into the views it is made of (`PageContrainer`, and by what they show `OnboardingContentView` and
`FillAnimationView`). What is animated is taken at the value it is animated to; an animation or a transaction is
outstanding until it ends, and they end in any order. Which dot a touch hits depends on the layout, which is a parameter
of the touch.
-/

namespace CareDirect.Paging

structure UIColor where
  red : ℚ
  green : ℚ
  blue : ℚ
  alpha : ℚ
  deriving DecidableEq

def UIColor.clear : UIColor := ⟨0, 0, 0, 0⟩

structure UIFont where
  name : String
  size : ℚ
  deriving DecidableEq

/-- One page. An image goes by the name of its resource. -/
structure OnboardingItemInfo where
  informationImage : String
  title : String
  description : String
  pageIcon : String
  color : UIColor
  titleColor : UIColor
  descriptionColor : UIColor
  titleFont : UIFont
  descriptionFont : UIFont
  deriving DecidableEq

/-- The answers of a `PaperOnboardingDataSource`; `none` is a trap. -/
structure PaperOnboardingDataSource where
  onboardingItemsCount : ℕ
  onboardingItem : ℕ → Option OnboardingItemInfo
  onboardingPageItemColor : ℕ → UIColor
  onboardinPageItemRadius : ℚ
  onboardingPageItemSelectedRadius : ℚ

/-- The calls of the methods of a `PaperOnboardingDelegate`. -/
inductive DelegateCall
  | onboardingWillTransitonToIndex (index : ℤ)
  | onboardingWillTransitonToLeaving
  | onboardingDidTransitonToIndex (index : ℤ)
  | onboardingConfigurationItem (index : ℤ)
  deriving DecidableEq

/-! ## The dots -/

structure PageViewItem where
  circleRadius : ℚ
  selectedCircleRadius : ℚ
  lineWidth : ℚ := 3
  itemColor : UIColor
  tag : ℕ := 0
  /-- The image of `imageView`. -/
  image : Option String := none
  /-- The alpha of `imageView`. -/
  alpha : ℚ
  /-- The radius of the path of `circleLayer`. -/
  path : ℚ
  /-- The colour that fills `circleLayer`. -/
  fillColor : UIColor := .clear
  /-- The constant of the constraints on width and height. -/
  constant : ℚ

/-- `PageContrainer.createItem` -/
def createItem (radius selectedRadius : ℚ) (isSelect : Bool) (itemColor : UIColor) : PageViewItem where
  circleRadius := radius
  selectedCircleRadius := selectedRadius
  itemColor := itemColor
  alpha := if isSelect then 1 else 0
  path := (if isSelect then selectedRadius else radius) - 3 / 2
  constant := (if isSelect then selectedRadius else radius) * 2

def PageViewItem.animationSelected (item : PageViewItem) (selected fillColor : Bool) : PageViewItem :=
  { item with
    alpha := if selected then 1 else 0
    path := (if selected then item.selectedCircleRadius else item.circleRadius) - item.lineWidth / 2
    fillColor := if fillColor then item.itemColor else .clear }

structure PageContrainer where
  items : List PageViewItem
  itemRadius : ℚ
  selectedItemRadius : ℚ
  currentIndex : ℕ := 0

namespace PageContrainer

/-- Without a first item the range `1 ..< count` traps. -/
def createItems (count : ℕ) (radius selectedRadius : ℚ) (itemColor : ℕ → UIColor) : Option (List PageViewItem) :=
  if count = 0 then none
  else
    let first := { createItem radius selectedRadius true (itemColor 0) with tag := 1 }
    some (first :: (List.range' 2 (count - 1)).map fun tag =>
      { createItem radius selectedRadius false (itemColor (tag - 1)) with tag := tag })

def animationItem (container : PageContrainer) (index : ℕ) (selected fillColor : Bool) : Option PageContrainer := do
  let item ← container.items[index]?
  let toValue := if selected then container.selectedItemRadius * 2 else container.itemRadius * 2
  some { container with
    items := container.items.set index ({ item with constant := toValue }.animationSelected selected fillColor) }

def currenteIndex (container : PageContrainer) (index : ℕ) : Option PageContrainer :=
  if index = container.currentIndex then some container
  else do
    let container ← container.animationItem index true false
    let fillColor := decide (index > container.currentIndex)
    let container ← container.animationItem container.currentIndex false fillColor
    some { container with currentIndex := index }

end PageContrainer

structure PageView where
  itemsCount : ℕ
  itemRadius : ℚ
  selectedItemRadius : ℚ
  space : ℚ := 20
  containerView : PageContrainer
  /-- The constant of the constraint between the centres of the page view and of the container. -/
  containerX : ℚ := 0
  /-- The constant of the constraint on the width of the container. -/
  containerWidth : ℚ

namespace PageView

def moveContainerTo (pageView : PageView) (index : ℕ) : PageView :=
  let containerWidth := (pageView.itemsCount + 1) * pageView.selectedItemRadius +
    pageView.space * (pageView.itemsCount - 1)
  let toValue := containerWidth / 2 - pageView.selectedItemRadius -
    (pageView.selectedItemRadius + pageView.space) * index
  { pageView with containerX := toValue }

def currentIndex (pageView : PageView) (index : ℕ) : Option PageView :=
  if index < pageView.itemsCount then do
    let containerView ← pageView.containerView.currenteIndex index
    some ({ pageView with containerView }.moveContainerTo index)
  else some pageView

/-- Whether there is a position; where it is depends on the layout. -/
def positionItemIndex (pageView : PageView) (index : ℕ) : Option Bool :=
  if index < pageView.itemsCount then pageView.containerView.items[index]?.map fun _ => true else some false

/-- The first dot whose frame, enlarged by 10 on every side, contains the touch. -/
def hitTest (pageView : PageView) (contains : PageViewItem → Bool) : Option PageViewItem :=
  pageView.containerView.items.find? contains

/-- `PageView.init` and `commonInit` -/
def init (itemsCount : ℕ) (radius selectedRadius : ℚ) (itemColor : ℕ → UIColor) : Option PageView := do
  let items ← PageContrainer.createItems itemsCount radius selectedRadius itemColor
  let space := 20
  let pageView : PageView :=
    { itemsCount, space
      itemRadius := radius
      selectedItemRadius := selectedRadius
      containerView := { items, itemRadius := radius, selectedItemRadius := selectedRadius }
      containerWidth := selectedRadius * 2 + (itemsCount - 1) * (radius * 2) + space * (itemsCount - 1) }
  pageView.currentIndex 0

end PageView

/-! ## The pages -/

/-- What an `OnboardingContentViewItem` shows. -/
structure OnboardingContentViewItem where
  image : String
  title : String
  titleFont : UIFont
  titleColor : UIColor
  description : String
  descriptionFont : UIFont
  descriptionColor : UIColor
  deriving DecidableEq

def OnboardingContentViewItem.ofInfo (info : OnboardingItemInfo) : OnboardingContentViewItem where
  image := info.informationImage
  title := info.title
  titleFont := info.titleFont
  titleColor := info.titleColor
  description := info.description
  descriptionFont := info.descriptionFont
  descriptionColor := info.descriptionColor

structure OnboardingContentView where
  currentItem : OnboardingContentViewItem
  /-- The items that fade out, and are removed at the end. -/
  fading : List OnboardingContentViewItem := []

/-- The background, and the circles that grow over it, the newest last. -/
structure FillAnimationView where
  backgroundColor : UIColor
  circles : List UIColor := []

def FillAnimationView.fillAnimation (view : FillAnimationView) (color : UIColor) : FillAnimationView :=
  { view with circles := view.circles ++ [color] }

/-- The animation of the `i`-th circle ends. -/
def FillAnimationView.animationDidStop (view : FillAnimationView) (i : ℕ) : Option FillAnimationView :=
  view.circles[i]?.map fun color => { backgroundColor := color, circles := view.circles.eraseIdx i }

/-! ## The pager -/

structure PaperOnboarding where
  currentIndex : ℕ := 0
  itemsCount : ℕ
  itemsInfo : List OnboardingItemInfo
  fillAnimationView : FillAnimationView
  pageView : PageView
  contentView : OnboardingContentView
  /-- The indices in the completion blocks of the transactions that have not ended. -/
  transactions : List ℕ := []
  calls : List DelegateCall := []

inductive Direction
  | left
  | right
  | up
  | down

inductive Event
  /-- A call of `currentIndex(_:animated:)` from outside. -/
  | currentIndex (index : ℤ)
  | swipe (direction : Direction)
  /-- A tap, with the delegate's `enableTapsOnPageControl` and the frames that contain the touch. -/
  | tap (enableTapsOnPageControl : Bool) (contains : PageViewItem → Bool)
  /-- The `i`-th outstanding transaction ends. -/
  | transactionEnds (i : ℕ)
  | animationDidStop (i : ℕ)
  /-- The `i`-th of the items that fade out is removed. -/
  | removeFromSuperview (i : ℕ)

namespace PaperOnboarding

def createItemsInfo (dataSource : PaperOnboardingDataSource) : Option (List OnboardingItemInfo) :=
  (List.range dataSource.onboardingItemsCount).mapM dataSource.onboardingItem

/-- The delegate is set after the data source, and is not called. -/
def commonInit (dataSource : PaperOnboardingDataSource) : Option PaperOnboarding := do
  let itemsInfo ← createItemsInfo dataSource
  let info ← itemsInfo[0]?
  let pageView ← PageView.init dataSource.onboardingItemsCount dataSource.onboardinPageItemRadius
    dataSource.onboardingPageItemSelectedRadius dataSource.onboardingPageItemColor
  let items ← pageView.containerView.items.zipIdx.mapM fun (item, index) =>
    itemsInfo[index]?.map fun info => { item with image := some info.pageIcon }
  some
    { itemsCount := dataSource.onboardingItemsCount
      itemsInfo
      fillAnimationView := { backgroundColor := info.color }
      pageView := { pageView with containerView := { pageView.containerView with items } }
      contentView := { currentItem := .ofInfo info } }

def call (view : PaperOnboarding) (call : DelegateCall) : PaperOnboarding :=
  { view with calls := view.calls ++ [call] }

/-- `OnboardingContentView.currentItem(_:animated:)` -/
def currentItem (view : PaperOnboarding) (index : ℕ) : Option PaperOnboarding := do
  let info ← view.itemsInfo[index]?
  let view := view.call (.onboardingConfigurationItem index)
  some { view with
    contentView := { currentItem := .ofInfo info, fading := view.contentView.fading ++ [view.contentView.currentItem] } }

/-- `currentIndex(_:animated:)` -/
def currentIndexAnimated (view : PaperOnboarding) (index : ℤ) : Option PaperOnboarding :=
  if 0 ≤ index ∧ index < view.itemsCount then do
    let view := view.call (.onboardingWillTransitonToIndex index)
    let view := { view with currentIndex := index.toNat, transactions := view.transactions ++ [index.toNat] }
    let info ← view.itemsInfo[view.currentIndex]?
    let view := if (← view.pageView.positionItemIndex index.toNat) then
        { view with fillAnimationView := view.fillAnimationView.fillAnimation info.color }
      else view
    let pageView ← view.pageView.currentIndex index.toNat
    { view with pageView }.currentItem index.toNat
  else if index ≥ view.itemsCount then some (view.call .onboardingWillTransitonToLeaving)
  else some view

def tapAction (view : PaperOnboarding) (enableTapsOnPageControl : Bool) (contains : PageViewItem → Bool) :
    Option PaperOnboarding :=
  if enableTapsOnPageControl then
    match view.pageView.hitTest contains with
    | none => some view
    | some pageItem =>
      let index : ℤ := pageItem.tag - 1
      if index = view.currentIndex then some view
      else (view.currentIndexAnimated index).map (·.call (.onboardingWillTransitonToIndex index))
  else some view

/-- The recognizers of `GestureControl` only know `left` and `right`. -/
def gestureControlDidSwipe (view : PaperOnboarding) : Direction → Option PaperOnboarding
  | .right => view.currentIndexAnimated (view.currentIndex - 1)
  | .left => view.currentIndexAnimated (view.currentIndex + 1)
  | .up | .down => none

def step (view : PaperOnboarding) : Event → Option PaperOnboarding
  | .currentIndex index => view.currentIndexAnimated index
  | .swipe direction => view.gestureControlDidSwipe direction
  | .tap enableTapsOnPageControl contains => view.tapAction enableTapsOnPageControl contains
  | .transactionEnds i => view.transactions[i]?.map fun index =>
    { view with transactions := view.transactions.eraseIdx i }.call (.onboardingDidTransitonToIndex index)
  | .animationDidStop i => (view.fillAnimationView.animationDidStop i).map fun fillAnimationView =>
    { view with fillAnimationView }
  | .removeFromSuperview i => view.contentView.fading[i]?.map fun _ =>
    { view with contentView := { view.contentView with fading := view.contentView.fading.eraseIdx i } }

end PaperOnboarding

end CareDirect.Paging
