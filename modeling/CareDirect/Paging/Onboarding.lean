import CareDirect.Paging.PaperOnboarding
import Mathlib.Tactic.NormNum

/-!
# The first scene `Onboarding`

The data source and delegate of the pager, `Onboarding.swift`: four pages, and two methods that are meant to fade in the
button in the corner. One of them only sets the alpha to the value it has just been compared with; the other one is
spelled differently from the method of the protocol, so that the empty default is called in its place. So the button
stays as the storyboard has it (`handle_eq`).
-/

namespace CareDirect.Paging

namespace Onboarding

def bgOne : UIColor := ⟨0.2705882353, 0.7058823529, 0.7843137255, 1⟩

def bgTwo : UIColor := ⟨0.1921568627, 0.3411764706, 0.4196078431, 1⟩

def bgThree : UIColor := ⟨0.2705882353, 0.7058823529, 0.7843137255, 1⟩

def bgFour : UIColor := ⟨0.1921568627, 0.3411764706, 0.4196078431, 1⟩

def textColor : UIColor := ⟨1, 1, 1, 1⟩

def titleFont : UIFont := ⟨"AvenirNext-Bold", 36⟩

def descFont : UIFont := ⟨"AvenirNext-Regular", 20⟩

def onboardingItemsCount : ℕ := 4

/-- The page at an index of the array; another index traps. -/
def onboardingItem (index : ℕ) : Option OnboardingItemInfo :=
  [{ informationImage := "CompassActive.png", title := "Find Care"
     description := "The Care Compass uses a brief survey to recommend the most appropriate services."
     pageIcon := "Active.png", color := bgOne, titleColor := textColor, descriptionColor := textColor
     titleFont := titleFont, descriptionFont := descFont },
   { informationImage := "Events.png", title := "View Local Events"
     description := "Explore local events related to sex trafficking awareness, " ++
       "including volunteering & training opportunities for classrooms and workplaces"
     pageIcon := "Active.png", color := bgTwo, titleColor := textColor, descriptionColor := textColor
     titleFont := titleFont, descriptionFont := descFont },
   { informationImage := "Resources.png", title := "Check all Resources"
     description := "Communicate with certified trainers to set up training seminars at schools or workplaces " ++
       "to help spread awareness for sex trafficking"
     pageIcon := "Active.png", color := bgThree, titleColor := textColor, descriptionColor := textColor
     titleFont := titleFont, descriptionFont := descFont },
   { informationImage := "Training.png", title := "Get Certified Training"
     description := "The resources tab hosts a list of all services and resources offered through careDIRECT"
     pageIcon := "Active.png", color := bgFour, titleColor := textColor, descriptionColor := textColor
     titleFont := titleFont, descriptionFont := descFont }][index]?

/-- With the defaults of the protocol. -/
def dataSource : PaperOnboardingDataSource where
  onboardingItemsCount := onboardingItemsCount
  onboardingItem := onboardingItem
  onboardingPageItemColor _ := ⟨1, 1, 1, 1⟩
  onboardinPageItemRadius := 8
  onboardingPageItemSelectedRadius := 22

end Onboarding

/-- The controller; `getStartedButton` stands for the alpha of the button. -/
structure Onboarding where
  getStartedButton : ℚ := 1

namespace Onboarding

def onboardingWillTransitonToIndex (vc : Onboarding) (index : ℤ) : Onboarding :=
  if index = 1 then if vc.getStartedButton = 1 then { vc with getStartedButton := 1 } else vc else vc

/-- The methods that the calls of the pager end in. -/
def handle (vc : Onboarding) : DelegateCall → Onboarding
  | .onboardingWillTransitonToIndex index => vc.onboardingWillTransitonToIndex index
  | .onboardingWillTransitonToLeaving => vc
  -- the default of the protocol: `onboardingDidTransitionToIndex` has another name
  | .onboardingDidTransitonToIndex _ => vc
  | .onboardingConfigurationItem _ => vc

theorem handle_eq (vc : Onboarding) (calls : List DelegateCall) : calls.foldl handle vc = vc := by
  induction calls generalizing vc with
  | nil => rfl
  | cons call calls ih =>
    have hcall : vc.handle call = vc := by
      obtain ⟨alpha⟩ := vc
      cases call with
      | onboardingWillTransitonToIndex index =>
        simp only [handle, onboardingWillTransitonToIndex]
        split_ifs with hindex halpha
        · rw [halpha]
        · rfl
        · rfl
      | onboardingWillTransitonToLeaving => rfl
      | onboardingDidTransitonToIndex index => rfl
      | onboardingConfigurationItem index => rfl
    rw [List.foldl_cons, hcall, ih]

end Onboarding

end CareDirect.Paging
