import CareDirect.Firebase
import CareDirect.Lib.ObjectArray
import CareDirect.Lib.Run
import Mathlib.Tactic.Simps.Basic

/-!
# The screener controller `QuestionVC`

The state of `QuestionVC.swift` and its methods, over the classes `QuestionGroup.swift` and `ScreenerQuestion.swift`.
A method that indexes an array or casts a database value returns an `Option`; `none` is the trap.

`QuestionGroup` objects are shared between `questionGroups` and `currentQuestionGroup` and written through the latter,
so they live in an `ObjectArray`. A `ScreenerQuestion` is never written once the loader has filled it, so it is a value.
What the controller shows (labels, alerts, the results segue) is kept as a list of calls.
-/

namespace CareDirect.Screener

/-- `ScreenerQuestion.swift` -/
structure ScreenerQuestion where
  question : String := ""
  answerCorrespondingToResource : Option Bool := none
  answerWhichGoesToNext : Option Bool := none
  alwaysGoToNextQuestion : Bool := false
  deriving DecidableEq, Repr

/-- `QuestionGroup.swift` -/
structure QuestionGroup where
  title : String := "title"
  questions : List ScreenerQuestion := [{}]
  attachResource : Bool := false
  deriving DecidableEq, Repr

/-! ## The radio buttons -/

/-- The three buttons of the scene. -/
inductive Radio
  | yes
  | no
  | notSure
  deriving DecidableEq, Repr

/-- The titles in `Main.storyboard`. -/
def Radio.title : Radio → String
  | .yes => "Yes"
  | .no => "No"
  | .notSure => "I'm not sure"

/-- `isSelected` of each button. -/
structure RadioGroup where
  radioYes : Bool := false
  radioNo : Bool := false
  radioNotSure : Bool := false
  deriving DecidableEq, Repr

def RadioGroup.deselected : RadioGroup := {}

/-- `touchUpInside`: the button is selected, `deselectOtherButtons` deselects the other two. -/
def RadioGroup.touchUpInside (_ : RadioGroup) : Radio → RadioGroup
  | .yes => { radioYes := true }
  | .no => { radioNo := true }
  | .notSure => { radioNotSure := true }

/-- `selectedButton` of `radioYes`: itself when selected, else the first selected one of its `otherButtons`. -/
def RadioGroup.selected (radios : RadioGroup) : Option Radio :=
  if radios.radioYes then some .yes
  else if radios.radioNo then some .no
  else if radios.radioNotSure then some .notSure
  else none

/-! ## The controller -/

/-- What the user sees happen. -/
inductive UICall
  | alert (userMessage : String)
  /-- The category and question labels, and the two numbers formatted into the step label. -/
  | display (category question : String) (step steps : Nat)
  /-- The segue, with the array that `prepare(for:sender:)` hands to the results controller. -/
  | screenerResultsSegue (attachedResourceCategories : List String)
  deriving DecidableEq, Repr

structure QuestionVC where
  /-- The live `QuestionGroup` objects; `groups.refs` is the property `questionGroups`. -/
  groups : ObjectArray QuestionGroup
  currentQuestionGroup : Ref
  currentQuestion : ScreenerQuestion
  questionGroupIndex : Nat
  questionIndex : Nat
  attachedResourceCategories : List String
  radios : RadioGroup
  calls : List UICall

namespace QuestionVC

/-- `var questionGroups` -/
@[simp] abbrev questionGroups (vc : QuestionVC) : List Ref := vc.groups.refs

/-- The object that `currentQuestionGroup` refers to. -/
@[simp] abbrev group (vc : QuestionVC) : QuestionGroup := vc.groups.obj vc.currentQuestionGroup

/-- The property initialisers; the object `QuestionGroup()` they create is at reference `0`. -/
def initial : QuestionVC where
  groups := .beside {}
  currentQuestionGroup := 0
  currentQuestion := {}
  questionGroupIndex := 0
  questionIndex := 0
  attachedResourceCategories := []
  radios := .deselected
  calls := []

@[simps] def call (vc : QuestionVC) (c : UICall) : QuestionVC := { vc with calls := vc.calls ++ [c] }

@[simps!] def displayMyAlertMessage (vc : QuestionVC) (userMessage : String) : QuestionVC :=
  vc.call (.alert userMessage)

@[simps!] def displayCurrentQuestion (vc : QuestionVC) : QuestionVC :=
  vc.call (.display vc.group.title vc.currentQuestion.question (vc.questionGroupIndex + 1) vc.questionGroups.length)

/-- `performSegue(withIdentifier: "screenerResultsSegue", sender: self)`, which calls `prepare(for:sender:)`. -/
@[simps!] def performSegue (vc : QuestionVC) : QuestionVC :=
  vc.call (.screenerResultsSegue vc.attachedResourceCategories)

def deselectRadios (vc : QuestionVC) : QuestionVC := { vc with radios := .deselected }

def loadNextQuestionGroup (vc : QuestionVC) : Option QuestionVC :=
  let vc := { vc.deselectRadios with questionGroupIndex := vc.questionGroupIndex + 1, questionIndex := 0 }
  if vc.questionGroupIndex < vc.questionGroups.length then do
    let questionGroup ← vc.questionGroups[vc.questionGroupIndex]?
    let question ← (vc.groups.obj questionGroup).questions[vc.questionIndex]?
    some { vc with currentQuestionGroup := questionGroup, currentQuestion := question }.displayCurrentQuestion
  else
    some vc.performSegue

/-- The question is displayed also after `loadNextQuestionGroup` has returned. -/
def loadNextQuestion (vc : QuestionVC) : Option QuestionVC := do
  let vc := { vc.deselectRadios with questionIndex := vc.questionIndex + 1 }
  let vc ←
    if vc.questionIndex < vc.group.questions.length then do
      let question ← vc.group.questions[vc.questionIndex]?
      some { vc with currentQuestion := question }
    else
      vc.loadNextQuestionGroup
  some vc.displayCurrentQuestion

/-- "should we attach a resource?" -/
def attachResource (vc : QuestionVC) (selectedAnswer : Option Bool) : QuestionVC :=
  if vc.currentQuestion.answerCorrespondingToResource = selectedAnswer then
    if vc.group.attachResource = false then
      { vc with
        groups := vc.groups.modify vc.currentQuestionGroup fun g => { g with attachResource := true }
        attachedResourceCategories := vc.attachedResourceCategories ++ [vc.group.title] }
    else vc
  else vc

def selectedAnswer (title : String) : Option Bool :=
  if title = "No" then some false
  else if title = "Yes" then some true
  else none

def nextQuestionButton (vc : QuestionVC) : Option QuestionVC :=
  match vc.radios.selected.map Radio.title with
  | none => some (vc.displayMyAlertMessage "Please Select one of the options!")
  | some title =>
    match selectedAnswer title with
    | some answer =>
      let vc := vc.attachResource (some answer)
      if vc.currentQuestion.alwaysGoToNextQuestion = true then vc.loadNextQuestion
      else if vc.currentQuestion.answerWhichGoesToNext = some answer then vc.loadNextQuestion
      else vc.loadNextQuestionGroup
    | none => vc.loadNextQuestion

/-! ## The `qgroup` observer -/

/-- `"Yes"`, `"No"` and `"n/a"`; any other text leaves the property at its initial `nil`. -/
def parseAnswer (text : String) : Option Bool :=
  if text = "Yes" then some true
  else if text = "No" then some false
  else none

/-- The body of the loop over the questions of a group. -/
def screenerQuestion (q : Json) : Option ScreenerQuestion := do
  let questionDictionary ← q.asDictionary
  let question ← (← questionDictionary.lookup "question").asString
  let alwaysGoToNext ← (← questionDictionary.lookup "alwaysGoToNext").asBool
  let answerCorrespondingToResource ← (← questionDictionary.lookup "answerCountToRes").asString
  let answerWhichGoesToNext ← (← questionDictionary.lookup "answerWhichGoesToNext").asString
  some
    { question
      alwaysGoToNextQuestion := alwaysGoToNext
      answerCorrespondingToResource := parseAnswer answerCorrespondingToResource
      answerWhichGoesToNext := parseAnswer answerWhichGoesToNext }

/-- The object that the body of the loop over the groups creates. -/
def questionGroup (qGroup : Json) : Option QuestionGroup := do
  let qGroupDictionary ← qGroup.asDictionary
  let questionsFBArray ← (← qGroupDictionary.lookup "Questions").asArray
  let questions ← questionsFBArray.mapM screenerQuestion
  let title ← (← qGroupDictionary.lookup "Title").asString
  some { title, questions }

def setupQuestionView (vc : QuestionVC) : Option QuestionVC := do
  let currentQuestionGroup ← vc.questionGroups[0]?
  let currentQuestion ← (vc.groups.obj currentQuestionGroup).questions[0]?
  some { vc with currentQuestionGroup, currentQuestion }.displayCurrentQuestion

/-- The block that `loadQuestionsFromFB` registers, called with a snapshot of `qgroup`. -/
def loadQuestionsFromFB (vc : QuestionVC) (snapshot : DataSnapshot) : Option QuestionVC := do
  let questionGroups ← snapshot.value.asArray
  let vc ← questionGroups.foldlM (fun (vc : QuestionVC) qGroup => do
    let thisQuestionGroup ← questionGroup qGroup
    some { vc with groups := vc.groups.append thisQuestionGroup }) vc
  vc.setupQuestionView

end QuestionVC

/-! ## Runs -/

/-- What happens to the controller. -/
inductive Event
  /-- A radio button is touched. -/
  | touch (radio : Radio)
  /-- The Next button is touched. -/
  | next
  /-- Firebase calls the `qgroup` block. -/
  | qgroup (snapshot : DataSnapshot)
  /-- The results controller is popped; no method of `QuestionVC` runs. -/
  | back

/-- One event; `none` is the trap. -/
def step (vc : QuestionVC) : Event → Option QuestionVC
  | .touch radio => some { vc with radios := vc.radios.touchUpInside radio }
  | .next => vc.nextQuestionButton
  | .qgroup snapshot => vc.loadQuestionsFromFB snapshot
  | .back => some vc

end CareDirect.Screener
