import CareDirect.Firebase
import CareDirect.Lib.Run

/-!
# The results controller `ScreenerResultsVC`

The state of `ScreenerResultsVC.swift` and its methods, over the class of `ResorcesModel.swift`. `viewDidLoad`
registers one `services` observer for each attached category; each block has captured a `resourcesArray` of its own and
appends to the `arrayOfResourceArrays` of the controller. Reading a section or a row out of range is a trap, `none`.
-/

namespace CareDirect.Results

/-- `ResorcesModel.swift` -/
structure ResourcesModel where
  name : Option String := none
  website : Option String := none
  email : Option String := none
  phone : Option String := none
  location : Option String := none
  deriving DecidableEq, Repr

/-- The initialiser. It assigns `phone` twice, and `location` never. -/
def ResourcesModel.new (Name Website Email Phone Location : Option String) : ResourcesModel :=
  let model : ResourcesModel := { name := Name, website := Website, email := Email, phone := Phone }
  { model with phone := Location }

/-- The variables that a registered block has captured. -/
structure Observer where
  category : String
  resourcesArray : List ResourcesModel := []
  deriving DecidableEq, Repr

structure ScreenerResultsVC where
  attachedResourceCategories : Option (List String)
  arrayOfResourceArrays : List (List ResourcesModel) := []
  /-- The blocks observing `services`, in the order of registration. -/
  observers : List Observer := []
  deriving DecidableEq, Repr

namespace ScreenerResultsVC

/-! ## Loading -/

/-- The five reads of a record, and the object made of them. -/
def resourcesModel (resourceObject : List (String × Json)) : Option ResourcesModel := do
  let resourceName ← optionalString resourceObject "Name"
  let resourceWebsite ← optionalString resourceObject "Website"
  let resourceEmail ← optionalString resourceObject "Email"
  let resourcePhone ← optionalString resourceObject "Phone"
  let resourceLocation ← optionalString resourceObject "Location"
  some (.new resourceName resourceWebsite resourceEmail resourcePhone resourceLocation)

/-- The body of the loop over the records, on the captured array and the array of arrays. -/
def addResource (category : String) (arrays : List ResourcesModel × List (List ResourcesModel))
    (resources : DataSnapshot) : Option (List ResourcesModel × List (List ResourcesModel)) := do
  let resourceObject ← resources.value.asDictionary
  if (resourceObject.lookup ("category" ++ category)).isSome then
    let resource ← resourcesModel resourceObject
    let resourcesArray := arrays.1 ++ [resource]
    some (resourcesArray, arrays.2 ++ [resourcesArray])
  else
    some arrays

/-- The block, called with a snapshot of `services`. -/
def observerBlock (observer : Observer) (arrayOfResourceArrays : List (List ResourcesModel)) (snapshot : DataSnapshot) :
    Option (Observer × List (List ResourcesModel)) := do
  let arrays ←
    if snapshot.childrenCount > 0 then
      snapshot.children.foldlM (addResource observer.category) (observer.resourcesArray, arrayOfResourceArrays)
    else some (observer.resourcesArray, arrayOfResourceArrays)
  some ({ observer with resourcesArray := arrays.1 }, arrays.2)

def addArrayOfResourcesToArrayOfArrays (vc : ScreenerResultsVC) (category : String) : ScreenerResultsVC :=
  { vc with observers := vc.observers ++ [{ category }] }

def viewDidLoad (vc : ScreenerResultsVC) : Option ScreenerResultsVC := do
  let attachedResourceCategories ← vc.attachedResourceCategories
  some (attachedResourceCategories.foldl addArrayOfResourcesToArrayOfArrays vc)

/-- Firebase calls the `i`-th registered block; `none` is the trap. -/
def step (vc : ScreenerResultsVC) (call : Nat × DataSnapshot) : Option ScreenerResultsVC := do
  let observer ← vc.observers[call.1]?
  let (observer, arrayOfResourceArrays) ← observerBlock observer vc.arrayOfResourceArrays call.2
  some { vc with observers := vc.observers.set call.1 observer, arrayOfResourceArrays }

/-! ## The table -/

def numberOfSections (vc : ScreenerResultsVC) : Option Nat := do
  let attachedResourceCategories ← vc.attachedResourceCategories
  some attachedResourceCategories.length

/-- The optional chaining gives `nil` when there are no categories; the subscript traps out of range. -/
def titleForHeaderInSection (vc : ScreenerResultsVC) (sectionIndex : Nat) : Option (Option String) :=
  match vc.attachedResourceCategories with
  | none => some none
  | some attachedResourceCategories => attachedResourceCategories[sectionIndex]?.map some

def numberOfRowsInSection (vc : ScreenerResultsVC) (sectionIndex : Nat) : Option Nat :=
  if vc.arrayOfResourceArrays.length = 0 then some 0
  else vc.arrayOfResourceArrays[sectionIndex]?.map List.length

/-- The resource that a cell is made of. -/
def thisResource (vc : ScreenerResultsVC) (sectionIndex row : Nat) : Option ResourcesModel := do
  let resourceArray ← vc.arrayOfResourceArrays[sectionIndex]?
  resourceArray[row]?

/-- The text of the cell. -/
def cellForRowAt (vc : ScreenerResultsVC) (sectionIndex row : Nat) : Option (Option String) :=
  (vc.thisResource sectionIndex row).map (·.name)

end ScreenerResultsVC

end CareDirect.Results
