import CareDirect.Lib.IcuPattern
import CareDirect.Lib.Run
import Mathlib.Logic.Function.Basic

/-!
# The sign-up controller `SignUpVC`

The validation of `SignUpVC.swift`, the request it sends to the auth service, and the three writes it makes in the
completion handler of that request. The auth service and the database are a `Backend`; a request or a write is
outstanding until its completion, and the completions come in any order.

Foundation enters with two things that are not in the source: `lowercased()` and the Unicode table of decimal digits.
-/

namespace CareDirect.Accounts

structure Foundation where
  lowercased : String → String
  digits : Icu.Digits

/-- `NSPredicate(format: "SELF MATCHES %@", regEx).evaluate(with: text)`; a malformed pattern traps. -/
def selfMatches (digits : Icu.Digits) (regEx text : String) : Option Bool :=
  (Icu.compile regEx).map fun p => p.fullMatch (·.mem digits) text.toList

/-! ## The backend -/

/-- The accounts of the auth service, and the node `users` of the database. -/
structure Backend where
  /-- The email of an account. -/
  accounts : String → Option String
  /-- The text at `users/<uid>/<field>`. -/
  users : String → String → Option String
  currentUser : Option String

namespace Backend

/-- No accounts, no data, nobody signed in. -/
def empty : Backend where
  accounts _ := none
  users _ _ := none
  currentUser := none

def createAccount (backend : Backend) (uid email : String) : Backend :=
  { backend with accounts := Function.update backend.accounts uid (some email), currentUser := some uid }

/-- `ref.child("users").child(uid).child(field).setValue(value)` -/
def setValue (backend : Backend) (uid field value : String) : Backend :=
  { backend with users := Function.update backend.users uid (Function.update (backend.users uid) field (some value)) }

end Backend

/-! ## The controller -/

/-- The texts of the four fields. -/
structure Form where
  fullName : String
  organization : String
  email : String
  password : String

inductive UICall
  | alertMessage (userMessage : String)
  | successMessage (successMessage : String)
  /-- The alert titled `Error`. -/
  | error (localizedDescription : String)
  deriving DecidableEq, Repr

/-- A call of `createUser`, with what its completion handler has captured. -/
structure CreateUser where
  email : String
  password : String
  fullName : String
  organization : String
  deriving DecidableEq, Repr

/-- A call of `setValue`. -/
structure Write where
  uid : String
  field : String
  value : String
  deriving DecidableEq, Repr

structure SignUpVC where
  backend : Backend
  /-- The calls of `createUser` that have not completed. -/
  creating : List CreateUser := []
  /-- The calls of `setValue` that have not completed. -/
  writing : List Write := []
  calls : List UICall := []

namespace SignUpVC

def isValidEmail (digits : Icu.Digits) (email : String) : Option Bool :=
  let emailRegEx := "[A-Z0-9a-z.-_]+@[A-Za-z0-9.-]+\\.[A-Za-z]{2,6}"
  selfMatches digits emailRegEx email

def isValidPassword (digits : Icu.Digits) (password : String) : Option Bool :=
  let passwordRegEx := "^(?=.*[a-z])(?=.*[$@$#!%*?&])[A-Za-z\\d$@$#!%*?&]{6,16}"
  selfMatches digits passwordRegEx password

def displayMyAlertMessage (vc : SignUpVC) (userMessage : String) : SignUpVC :=
  { vc with calls := vc.calls ++ [.alertMessage userMessage] }

def displayMySuccessMessage (vc : SignUpVC) (successMessage : String) : SignUpVC :=
  { vc with calls := vc.calls ++ [.successMessage successMessage] }

def onSignUpTapped (foundation : Foundation) (form : Form) (vc : SignUpVC) : Option SignUpVC := do
  let email := foundation.lowercased form.email
  let isValidPass ← isValidPassword foundation.digits form.password
  if email.isEmpty || form.password.isEmpty || form.fullName.isEmpty || form.organization.isEmpty then
    some (vc.displayMyAlertMessage "All fields are required")
  else if !isValidPass then
    some (vc.displayMyAlertMessage ("Password must contain between 6-16 characters, " ++
      "at least one uppercase letter, one lowercase letter and one special character"))
  else if !(← isValidEmail foundation.digits email) then
    some (vc.displayMyAlertMessage "Email is not Valid")
  else
    let vc := vc.displayMySuccessMessage "Registration is successful!"
    some { vc with creating := vc.creating ++ [⟨email, form.password, form.fullName, form.organization⟩] }

/-- What the auth service and the database answer. -/
inductive Completion
  /-- The `i`-th outstanding call of `createUser` ends with the uid of the account or with an error. -/
  | createUser (i : ℕ) (result : Except String String)
  /-- The `i`-th outstanding write is carried out or fails. The source passes no completion block. -/
  | setValue (i : ℕ) (succeeds : Bool)

/-- The writes of the completion handler of `createUser`. -/
def profile (uid : String) (request : CreateUser) : List Write :=
  [⟨uid, "Email", request.email⟩, ⟨uid, "Full Name", request.fullName⟩, ⟨uid, "Organization", request.organization⟩]

/-- One completion; `none`: there is no such call. -/
def step (vc : SignUpVC) : Completion → Option SignUpVC
  | .createUser i result => do
    let request ← vc.creating[i]?
    let vc := { vc with creating := vc.creating.eraseIdx i }
    match result with
    | .ok uid =>
      some { vc with
        backend := vc.backend.createAccount uid request.email
        writing := vc.writing ++ profile uid request }
    | .error localizedDescription => some { vc with calls := vc.calls ++ [.error localizedDescription] }
  | .setValue i succeeds => do
    let write ← vc.writing[i]?
    let vc := { vc with writing := vc.writing.eraseIdx i }
    some (if succeeds then { vc with backend := vc.backend.setValue write.uid write.field write.value } else vc)

end SignUpVC

end CareDirect.Accounts
