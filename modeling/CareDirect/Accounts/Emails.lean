import CareDirect.Accounts.SignUp

/-!
# The two copies of an email

The auth service and the node `users` both hold the email of a user. Sign-up writes both, `ChangeEmailVC` only the
first, and `AccountVC` shows the second. So the email shown is the one of the account exactly as long as every accepted
change leaves the email as it was (`emails_agree_iff`).
-/

namespace CareDirect.Accounts

open PartialRun SignUpVC

/-! ## The screens -/

/-- The labels of `AccountVC.swift`. -/
structure AccountVC where
  nameLabel : Option String
  emailLabel : Option String
  organizationlabel : Option String
  deriving DecidableEq, Repr

/-- The texts stored for the current user, once the single event has been observed. -/
def AccountVC.viewDidLoad (backend : Backend) : AccountVC :=
  match backend.currentUser with
  | some userID =>
    let firebaseDic := backend.users userID
    { nameLabel := firebaseDic "Full Name"
      emailLabel := firebaseDic "Email"
      organizationlabel := firebaseDic "Organization" }
  | none => { nameLabel := some " ", emailLabel := some " ", organizationlabel := some " " }

/-- `ChangeEmailVC.updateEmailTapped`, and the answer of the auth service. Nothing is written to the database. -/
def ChangeEmailVC.updateEmailTapped (backend : Backend) (text : String) (accepted : Bool) : Backend :=
  match backend.currentUser with
  | some uid =>
    if accepted then { backend with accounts := Function.update backend.accounts uid (some text) } else backend
  | none => backend

/-- What users do. -/
inductive Action
  /-- A sign-up; an account gets the uid, and all writes succeed. -/
  | signUp (form : Form) (uid : String)
  | updateEmail (text : String) (accepted : Bool)
  | signIn (uid : String)
  | signOut

/-- One action; `none` is a trap. -/
def act (foundation : Foundation) (backend : Backend) : Action → Option Backend
  | .signUp form uid => do
    let vc ← onSignUpTapped foundation form { backend }
    if vc.creating.isEmpty then some vc.backend
    else do
      let vc ← run SignUpVC.step vc [.createUser 0 (.ok uid), .setValue 0 true, .setValue 0 true, .setValue 0 true]
      some vc.backend
  | .updateEmail text accepted => some (ChangeEmailVC.updateEmailTapped backend text accepted)
  | .signIn uid => some (if (backend.accounts uid).isSome then { backend with currentUser := some uid } else backend)
  | .signOut => some { backend with currentUser := none }

/-! ## Agreement -/

namespace Backend

variable {foundation : Foundation} {form : Form} {b b' : Backend} {action : Action} {uid text : String}

/-- Every user who is signed in is shown the email of the account. -/
def Agree (b : Backend) : Prop :=
  ∀ uid email, b.accounts uid = some email →
    (AccountVC.viewDidLoad { b with currentUser := some uid }).emailLabel = some email

/-- The user who is signed in has an account. -/
def Known (b : Backend) : Prop := ∀ uid, b.currentUser = some uid → ∃ email, b.accounts uid = some email

/-- A tap leaves the backend alone and sends at most one request. -/
theorem onSignUpTapped_cases {vc : SignUpVC} (h : onSignUpTapped foundation form { backend := b } = some vc) :
    vc.backend = b ∧ vc.writing = [] ∧ (vc.creating = [] ∨ vc.creating = [requestOf foundation form]) := by
  unfold onSignUpTapped at h
  obtain ⟨isValidPass, -, h⟩ := Option.bind_eq_some_iff.1 h
  split at h
  · cases h
    exact ⟨rfl, rfl, .inl rfl⟩
  split at h
  · cases h
    exact ⟨rfl, rfl, .inl rfl⟩
  obtain ⟨isValid, -, h⟩ := Option.bind_eq_some_iff.1 h
  split at h
  · cases h
    exact ⟨rfl, rfl, .inl rfl⟩
  · cases h
    exact ⟨rfl, rfl, .inr rfl⟩

/-- A sign-up leaves the backend alone, or stores the same email twice. -/
theorem signUp_cases (h : act foundation b (.signUp form uid) = some b') :
    b' = b ∨ ∃ email, b'.accounts = Function.update b.accounts uid (some email) ∧ b'.currentUser = some uid ∧
      b'.users uid "Email" = some email ∧ ∀ uid', uid' ≠ uid → b'.users uid' = b.users uid' := by
  rw [act, Option.bind_eq_bind, Option.bind_eq_some_iff] at h
  obtain ⟨⟨backend, creating, writing, calls⟩, htap, h⟩ := h
  obtain ⟨hb, hw, hc⟩ := onSignUpTapped_cases htap
  simp only at hb hw hc h
  subst hb hw
  rcases hc with rfl | rfl
  · exact .inl (Option.some.inj h).symm
  · right
    cases h
    refine ⟨foundation.lowercased form.email, rfl, rfl, ?_, fun uid' hne => ?_⟩
    · simp [setValue, requestOf]
    · simp [setValue, hne]
      rfl

/-- A sign-up with a valid form opens the account. -/
theorem signUp_valid (h : Valid foundation form) : ∃ b', act foundation b (.signUp form uid) = some b' ∧
    b'.currentUser = some uid ∧ b'.accounts uid = some (foundation.lowercased form.email) := by
  simp only [act, onSignUpTapped_valid h, Option.bind_eq_bind, Option.bind_some]
  exact ⟨_, rfl, rfl, Function.update_self ..⟩

/-- What a change of the email does. -/
theorem updateEmail_cases {accepted : Bool} (h : act foundation b (.updateEmail text accepted) = some b') :
    b' = b ∨ accepted = true ∧ ∃ uid, b.currentUser = some uid ∧
      b' = { b with accounts := Function.update b.accounts uid (some text) } := by
  cases h
  unfold ChangeEmailVC.updateEmailTapped
  cases hu : b.currentUser with
  | none => exact .inl rfl
  | some uid =>
    cases accepted with
    | false => exact .inl rfl
    | true => exact .inr ⟨rfl, uid, rfl, rfl⟩

theorem Known.act (hk : b.Known) (h : Accounts.act foundation b action = some b') : b'.Known := by
  intro uid hu
  cases action with
  | signUp form uid' =>
    rcases signUp_cases h with rfl | ⟨email, haccounts, hcurrent, -⟩
    · exact hk uid hu
    · rw [hcurrent] at hu
      cases hu
      exact ⟨email, by rw [haccounts, Function.update_self]⟩
  | updateEmail text accepted =>
    rcases updateEmail_cases h with rfl | ⟨-, uid', hcurrent, rfl⟩
    · exact hk uid hu
    · cases hcurrent.symm.trans hu
      exact ⟨text, Function.update_self ..⟩
  | signIn uid' =>
    cases h
    split at hu
    · rename_i hsome
      cases hu
      rw [if_pos hsome]
      exact Option.isSome_iff_exists.1 hsome
    · rename_i hnone
      rw [if_neg hnone]
      exact hk uid hu
  | signOut =>
    cases h
    cases hu

theorem known_of_run {actions : List Action} (h : run (Accounts.act foundation) empty actions = some b) : b.Known :=
  run_invariant (fun uid hu => by cases hu) (fun _ _ _ hk hact => hk.act hact) h

/-- A sign-up, a rejected change and a new session keep the emails in agreement. -/
theorem Agree.act (ha : b.Agree) (h : Accounts.act foundation b action = some b')
    (hchange : ∀ text uid, action = .updateEmail text true → b.currentUser = some uid → b.accounts uid = some text) :
    b'.Agree := by
  intro uid email he
  cases action with
  | signUp form uid' =>
    rcases signUp_cases h with rfl | ⟨email', haccounts, -, hemail, hothers⟩
    · exact ha uid email he
    · by_cases hu : uid = uid'
      · rw [haccounts, hu, Function.update_self] at he
        rw [hu]
        exact hemail.trans he
      · rw [haccounts, Function.update_of_ne hu] at he
        exact (congrFun (hothers uid hu) "Email").trans (ha uid email he)
  | updateEmail text accepted =>
    rcases updateEmail_cases h with rfl | ⟨rfl, uid', hcurrent, rfl⟩
    · exact ha uid email he
    · have hsame : Function.update b.accounts uid' (some text) = b.accounts := by
        rw [← hchange text uid' rfl hcurrent, Function.update_eq_self]
      rw [hsame] at he
      exact ha uid email he
  | signIn uid' =>
    cases h
    by_cases hs : (b.accounts uid').isSome = true
    · simp only [if_pos hs] at he ⊢
      exact ha uid email he
    · simp only [if_neg hs] at he ⊢
      exact ha uid email he
  | signOut =>
    cases h
    exact ha uid email he

/-- An accepted change after which the emails agree has changed nothing. -/
theorem Agree.unchanged (hk : b.Known) (ha : b.Agree) (hu : b.currentUser = some uid)
    (ha' : (ChangeEmailVC.updateEmailTapped b text true).Agree) : b.accounts uid = some text := by
  obtain ⟨email, he⟩ := hk uid hu
  have hshown : b.users uid "Email" = some email := ha uid email he
  have hshown' : b.users uid "Email" = some text := by
    have hat := ha' uid text
    simp only [ChangeEmailVC.updateEmailTapped, hu, if_true, Function.update_self, forall_const] at hat
    exact hat
  rw [he, ← hshown, hshown']

end Backend

open Backend

/-- In every state that the actions reach, the emails agree. -/
def EmailsAgree (foundation : Foundation) (actions : List Action) : Prop :=
  ∀ p b, p <+: actions → run (act foundation) .empty p = some b → b.Agree

/-- Every accepted change leaves the email of the account as it was. -/
def ChangesNothing (foundation : Foundation) (actions : List Action) : Prop :=
  ∀ p text r b uid, actions = p ++ .updateEmail text true :: r → run (act foundation) .empty p = some b →
    b.currentUser = some uid → b.accounts uid = some text

/-- **The two emails** agree in every state of a run exactly when its accepted changes change nothing. -/
theorem emails_agree_iff (foundation : Foundation) (actions : List Action) :
    EmailsAgree foundation actions ↔ ChangesNothing foundation actions := by
  have hiff : EmailsAgree foundation actions ↔ ∀ p action r b, actions = p ++ action :: r →
      run (act foundation) .empty p = some b → ∀ text uid, action = .updateEmail text true →
        b.currentUser = some uid → b.accounts uid = some text := by
    refine throughout_iff (I := fun _ b => Agree b) (fun uid email he => by cases he) ?_ ?_
    · intro p b action b' hr ha hact
      refine ⟨fun ha' text uid hupdate hu => ?_, ha.act hact⟩
      subst hupdate
      cases hact
      exact Agree.unchanged (known_of_run hr) ha hu ha'
    · rintro p action r b - - htrap text uid rfl
      cases htrap
  rw [hiff]
  constructor
  · intro hnothing p text r b uid he hr hu
    exact hnothing p _ r b he hr text uid rfl hu
  · intro hnothing p action r b he hr text uid hupdate hu
    subst hupdate
    exact hnothing p text r b uid he hr hu

/-- A sign-up and an accepted change to another email. -/
theorem emails_disagree :
    ¬ EmailsAgree sampleFoundation [.signUp sampleForm "u1", .updateEmail "ann.lee@care.org" true] := by
  intro hagree
  obtain ⟨b, hact, hcurrent, haccount⟩ := @signUp_valid _ _ .empty "u1" sampleForm_valid
  have hr : run (act sampleFoundation) .empty [.signUp sampleForm "u1"] = some b := by rw [run_cons, hact]; rfl
  have hsame : b.accounts "u1" = some "ann.lee@care.org" := by
    refine Agree.unchanged (known_of_run hr) (hagree _ b (List.prefix_append _ _) hr) hcurrent ?_
    refine hagree _ _ List.prefix_rfl ?_
    rw [← List.singleton_append, run_snoc_some]
    exact ⟨b, hr, rfl⟩
  rw [haccount] at hsame
  exact absurd hsame (by decide)

end CareDirect.Accounts
