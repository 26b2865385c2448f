import CareDirect.Accounts.SignUpVC
import Mathlib.Data.List.Nodup

/-!
# Partial sign-ups

`onSignUpTapped` shows the success message before it asks the auth service for the account, and the three writes of the
profile are independent. So a sign-up is all or nothing, and truthfully reported, exactly when the account and all three
writes succeed (`sign_up_iff`): the message rules out "nothing", and a failed write is never made up for
(`Saving.step`).
-/

namespace CareDirect.Accounts

open PartialRun

namespace SignUpVC

variable {foundation : Foundation} {form : Form} {backend : Backend} {vc vc' : SignUpVC} {uid : String}
  {request : CreateUser} {e : Completion} {es : List Completion}

/-- The input passes validation. -/
structure Valid (foundation : Foundation) (form : Form) : Prop where
  email : (foundation.lowercased form.email).isEmpty = false
  password : form.password.isEmpty = false
  fullName : form.fullName.isEmpty = false
  organization : form.organization.isEmpty = false
  validPassword : isValidPassword foundation.digits form.password = some true
  validEmail : isValidEmail foundation.digits (foundation.lowercased form.email) = some true

/-- The request that a valid form leads to. -/
def requestOf (foundation : Foundation) (form : Form) : CreateUser :=
  ⟨foundation.lowercased form.email, form.password, form.fullName, form.organization⟩

theorem onSignUpTapped_valid (h : Valid foundation form) :
    onSignUpTapped foundation form { backend } = some
      { backend
        creating := [requestOf foundation form]
        calls := [.successMessage "Registration is successful!"] } := by
  unfold onSignUpTapped
  simp only [h.email, h.password, h.fullName, h.organization, h.validPassword, h.validEmail, Option.bind_eq_bind,
    Option.bind_some, Bool.or_self, Bool.false_eq_true, Bool.not_true, if_false]
  rfl

/-! ## Outcomes -/

/-- Nothing is outstanding. -/
def Done (vc : SignUpVC) : Prop := vc.creating = [] ∧ vc.writing = []

def Completion.succeeds : Completion → Bool
  | .createUser _ (.ok _) => true
  | .createUser _ (.error _) => false
  | .setValue _ succeeds => succeeds

/-- There is a new account with a whole profile, and the user has been told so. -/
def AllDone (backend : Backend) (request : CreateUser) (vc : SignUpVC) : Prop :=
  (∃ uid, backend.accounts uid = none ∧
    vc.backend.accounts = Function.update backend.accounts uid (some request.email) ∧
    ∀ w ∈ profile uid request, vc.backend.users w.uid w.field = some w.value) ∧
  .successMessage "Registration is successful!" ∈ vc.calls

/-- There is no new account and no new profile field, and the user has not been told otherwise. -/
def NothingDone (backend : Backend) (vc : SignUpVC) : Prop :=
  vc.backend.accounts = backend.accounts ∧ vc.backend.users = backend.users ∧
    .successMessage "Registration is successful!" ∉ vc.calls

/-- The auth service gives out new uids, under which nothing is stored. -/
def NewUids (backend : Backend) (es : List Completion) : Prop :=
  ∀ i uid, .createUser i (.ok uid) ∈ es → backend.accounts uid = none ∧ ∀ field, backend.users uid field = none

/-! ## Single completions -/

theorem step_created {i : ℕ} (h : step vc (.createUser i (.ok uid)) = some vc') :
    ∃ r, vc.creating[i]? = some r ∧ vc' =
      { vc with
        creating := vc.creating.eraseIdx i
        backend := vc.backend.createAccount uid r.email
        writing := vc.writing ++ profile uid r } := by
  obtain ⟨r, hr, he⟩ := Option.bind_eq_some_iff.1 h
  exact ⟨r, hr, (Option.some.inj he).symm⟩

theorem step_refused {i : ℕ} {message : String} (h : step vc (.createUser i (.error message)) = some vc') :
    ∃ r, vc.creating[i]? = some r ∧
      vc' = { vc with creating := vc.creating.eraseIdx i, calls := vc.calls ++ [.error message] } := by
  obtain ⟨r, hr, he⟩ := Option.bind_eq_some_iff.1 h
  exact ⟨r, hr, (Option.some.inj he).symm⟩

/-- What a write leaves outstanding, and what it stores. -/
theorem step_setValue {i : ℕ} {succeeds : Bool} (h : step vc (.setValue i succeeds) = some vc') :
    ∃ w, vc.writing[i]? = some w ∧ vc'.writing = vc.writing.eraseIdx i ∧ vc'.creating = vc.creating ∧
      vc'.calls = vc.calls ∧ vc'.backend.accounts = vc.backend.accounts ∧
      vc'.backend = if succeeds = true then vc.backend.setValue w.uid w.field w.value else vc.backend := by
  obtain ⟨w, hw, he⟩ := Option.bind_eq_some_iff.1 h
  cases succeeds with
  | true => cases he; exact ⟨w, hw, rfl, rfl, rfl, rfl, rfl⟩
  | false => cases he; exact ⟨w, hw, rfl, rfl, rfl, rfl, rfl⟩

/-- When nothing is outstanding, nothing can complete. -/
theorem Done.run (hd : Done vc) (h : PartialRun.run step vc es = some vc') : es = [] ∧ vc' = vc := by
  cases es with
  | nil =>
    cases h
    exact ⟨rfl, rfl⟩
  | cons e es =>
    rw [run_cons, Option.bind_eq_some_iff] at h
    obtain ⟨w, hw, -⟩ := h
    cases e with
    | createUser i result =>
      obtain ⟨r, hr, -⟩ := Option.bind_eq_some_iff.1 hw
      rw [hd.1] at hr
      cases hr
    | setValue i succeeds =>
      obtain ⟨r, hr, -⟩ := step_setValue hw
      rw [hd.2] at hr
      cases hr

/-! ## The writes of a profile -/

theorem profile_uid : ∀ w ∈ profile uid request, w.uid = uid := by
  simp [profile]

theorem profile_nodup : ((profile uid request).map Write.field).Nodup := by
  simp [profile]

theorem setValue_users (b : Backend) (uid field value uid' field' : String) :
    (b.setValue uid field value).users uid' field' =
      if uid' = uid ∧ field' = field then some value else b.users uid' field' := by
  by_cases hu : uid' = uid
  · subst hu
    by_cases hf : field' = field
    · subst hf
      simp [Backend.setValue]
    · simp [Backend.setValue, hf]
  · simp [Backend.setValue, hu]

/-- While the profile is saved: the outstanding writes are some of those of the profile, and nothing is stored yet for
them. -/
structure Saving (uid : String) (request : CreateUser) (vc : SignUpVC) : Prop where
  creating : vc.creating = []
  writing : vc.writing.Sublist (profile uid request)
  unset : ∀ w ∈ vc.writing, vc.backend.users w.uid w.field = none

/-- No write of the profile has failed. -/
def Whole (uid : String) (request : CreateUser) (vc : SignUpVC) : Prop :=
  ∀ w ∈ profile uid request, w ∈ vc.writing ∨ vc.backend.users w.uid w.field = some w.value

/-- While the profile is saved, an event is the end of one of the writes, and one that fails leaves a gap. -/
theorem Saving.step (hs : Saving uid request vc) (h : SignUpVC.step vc e = some vc') :
    Saving uid request vc' ∧ vc'.calls = vc.calls ∧ vc'.backend.accounts = vc.backend.accounts ∧
      (Whole uid request vc' ↔ Whole uid request vc ∧ e.succeeds = true) := by
  cases e with
  | createUser i result =>
    obtain ⟨r, hr, -⟩ := Option.bind_eq_some_iff.1 h
    rw [hs.creating] at hr
    cases hr
  | setValue i succeeds =>
    obtain ⟨w, hw, hwriting, hcreating, hcalls, haccounts, hbackend⟩ := step_setValue h
    obtain ⟨hi, hget⟩ := List.getElem?_eq_some_iff.1 hw
    have hin : w ∈ vc.writing := hget ▸ List.getElem_mem hi
    have hnodup : vc.writing.Nodup := ((hs.writing.map Write.field).nodup profile_nodup).of_map _
    have hmem : ∀ v, v ∈ vc'.writing ↔ v ≠ w ∧ v ∈ vc.writing := by
      intro v
      rw [hwriting, ← hnodup.erase_getElem i hi, hget, hnodup.mem_erase_iff]
    have hsame : ∀ v ∈ profile uid request, v ≠ w →
        vc'.backend.users v.uid v.field = vc.backend.users v.uid v.field := by
      intro v hv hne
      have hfield : v.field ≠ w.field := fun he =>
        hne (List.inj_on_of_nodup_map profile_nodup hv (hs.writing.subset hin) he)
      rw [hbackend]
      split
      · rw [setValue_users, if_neg fun he => hfield he.2]
      · rfl
    refine ⟨⟨hcreating.trans hs.creating, ?_, ?_⟩, hcalls, haccounts, ?_⟩
    · rw [hwriting]
      exact (List.eraseIdx_sublist _ _).trans hs.writing
    · intro v hv
      obtain ⟨hne, hv⟩ := (hmem v).1 hv
      rw [hsame v (hs.writing.subset hv) hne, hs.unset v hv]
    · change Whole uid request vc' ↔ Whole uid request vc ∧ succeeds = true
      constructor
      · intro hwhole
        refine ⟨fun v hv => ?_, ?_⟩
        · by_cases hne : v = w
          · exact .inl (hne ▸ hin)
          · rw [← hsame v hv hne]
            exact (hwhole v hv).imp_left fun hv => ((hmem v).1 hv).2
        · by_contra hfail
          rcases hwhole w (hs.writing.subset hin) with hv | hv
          · exact ((hmem w).1 hv).1 rfl
          · rw [hbackend, if_neg hfail, hs.unset w hin] at hv
            cases hv
      · rintro ⟨hwhole, hok⟩ v hv
        by_cases hne : v = w
        · right
          rw [hne, hbackend, if_pos hok, setValue_users, if_pos ⟨rfl, rfl⟩]
        · rw [hsame v hv hne]
          exact (hwhole v hv).imp_left fun hv => (hmem v).2 ⟨hne, hv⟩

/-- **The rest of a sign-up whose account has been created.** -/
theorem Saving.run (hs : Saving uid request vc) (h : PartialRun.run SignUpVC.step vc es = some vc') :
    Saving uid request vc' ∧ vc'.calls = vc.calls ∧ vc'.backend.accounts = vc.backend.accounts ∧
      (Whole uid request vc' ↔ Whole uid request vc ∧ ∀ e ∈ es, e.succeeds = true) := by
  induction es generalizing vc with
  | nil =>
    cases h
    exact ⟨hs, rfl, rfl, by simp⟩
  | cons e es ih =>
    rw [run_cons, Option.bind_eq_some_iff] at h
    obtain ⟨w, hw, h⟩ := h
    obtain ⟨hsw, hcalls, haccounts, hwhole⟩ := hs.step hw
    obtain ⟨hs', hcalls', haccounts', hwhole'⟩ := ih hsw h
    refine ⟨hs', hcalls'.trans hcalls, haccounts'.trans haccounts, ?_⟩
    rw [hwhole', hwhole, List.forall_mem_cons, and_assoc]

/-- The new account of a sign-up is the one that the auth service has created. -/
theorem AllDone.saved (h : AllDone backend request vc)
    (haccounts : vc.backend.accounts = Function.update backend.accounts uid (some request.email)) :
    ∀ w ∈ profile uid request, vc.backend.users w.uid w.field = some w.value := by
  obtain ⟨⟨uid', hnew, hupdate, husers⟩, -⟩ := h
  by_cases he : uid' = uid
  · exact he ▸ husers
  · have hat := congrFun (haccounts.symm.trans hupdate) uid'
    rw [Function.update_of_ne he, Function.update_self, hnew] at hat
    cases hat

/-- A refused account: the message has been shown, and there is no account. -/
theorem not_done_of_refused (haccounts : vc.backend.accounts = backend.accounts)
    (hcalls : .successMessage "Registration is successful!" ∈ vc.calls) :
    ¬ (AllDone backend request vc ∨ NothingDone backend vc) := by
  rintro (⟨⟨uid, hnew, hupdate, -⟩, -⟩ | ⟨-, -, hnot⟩)
  · rw [haccounts] at hupdate
    have hat := congrFun hupdate uid
    rw [Function.update_self, hnew] at hat
    cases hat
  · exact hnot hcalls

/-- A created account: everything is done when no write has failed. -/
theorem done_iff_whole (hcreated : backend.accounts uid = none) (hwriting : vc.writing = [])
    (haccounts : vc.backend.accounts = Function.update backend.accounts uid (some request.email))
    (hcalls : .successMessage "Registration is successful!" ∈ vc.calls) :
    AllDone backend request vc ∨ NothingDone backend vc ↔ Whole uid request vc := by
  constructor
  · rintro (hall | ⟨-, -, hnot⟩)
    · exact fun w hw => .inr (hall.saved haccounts w hw)
    · exact absurd hcalls hnot
  · intro hwhole
    refine .inl ⟨⟨uid, hcreated, haccounts, fun w hw => ?_⟩, hcalls⟩
    rcases hwhole w hw with hin | hset
    · rw [hwriting] at hin
      exact absurd hin List.not_mem_nil
    · exact hset

end SignUpVC

open SignUpVC

/-- **Sign-up.** From a valid form, and whatever the backend answers in whatever order: when nothing is outstanding any
more, the sign-up is all or nothing, and truthfully reported, exactly when every request and every write has
succeeded. -/
theorem sign_up_iff {foundation : Foundation} {form : Form} (hvalid : Valid foundation form) (backend : Backend) :
    ∃ vc, onSignUpTapped foundation form { backend } = some vc ∧
      ∀ es vc', PartialRun.run step vc es = some vc' → Done vc' → NewUids backend es →
        (AllDone backend (requestOf foundation form) vc' ∨ NothingDone backend vc' ↔
          ∀ e ∈ es, e.succeeds = true) := by
  refine ⟨_, onSignUpTapped_valid hvalid, fun es vc' hrun hdone hnew => ?_⟩
  cases es with
  | nil =>
    cases hrun
    cases hdone.1
  | cons e es =>
    rw [run_cons, Option.bind_eq_some_iff] at hrun
    obtain ⟨w, hw, hrun⟩ := hrun
    cases e with
    | setValue i succeeds =>
      obtain ⟨r, hr, -⟩ := step_setValue hw
      cases hr
    | createUser i result =>
      cases result with
      | error message =>
        obtain ⟨r, hr, rfl⟩ := step_refused hw
        obtain rfl : i = 0 := Nat.lt_one_iff.1 (List.getElem?_eq_some_iff.1 hr).1
        obtain ⟨rfl, rfl⟩ := Done.run ⟨rfl, rfl⟩ hrun
        exact iff_of_false (not_done_of_refused rfl (by simp)) (by simp [Completion.succeeds])
      | ok uid =>
        obtain ⟨r, hr, rfl⟩ := step_created hw
        obtain rfl : i = 0 := Nat.lt_one_iff.1 (List.getElem?_eq_some_iff.1 hr).1
        cases hr
        obtain ⟨hnone, hunset⟩ := hnew 0 uid List.mem_cons_self
        have hsaving : Saving uid (requestOf foundation form)
            { backend := backend.createAccount uid (requestOf foundation form).email, creating := []
              writing := profile uid (requestOf foundation form)
              calls := [.successMessage "Registration is successful!"] } := by
          refine ⟨rfl, List.Sublist.refl _, fun w hw => ?_⟩
          rw [profile_uid w hw]
          exact hunset w.field
        obtain ⟨hsaving', hcalls, haccounts, hwhole⟩ := hsaving.run hrun
        rw [done_iff_whole hnone hdone.2 haccounts (by rw [hcalls]; simp), hwhole, List.forall_mem_cons]
        exact and_congr_left fun _ => iff_of_true (fun w hw => .inl hw) rfl

/-! ## A form -/

def sampleFoundation : Foundation where
  lowercased text := String.ofList (text.toList.map Char.toLower)
  digits := Icu.asciiDigits

def sampleForm : Form where
  fullName := "Ann Lee"
  organization := "Care"
  email := "Ann@care.org"
  password := "Secret!"

theorem sampleForm_valid : Valid sampleFoundation sampleForm := by
  constructor <;> decide

/-- Everything succeeds. -/
theorem sign_up_sample : ∃ vc vc', onSignUpTapped sampleFoundation sampleForm { backend := .empty } = some vc ∧
    PartialRun.run step vc [.createUser 0 (.ok "u1"), .setValue 1 true, .setValue 0 true, .setValue 0 true] = some vc' ∧
    (AllDone .empty (requestOf sampleFoundation sampleForm) vc' ∨ NothingDone .empty vc') := by
  obtain ⟨vc, htap, h⟩ := sign_up_iff sampleForm_valid .empty
  have hdone : (PartialRun.run step vc [.createUser 0 (.ok "u1"), .setValue 1 true, .setValue 0 true,
      .setValue 0 true]).map (fun vc' => (vc'.creating, vc'.writing)) = some ([], []) := by
    rw [onSignUpTapped_valid sampleForm_valid] at htap
    cases htap
    decide
  obtain ⟨vc', hrun, hempty⟩ := Option.map_eq_some_iff.1 hdone
  exact ⟨vc, vc', htap, hrun,
    (h _ vc' hrun (Prod.mk.inj hempty) fun _ _ _ => ⟨rfl, fun _ => rfl⟩).2 (by decide)⟩

/-- The auth service refuses the account, after the user has been congratulated. -/
theorem sign_up_fails : ∃ vc vc', onSignUpTapped sampleFoundation sampleForm { backend := .empty } = some vc ∧
    PartialRun.run step vc [.createUser 0 (.error "The email address is already in use.")] = some vc' ∧ Done vc' ∧
    ¬ (AllDone .empty (requestOf sampleFoundation sampleForm) vc' ∨ NothingDone .empty vc') := by
  refine ⟨_, _, onSignUpTapped_valid sampleForm_valid, rfl, ⟨rfl, rfl⟩, ?_⟩
  exact not_done_of_refused rfl (by simp)

end CareDirect.Accounts
