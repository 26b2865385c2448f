import CareDirect.Accounts.Emails

/-!
# Sign-ups that overlap

The button can be tapped again while the auth service and the database are still at work, and their answers come in any
order (`SignUpVC.Event`). Each account that is opened belongs to one of the requests, each of which a valid form has
sent; under its uid nothing is ever stored but the texts of that form, and nothing is stored under any other uid
(`Overlapping`). So `AccountVC` shows, at any moment, either nothing or what was entered (`overlap_run`).
-/

namespace CareDirect.Accounts

open PartialRun

namespace SignUpVC

inductive Event
  | onSignUpTapped (form : Form)
  | completed (completion : Completion)

def event (foundation : Foundation) (vc : SignUpVC) : Event → Option SignUpVC
  | .onSignUpTapped form => onSignUpTapped foundation form vc
  | .completed completion => step vc completion

/-- The uid that the auth service gives out. -/
def Event.uid : Event → Option String
  | .completed (.createUser _ (.ok uid)) => some uid
  | _ => none

def uids (es : List Event) : List String := es.filterMap Event.uid

variable {foundation : Foundation} {form : Form} {b : Backend} {vc vc' : SignUpVC} {es : List Event} {e : Event}
  {opened : List (String × CreateUser)} {o : String × CreateUser}

theorem uids_snoc (es : List Event) (e : Event) : uids (es ++ [e]) = uids es ++ e.uid.toList := by
  rw [uids, List.filterMap_append, ← uids]
  cases h : e.uid <;> simp [h]

/-- A tap sends the request of a valid form, or nothing. -/
theorem tapped_cases (h : onSignUpTapped foundation form vc = some vc') :
    vc'.backend = vc.backend ∧ vc'.writing = vc.writing ∧ (vc'.creating = vc.creating ∨
      Valid foundation form ∧ vc'.creating = vc.creating ++ [requestOf foundation form]) := by
  unfold onSignUpTapped at h
  obtain ⟨isValidPass, hpass, h⟩ := Option.bind_eq_some_iff.1 h
  split at h
  · cases h
    exact ⟨rfl, rfl, .inl rfl⟩
  rename_i hfields
  split at h
  · cases h
    exact ⟨rfl, rfl, .inl rfl⟩
  rename_i hvalid
  obtain ⟨isValid, hmail, h⟩ := Option.bind_eq_some_iff.1 h
  split at h
  · cases h
    exact ⟨rfl, rfl, .inl rfl⟩
  · rename_i hvalidMail
    cases h
    simp only [Bool.or_eq_true, not_or, Bool.not_eq_true] at hfields
    obtain ⟨⟨⟨hemail, hpassword⟩, hname⟩, horganization⟩ := hfields
    refine ⟨rfl, rfl, .inr ⟨⟨hemail, hpassword, hname, horganization, ?_, ?_⟩, rfl⟩⟩
    · simpa using hpass.trans (congrArg some (by simpa using hvalid))
    · simpa using hmail.trans (congrArg some (by simpa using hvalidMail))

/-- A tap on a valid form, whatever is outstanding. -/
theorem tapped_valid (h : Valid foundation form) (vc : SignUpVC) : onSignUpTapped foundation form vc = some
    { vc with
      creating := vc.creating ++ [requestOf foundation form]
      calls := vc.calls ++ [.successMessage "Registration is successful!"] } := by
  unfold onSignUpTapped
  simp only [h.email, h.password, h.fullName, h.organization, h.validPassword, h.validEmail, Option.bind_eq_bind,
    Option.bind_some, Bool.or_self, Bool.false_eq_true, Bool.not_true, if_false]
  rfl

/-! ## Profiles -/

/-- One uid, one request; so the writes under a uid are those of its request. -/
theorem profile_of_uid (hnodup : (opened.map Prod.fst).Nodup) {o' : String × CreateUser} (ho : o ∈ opened)
    (ho' : o' ∈ opened) {w : Write} (hw : w ∈ profile o'.1 o'.2) (huid : w.uid = o.1) : w ∈ profile o.1 o.2 := by
  have hsame : o' = o := List.inj_on_of_nodup_map hnodup ho' ho ((profile_uid w hw).symm.trans huid)
  rwa [hsame] at hw

/-- A profile has one text for a field. -/
theorem profile_value {uid : String} {request : CreateUser} {v w : Write} (hv : v ∈ profile uid request)
    (hw : w ∈ profile uid request) (h : v.field = w.field) : v = w :=
  List.inj_on_of_nodup_map profile_nodup hv hw h

/-! ## The invariant -/

/-- The form has been tapped in, and has sent the request. -/
def Sent (foundation : Foundation) (es : List Event) (request : CreateUser) : Prop :=
  ∃ form, .onSignUpTapped form ∈ es ∧ Valid foundation form ∧ request = requestOf foundation form

theorem Sent.snoc {request : CreateUser} (h : Sent foundation es request) (e : Event) :
    Sent foundation (es ++ [e]) request := by
  obtain ⟨form, hform, hsent⟩ := h
  exact ⟨form, List.mem_append_left _ hform, hsent⟩

/-- After the events `es` on a backend that was `b`: the accounts `opened`, each with its request. -/
structure Overlapping (foundation : Foundation) (b : Backend) (es : List Event) (opened : List (String × CreateUser))
    (vc : SignUpVC) : Prop where
  uids : opened.map Prod.fst = uids es
  creating : ∀ r ∈ vc.creating, Sent foundation es r
  sent : ∀ o ∈ opened, Sent foundation es o.2
  accounts : ∀ o ∈ opened, vc.backend.accounts o.1 = some o.2.email
  writing : ∀ w ∈ vc.writing, ∃ o ∈ opened, w ∈ profile o.1 o.2
  stored : ∀ o ∈ opened, ∀ field value, vc.backend.users o.1 field = some value →
    ⟨o.1, field, value⟩ ∈ profile o.1 o.2
  others : ∀ uid ∉ opened.map Prod.fst,
    vc.backend.accounts uid = b.accounts uid ∧ vc.backend.users uid = b.users uid
  complete : (∀ i, .completed (.setValue i false) ∉ es) → ∀ o ∈ opened, ∀ w ∈ profile o.1 o.2,
    w ∈ vc.writing ∨ vc.backend.users w.uid w.field = some w.value

/-- A tap opens no account. -/
theorem Overlapping.tapped (h : Overlapping foundation b es opened vc)
    (ht : onSignUpTapped foundation form vc = some vc') :
    Overlapping foundation b (es ++ [.onSignUpTapped form]) opened vc' := by
  obtain ⟨hbackend, hwriting, hcreating⟩ := tapped_cases ht
  refine ⟨?_, ?_, fun o ho => (h.sent o ho).snoc _, ?_, ?_, ?_, ?_, ?_⟩
  · rw [uids_snoc, h.uids]
    exact (List.append_nil _).symm
  · intro r hr
    rcases hcreating with hsame | ⟨hvalid, hnew⟩
    · exact (h.creating r (hsame ▸ hr)).snoc _
    · rw [hnew] at hr
      rcases List.mem_append.1 hr with hr | hr
      · exact (h.creating r hr).snoc _
      · exact ⟨form, List.mem_concat_self, hvalid, List.mem_singleton.1 hr⟩
  · rw [hbackend]
    exact h.accounts
  · rw [hwriting]
    exact h.writing
  · rw [hbackend]
    exact h.stored
  · rw [hbackend]
    exact h.others
  · rw [hbackend, hwriting]
    exact fun hok => h.complete fun i hi => hok i (List.mem_append_left _ hi)

/-- The auth service refuses a request. -/
theorem Overlapping.refused {i : ℕ} {message : String} (h : Overlapping foundation b es opened vc)
    (hs : step vc (.createUser i (.error message)) = some vc') :
    Overlapping foundation b (es ++ [.completed (.createUser i (.error message))]) opened vc' := by
  obtain ⟨r, -, rfl⟩ := step_refused hs
  refine ⟨?_, fun r hr => (h.creating r (List.mem_of_mem_eraseIdx hr)).snoc _, fun o ho => (h.sent o ho).snoc _,
    h.accounts, h.writing, h.stored, h.others, fun hok => h.complete fun i hi => hok i (List.mem_append_left _ hi)⟩
  rw [uids_snoc, h.uids]
  exact (List.append_nil _).symm

/-- The auth service opens an account, under a uid that it has not given out, and under which nothing is stored. -/
theorem Overlapping.created {i : ℕ} {uid : String} (h : Overlapping foundation b es opened vc)
    (hnew : uid ∉ SignUpVC.uids es) (hb : ∀ field, b.users uid field = none)
    (hs : step vc (.createUser i (.ok uid)) = some vc') :
    ∃ r, Overlapping foundation b (es ++ [.completed (.createUser i (.ok uid))]) (opened ++ [(uid, r)]) vc' := by
  obtain ⟨r, hr, rfl⟩ := step_created hs
  have hold : ∀ o ∈ opened, o.1 ≠ uid := fun o ho he => hnew (h.uids ▸ he ▸ List.mem_map_of_mem ho)
  have husers : ∀ field, vc.backend.users uid field = none := fun field => by
    rw [(h.others uid (h.uids ▸ hnew)).2, hb]
  refine ⟨r, ?_, fun r' hr' => (h.creating r' (List.mem_of_mem_eraseIdx hr')).snoc _, ?_, ?_, ?_, ?_, ?_, ?_⟩
  · rw [uids_snoc, List.map_append, h.uids]
    rfl
  · refine List.forall_mem_append.2 ⟨fun o ho => (h.sent o ho).snoc _, List.forall_mem_singleton.2 ?_⟩
    exact (h.creating r (List.mem_of_getElem? hr)).snoc _
  · refine List.forall_mem_append.2 ⟨fun o ho => ?_, List.forall_mem_singleton.2 (Function.update_self ..)⟩
    exact (Function.update_of_ne (hold o ho) ..).trans (h.accounts o ho)
  · refine List.forall_mem_append.2 ⟨fun w hw => ?_, fun w hw => ?_⟩
    · obtain ⟨o, ho, hw⟩ := h.writing w hw
      exact ⟨o, List.mem_append_left _ ho, hw⟩
    · exact ⟨(uid, r), List.mem_concat_self, hw⟩
  · refine List.forall_mem_append.2 ⟨h.stored, List.forall_mem_singleton.2 fun field value hvalue => ?_⟩
    cases (husers field).symm.trans hvalue
  · intro uid' huid'
    rw [List.map_append, List.mem_append, not_or] at huid'
    obtain ⟨haccounts, hother⟩ := h.others uid' huid'.1
    exact ⟨(Function.update_of_ne (by simpa using huid'.2) ..).trans haccounts, hother⟩
  · intro hok
    refine List.forall_mem_append.2 ⟨fun o ho w hw => ?_, List.forall_mem_singleton.2 fun w hw => ?_⟩
    · exact (h.complete (fun i hi => hok i (List.mem_append_left _ hi)) o ho w hw).imp_left (List.mem_append_left _)
    · exact .inl (List.mem_append_right _ hw)

/-- A write of a profile ends. -/
theorem Overlapping.written {i : ℕ} {succeeds : Bool} (h : Overlapping foundation b es opened vc)
    (hnodup : (SignUpVC.uids es).Nodup) (hs : step vc (.setValue i succeeds) = some vc') :
    Overlapping foundation b (es ++ [.completed (.setValue i succeeds)]) opened vc' := by
  obtain ⟨w, hw, hwriting, hcreating, -, haccounts, hbackend⟩ := step_setValue hs
  rw [← h.uids] at hnodup
  obtain ⟨o', ho', hw'⟩ := h.writing w (List.mem_of_getElem? hw)
  have husers : ∀ uid field, vc'.backend.users uid field =
      if succeeds = true ∧ uid = w.uid ∧ field = w.field then some w.value else vc.backend.users uid field := by
    intro uid field
    rw [hbackend]
    cases succeeds with
    | true => simp [setValue_users]
    | false => simp
  refine ⟨?_, ?_, fun o ho => (h.sent o ho).snoc _, ?_, ?_, ?_, ?_, ?_⟩
  · rw [uids_snoc, h.uids]
    exact (List.append_nil _).symm
  · rw [hcreating]
    exact fun r hr => (h.creating r hr).snoc _
  · rw [haccounts]
    exact h.accounts
  · rw [hwriting]
    exact fun v hv => h.writing v (List.mem_of_mem_eraseIdx hv)
  · intro o ho field value hvalue
    rw [husers] at hvalue
    split_ifs at hvalue with hwritten
    · obtain ⟨-, huid, hfield⟩ := hwritten
      have hmem := profile_of_uid hnodup ho ho' hw' huid.symm
      rwa [show (⟨o.1, field, value⟩ : Write) = w by
        rw [huid, hfield, ← Option.some.inj hvalue]]
    · exact h.stored o ho field value hvalue
  · intro uid huid
    have hne : uid ≠ w.uid := by
      rintro rfl
      exact huid ((profile_uid w hw').symm ▸ List.mem_map_of_mem ho')
    obtain ⟨haccount, hother⟩ := h.others uid huid
    refine ⟨by rw [haccounts, haccount], ?_⟩
    funext field
    rw [husers, if_neg (fun hwritten => hne hwritten.2.1), hother]
  · intro hok o ho v hv
    have hsucceeds : succeeds = true := by
      by_contra hfail
      rw [Bool.not_eq_true] at hfail
      exact hok i (hfail ▸ List.mem_concat_self)
    rcases h.complete (fun i hi => hok i (List.mem_append_left _ hi)) o ho v hv with hv' | hv'
    · by_cases he : v = w
      · right
        rw [husers, he, if_pos ⟨hsucceeds, rfl, rfl⟩]
      · left
        obtain ⟨j, hj⟩ := List.mem_iff_getElem?.1 hv'
        rw [hwriting]
        refine List.mem_eraseIdx_iff_getElem?.2 ⟨j, fun hij => he ?_, hj⟩
        rw [hij, hw] at hj
        exact (Option.some.inj hj).symm
    · right
      rw [husers]
      split_ifs with hwritten
      · obtain ⟨-, huid, hfield⟩ := hwritten
        have hmem := profile_of_uid hnodup ho ho' hw' (huid.symm.trans (profile_uid v hv))
        rw [profile_value hv hmem hfield]
      · exact hv'

/-! ## Runs -/

theorem overlapping_run (hnodup : (uids es).Nodup) (hb : ∀ uid ∈ uids es, ∀ field, b.users uid field = none)
    (h : run (event foundation) { backend := b } es = some vc) : ∃ opened, Overlapping foundation b es opened vc := by
  have hstart : Overlapping foundation b [] [] { backend := b } :=
    ⟨rfl, List.forall_mem_nil _, List.forall_mem_nil _, List.forall_mem_nil _, List.forall_mem_nil _,
      List.forall_mem_nil _, fun _ _ => ⟨rfl, rfl⟩, fun _ => List.forall_mem_nil _⟩
  refine run_induction (I := fun p u => (uids p).Nodup → (∀ uid ∈ uids p, ∀ field, b.users uid field = none) →
    ∃ opened, Overlapping foundation b p opened u) (fun _ _ => ⟨[], hstart⟩) ?_ es h hnodup hb
  intro p u e v _ hu he hnodup hb
  rw [uids_snoc] at hnodup hb
  have hp : (uids p).Nodup := (List.nodup_append.1 hnodup).1
  obtain ⟨opened, hopened⟩ := hu hp fun uid huid => hb uid (List.mem_append_left _ huid)
  cases e with
  | onSignUpTapped form => exact ⟨opened, hopened.tapped he⟩
  | completed completion =>
    cases completion with
    | createUser i result =>
      cases result with
      | error message => exact ⟨opened, hopened.refused he⟩
      | ok uid =>
        have hnot : uid ∉ uids p := fun hmem =>
          (List.nodup_append.1 hnodup).2.2 uid hmem uid (List.mem_singleton_self uid) rfl
        obtain ⟨r, hr⟩ := hopened.created hnot (hb uid List.mem_concat_self) he
        exact ⟨_, hr⟩
    | setValue i succeeds => exact ⟨opened, hopened.written hp he⟩

/-- What `AccountVC` shows to the user with this uid. -/
def shownTo (backend : Backend) (uid : String) : AccountVC := AccountVC.viewDidLoad { backend with currentUser := some uid }

/-- The label shows nothing, or the text. -/
def Blank (label : Option String) (text : String) : Prop := label = none ∨ label = some text

/-- The profile of the request, as far as it is stored. -/
theorem Overlapping.shown (h : Overlapping foundation b es opened vc) (ho : o ∈ opened) :
    Blank (shownTo vc.backend o.1).nameLabel o.2.fullName ∧ Blank (shownTo vc.backend o.1).emailLabel o.2.email ∧
      Blank (shownTo vc.backend o.1).organizationlabel o.2.organization := by
  have hblank : ∀ field text, (∀ w ∈ profile o.1 o.2, w.field = field → w.value = text) →
      Blank (vc.backend.users o.1 field) text := by
    intro field text htext
    cases hvalue : vc.backend.users o.1 field with
    | none => exact .inl rfl
    | some value => exact .inr (congrArg some (htext _ (h.stored o ho field value hvalue) rfl))
  refine ⟨hblank "Full Name" _ ?_, hblank "Email" _ ?_, hblank "Organization" _ ?_⟩
  · simp [profile]
  · simp [profile]
  · simp [profile]

/-- The whole profile, once all its writes have succeeded. -/
theorem Overlapping.whole (h : Overlapping foundation b es opened vc) (hdone : vc.writing = [])
    (hok : ∀ i, .completed (.setValue i false) ∉ es) (ho : o ∈ opened) :
    shownTo vc.backend o.1 = ⟨some o.2.fullName, some o.2.email, some o.2.organization⟩ := by
  have hstored : ∀ w ∈ profile o.1 o.2, vc.backend.users w.uid w.field = some w.value := by
    intro w hw
    refine (h.complete hok o ho w hw).resolve_left ?_
    rw [hdone]
    exact List.not_mem_nil
  simp only [profile, List.forall_mem_cons] at hstored
  obtain ⟨hemail, hname, horganization, -⟩ := hstored
  simp only [shownTo, AccountVC.viewDidLoad, hemail, hname, horganization]

/-- **Overlapping sign-ups.** The auth service gives out no uid twice, and none under which something is stored. Then in
every order of taps and answers: every account belongs to the request of a valid form that was tapped in; its user is
shown, in each label, nothing or what that form said, and all of it once the writes are done and none has failed; and
whoever had an account before is shown what was shown before. -/
theorem overlap_run (hnodup : (uids es).Nodup) (hb : ∀ uid ∈ uids es, ∀ field, b.users uid field = none)
    (h : run (event foundation) { backend := b } es = some vc) :
    ∃ opened : List (String × CreateUser), opened.map Prod.fst = uids es ∧
      (∀ o ∈ opened, Sent foundation es o.2 ∧ vc.backend.accounts o.1 = some o.2.email ∧
        Blank (shownTo vc.backend o.1).nameLabel o.2.fullName ∧ Blank (shownTo vc.backend o.1).emailLabel o.2.email ∧
        Blank (shownTo vc.backend o.1).organizationlabel o.2.organization) ∧
      (vc.writing = [] → (∀ i, .completed (.setValue i false) ∉ es) → ∀ o ∈ opened,
        shownTo vc.backend o.1 = ⟨some o.2.fullName, some o.2.email, some o.2.organization⟩) ∧
      ∀ uid ∉ uids es, vc.backend.accounts uid = b.accounts uid ∧ shownTo vc.backend uid = shownTo b uid := by
  obtain ⟨opened, hopened⟩ := overlapping_run hnodup hb h
  refine ⟨opened, hopened.uids, fun o ho => ⟨hopened.sent o ho, hopened.accounts o ho, hopened.shown ho⟩,
    fun hdone hok o ho => hopened.whole hdone hok ho, fun uid huid => ?_⟩
  obtain ⟨haccount, husers⟩ := hopened.others uid (hopened.uids ▸ huid)
  refine ⟨haccount, ?_⟩
  simp only [shownTo, AccountVC.viewDidLoad, husers]

/-- The form is tapped in twice; the second request is answered first, and the first one is refused. -/
def sampleOverlap : List Event :=
  [.onSignUpTapped sampleForm, .onSignUpTapped sampleForm, .completed (.createUser 1 (.ok "u1")),
    .completed (.setValue 1 true), .completed (.createUser 0 (.error "The email address is already in use.")),
    .completed (.setValue 1 true), .completed (.setValue 0 true)]

theorem overlap_run_sample : ∃ vc, run (event sampleFoundation) { backend := .empty } sampleOverlap = some vc ∧
    ∃ opened : List (String × CreateUser), opened.map Prod.fst = ["u1"] ∧ ∀ o ∈ opened,
      shownTo vc.backend o.1 = ⟨some o.2.fullName, some o.2.email, some o.2.organization⟩ := by
  have hdone : (run (event sampleFoundation) { backend := .empty } sampleOverlap).map SignUpVC.writing = some [] := by
    simp only [sampleOverlap, run_cons, event, tapped_valid sampleForm_valid, Option.bind_some]
    rfl
  obtain ⟨vc, hrun, hwriting⟩ := Option.map_eq_some_iff.1 hdone
  obtain ⟨opened, huids, -, hshown, -⟩ := overlap_run (by decide) (fun _ _ _ => rfl) hrun
  exact ⟨vc, hrun, opened, huids, hshown hwriting fun i hi => by simp [sampleOverlap] at hi⟩

end SignUpVC

end CareDirect.Accounts
