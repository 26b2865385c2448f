import CareDirect.Resources.Category

/-!
# The expanded row

`expandedRowIndex` is a position, and both lists are refilled under it. A segment switch resets it; a call that refills
the visible list does not. So a tap opens the website of a record that was not tapped before, exactly when such a call
has put another record into the expanded row (`taps_right_iff`).
-/

namespace CareDirect.Resources

open Refill PartialRun DataSnapshot Results ResorcesVC Broadcast

variable {platform : Platform} {services : Option DataSnapshot} {vc vc' : ResorcesVC} {e : Event} {es p : List Event}
  {key : String}

/-! ## The last tap -/

/-- Neither a tap in a table nor a segment switch. -/
def Event.Quiet : Event → Prop
  | .didSelectRowAt _ => False
  | .segmentChanged _ => False
  | _ => True

/-- The last tap was on a row that showed this record, and the segment has not been switched since. -/
def LastTapped (platform : Platform) (services : Option DataSnapshot) (es : List Event) (key : String) : Prop :=
  ∃ p row r vc, es = p ++ .didSelectRowAt row :: r ∧ (∀ e ∈ r, e.Quiet) ∧
    run (Resources.step platform) (viewDidLoad services) p = some vc ∧ vc.visibleKeys[row]? = some key

theorem lastTapped_tap {row : ℕ} : LastTapped platform services (p ++ [.didSelectRowAt row]) key ↔
    ∃ vc, run (Resources.step platform) (viewDidLoad services) p = some vc ∧ vc.visibleKeys[row]? = some key := by
  constructor
  · rintro ⟨p', row', r, vc, h, hquiet, hr, hkey⟩
    rcases List.eq_nil_or_concat r with rfl | ⟨r', e', rfl⟩
    · obtain ⟨rfl, hlast⟩ := List.append_inj' h rfl
      cases hlast
      exact ⟨vc, hr, hkey⟩
    · rw [List.concat_eq_append] at h hquiet
      rw [← List.cons_append, ← List.append_assoc] at h
      obtain ⟨-, h⟩ := List.append_inj' h rfl
      cases h
      exact (hquiet _ List.mem_concat_self).elim
  · rintro ⟨vc, hr, hkey⟩
    exact ⟨p, row, [], vc, rfl, List.forall_mem_nil _, hr, hkey⟩

theorem lastTapped_snoc (he : e.Quiet) :
    LastTapped platform services (p ++ [e]) key ↔ LastTapped platform services p key := by
  constructor
  · rintro ⟨p', row, r, vc, h, hquiet, hr, hkey⟩
    rcases List.eq_nil_or_concat r with rfl | ⟨r', e', rfl⟩
    · obtain ⟨-, h⟩ := List.append_inj' h rfl
      cases h
      exact he.elim
    · rw [List.concat_eq_append] at h hquiet
      rw [← List.cons_append, ← List.append_assoc] at h
      obtain ⟨rfl, -⟩ := List.append_inj' h rfl
      exact ⟨p', row, r', vc, rfl, fun e' he' => hquiet e' (List.mem_append_left _ he'), hr, hkey⟩
  · rintro ⟨p', row, r, vc, rfl, hquiet, hr, hkey⟩
    refine ⟨p', row, r ++ [e], vc, by simp, fun e' he' => ?_, hr, hkey⟩
    rcases List.mem_append.1 he' with hold | hnew
    · exact hquiet e' hold
    · rw [List.mem_singleton.1 hnew]
      exact he

/-! ## What a call brings -/

/-- The records that a call brings to the visible table, if it refills it. -/
def arriving (platform : Platform) (vc : ResorcesVC) : Event → Option (List String)
  | .callback =>
    match vc.services.pending with
    | (refresh, snapshot) :: _ =>
      let records := (platform.queryOrdered "Name" snapshot).children
      if vc.selectedSegmentIndex = 0 ∧ records ≠ [] then some ((records.filter refresh.keeps).map (·.key)) else none
    | [] => none
  | .organizations snapshot =>
    if vc.selectedSegmentIndex ≠ 0 ∧ snapshot.children ≠ [] then some (snapshot.children.map (·.key)) else none
  | _ => none

/-- The object of a record has its key. -/
theorem resource_key (refresh : Refresh) (record : DataSnapshot) {x : Option (Recorded ResourcesModel)}
    (h : refresh.resource record = some x) :
    x.map (·.key) = if refresh.keeps record then some record.key else none := by
  cases refresh with
  | all =>
    obtain ⟨resource, -, h⟩ := Option.bind_eq_some_iff.1 h
    cases h
    rfl
  | category c =>
    obtain ⟨dictionary, hdictionary, h⟩ := Option.bind_eq_some_iff.1 h
    simp only [Refresh.keeps, hasCategory, field, hdictionary, Option.bind_some]
    split at h
    · rename_i hkey
      obtain ⟨resource, -, h⟩ := Option.bind_eq_some_iff.1 h
      cases h
      simp [hkey]
    · rename_i hkey
      cases h
      simp [hkey]

theorem organization_key (record : DataSnapshot) {x : Option (Recorded OrganizationModel)}
    (h : (organization record).map some = some x) : x.map (·.key) = if true then some record.key else none := by
  obtain ⟨y, hy, rfl⟩ := Option.map_eq_some_iff.1 h
  simp only [organization, Option.bind_eq_bind, Option.bind_eq_some_iff] at hy
  obtain ⟨_, -, _, -, _, -, _, -, _, -, hy⟩ := hy
  cases hy
  rfl

/-- The keys after a refill. -/
theorem refill_keys {α : Type} {decode : DataSnapshot → Option (Option (Recorded α))} (keeps : DataSnapshot → Bool)
    {list list' : List (Recorded α)} {records : List DataSnapshot}
    (hkey : ∀ r x, decode r = some x → x.map (·.key) = if keeps r then some r.key else none)
    (h : refill decode list records = some list') :
    list'.map (·.key) = if records = [] then list.map (·.key) else (records.filter keeps).map (·.key) := by
  obtain ⟨hread, rfl⟩ := refill_some.1 h
  split
  · rfl
  · exact map_decoded hread hkey

/-- A quiet call leaves the expanded row, and refills the visible table with what it brings. -/
theorem quiet_step (hquiet : e.Quiet) (h : Resources.step platform vc e = some vc') :
    vc'.expandedRowIndex = vc.expandedRowIndex ∧
      vc'.visibleKeys = (arriving platform vc e).getD vc.visibleKeys := by
  cases e with
  | didSelectRow row =>
    obtain ⟨_, _, -, -, rfl⟩ := didSelectRow_some h
    exact ⟨rfl, rfl⟩
  | didSelectRowAt row => exact hquiet.elim
  | segmentChanged segment => exact hquiet.elim
  | services snapshot =>
    cases h
    exact ⟨rfl, rfl⟩
  | callback =>
    rcases runBlock_some h with ⟨hnext, rfl⟩ | ⟨refresh, snapshot, services, resources, hnext, hresources, rfl⟩
    · refine ⟨rfl, ?_⟩
      rw [arriving, next_none.1 hnext]
      rfl
    · refine ⟨rfl, ?_⟩
      have hkeys := refill_keys refresh.keeps (resource_key refresh) hresources
      rw [arriving, (next_some.1 hnext).1]
      by_cases hsegment : vc.selectedSegmentIndex = 0
      · by_cases hrecords : (platform.queryOrdered "Name" snapshot).children = []
        · simpa [visibleKeys, hsegment, hrecords] using hkeys
        · simpa [visibleKeys, hsegment, hrecords] using hkeys
      · simp [visibleKeys, hsegment]
  | organizations snapshot =>
    obtain ⟨organizations, horganizations, rfl⟩ := organizationsBlock_some h
    refine ⟨rfl, ?_⟩
    have hkeys := refill_keys (fun _ => true) organization_key horganizations
    rw [arriving]
    by_cases hsegment : vc.selectedSegmentIndex = 0
    · simp [visibleKeys, hsegment]
    · by_cases hrecords : snapshot.children = []
      · simpa [visibleKeys, hsegment, hrecords] using hkeys
      · simpa [visibleKeys, hsegment, hrecords] using hkeys

/-! ## Runs -/

/-- The record in the expanded row is the one last tapped. -/
def ExpandedRight (platform : Platform) (services : Option DataSnapshot) (p : List Event) (vc : ResorcesVC) : Prop :=
  ∀ i key, vc.expandedRowIndex = some i → vc.visibleKeys[i]? = some key → LastTapped platform services p key

/-- Throughout the calls the record in the expanded row is the one last tapped, and a tap that opens a website is on
that record. -/
def TapsRight (platform : Platform) (services : Option DataSnapshot) (es : List Event) : Prop :=
  ∀ p vc, p <+: es → run (Resources.step platform) (viewDidLoad services) p = some vc →
    ExpandedRight platform services p vc ∧
    ∀ row vc', Resources.step platform vc (.didSelectRowAt row) = some vc' → vc'.opened ≠ vc.opened →
      ∃ key, vc.visibleKeys[row]? = some key ∧ LastTapped platform services p key

/-- If the call refills the visible table while a row is expanded, then it brings to that row the record last tapped, or
fewer records. -/
def RefillKept (platform : Platform) (services : Option DataSnapshot) (p : List Event) (vc : ResorcesVC) (e : Event) :
    Prop :=
  ∀ i keys key, vc.expandedRowIndex = some i → arriving platform vc e = some keys → keys[i]? = some key →
    LastTapped platform services p key

/-- What one call needs. -/
theorem expandedRight_step (h : ExpandedRight platform services p vc)
    (hr : run (Resources.step platform) (viewDidLoad services) p = some vc)
    (he : Resources.step platform vc e = some vc') :
    ExpandedRight platform services (p ++ [e]) vc' ↔ RefillKept platform services p vc e := by
  by_cases hquiet : e.Quiet
  · obtain ⟨hexpanded, hkeys⟩ := quiet_step hquiet he
    unfold ExpandedRight RefillKept
    rw [hexpanded, hkeys]
    constructor
    · intro hright i keys key hi harriving hkey
      rw [harriving] at hright
      exact (lastTapped_snoc hquiet).1 (hright i key hi hkey)
    · intro hkept i key hi hkey
      rw [lastTapped_snoc hquiet]
      cases harriving : arriving platform vc e with
      | none => exact h i key hi (by rwa [harriving] at hkey)
      | some keys => exact hkept i keys key hi harriving (by rwa [harriving] at hkey)
  · cases e with
    | didSelectRowAt row =>
      obtain ⟨_, _, _, _, -, rfl, -⟩ := didSelectRowAt_some he
      refine iff_of_true (fun i key hi hkey => ?_) (fun i keys key hi harriving => by cases harriving)
      cases hi
      exact lastTapped_tap.2 ⟨vc, hr, hkey⟩
    | segmentChanged segment =>
      cases he
      exact iff_of_true (fun i key hi => by cases hi) (fun i keys key hi harriving => by cases harriving)
    | _ => exact absurd trivial hquiet

/-- A tap that opens a website is on the expanded row. -/
theorem ExpandedRight.tap (h : ExpandedRight platform services p vc) {row : ℕ}
    (he : Resources.step platform vc (.didSelectRowAt row) = some vc') (hopened : vc'.opened ≠ vc.opened) :
    ∃ key, vc.visibleKeys[row]? = some key ∧ LastTapped platform services p key := by
  obtain ⟨key, _, _, _, hkey, rfl, hexpanded⟩ := didSelectRowAt_some he
  exact ⟨key, hkey, h row key (hexpanded hopened) hkey⟩

/-- **Taps on the expanded row.** In a run, every tap that opens a website is on the record last tapped, and the
expanded row shows that record throughout, exactly when no call brings another record to the expanded row. -/
theorem taps_right_iff (hr : run (Resources.step platform) (viewDidLoad services) es = some vc) :
    TapsRight platform services es ↔ ∀ p e r u, es = p ++ e :: r →
      run (Resources.step platform) (viewDidLoad services) p = some u → RefillKept platform services p u e := by
  rw [← throughout_iff (I := ExpandedRight platform services)]
  · constructor
    · exact fun htaps p u hp hu => (htaps p u hp hu).1
    · exact fun hright p u hp hu => ⟨hright p u hp hu, fun row v => (hright p u hp hu).tap⟩
  · intro i key hi
    cases hi
  · exact fun p u e v hu hright he => expandedRight_step hright hu he
  · rintro p e r u rfl hu htrap
    obtain ⟨v, hv⟩ := run_step hr hu
    cases htrap.symm.trans hv

/-- The sample comes again while the row of the clinic is expanded. -/
theorem taps_right_sample : TapsRight samplePlatform none [.services sampleServices, .callback, .didSelectRowAt 0,
    .services sampleServices, .callback, .didSelectRowAt 0] := by
  refine (taps_right_iff rfl).2 fun p e r u he hu i keys key hi harriving hkey => ?_
  rcases p with _ | ⟨a, _ | ⟨b, _ | ⟨c, _ | ⟨d, _ | ⟨f, _ | ⟨g, p⟩⟩⟩⟩⟩⟩
  any_goals cases he
  · cases harriving
  · cases hu
    cases hi
  · cases harriving
  · cases harriving
  · cases hu
    cases hi
    cases harriving
    cases hkey
    refine (lastTapped_snoc (p := [.services sampleServices, .callback, .didSelectRowAt 0])
      (e := .services sampleServices) trivial).2 ?_
    exact (lastTapped_tap (p := [.services sampleServices, .callback])).2 ⟨_, rfl, rfl⟩
  · cases harriving
  · simp at he

/-- The row of the clinic is expanded when Housing is picked: the next tap on it opens the website of the shelter. -/
theorem taps_wrong : ∃ vc vc',
    run (Resources.step samplePlatform) (viewDidLoad none)
      [.services sampleServices, .callback, .didSelectRowAt 0, .didSelectRow 1, .callback] = some vc ∧
    Resources.step samplePlatform vc (.didSelectRowAt 0) = some vc' ∧ vc'.opened = ["https://shelter.org"] ∧
    vc.visibleKeys[0]? = some "r1" ∧ ¬ LastTapped samplePlatform none
      [.services sampleServices, .callback, .didSelectRowAt 0, .didSelectRow 1, .callback] "r1" := by
  refine ⟨_, _, rfl, rfl, rfl, rfl, fun htapped => ?_⟩
  have hpicked := (lastTapped_snoc (p := [.services sampleServices, .callback, .didSelectRowAt 0, .didSelectRow 1])
    (e := .callback) trivial).1 htapped
  have hexpanded := (lastTapped_snoc (p := [.services sampleServices, .callback, .didSelectRowAt 0])
    (e := .didSelectRow 1) trivial).1 hpicked
  obtain ⟨u, hu, hkey⟩ := (lastTapped_tap (p := [.services sampleServices, .callback])).1 hexpanded
  cases hu
  exact absurd hkey (by decide)

end CareDirect.Resources
