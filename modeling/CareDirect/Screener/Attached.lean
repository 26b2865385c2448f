import CareDirect.Screener.Coherence

/-!
# Attached categories and group flags

`attachedResourceCategories` and the flags of the group objects are two copies of one fact. `Mirrors vc` says that they
agree, whatever has happened: it survives deliveries at any time, presses before the first one and presses after the
results (`attached_mirror`). A write goes through `currentQuestionGroup`, which is an element of `questionGroups` from
the first delivery on; before it the placeholder question attaches nothing.
-/

namespace CareDirect.Screener

open PartialRun

namespace QuestionVC

variable {vc vc' : QuestionVC} {a : Radio} {e : Event}

/-- The titles of the attached groups. -/
def flagged (vc : QuestionVC) : List String :=
  (vc.groups.values.filter (·.attachResource)).map (·.title)

/-- The array mirrors the flags. `current`: writes go to an element of `questionGroups`, or the current question is the
only one of the placeholder group. -/
structure Mirrors (vc : QuestionVC) : Prop where
  mirror : vc.attachedResourceCategories.Perm vc.flagged
  current : vc.currentQuestionGroup ∈ vc.questionGroups ∨ vc.currentQuestion = {} ∧ vc.group.questions.length = 1
  bound : ∀ cats ∈ vc.presented, cats <+: vc.attachedResourceCategories
  prefixes : vc.presented.Pairwise (· <+: ·)

theorem initial_mirrors : Mirrors initial :=
  ⟨.nil, .inr ⟨rfl, rfl⟩, List.forall_mem_nil _, .nil⟩

theorem Idle.mirrors (hi : Idle vc e vc') (h : Mirrors vc) : Mirrors vc' := by
  have hbound := h.bound
  have hprefixes := h.prefixes
  rw [← hi.presented] at hbound hprefixes
  cases hi <;> exact ⟨h.mirror, h.current, hbound, hprefixes⟩

/-- The placeholder question attaches nothing. -/
theorem hits_placeholder (a : Radio) : hits {} a = false := by
  cases a <;> rfl

/-- A hit raises the flag of an element of the array, and adds its title. -/
theorem Mirrors.mark (h : Mirrors vc) (a : Radio) : Mirrors (vc.mark a) := by
  rcases mark_cases vc a with ⟨-, hm⟩ | ⟨hhit, hfalse, hm⟩
  · rw [hm]
    exact h
  · have hmem : vc.currentQuestionGroup ∈ vc.groups.refs := by
      rcases h.current with hmem | ⟨hplaceholder, -⟩
      · exact hmem
      · rw [hplaceholder, hits_placeholder] at hhit
        cases hhit
    have hflagged := ObjectArray.flagged_modify (g := QuestionGroup.title) (p := QuestionGroup.attachResource)
      (f := fun g => { g with attachResource := true }) hmem hfalse rfl rfl
    rw [hm]
    refine ⟨?_, .inl hmem, fun cats hcats => (h.bound cats hcats).trans (List.prefix_append _ _), h.prefixes⟩
    exact (h.mirror.append_right _).trans hflagged.symm

theorem Mirrors.display {b : Bool} (h : Mirrors vc) : Mirrors (vc.displayIf b) := by
  have hbound := h.bound
  have hprefixes := h.prefixes
  rw [← displayIf_presented (b := b)] at hbound hprefixes
  cases b <;> exact ⟨h.mirror, h.current, hbound, hprefixes⟩

/-- The segue hands over the whole array. -/
theorem Mirrors.performSegue (h : Mirrors vc) : Mirrors vc.performSegue := by
  have hpresented : vc.performSegue.presented = vc.presented ++ [vc.attachedResourceCategories] := by simp
  refine ⟨h.mirror, h.current, ?_, ?_⟩
  · rw [hpresented]
    intro cats hcats
    rcases List.mem_append.1 hcats with hcats | hcats
    · exact h.bound cats hcats
    · rw [List.mem_singleton.1 hcats]
      exact List.prefix_rfl
  · rw [hpresented, List.pairwise_append]
    refine ⟨h.prefixes, List.pairwise_singleton _ _, fun cats hcats cats' hcats' => ?_⟩
    rw [List.mem_singleton.1 hcats']
    exact h.bound cats hcats

theorem Press.mirrors (hp : Press vc a vc') (h : Mirrors vc) : Mirrors vc' := by
  have hm := h.mark a
  cases hp with
  | question q on hq =>
    have hmem : (vc.mark a).currentQuestionGroup ∈ (vc.mark a).questionGroups := by
      rcases h.current with hmem | ⟨-, hsingle⟩
      · simpa using hmem
      · have := (List.getElem?_eq_some_iff.1 hq).1
        omega
    have hnext : Mirrors ((vc.mark a).toQuestion q) := ⟨hm.mirror, .inl hmem, hm.bound, hm.prefixes⟩
    exact hnext.display (b := true)
  | group r q past hr hq =>
    have hmem : r ∈ (vc.mark a).questionGroups := by simpa using List.mem_of_getElem? hr
    have hnext : Mirrors ((vc.mark a).toGroup r q) := ⟨hm.mirror, .inl hmem, hm.bound, hm.prefixes⟩
    exact (hnext.display (b := true)).display
  | results past hend =>
    have hend : Mirrors (vc.mark a).toEnd := ⟨hm.mirror, hm.current, hm.bound, hm.prefixes⟩
    exact hend.performSegue.display

theorem load_mirrors {snapshot : DataSnapshot} (hl : vc.loadQuestionsFromFB snapshot = some vc') (h : Mirrors vc) :
    Mirrors vc' := by
  obtain ⟨gs, r, q, hgs, hr, hq, rfl⟩ := loadQuestionsFromFB_some.1 hl
  have hnew : (gs.filter (·.attachResource)) = [] := by
    refine List.filter_eq_nil_iff.2 fun g hg => ?_
    rw [unmarked_of_decodes hgs g hg]
    exact Bool.false_ne_true
  have hflagged : (vc.delivered gs r q).flagged = vc.flagged := by
    simp [flagged, hnew]
  have hdelivered : Mirrors (vc.delivered gs r q) :=
    ⟨hflagged ▸ h.mirror, .inl (List.mem_of_getElem? hr), h.bound, h.prefixes⟩
  exact hdelivered.display (b := true)

/-! ## Flags stay up -/

/-- Objects stay live, and a raised flag stays raised. -/
def FlagsKept (vc vc' : QuestionVC) : Prop :=
  vc.groups.next ≤ vc'.groups.next ∧
    ∀ r < vc.groups.next, (vc.groups.obj r).attachResource = true → (vc'.groups.obj r).attachResource = true

theorem FlagsKept.refl (vc : QuestionVC) : FlagsKept vc vc := ⟨Nat.le_refl _, fun _ _ hflag => hflag⟩

theorem FlagsKept.trans {u v w : QuestionVC} (h : FlagsKept u v) (h' : FlagsKept v w) : FlagsKept u w :=
  ⟨Nat.le_trans h.1 h'.1, fun r hr hflag => h'.2 r (Nat.lt_of_lt_of_le hr h.1) (h.2 r hr hflag)⟩

theorem mark_flagsKept (vc : QuestionVC) (a : Radio) : FlagsKept vc (vc.mark a) := by
  rcases mark_cases vc a with ⟨-, hm⟩ | ⟨-, -, hm⟩
  · rw [hm]
    exact .refl vc
  · rw [hm]
    refine ⟨Nat.le_refl _, fun r _ hflag => ?_⟩
    by_cases hr : r = vc.currentQuestionGroup
    · simp [hr]
    · simpa only [ObjectArray.obj_modify_of_ne hr] using hflag

theorem Press.flagsKept (hp : Press vc a vc') : FlagsKept vc vc' := by
  have hm := mark_flagsKept vc a
  cases hp with
  | question q on hq => exact hm
  | group r q past hr hq => simpa [FlagsKept] using hm
  | results past hend => simpa [FlagsKept] using hm

theorem step_flagsKept (h : step vc e = some vc') : FlagsKept vc vc' := by
  rcases step_cases h with hi | ⟨a, -, -, hp⟩ | ⟨snapshot, -, hl⟩
  · unfold FlagsKept
    rw [hi.groups]
    exact ⟨Nat.le_refl _, fun _ _ hflag => hflag⟩
  · exact hp.flagsKept
  · obtain ⟨gs, r, q, -, -, -, rfl⟩ := loadQuestionsFromFB_some.1 hl
    refine ⟨ObjectArray.next_le_appendAll gs vc.groups, fun r' hr' hflag => ?_⟩
    rw [displayCurrentQuestion_groups, delivered_groups, ObjectArray.obj_appendAll_of_lt gs vc.groups hr']
    exact hflag

theorem step_mirrors (h : Mirrors vc) (hs : step vc e = some vc') : Mirrors vc' := by
  rcases step_cases hs with hi | ⟨a, -, -, hp⟩ | ⟨snapshot, -, hl⟩
  · exact hi.mirrors h
  · exact hp.mirrors h
  · exact load_mirrors hl h

end QuestionVC

open QuestionVC in
/-- **The array mirrors the flags in every run**: up to order it is the titles of the attached ones of the distinct
group objects of `questionGroups`; the arrays handed over are each a prefix of the next; and on every continuation of
the run the flags that are up stay up. -/
theorem attached_mirror {es : List Event} {vc : QuestionVC} (h : run step initial es = some vc) :
    vc.questionGroups.Nodup ∧
      vc.attachedResourceCategories.Perm
        ((vc.questionGroups.filter fun r => (vc.groups.obj r).attachResource).map fun r => (vc.groups.obj r).title) ∧
      vc.presented.Pairwise (· <+: ·) ∧
      ∀ es' vc', run step vc es' = some vc' → ∀ r < vc.groups.next,
        (vc.groups.obj r).attachResource = true → (vc'.groups.obj r).attachResource = true := by
  have hm : Mirrors vc := run_invariant initial_mirrors (fun _ _ _ hu hs => step_mirrors hu hs) h
  refine ⟨vc.groups.nodup, ?_, hm.prefixes, fun es' vc' h' => ?_⟩
  · simpa [flagged, ObjectArray.values, List.filter_map, Function.comp_def] using hm.mirror
  · have hkept : FlagsKept vc vc' :=
      run_rel FlagsKept.refl (fun _ _ _ => FlagsKept.trans) (fun _ _ _ => step_flagsKept) h'
    exact hkept.2

/-- A run of the sample that attaches a group, redelivers it and attaches another one. -/
theorem attached_mirror_sample :
    ∃ vc, run step QuestionVC.initial [.touch .yes, .next, .qgroup sampleSnapshot, .back, .touch .no, .next,
        .qgroup sampleSnapshot, .touch .no, .next] = some vc ∧
      vc.attachedResourceCategories.Perm
        ((vc.questionGroups.filter fun r => (vc.groups.obj r).attachResource).map
          fun r => (vc.groups.obj r).title) := by
  have hruns : (run step QuestionVC.initial [.touch .yes, .next, .qgroup sampleSnapshot, .back, .touch .no, .next,
      .qgroup sampleSnapshot, .touch .no, .next]).isSome = true := by decide
  obtain ⟨vc, hvc⟩ := Option.isSome_iff_exists.1 hruns
  exact ⟨vc, hvc, (attached_mirror hvc).2.1⟩

end CareDirect.Screener
