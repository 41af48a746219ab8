import Admission.Proofs.Aftermath

/-!
# The peaks that are reported

A category reports the most leases that it held since its last report, when it answers a request
and the last report is long enough ago. It does not look at its number of leases all the time: it
takes note when it answers a request, and after a lease was settled. As the peak starts again from
zero, a lease that is settled first of all after a report leaves the number of leases before
unnoticed.

`Activity.reports_peak` says when this matters. A reported peak is the greatest number of leases in
all states since the report before, or since the creation of the category, unless the request that
brought the report before was refused and at no answer since were as many leases held as then
(`Activity.Overlooks`); in that case the peak is one too small.
-/

set_option autoImplicit false
set_option relaxedAutoImplicit false

namespace Admission

variable {R : Type} [Scalar R]

/-- The peak that a notice reports. -/
def Notice.sample? {R : Type} : Notice R → Option (PeakSample R)
  | .peak sample => some sample
  | _ => none

namespace Category

/-! ### One operation -/

omit [Scalar R] in
theorem cases_samplePeak (category : Category R) (now interval : Nat) :
    (category.samplePeak now interval).2 = none ∧ (category.samplePeak now interval).1 = category ∨
      ∃ sample, (category.samplePeak now interval).2 = some sample ∧
        sample.peakActive = category.peakActive ∧
        (category.samplePeak now interval).1.peakActive = 0 := by
  unfold samplePeak
  split
  · exact .inl ⟨rfl, rfl⟩
  · exact .inr ⟨_, rfl, rfl, rfl⟩

/-- A decision takes note of the leases held, and may report. -/
theorem peak_decide (category : Category R) (totals : Totals R) (now weight : Nat)
    (timings : Timings) (settings : ControllerSettings) :
    (category.decide totals now weight timings settings).peak = none ∧
        (category.decide totals now weight timings settings).category.peakActive =
          max category.peakActive category.active ∨
      ∃ sample, (category.decide totals now weight timings settings).peak = some sample ∧
        sample.peakActive = max category.peakActive category.active ∧
        (category.decide totals now weight timings settings).category.peakActive = 0 := by
  have hweighed : (category.refreshWeight totals now weight timings settings).1.peakActive =
      max category.peakActive category.active := by
    unfold refreshWeight
    split <;> rfl
  rcases cases_samplePeak (category.refreshWeight totals now weight timings settings).1 now
    timings.peakSampleInterval with ⟨hnone, hsame⟩ | ⟨sample, hsome, hpeak, hzero⟩
  · exact .inl ⟨hnone, (congrArg Category.peakActive hsame).trans hweighed⟩
  · exact .inr ⟨sample, hsome, hpeak.trans hweighed, hzero⟩

theorem active_deactivateOne (category : Category R) (totals : Totals R) (grantedAt : Nat) :
    (category.deactivateOne totals grantedAt).1.active = category.active - 1 := by
  unfold deactivateOne
  split
  · next hnone => rw [hnone]
  · rfl

theorem peakActive_deactivateOne (category : Category R) (totals : Totals R) (grantedAt : Nat) :
    (category.deactivateOne totals grantedAt).1.peakActive = category.peakActive :=
  category.view_deactivateOne (·.peakActive) (fun _ _ _ ↦ rfl) totals grantedAt

/-- A settled lease is taken off before note is taken of the leases held. -/
structure LeaseOff (before after : Category R) : Prop where
  active : after.active = before.active - 1
  peakActive : after.peakActive = max before.peakActive after.active

theorem leaseOff_finish (category : Category R) (totals : Totals R) (grantedAt now : Nat)
    (settings : ControllerSettings) :
    LeaseOff category (category.finish totals grantedAt now settings).1 where
  active := active_deactivateOne ..
  peakActive := congrArg (max · _) (peakActive_deactivateOne ..)

theorem leaseOff_abandon (category : Category R) (totals : Totals R) (grantedAt now : Nat)
    (settings : ControllerSettings) :
    LeaseOff category (category.abandon totals grantedAt now settings).1 where
  active := active_deactivateOne ..
  peakActive := congrArg (max · _) (peakActive_deactivateOne ..)

end Category

namespace Controller

variable {controller : Controller R} {source : Source} {settings : ControllerSettings}
  {now position : Nat} {category : Category R}

/-- The peaks that the answer to a request reports. -/
def peaksAt (controller : Controller R) (source : Source) (settings : ControllerSettings)
    (now position : Nat) : List (PeakSample R) :=
  (controller.answerAt source settings now position).notices.filterMap Notice.sample?

/-- The answer to a request reports what was decided to be reported. -/
theorem peaksAt_eq (hcategory : controller.categories[position]? = some category) :
    controller.peaksAt source settings now position =
      (controller.decideFor source settings now category).peak.toList := by
  have hnotices : (controller.answerAt source settings now position).notices =
      controller.decisionNotices now category
        (controller.decideFor source settings now category) := by
    rw [answerAt, hcategory]
    dsimp only
    split <;> rfl
  rw [peaksAt, hnotices, decisionNotices]
  cases (controller.decideFor source settings now category).peak <;>
    cases (controller.decideFor source settings now category).change <;> rfl

theorem peaksAt_of_unknown (hcategory : controller.categories[position]? = none) :
    controller.peaksAt source settings now position = [] := by
  rw [peaksAt, answerAt, hcategory]
  rfl

end Controller

namespace Activity

/-- Whether a request for a category is answered. -/
def Dealing.answers (position : Nat) : Dealing → Bool
  | .answer _ _ _ place => place = position
  | _ => false

/-- The peaks of a category that are reported. -/
def Dealing.reports (controller : Controller R) (position : Nat) : Dealing → List (PeakSample R)
  | .answer source settings now place =>
    if place = position then controller.peaksAt source settings now place else []
  | _ => []

/-- The number of leases of a category, zero if there is no such category. -/
def activeAt {R : Type} (activity : Activity R) (position : Nat) : Nat :=
  (activity.controller.categories[position]?).elim 0 (·.active)

variable {controller : Controller R} {position : Nat} {dealing : Dealing}
  {before after : Category R}

/-- What becomes of the leases of a category and their peak: `answers` says whether a request for
the category is answered, and `told` are the peaks that are reported. -/
inductive Passes (before after : Category R) : (answers : Bool) → (told : List (PeakSample R)) →
    Prop
  | kept (hactive : after.active = before.active) (hpeak : after.peakActive = before.peakActive) :
    Passes before after false []
  | settled (hoff : Category.LeaseOff before after) : Passes before after false []
  | unreported (hactive : after.active = before.active ∨ after.active = before.active + 1)
    (hpeak : after.peakActive = max (max before.peakActive before.active) after.active) :
    Passes before after true []
  | granted {sample : PeakSample R}
    (hsample : sample.peakActive = max before.peakActive before.active)
    (hactive : after.active = before.active + 1) (hpeak : after.peakActive = after.active) :
    Passes before after true [sample]
  | refused {sample : PeakSample R}
    (hsample : sample.peakActive = max before.peakActive before.active)
    (hactive : after.active = before.active) (hpeak : after.peakActive = 0) :
    Passes before after true [sample]

/-- Taking note of the leases held comes before the lease is granted, and granting takes note once
more. -/
theorem passes_answered (controller : Controller R) (source : Source)
    (settings : ControllerSettings) (now : Nat) (before : Category R) :
    Passes before (controller.answered source settings now before) true
      (controller.decideFor source settings now before).peak.toList := by
  have hactive : (controller.decideFor source settings now before).category.active =
      before.active := before.active_decide ..
  have hnoted := before.peak_decide controller.totals now
    (source.baseWeight controller.id settings before.name) controller.timings settings
  rw [← Controller.decideFor] at hnoted
  unfold Controller.answered
  dsimp only
  by_cases hgranted : (controller.decideFor source settings now before).granted = true
  · rw [if_pos hgranted]
    rcases hnoted with ⟨hnone, hpeak⟩ | ⟨sample, hsome, hsample, hzero⟩
    · rw [hnone]
      exact .unreported (.inr (congrArg (· + 1) hactive)) (congrArg (max · _) hpeak)
    · rw [hsome]
      refine .granted hsample (congrArg (· + 1) hactive) ?_
      rw [Category.grant]
      dsimp only
      rw [hzero, Nat.zero_max]
  · rw [if_neg hgranted]
    rcases hnoted with ⟨hnone, hpeak⟩ | ⟨sample, hsome, hsample, hzero⟩
    · rw [hnone]
      refine .unreported (.inl hactive) ?_
      rw [Category.reject]
      dsimp only
      rw [hpeak, hactive, max_assoc, max_self]
    · rw [hsome]
      exact .refused hsample hactive hzero

theorem passes_of_leaves (hleaves : dealing.Leaves controller position after)
    (hbefore : controller.categories[position]? = some before) :
    Passes before after (dealing.answers position) (dealing.reports controller position) := by
  cases hleaves with
  | created _ hnone =>
    rw [hnone] at hbefore
    cases hbefore
  | counted hfound hafter =>
    obtain rfl := Option.some.inj (hfound.symm.trans hbefore)
    rw [hafter]
    exact .kept rfl rfl
  | @answered source settings now _ hfound hafter =>
    obtain rfl := Option.some.inj (hfound.symm.trans hbefore)
    have htold : (Dealing.answer source settings now position).reports controller position = _ :=
      (if_pos rfl).trans (Controller.peaksAt_eq hfound)
    have hanswers : (Dealing.answer source settings now position).answers position = true :=
      decide_eq_true rfl
    rw [htold, hanswers, hafter]
    exact passes_answered ..
  | finished hlease hfound hafter =>
    obtain rfl := Option.some.inj (hfound.symm.trans hbefore)
    rw [hafter]
    exact .settled (Category.leaseOff_finish ..)
  | lost hlease hfound hafter =>
    obtain rfl := Option.some.inj (hfound.symm.trans hbefore)
    rw [hafter]
    exact .settled (Category.leaseOff_abandon ..)
  | kept hfound hidle =>
    obtain rfl := Option.some.inj (hfound.symm.trans hbefore)
    cases dealing with
    | answer source settings now place =>
      have hother : place ≠ position := by
        intro hplace
        rw [Dealing.weighs?, if_pos hplace] at hidle
        cases hidle
      rw [Dealing.answers, Dealing.reports, if_neg hother, decide_eq_false hother]
      exact .kept rfl rfl
    | _ => exact .kept rfl rfl

theorem exists_passes {activity next : Activity R} {event : Event}
    (hstep : activity.step event = some next)
    (hbefore : activity.controller.categories[position]? = some before) :
    ∃ after, next.controller.categories[position]? = some after ∧
      Passes before after ((activity.dealing event).answers position)
        ((activity.dealing event).reports activity.controller position) := by
  have hposition : position < next.controller.categories.size :=
    (Array.getElem?_eq_some_iff.mp hbefore).1.trans_le (size_le_step hstep)
  have hafter := Array.getElem?_eq_getElem hposition
  exact ⟨_, hafter, passes_of_leaves (leaves_step hstep hafter) hbefore⟩

/-! ### Runs -/

variable {activity began last next : Activity R} {events : List Event} {event : Event}

/-- The numbers of leases that a category has in a run of events, in all its states from the first
to the last. -/
def counts (activity : Activity R) (position : Nat) (events : List Event) : List Nat :=
  activity.activeAt position :: (activity.passages events).map (·.after.activeAt position)

/-- The numbers of leases that a category has when its requests have been answered. -/
def answeredCounts (activity : Activity R) (position : Nat) (events : List Event) : List Nat :=
  ((activity.passages events).filter fun passage ↦
    (passage.before.dealing passage.event).answers position).map (·.after.activeAt position)

/-- The peaks of a category that are reported in a run of events. -/
def reports (activity : Activity R) (position : Nat) (events : List Event) :
    List (PeakSample R) :=
  (activity.passages events).flatMap fun passage ↦
    (passage.before.dealing passage.event).reports passage.before.controller position

theorem counts_concat (hrun : activity.run events = some last)
    (hstep : last.step event = some next) (position : Nat) :
    activity.counts position (events ++ [event]) =
      activity.counts position events ++ [next.activeAt position] := by
  rw [counts, passages_concat hrun hstep, List.map_append]
  rfl

theorem answeredCounts_concat (hrun : activity.run events = some last)
    (hstep : last.step event = some next) (position : Nat) :
    activity.answeredCounts position (events ++ [event]) =
      activity.answeredCounts position events ++
        if (last.dealing event).answers position then [next.activeAt position] else [] := by
  rw [answeredCounts, passages_concat hrun hstep, List.filter_append, List.map_append]
  simp only [List.filter_cons, List.filter_nil]
  split <;> rfl

theorem reports_concat (hrun : activity.run events = some last)
    (hstep : last.step event = some next) (position : Nat) :
    activity.reports position (events ++ [event]) = activity.reports position events ++
      (last.dealing event).reports last.controller position := by
  rw [reports, passages_concat hrun hstep, List.flatMap_append, List.flatMap_singleton]
  rfl

/-! ### Since the last report -/

theorem max?_concat {counts : List Nat} {most : Nat} (h : counts.max? = some most) (count : Nat) :
    (counts ++ [count]).max? = some (max most count) := by
  rw [List.max?_eq_some_iff] at h ⊢
  obtain ⟨hmem, hle⟩ := h
  constructor
  · rcases le_total most count with hcount | hcount
    · rw [max_eq_right hcount]
      exact List.mem_append_right _ (List.mem_singleton_self count)
    · rw [max_eq_left hcount]
      exact List.mem_append_left _ hmem
  · intro other hother
    rcases List.mem_append.mp hother with hother | hother
    · exact (hle other hother).trans (le_max_left ..)
    · rw [List.mem_singleton.mp hother]
      exact le_max_right ..

/-- What the peak of a category says about the numbers of its leases since the last report. Either
it is the greatest of them. Or the request that brought the report was refused, no answer since has
found as many leases as there were then, and the peak has started again from zero without regard to
them. -/
inductive Noted (refused : Prop) (first : Nat) (counts answered : List Nat)
    (category : Category R) : Prop
  | abreast (hmax : counts.max? = some category.peakActive)
    (hactive : category.active ≤ category.peakActive)
    (hnoted : refused → first = 0 ∨ ∃ count ∈ answered, first ≤ count)
  | behind (hrefused : refused) (hmax : counts.max? = some first)
    (hfewer : ∀ count ∈ answered, count < first)
    (hlags : category.active = first ∧ category.peakActive = 0 ∨
      category.active < first ∧ category.peakActive + 1 = first)

omit [Scalar R] in
theorem Noted.passes {refused : Prop} {first : Nat} {counts answered : List Nat} {answers : Bool}
    (h : Noted refused first counts answered before) (hpasses : Passes before after answers []) :
    Noted refused first (counts ++ [after.active])
      (answered ++ if answers then [after.active] else []) after := by
  cases h with
  | abreast hmax hactive hnoted =>
    have hmax' := max?_concat hmax after.active
    cases hpasses with
    | kept hsame hpeak =>
      refine .abreast ?_ (by omega) (by simpa using hnoted)
      rw [hmax', hsame, hpeak, max_eq_left hactive]
    | settled hoff =>
      have hactive' := hoff.active
      have hpeak := hoff.peakActive
      refine .abreast ?_ (by omega) (by simpa using hnoted)
      rw [hmax', hpeak]
    | unreported hactive' hpeak =>
      refine .abreast ?_ (by omega) fun hrefused ↦ ?_
      · rw [hmax', hpeak, max_eq_left hactive]
      · refine (hnoted hrefused).imp_right fun ⟨count, hcount, hle⟩ ↦ ⟨count, ?_, hle⟩
        exact List.mem_append_left _ hcount
  | behind hrefused hmax hfewer hlags =>
    have hmax' := max?_concat hmax after.active
    cases hpasses with
    | kept hsame hpeak =>
      refine .behind hrefused ?_ (by simpa using hfewer) (by omega)
      rw [hmax', max_eq_left (by omega)]
    | settled hoff =>
      have hactive' := hoff.active
      have hpeak := hoff.peakActive
      refine .behind hrefused ?_ (by simpa using hfewer) (by omega)
      rw [hmax', max_eq_left (by omega)]
    | unreported hactive' hpeak =>
      by_cases hback : first ≤ after.active
      · refine .abreast ?_ (by omega) fun _ ↦ .inr ⟨after.active, by simp, hback⟩
        rw [hmax', Option.some_inj]
        omega
      · refine .behind hrefused ?_ ?_ (by omega)
        · rw [hmax', max_eq_left (by omega)]
        · simp only [if_true, List.mem_append, List.mem_singleton]
          rintro count (hcount | rfl)
          · exact hfewer count hcount
          · omega

omit [Scalar R] in
theorem activeAt_of_some {category : Category R}
    (hcategory : activity.controller.categories[position]? = some category) :
    activity.activeAt position = category.active := by
  rw [activeAt, hcategory]
  rfl

/-- The peak of a category starts from zero: when the category is created, and when a request for it
is answered that reports the peak. -/
def Opens (position : Nat) (reached : Activity R) (opening : Event) (began : Activity R) : Prop :=
  reached.controller.categories[position]? = none ∧ position < began.controller.categories.size ∨
    (reached.dealing opening).reports reached.controller position ≠ []

variable {reached : Activity R} {opening : Event}

theorem exists_of_reports {controller : Controller R} {sample : PeakSample R}
    (h : sample ∈ dealing.reports controller position) :
    ∃ category, controller.categories[position]? = some category ∧
      sample.peakActive = max category.peakActive category.active := by
  cases dealing with
  | answer source settings now place =>
    by_cases hplace : place = position
    · subst hplace
      rw [Dealing.reports, if_pos rfl] at h
      rcases hcategory : controller.categories[place]? with _ | category
      · rw [Controller.peaksAt_of_unknown hcategory] at h
        cases h
      · rw [Controller.peaksAt_eq hcategory, Option.mem_toList] at h
        refine ⟨category, rfl, ?_⟩
        rcases category.peak_decide controller.totals now
          (source.baseWeight controller.id settings category.name) controller.timings settings with
          ⟨hnone, -⟩ | ⟨told, hsome, hpeak, -⟩
        · rw [Controller.decideFor, hnone] at h
          cases h
        · rw [Controller.decideFor, hsome] at h
          cases h
          exact hpeak
    · rw [Dealing.reports, if_neg hplace] at h
      cases h
  | _ => cases h

/-- A category that is created holds nothing. -/
theorem Opens.noted_of_created (hstep : reached.step opening = some began)
    (hnone : reached.controller.categories[position]? = none) {category : Category R}
    (hcategory : began.controller.categories[position]? = some category) (refused : Prop) :
    Noted refused (began.activeAt position) (began.counts position [])
      (began.answeredCounts position []) category := by
  have hactive := activeAt_of_some hcategory
  have hfresh : category.active = 0 ∧ category.peakActive = 0 := by
    have hleaves := leaves_step hstep hcategory
    generalize reached.dealing opening = dealing at hleaves
    cases hleaves with
    | created _ _ hafter =>
      rw [hafter]
      exact ⟨rfl, rfl⟩
    | counted hbefore | answered hbefore | finished _ hbefore | lost _ hbefore | kept hbefore =>
      rw [hnone] at hbefore
      cases hbefore
  refine .abreast ?_ (by omega) fun _ ↦ .inl (by omega)
  rw [counts, hactive, hfresh.1, hfresh.2]
  rfl

/-- A request that reports the peak leaves the peak at as many leases as are held if it is granted,
and at zero if it is refused. -/
theorem Opens.noted_of_reports (hstep : reached.step opening = some began)
    (hreports : (reached.dealing opening).reports reached.controller position ≠ []) :
    ∃ category, began.controller.categories[position]? = some category ∧
      Noted (began.activeAt position = reached.activeAt position) (began.activeAt position)
        (began.counts position []) (began.answeredCounts position []) category := by
  obtain ⟨sample, hsample⟩ := List.exists_mem_of_ne_nil _ hreports
  obtain ⟨before, hbefore, -⟩ := exists_of_reports hsample
  obtain ⟨after, hafter, hpasses⟩ := exists_passes hstep hbefore
  have hreached := activeAt_of_some hbefore
  have hbegan := activeAt_of_some hafter
  refine ⟨after, hafter, ?_⟩
  generalize (reached.dealing opening).reports reached.controller position = told,
    (reached.dealing opening).answers position = answers at hpasses hreports
  cases hpasses with
  | kept | settled | unreported => exact absurd rfl hreports
  | granted _ hactive hpeak =>
    refine .abreast ?_ (by omega) fun hrefused ↦ by omega
    rw [counts, hbegan, hpeak]
    rfl
  | refused _ hactive hpeak =>
    refine .behind (by omega) ?_ ?_ (.inl ⟨hbegan.symm, hpeak⟩)
    · rfl
    · simp [answeredCounts, passages]

theorem Opens.noted (hopens : Opens position reached opening began)
    (hstep : reached.step opening = some began) :
    ∃ category, began.controller.categories[position]? = some category ∧
      Noted (began.activeAt position = reached.activeAt position) (began.activeAt position)
        (began.counts position []) (began.answeredCounts position []) category := by
  rcases hopens with ⟨hnone, hposition⟩ | hreports
  · have hcategory := Array.getElem?_eq_getElem hposition
    exact ⟨_, hcategory, noted_of_created hstep hnone hcategory _⟩
  · exact noted_of_reports hstep hreports

/-- As long as no peak is reported the peak goes on to say what it said. -/
theorem Opens.noted_run (hopens : Opens position reached opening began)
    (hstep : reached.step opening = some began) (hrun : began.run events = some last)
    (hquiet : began.reports position events = []) :
    ∃ category, last.controller.categories[position]? = some category ∧
      Noted (began.activeAt position = reached.activeAt position) (began.activeAt position)
        (began.counts position events) (began.answeredCounts position events) category := by
  induction events using List.reverseRecOn generalizing last with
  | nil =>
    cases hrun
    exact hopens.noted hstep
  | append_singleton events event ih =>
    obtain ⟨middle, hmiddle, hnext⟩ := foldlM_concat_eq_some_iff.mp hrun
    rw [reports_concat hmiddle hnext, List.append_eq_nil_iff] at hquiet
    obtain ⟨before, hbefore, hnoted⟩ := ih hmiddle hquiet.1
    obtain ⟨after, hafter, hpasses⟩ := exists_passes hnext hbefore
    rw [hquiet.2] at hpasses
    refine ⟨after, hafter, ?_⟩
    rw [counts_concat hmiddle hnext, answeredCounts_concat hmiddle hnext, activeAt_of_some hafter]
    exact hnoted.passes hpasses

/-- The leases that were held when the last report was made are overlooked: the request that brought
it was refused, and neither at an answer since nor in the end were as many leases held. -/
structure Overlooks (position : Nat) (reached began : Activity R) (between : List Event)
    (ended : Activity R) : Prop where
  refused : began.activeAt position = reached.activeAt position
  fewer : ∀ count ∈ began.answeredCounts position between, count < began.activeAt position
  ended : ended.activeAt position < began.activeAt position

/-- A peak that is reported is the greatest number of leases that the category had since the last
report, or since its creation, in all states from the one right after that on; but if the leases
held then are overlooked, it is one too small. -/
theorem reports_peak {between : List Event} {closing : Event} {ended : Activity R}
    (hopening : reached.step opening = some began) (hopens : Opens position reached opening began)
    (hbetween : began.run between = some ended) (hquiet : began.reports position between = [])
    {sample : PeakSample R}
    (hsample : sample ∈ (ended.dealing closing).reports ended.controller position) :
    (¬Overlooks position reached began between ended →
        (began.counts position between).max? = some sample.peakActive) ∧
      (Overlooks position reached began between ended →
        (began.counts position between).max? = some (sample.peakActive + 1)) := by
  obtain ⟨category, hcategory, hnoted⟩ := hopens.noted_run hopening hbetween hquiet
  obtain ⟨other, hother, hpeak⟩ := exists_of_reports hsample
  obtain rfl := Option.some.inj (hcategory.symm.trans hother)
  have hactive := activeAt_of_some hcategory
  cases hnoted with
  | abreast hmax hle hlooked =>
    constructor
    · intro _
      rw [hmax, hpeak, max_eq_left hle]
    · intro hoverlooks
      exfalso
      rcases hlooked hoverlooks.refused with hzero | ⟨count, hcount, hle⟩
      · have := hoverlooks.ended
        omega
      · have := hoverlooks.fewer count hcount
        omega
  | behind hrefused hmax hfewer hlags =>
    constructor
    · intro hsees
      have hback : category.active = began.activeAt position := by
        by_contra hless
        exact hsees ⟨hrefused, hfewer, by omega⟩
      rw [hmax, Option.some_inj]
      omega
    · intro hoverlooks
      have hfewer := hoverlooks.ended
      rw [hmax, Option.some_inj]
      omega

/-- Such a run: since its creation a category has held up to two leases, one of which is released
before the first report. -/
theorem reports_peak_two :
    ∃ (reached began ended : Activity Rat) (opening closing : Event) (between : List Event)
      (sample : PeakSample Rat),
      reached.step opening = some began ∧ Opens 0 reached opening began ∧
      began.run between = some ended ∧ began.reports 0 between = [] ∧
      sample ∈ (ended.dealing closing).reports ended.controller 0 ∧
      ¬Overlooks 0 reached began between ended ∧
      (began.counts 0 between).max? = some sample.peakActive ∧ sample.peakActive = 2 ∧
      ended.activeAt 0 = 1 := by
  let settings : ControllerSettings := { threshold := 2 }
  let source : Source := ⟨fun _ ↦ ⟨1, settings⟩, fun _ _ ↦ none⟩
  let reached : Activity Rat := quiet (.build "main" {} source 0) []
  let opening : Event := .lookUp source 0 "a"
  let between : List Event :=
    [.answer source settings 0 0, .answer source settings 0 0, .takeRelease ⟨0, 0, 0⟩,
      .settle settings 500 ⟨0, 0, 0⟩]
  let closing : Event := .answer source settings 1000 0
  have hpossible : ((reached.step opening).bind (·.run between)).isSome = true := by decide +kernel
  have hfacts : ∀ began ∈ reached.step opening, ∀ ended ∈ began.run between,
      0 < began.controller.categories.size ∧ (began.reports 0 between).length = 0 ∧
      ((ended.dealing closing).reports ended.controller 0).map (·.peakActive) = [2] ∧
      began.activeAt 0 = 0 ∧ ended.activeAt 0 = 1 := by
    decide +kernel
  obtain ⟨ended, hended⟩ := Option.isSome_iff_exists.mp hpossible
  obtain ⟨began, hopening, hbetween⟩ := Option.bind_eq_some_iff.mp hended
  obtain ⟨hsize, hlength, hpeaks, hnothing, hone⟩ := hfacts began hopening ended hbetween
  have hopens : Opens 0 reached opening began := .inl ⟨rfl, hsize⟩
  have hquiet : began.reports 0 between = [] := List.eq_nil_of_length_eq_zero hlength
  obtain ⟨sample, hsample, htwo⟩ := List.mem_map.mp (hpeaks ▸ List.mem_singleton_self 2)
  have hsees : ¬Overlooks 0 reached began between ended := by
    intro hoverlooks
    have hended := hoverlooks.ended
    omega
  have hmax := (reports_peak hopening hopens hbetween hquiet hsample).1 hsees
  exact ⟨reached, began, ended, opening, closing, between, sample, hopening, hopens, hbetween,
    hquiet, hsample, hsees, hmax, htwo, hone⟩

/-- A report that overlooks leases: under a ceiling of two a third request is refused and reports
the peak, and then one of the two leases is released. The next report is of one lease, though two
were held right after the report before. -/
theorem overlooks_released :
    ∃ (source : Source) (before between : List Event) (opening closing : Event)
      (reached began ended : Activity Rat) (sample : PeakSample Rat),
      (quiet (.build "main" {} source 0) []).run before = some reached ∧
      reached.step opening = some began ∧ Opens 0 reached opening began ∧
      began.run between = some ended ∧ began.reports 0 between = [] ∧
      sample ∈ (ended.dealing closing).reports ended.controller 0 ∧ sample.peakActive = 1 ∧
      began.counts 0 between = [2, 2, 1] ∧
      (began.counts 0 between).max? ≠ some sample.peakActive := by
  let settings : ControllerSettings := { threshold := 2 }
  let source : Source := ⟨fun _ ↦ ⟨1, settings⟩, fun _ _ ↦ none⟩
  let start : Activity Rat := quiet (.build "main" {} source 0) []
  let before : List Event :=
    [.lookUp source 0 "a", .answer source settings 0 0, .answer source settings 0 0]
  let opening : Event := .answer source settings 1000 0
  let between : List Event := [.takeRelease ⟨0, 0, 0⟩, .settle settings 1000 ⟨0, 0, 0⟩]
  let closing : Event := .answer source settings 2000 0
  have hpossible : (((start.run before).bind (·.step opening)).bind (·.run between)).isSome =
      true := by
    decide +kernel
  have hfacts : ∀ reached ∈ start.run before, ∀ began ∈ reached.step opening,
      ∀ ended ∈ began.run between,
      ((reached.dealing opening).reports reached.controller 0).length = 1 ∧
      (began.reports 0 between).length = 0 ∧
      ((ended.dealing closing).reports ended.controller 0).map (·.peakActive) = [1] ∧
      began.counts 0 between = [2, 2, 1] := by
    decide +kernel
  obtain ⟨ended, hended⟩ := Option.isSome_iff_exists.mp hpossible
  obtain ⟨began, hbegan, hbetween⟩ := Option.bind_eq_some_iff.mp hended
  obtain ⟨reached, hreached, hopening⟩ := Option.bind_eq_some_iff.mp hbegan
  obtain ⟨hreport, hlength, hpeaks, hcounts⟩ :=
    hfacts reached hreached began hopening ended hbetween
  have hopens : Opens 0 reached opening began :=
    .inr (List.length_pos_iff.mp (hreport ▸ Nat.one_pos))
  obtain ⟨sample, hsample, hone⟩ := List.mem_map.mp (hpeaks ▸ List.mem_singleton_self 1)
  refine ⟨source, before, between, opening, closing, reached, began, ended, sample, hreached,
    hopening, hopens, hbetween, List.eq_nil_of_length_eq_zero hlength, hsample, hone, hcounts, ?_⟩
  rw [hcounts, hone]
  decide

end Activity

end Admission
