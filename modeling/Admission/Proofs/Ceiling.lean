import Admission.Proofs.Shares

/-!
# How many leases a category can hold

While no request is granted by a controller that refuses nobody, what a category may hold is bounded
by the ceilings that were in force when requests were answered (`Occasion.within_ceiling`): one
grant leads to the limit of the category or, if unused slots are lent, to the ceiling for all
categories together, and neither limit nor ceiling is above the greatest ceiling so far. The ceiling
may have been lowered since, so the bound is the greatest one and not the latest.
-/

set_option autoImplicit false
set_option relaxedAutoImplicit false

namespace Admission

open Ledger (Reclaimed)

/-- The greatest ceiling among those in force at some admissions, but at least one. -/
def greatestCeiling (admissions : List ControllerSettings) : Nat :=
  (admissions.map (·.threshold)).foldr max 1

theorem threshold_le_greatestCeiling {admissions : List ControllerSettings}
    {settings : ControllerSettings} (h : settings ∈ admissions) :
    settings.threshold ≤ greatestCeiling admissions := by
  induction admissions with
  | nil => cases h
  | cons first rest ih =>
    rcases List.mem_cons.mp h with rfl | hmem
    · exact le_max_left ..
    · exact (ih hmem).trans (le_max_right ..)

theorem one_le_greatestCeiling (admissions : List ControllerSettings) :
    1 ≤ greatestCeiling admissions := by
  induction admissions with
  | nil => exact le_rfl
  | cons first rest ih => exact ih.trans (le_max_right ..)

namespace Category

variable {R : Type} [Scalar R]

theorem active_deactivateOne_le (category : Category R) (totals : Totals R) (grantedAt : Nat) :
    (category.deactivateOne totals grantedAt).1.active ≤ category.active := by
  unfold deactivateOne
  split
  · exact le_rfl
  · exact Nat.sub_le ..

theorem active_finish_le (category : Category R) (totals : Totals R) (grantedAt now : Nat)
    (settings : ControllerSettings) :
    (category.finish totals grantedAt now settings).1.active ≤ category.active :=
  active_deactivateOne_le ..

theorem active_abandon_le (category : Category R) (totals : Totals R) (grantedAt now : Nat)
    (settings : ControllerSettings) :
    (category.abandon totals grantedAt now settings).1.active ≤ category.active :=
  active_deactivateOne_le ..

omit [Scalar R] in
/-- If no category holds more than a bound, all together hold no more than the bound for each
category that holds a lease. -/
theorem sum_active_le {categories : List (Category R)} {bound : Nat}
    (h : ∀ category ∈ categories, category.active ≤ bound) :
    (categories.map (·.active)).sum ≤
      categories.countP (fun category ↦ 0 < category.active) * bound := by
  induction categories with
  | nil => exact Nat.zero_le _
  | cons first rest ih =>
    have hfirst : first.active ≤ bound := h first List.mem_cons_self
    have hrest := ih fun category hmem ↦ h category (List.mem_cons_of_mem _ hmem)
    rw [List.map_cons, List.sum_cons, List.countP_cons, Nat.add_mul]
    by_cases hholds : 0 < first.active
    · simp only [hholds, decide_true, if_true, one_mul]
      omega
    · simp only [hholds, decide_false, Bool.false_eq_true, if_false]
      omega

end Category

namespace Controller

variable {controller changed plain : Controller Rat} {source : Source} {now position bound : Nat}
  {settings : ControllerSettings} {category : Category Rat}

theorem InOrder.active_le_totalActive {R : Type} {controller : Controller R} {category : Category R}
    (h : controller.InOrder) (hcategory : controller.categories[position]? = some category) :
    category.active ≤ controller.totals.totalActive := by
  rw [h.accounted.active position category hcategory, h.accounted.outstanding]
  exact List.countP_le_length

/-- A limit is at most the ceiling it is a part of. -/
theorem Regular.limit_le (h : plain.Regular)
    (hcategory : plain.categories[position]? = some category) :
    (plain.decideFor source settings now category).category.limit ≤ max 1 settings.threshold := by
  rw [decideFor, Category.limit_decide]
  exact Category.fairLimit_le (h.nonneg_decide hcategory).adjustedWeight
    (h.weight_le_allWeight hcategory) settings.threshold

/-- A grant leads to the limit of the category or, if unused slots are lent, to the ceiling for all
categories together. -/
theorem granted_within {lease : Lease} {after : Category Rat}
    (hcategory : plain.categories[position]? = some category)
    (hdecided : Decided (plain.decideFor source settings now category) after)
    (henabled : settings.enabled = true)
    (hanswer : (plain.answerAt source settings now position).answer = .ok lease) :
    after.active ≤ after.limit ∨ settings.shareUnused = true ∧
      (plain.answerAt source settings now position).controller.totals.totalActive ≤
        settings.threshold := by
  have hgranted := granted_of_ok hcategory hanswer
  rcases granted_decideFor_iff.mp hgranted with hfree | hbelow | ⟨hshare, hunused⟩
  · rw [henabled] at hfree
    cases hfree
  · left
    have hactive : after.active = category.active + 1 := by
      rw [hdecided.active, if_pos hgranted]
      exact congrArg (· + 1) (category.active_decide ..)
    rw [hactive, hdecided.limit]
    exact hbelow
  · right
    have htotal := (plain.keepsCounts_decideFor source settings now category).totalActive
    rw [(answerAt_of_granted hcategory hgranted).1]
    refine ⟨hshare, ?_⟩
    change ((plain.decideFor source settings now category).category.grant
      (plain.decideFor source settings now category).totals now).2.totalActive ≤ settings.threshold
    rw [Category.totalActive_grant, htotal]
    exact hunused

/-- The counts are in order, and no category holds more leases than the bound. -/
structure Bounded (bound : Nat) (controller : Controller Rat) : Prop where
  regular : controller.Regular
  active_le : ∀ category ∈ controller.categories, category.active ≤ bound

/-- A request that is answered below the bound leaves no category above it. -/
theorem Bounded.active_answerAt (h : Bounded bound controller)
    (henabled : controller.current.enabled = true) (hone : 1 ≤ bound)
    (hthreshold : controller.current.threshold ≤ bound) (position : Nat) :
    ∀ category ∈
      (controller.answerAt source controller.current now position).controller.categories,
        category.active ≤ bound := by
  rcases hfound : controller.categories[position]? with _ | category
  · rw [answerAt, hfound]
    exact h.active_le
  · obtain ⟨hle, hactive⟩ : category.active ≤ bound ∧
        (controller.decideFor source controller.current now category).category.active =
          category.active :=
      ⟨h.active_le category (Array.mem_of_getElem? hfound), category.active_decide ..⟩
    by_cases hgranted :
        (controller.decideFor source controller.current now category).granted = true
    · rw [(answerAt_of_granted hfound hgranted).1]
      -- One lease more is within the limit, or within the ceiling for all categories together.
      have hroom : category.active < bound := by
        rcases granted_decideFor_iff.mp hgranted with hfree | hbelow | ⟨-, hunused⟩
        · rw [henabled] at hfree
          cases hfree
        · exact hbelow.trans_le ((h.regular.limit_le hfound).trans (max_le hone hthreshold))
        · have htotal := h.regular.inOrder.active_le_totalActive hfound
          omega
      have hnext : ((controller.decideFor source controller.current now category).category.grant
          (controller.decideFor source controller.current now category).totals now).1.active ≤
            bound :=
        (congrArg (· + 1) hactive).trans_le hroom
      exact forall_replace h.active_le hnext rfl
    · rw [Bool.not_eq_true] at hgranted
      have hnext : (controller.decideFor source controller.current now
          category).category.reject.active ≤ bound :=
        hactive.trans_le hle
      rw [(answerAt_of_refused hfound hgranted).1]
      exact forall_replace h.active_le hnext rfl

/-- No category comes to hold more than the bound if requests are answered below it. -/
theorem Bounded.advances {asked : Option ControllerSettings} (h : Bounded bound controller)
    (hasked : ∀ settings ∈ asked, settings.enabled = true ∧ settings.threshold ≤ bound)
    (hone : 1 ≤ bound) (hadvance : Advances source now asked controller changed) :
    Bounded bound changed := by
  refine ⟨h.regular.advances hadvance, ?_⟩
  cases hadvance with
  | read => exact h.active_le
  | create =>
    intro category hmem
    rcases Array.mem_push.mp hmem with hmem | rfl
    · exact h.active_le category hmem
    · exact Nat.zero_le _
  | count hfresh position =>
    exact forall_updateCategory h.active_le position fun category totals hle ↦ hle
  | sweep hfresh =>
    exact forall_abandonAll _ (fun category totals grantedAt hle ↦
      (category.active_abandon_le totals grantedAt ..).trans hle) h.active_le
  | answer hfresh hcurrent position =>
    obtain ⟨henabled, hthreshold⟩ := hasked controller.current hcurrent
    exact h.active_answerAt henabled hone hthreshold position
  | finish =>
    apply forall_updateCategory
    · exact h.active_le
    · exact fun category totals hle ↦ (category.active_finish_le totals ..).trans hle
  | mark => exact h.active_le

end Controller

namespace Occasion

variable {occasion : Occasion}

/-- If no request before was answered by a controller that refuses nobody, no category holds more
than the greatest ceiling so far. -/
theorem bounded_controller
    (henabled : ∀ settings ∈ occasion.admissions Rat, settings.enabled = true) :
    (occasion.controller Rat).Bounded (greatestCeiling (occasion.admissions Rat)) := by
  refine Controller.run_keeps (fun _ ↦ True)
    (fun settings ↦ settings.enabled = true ∧
      settings.threshold ≤ greatestCeiling (occasion.admissions Rat))
    (fun _ hasked hadvance h ↦ h.advances hasked (one_le_greatestCeiling _) hadvance)
    (fun _ _ ↦ trivial) ?_ ⟨Controller.regular_build .., by simp [Controller.build]⟩
  exact fun settings hmem ↦ ⟨henabled settings hmem, threshold_le_greatestCeiling hmem⟩

/-- While requests are refused at all, no category holds more than the greatest ceiling so far, and
so all together hold no more than that for each category with a lease. A request for a category that
is there is decided by a limit within the present ceiling, and if it is granted the category stays
within the limit, or unused slots are lent and all together stay within the ceiling. -/
theorem within_ceiling (occasion : Occasion)
    (henabled : ∀ settings ∈ occasion.admissions Rat, settings.enabled = true) :
    (∀ category ∈ (occasion.controller Rat).categories,
        category.active ≤ greatestCeiling (occasion.admissions Rat)) ∧
      (occasion.controller Rat).totals.totalActive ≤
        (occasion.controller Rat).totals.activeCategories *
          greatestCeiling (occasion.admissions Rat) ∧
      (occasion.Known Rat → ∃ category,
        (occasion.outcome Rat).controller.categories[occasion.position]? = some category ∧
          category.limit ≤ max 1 (occasion.settings Rat).threshold ∧
          ((occasion.settings Rat).enabled = true →
            ∀ lease, (occasion.outcome Rat).answer = .ok lease →
              category.active ≤ category.limit ∨
                (occasion.settings Rat).shareUnused = true ∧
                  (occasion.outcome Rat).controller.totals.totalActive ≤
                    (occasion.settings Rat).threshold)) := by
  have hbounded := bounded_controller henabled
  have haccounted := hbounded.regular.inOrder.accounted
  refine ⟨hbounded.active_le, ?_, ?_⟩
  · rw [haccounted.totalActive, haccounted.activeCategories]
    exact Category.sum_active_le fun category hmem ↦
      hbounded.active_le category (Array.mem_toList_iff.mp hmem)
  · intro hknown
    obtain ⟨category, hcategory⟩ := exists_category hknown
    obtain ⟨after, hafter, hdecided⟩ := Controller.exists_decided occasion.source
      (occasion.settings Rat) occasion.now hcategory
    rw [controller_outcome, answer_outcome]
    refine ⟨after, hafter, ?_, ?_⟩
    · rw [hdecided.limit]
      exact regular_plain.limit_le hcategory
    · exact fun hon lease hlease ↦ Controller.granted_within hcategory hdecided hon hlease

/-- Such a request: under a ceiling of four the first of two equal categories has its two leases and
the other has one, and the slot that is left is lent to the first. -/
theorem within_ceiling_lending :
    ∃ occasion : Occasion,
      (∀ settings ∈ occasion.admissions Rat, settings.enabled = true) ∧
      (occasion.admissions Rat).length = 3 ∧
      (occasion.controller Rat).totals.totalActive = 3 ∧
      (occasion.outcome Rat).answer = .ok ⟨3, 0, 0⟩ ∧
      ∃ category,
        (occasion.outcome Rat).controller.categories[occasion.position]? = some category ∧
        (category.active ≤ category.limit ∨ (occasion.settings Rat).shareUnused = true ∧
          (occasion.outcome Rat).controller.totals.totalActive ≤
            (occasion.settings Rat).threshold) := by
  let source : Source := ⟨fun _ ↦ ⟨1, { threshold := 4, shareUnused := true }⟩, fun _ _ ↦ none⟩
  let occasion : Occasion :=
    { id := "main"
      timings := {}
      built := source
      start := 0
      moves := [⟨.request "a", source, 0⟩, ⟨.request "b", source, 0⟩, ⟨.request "a", source, 0⟩]
      source
      now := 0
      position := 0 }
  have henabled : ∀ settings ∈ occasion.admissions Rat, settings.enabled = true := by
    decide +kernel
  have hknown : occasion.Known Rat := by decide +kernel
  have hanswer : (occasion.outcome Rat).answer = .ok ⟨3, 0, 0⟩ := by decide +kernel
  obtain ⟨-, -, hrequest⟩ := within_ceiling occasion henabled
  obtain ⟨category, hcategory, -, hgrant⟩ := hrequest hknown
  have hwithin := hgrant (by decide +kernel) _ hanswer
  exact ⟨occasion, henabled, by decide +kernel, by decide +kernel, hanswer, category, hcategory,
    hwithin⟩

end Occasion

end Admission
