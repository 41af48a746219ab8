import Admission.Proofs.Shares

/-!
# When a request is refused

A limit is at least one, whatever the settings and the weights, so a request for a category without
leases is granted. A refusal tells the number of leases of the category and a limit that they fill,
and comes only from a controller that refuses requests at all and has no unused slots to lend
(`Occasion.refused_only_at_limit`). All this needs of the arithmetic is that a number from one on
has a whole part from one on (`Scalar.Truncates`), so it holds in rounded arithmetic too.

In exact arithmetic a category that holds all the leases there are is refused only when it has the
whole ceiling.
-/

set_option autoImplicit false
set_option relaxedAutoImplicit false

namespace Admission

/-- The whole part of a number that is at least one is at least one. -/
class Scalar.Truncates (R : Type) [Scalar R] : Prop where
  one_le_ofNat : ∀ count : Nat, 1 ≤ count → (Scalar.ofNat 1 : R) ≤ Scalar.ofNat count
  one_le_truncate : ∀ value : R, Scalar.ofNat 1 ≤ value → 1 ≤ Scalar.truncate value

instance : Scalar.Truncates Rat where
  one_le_ofNat count hcount := Nat.cast_le.mpr hcount
  one_le_truncate value hvalue := by
    have hfloor : (1 : ℤ) ≤ value.floor := Int.le_floor.mpr (by exact_mod_cast hvalue)
    change 1 ≤ value.floor.toNat
    omega

variable {R : Type} [Scalar R]

/-- Every category may hold one lease. -/
theorem Category.one_le_fairLimit [Scalar.Truncates R] (category : Category R) (totals : Totals R)
    (threshold : Nat) : 1 ≤ category.fairLimit totals threshold := by
  unfold fairLimit limitOfShare
  split
  · next hshare =>
    refine Scalar.Truncates.one_le_truncate _ ?_
    split
    · exact hshare.2
    · exact Scalar.Truncates.one_le_ofNat _ (by decide)
  · exact le_rfl

namespace Controller

variable {plain : Controller R} {source : Source} {settings : ControllerSettings}
  {now position : Nat} {category : Category R}

omit [Scalar R] in
/-- If all leases are those of one category, no other category is active. -/
theorem InOrder.activeCategories_alone (h : plain.InOrder)
    (hcategory : plain.categories[position]? = some category)
    (halone : ∀ lease ∈ plain.ledger.outstanding, lease.category = position) :
    plain.totals.activeCategories = if category.isActive then 1 else 0 := by
  -- If the category held nothing, no category would be active.
  let idle : Category R := { category with active := 0 }
  have hothers : (plain.categories.setIfInBounds position idle).toList.countP (·.isActive) = 0 := by
    rw [List.countP_eq_zero]
    intro other hmem
    let without : Controller R :=
      { plain with categories := plain.categories.setIfInBounds position idle }
    have hcategories : without.categories = plain.categories.setIfInBounds position idle := rfl
    have hnone : other.active = 0 := by
      rcases mem_replace hcategories (Array.mem_toList_iff.mp hmem) with
        rfl | ⟨place, hposition, hplace⟩
      · rfl
      · rw [h.accounted.active place other hplace, List.countP_eq_zero]
        intro lease hlease
        simpa [halone lease hlease] using hposition.symm
    simp [Category.isActive, hnone]
  have hcount := Balanced.countP_replace hcategory idle
  have hidle : idle.isActive = false := rfl
  rw [hothers, hidle] at hcount
  have hactive : plain.totals.activeCategories = plain.categories.toList.countP (·.isActive) :=
    h.accounted.activeCategories
  simp only [Bool.false_eq_true, if_false] at hcount
  omega

/-- A category that weighs something and holds all the leases there are gets the whole ceiling. -/
theorem Regular.limit_alone {plain : Controller Rat} {category : Category Rat} (h : plain.Regular)
    (hcategory : plain.categories[position]? = some category)
    (halone : ∀ lease ∈ plain.ledger.outstanding, lease.category = position)
    (hweight : 0 < (plain.decideFor source settings now category).category.adjustedWeight) :
    (plain.decideFor source settings now category).category.limit =
      max 1 (min settings.threshold Category.maxLimit) := by
  have hcarried : Carried _ _ _ ((plain.decideFor source settings now category).category,
      (plain.decideFor source settings now category).totals) :=
    h.carried_decide hcategory
  have hothers : plain.totals.activeCategories - (if category.isActive then 1 else 0) = 0 := by
    rw [h.inOrder.activeCategories_alone hcategory halone, Nat.sub_self]
  have hall := hcarried.allWeight_eq
  rw [(hcarried.alone hothers).1, zero_add] at hall
  rw [decideFor, Category.limit_decide]
  exact Category.fairLimit_alone hweight hall settings.threshold

end Controller

namespace Occasion

variable {occasion : Occasion}

/-- What a refusal goes by, and what it tells: how many leases the category has, and its limit. -/
structure Refusal (occasion : Occasion) (R : Type) [Scalar R] (active limit : Nat) : Prop where
  one_le_limit : 1 ≤ limit
  limit_le : limit ≤ active
  active_eq : active = (occasion.outcome R).controller.ledger.outstanding.countP
    fun lease ↦ lease.category = occasion.position
  enabled : (occasion.settings R).enabled = true
  unlent : (occasion.settings R).shareUnused = true →
    (occasion.settings R).threshold ≤ (occasion.outcome R).controller.totals.totalActive

/-- A refused request was decided to be refused, and tells what it was decided by. -/
theorem exists_refusal [Scalar.Truncates R] (hknown : occasion.Known R) {error : AdmissionError}
    (hanswer : (occasion.outcome R).answer = .error error) :
    ∃ category, (occasion.plain R).categories[occasion.position]? = some category ∧
      error = .rejected category.name category.active
        ((occasion.plain R).decideFor occasion.source (occasion.settings R) occasion.now
          category).category.limit ∧
      occasion.Refusal R category.active
        ((occasion.plain R).decideFor occasion.source (occasion.settings R) occasion.now
          category).category.limit := by
  obtain ⟨category, hcategory⟩ := exists_category hknown
  rw [answer_outcome] at hanswer
  have hrefused := Controller.refused_of_error hcategory hanswer
  obtain ⟨hafter, -⟩ := Controller.refused hanswer
  rw [← controller_outcome] at hafter
  rw [(Controller.answerAt_of_refused hcategory hrefused).2] at hanswer
  have hno : ¬((occasion.settings R).enabled = false ∨
      category.active < ((occasion.plain R).decideFor occasion.source (occasion.settings R)
        occasion.now category).category.limit ∨
      (occasion.settings R).shareUnused = true ∧
        (occasion.plain R).totals.totalActive < (occasion.settings R).threshold) := by
    rw [← Controller.granted_decideFor_iff, hrefused]
    exact Bool.false_ne_true
  rw [not_or, not_or, not_and, Bool.not_eq_false, Nat.not_lt, Nat.not_lt] at hno
  obtain ⟨henabled, hlimit, hlend⟩ := hno
  refine ⟨category, hcategory, (Except.error.inj hanswer).symm, ?_, hlimit, ?_, henabled, ?_⟩
  · exact Category.one_le_fairLimit ..
  · rw [hafter.ledger]
    exact inOrder_plain.accounted.active occasion.position category hcategory
  · rw [hafter.totalActive]
    exact hlend

/-- A category without leases is not refused one. -/
theorem granted_of_idle [Scalar.Truncates R] (hknown : occasion.Known R)
    (hidle : ∀ lease ∈ (occasion.plain R).ledger.outstanding,
      lease.category ≠ occasion.position) :
    ∃ lease, (occasion.outcome R).answer = .ok lease := by
  rcases hanswer : (occasion.outcome R).answer with error | lease
  · obtain ⟨category, hcategory, -, hrefusal⟩ := exists_refusal hknown hanswer
    have hactive := inOrder_plain.accounted.active occasion.position category hcategory
    have hnone : ((occasion.plain R).ledger.outstanding.countP
        fun lease ↦ lease.category = occasion.position) = 0 := by
      simpa using hidle
    have hone := hrefusal.one_le_limit.trans hrefusal.limit_le
    omega
  · exact ⟨lease, rfl⟩

/-- A category that weighs something and holds all the leases there are is refused only at the
ceiling. -/
theorem threshold_le_of_alone {name : String} {active limit : Nat} {after : Category Rat}
    (hknown : occasion.Known Rat)
    (hanswer : (occasion.outcome Rat).answer = .error (.rejected name active limit))
    (hafter : (occasion.outcome Rat).controller.categories[occasion.position]? = some after)
    (hweight : 0 < after.adjustedWeight)
    (halone : ∀ lease ∈ (occasion.outcome Rat).controller.ledger.outstanding,
      lease.category = occasion.position)
    (hthreshold : (occasion.settings Rat).threshold ≤ Category.maxLimit) :
    (occasion.settings Rat).threshold ≤ active := by
  obtain ⟨category, hcategory, herror, hrefusal⟩ := exists_refusal hknown hanswer
  obtain ⟨-, rfl, rfl⟩ := AdmissionError.rejected.inj herror
  obtain ⟨other, hother, hdecided⟩ := Controller.exists_decided occasion.source
    (occasion.settings Rat) occasion.now hcategory
  rw [answer_outcome] at hanswer
  rw [controller_outcome] at hafter halone
  obtain rfl := Option.some.inj (hother.symm.trans hafter)
  rw [(Controller.refused hanswer).1.ledger] at halone
  rw [hdecided.adjustedWeight] at hweight
  have hlimit := regular_plain.limit_alone hcategory halone hweight
  have hfull := hrefusal.limit_le
  rw [hlimit, min_eq_left hthreshold] at hfull
  exact (le_max_right ..).trans hfull

/-- Whatever the settings, a request for a category without leases is granted, and one that is
refused comes to a full limit of a controller that has no slots to lend. In exact arithmetic a
category that weighs something and holds all the leases there are is refused only at the ceiling. -/
theorem refused_only_at_limit (occasion : Occasion) :
    (∀ (R : Type) [Scalar R] [Scalar.Truncates R], occasion.Known R →
      ((∀ lease ∈ (occasion.plain R).ledger.outstanding, lease.category ≠ occasion.position) →
        ∃ lease, (occasion.outcome R).answer = .ok lease) ∧
      ∀ error, (occasion.outcome R).answer = .error error →
        ∃ name active limit, error = .rejected name active limit ∧
          occasion.Refusal R active limit) ∧
    (occasion.Known Rat → ∀ (name : String) (active limit : Nat) (category : Category Rat),
      (occasion.outcome Rat).answer = .error (.rejected name active limit) →
      (occasion.outcome Rat).controller.categories[occasion.position]? = some category →
      0 < category.adjustedWeight →
      (∀ lease ∈ (occasion.outcome Rat).controller.ledger.outstanding,
        lease.category = occasion.position) →
      (occasion.settings Rat).threshold ≤ Category.maxLimit →
        (occasion.settings Rat).threshold ≤ active) := by
  constructor
  · intro R _ _ hknown
    refine ⟨granted_of_idle hknown, fun error hanswer ↦ ?_⟩
    obtain ⟨category, -, herror, hrefusal⟩ := exists_refusal hknown hanswer
    exact ⟨_, _, _, herror, hrefusal⟩
  · intro hknown name active limit category hanswer hafter hweight halone hthreshold
    exact threshold_le_of_alone hknown hanswer hafter hweight halone hthreshold

/-- Such requests: under a ceiling of zero and without any weight a second category is granted a
lease while the first has one, and under a ceiling of two a category alone is refused a third. -/
theorem refused_only_at_limit_alone :
    ∃ idle alone : Occasion,
      (idle.settings Rat).threshold = 0 ∧
      (idle.plain Rat).totals.totalActive = 1 ∧
      (∃ lease, (idle.outcome Rat).answer = .ok lease) ∧
      (alone.settings Rat).threshold = 2 ∧
      (alone.outcome Rat).answer = .error (.rejected "a" 2 2) ∧
      (alone.settings Rat).threshold ≤ 2 := by
  let empty : Source := ⟨fun _ ↦ ⟨1, { threshold := 0, defaultWeight := 0 }⟩, fun _ _ ↦ none⟩
  let idle : Occasion :=
    { id := "main"
      timings := {}
      built := empty
      start := 0
      moves := [⟨.request "a", empty, 0⟩, ⟨.lookUp "b", empty, 0⟩]
      source := empty
      now := 0
      position := 1 }
  let two : Source := ⟨fun _ ↦ ⟨1, { threshold := 2 }⟩, fun _ _ ↦ none⟩
  let alone : Occasion :=
    { id := "main"
      timings := {}
      built := two
      start := 0
      moves := [⟨.request "a", two, 0⟩, ⟨.request "a", two, 0⟩]
      source := two
      now := 10
      position := 0 }
  have hgranted : ∃ lease, (idle.outcome Rat).answer = .ok lease :=
    ((refused_only_at_limit idle).1 Rat (by decide +kernel)).1 (by decide +kernel)
  have hanswer : (alone.outcome Rat).answer = .error (.rejected "a" 2 2) := by decide +kernel
  have hsome : ((alone.outcome Rat).controller.categories[0]?).isSome = true := by decide +kernel
  have hweights : ∀ category ∈ (alone.outcome Rat).controller.categories[0]?,
      0 < category.adjustedWeight := by
    decide +kernel
  obtain ⟨category, hcategory⟩ := Option.isSome_iff_exists.mp hsome
  have hceiling := (refused_only_at_limit alone).2 (by decide +kernel) "a" 2 2 category hanswer
    hcategory (hweights category hcategory) (by decide +kernel) (by decide +kernel)
  exact ⟨idle, alone, by decide +kernel, by decide +kernel, hgranted, by decide +kernel, hanswer,
    hceiling⟩

end Occasion

end Admission
