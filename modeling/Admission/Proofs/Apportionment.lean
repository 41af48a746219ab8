import Admission.Proofs.Shares
import Mathlib.Algebra.BigOperators.Ring.Finset
import Mathlib.Algebra.BigOperators.Ring.List

/-!
# The limits of all categories together

The categories that hold leases share the ceiling by weight, and each share is rounded and raised to
one if it is less. So a limit is at most one above the exact share and at most a half below it
(`Category.fairLimit_le_add_one`, `Category.sub_half_le_fairLimit`), and the exact shares add up to
the ceiling because the sum of the weights in the totals is the sum of the weights they are compared
with (`Controller.Weighed`, which every run of events leaves behind). All limits together are
therefore off the ceiling by at most one for each category upwards and a half for each category
downwards (`Controller.limits_add_up`).
-/

set_option autoImplicit false
set_option relaxedAutoImplicit false

namespace Admission

namespace Category

variable {category other : Category Rat} {totals : Totals Rat} {threshold : Nat}

/-! ### One limit -/

/-- The part of a ceiling that a weight has in all the weight, before any rounding. -/
def exactShare (weight all : Rat) (threshold : Nat) : Rat := threshold * weight / all

theorem exactShare_nonneg {weight all : Rat} (hweight : 0 ≤ weight) (hall : 0 ≤ all)
    (threshold : Nat) : 0 ≤ exactShare weight all threshold :=
  div_nonneg (mul_nonneg (Nat.cast_nonneg threshold) hweight) hall

theorem exactShare_mono {weight heavier all : Rat} (hle : weight ≤ heavier) (hall : 0 ≤ all)
    (threshold : Nat) : exactShare weight all threshold ≤ exactShare heavier all threshold :=
  div_le_div_of_nonneg_right (mul_le_mul_of_nonneg_left hle (Nat.cast_nonneg threshold)) hall

/-- A limit is the exact share, rounded and moved into the bounds for limits. -/
theorem fairLimit_eq (hall : 0 < category.allWeight totals) (hown : 0 ≤ category.adjustedWeight)
    (threshold : Nat) :
    category.fairLimit totals threshold = max 1 (min
      (round (exactShare category.adjustedWeight (category.allWeight totals) threshold))
      maxLimit).toNat :=
  fairLimit_of_pos hall hown threshold

/-- Rounding and the least limit together add no more than one to the exact share. -/
theorem fairLimit_le_add_one (hall : 0 < category.allWeight totals)
    (hown : 0 ≤ category.adjustedWeight) (threshold : Nat) :
    (category.fairLimit totals threshold : Rat) ≤
      exactShare category.adjustedWeight (category.allWeight totals) threshold + 1 := by
  have hshare := exactShare_nonneg hown hall.le threshold
  rw [fairLimit_eq hall hown]
  set share := exactShare category.adjustedWeight (category.allWeight totals) threshold
  have hround : ((round share : ℤ) : Rat) ≤ share + 1 / 2 := round_le_add_half share
  have hbounds : ((max 1 (min (round share) maxLimit).toNat : ℕ) : ℤ) ≤ max 1 (round share) := by
    omega
  have hlimit : ((max 1 (min (round share) maxLimit).toNat : ℕ) : Rat) ≤
      ((max 1 (round share) : ℤ) : Rat) := by
    exact_mod_cast hbounds
  refine hlimit.trans ?_
  rw [Int.cast_max, max_le_iff]
  constructor
  · push_cast
    linarith
  · linarith

/-- Rounding takes no more than a half off the exact share, if the ceiling is one that a limit can
reach. -/
theorem sub_half_le_fairLimit (hall : 0 < category.allWeight totals)
    (hown : 0 ≤ category.adjustedWeight)
    (hle : category.adjustedWeight ≤ category.allWeight totals)
    (hthreshold : threshold ≤ maxLimit) :
    exactShare category.adjustedWeight (category.allWeight totals) threshold - 1 / 2 ≤
      (category.fairLimit totals threshold : Rat) := by
  have hpart : round (exactShare category.adjustedWeight (category.allWeight totals) threshold) ≤
      threshold :=
    round_part_le hall hle threshold
  rw [fairLimit_eq hall hown]
  set share := exactShare category.adjustedWeight (category.allWeight totals) threshold
  have hround : share - 1 / 2 ≤ ((round share : ℤ) : Rat) := (sub_half_lt_round share).le
  have hbounds : round share ≤ ((max 1 (min (round share) maxLimit).toNat : ℕ) : ℤ) := by
    omega
  have hlimit : ((round share : ℤ) : Rat) ≤
      ((max 1 (min (round share) maxLimit).toNat : ℕ) : Rat) := by
    exact_mod_cast hbounds
  exact hround.trans hlimit

/-- Of two categories that are compared with the same weight the heavier one has no smaller
limit. -/
theorem fairLimit_mono (hsame : category.allWeight totals = other.allWeight totals)
    (hown : 0 ≤ category.adjustedWeight) (hle : category.adjustedWeight ≤ other.adjustedWeight)
    (threshold : Nat) :
    category.fairLimit totals threshold ≤ other.fairLimit totals threshold := by
  by_cases hall : 0 < other.allWeight totals
  · rw [fairLimit_eq (hsame ▸ hall) hown, fairLimit_eq hall (hown.trans hle), hsame]
    have hround : round (exactShare category.adjustedWeight (other.allWeight totals) threshold) ≤
        round (exactShare other.adjustedWeight (other.allWeight totals) threshold) := by
      rw [round_eq, round_eq]
      exact Int.floor_mono (add_le_add_left (exactShare_mono hle hall.le threshold) _)
    omega
  · rw [fairLimit_of_not_pos hall, fairLimit_of_not_pos (hsame ▸ hall)]

/-- The exact shares of some weights in their sum add up to the ceiling. -/
theorem sum_exactShare {weights : List Rat} (hall : weights.sum ≠ 0) (threshold : Nat) :
    (weights.map fun weight ↦ exactShare weight weights.sum threshold).sum = threshold := by
  have hfactor : ∀ weight, exactShare weight weights.sum threshold =
      (threshold / weights.sum) * weight := by
    intro weight
    unfold exactShare
    ring
  simp only [hfactor]
  rw [List.sum_map_mul_left, List.map_id', div_mul_cancel₀ _ hall]

end Category

/-! ### All limits -/

namespace Controller

/-- The categories that hold leases, in the order of their creation. -/
def holders {R : Type} (controller : Controller R) : List (Category R) :=
  controller.categories.toList.filter fun category ↦ 0 < category.active

/-- The limits of the categories that hold leases, under a ceiling. -/
def limits {R : Type} [Scalar R] (controller : Controller R) (threshold : Nat) : List Nat :=
  controller.holders.map fun category ↦ category.fairLimit controller.totals threshold

variable {controller : Controller Rat} {category : Category Rat}

theorem allWeight_holder (h : category ∈ controller.holders) :
    category.allWeight controller.totals = controller.totals.weightSum := by
  have hholds : category.isActive = true := (List.mem_filter.mp h).2
  exact if_pos hholds

/-- The totals are the sums and the number that they are meant to be, and no weight is negative. -/
structure Weighed (controller : Controller Rat) : Prop where
  activeCategories : controller.totals.activeCategories =
    controller.categories.toList.countP (·.isActive)
  summed : controller.Summed
  nonneg : ∀ category ∈ controller.categories, category.weighing.Nonneg

theorem cast_sum_limits (controller : Controller Rat) (threshold : Nat) :
    ((controller.limits threshold).sum : Rat) = (controller.holders.map fun category ↦
      (category.fairLimit controller.totals threshold : Rat)).sum := by
  rw [Nat.cast_list_sum, limits, List.map_map]
  rfl

/-- Without any weight each limit is one. -/
theorem limits_of_not_pos (hall : ¬0 < controller.totals.weightSum) (threshold : Nat) :
    controller.limits threshold = List.replicate controller.holders.length 1 := by
  refine List.eq_replicate_iff.mpr ⟨List.length_map .., fun limit hlimit ↦ ?_⟩
  obtain ⟨category, hmem, rfl⟩ := List.mem_map.mp hlimit
  exact Category.fairLimit_of_not_pos ((allWeight_holder hmem).symm ▸ hall) threshold

namespace Weighed

theorem length_holders (h : controller.Weighed) :
    controller.holders.length = controller.totals.activeCategories := by
  rw [h.activeCategories, List.countP_eq_length_filter]
  rfl

theorem weight_nonneg (h : controller.Weighed) (hmem : category ∈ controller.holders) :
    0 ≤ category.adjustedWeight :=
  (h.nonneg category (Array.mem_toList_iff.mp (List.mem_filter.mp hmem).1)).adjustedWeight

/-- The weights of the categories that hold leases add up to the sum in the totals. -/
theorem sum_weights (h : controller.Weighed) :
    (controller.holders.map (·.adjustedWeight)).sum = controller.totals.weightSum :=
  h.summed.weight.symm

theorem weight_le_sum (h : controller.Weighed) (hmem : category ∈ controller.holders) :
    category.adjustedWeight ≤ controller.totals.weightSum := by
  rw [← h.sum_weights]
  refine List.single_le_sum ?_ _ (List.mem_map_of_mem hmem)
  intro weight hweight
  obtain ⟨other, hother, rfl⟩ := List.mem_map.mp hweight
  exact h.weight_nonneg hother

theorem sum_shares (h : controller.Weighed) (hall : 0 < controller.totals.weightSum)
    (threshold : Nat) :
    (controller.holders.map fun category ↦
      Category.exactShare category.adjustedWeight controller.totals.weightSum threshold).sum =
        threshold := by
  have hsum := h.sum_weights
  have hshares := Category.sum_exactShare (hsum.symm ▸ hall.ne') threshold
  rwa [hsum, List.map_map] at hshares

/-- The limits are above the ceiling by no more than one for each category. -/
theorem sum_limits_le (h : controller.Weighed) (threshold : Nat) :
    (controller.limits threshold).sum ≤ threshold + controller.holders.length := by
  by_cases hall : 0 < controller.totals.weightSum
  · have hsum : ((controller.limits threshold).sum : Rat) ≤
        threshold + controller.holders.length := by
      calc ((controller.limits threshold).sum : Rat)
          = (controller.holders.map fun category ↦
              (category.fairLimit controller.totals threshold : Rat)).sum :=
            cast_sum_limits controller threshold
        _ ≤ (controller.holders.map fun category ↦
              Category.exactShare category.adjustedWeight controller.totals.weightSum threshold +
                1).sum := by
            refine List.sum_le_sum fun category hmem ↦ ?_
            have hholder := allWeight_holder hmem
            rw [← hholder]
            exact Category.fairLimit_le_add_one (hholder.symm ▸ hall) (h.weight_nonneg hmem) _
        _ = threshold + controller.holders.length := by
            rw [List.sum_map_add, h.sum_shares hall]
            simp
    exact_mod_cast hsum
  · rw [limits_of_not_pos hall, List.sum_replicate_nat, Nat.mul_one]
    exact Nat.le_add_left ..

/-- The limits are below the ceiling by no more than a half for each category, if any of them weighs
something. -/
theorem le_sum_limits (h : controller.Weighed) (hall : 0 < controller.totals.weightSum)
    {threshold : Nat} (hthreshold : threshold ≤ Category.maxLimit) :
    (threshold : Rat) - controller.holders.length / 2 ≤ (controller.limits threshold).sum := by
  calc (threshold : Rat) - controller.holders.length / 2
      = (controller.holders.map fun category ↦
          Category.exactShare category.adjustedWeight controller.totals.weightSum threshold -
            1 / 2).sum := by
        simp only [sub_eq_add_neg]
        rw [List.sum_map_add, h.sum_shares hall, List.map_const', List.sum_replicate, nsmul_eq_mul]
        ring
    _ ≤ (controller.holders.map fun category ↦
          (category.fairLimit controller.totals threshold : Rat)).sum := by
        refine List.sum_le_sum fun category hmem ↦ ?_
        have hholder := allWeight_holder hmem
        rw [← hholder]
        exact Category.sub_half_le_fairLimit (hholder.symm ▸ hall) (h.weight_nonneg hmem)
          (hholder.symm ▸ h.weight_le_sum hmem) hthreshold
    _ = (controller.limits threshold).sum := (cast_sum_limits controller threshold).symm

/-- Of two categories that hold leases the heavier one has no smaller limit. -/
theorem limit_mono (h : controller.Weighed) {other : Category Rat}
    (hmem : category ∈ controller.holders) (hother : other ∈ controller.holders)
    (hle : category.adjustedWeight ≤ other.adjustedWeight) (threshold : Nat) :
    category.fairLimit controller.totals threshold ≤ other.fairLimit controller.totals threshold :=
  Category.fairLimit_mono ((allWeight_holder hmem).trans (allWeight_holder hother).symm)
    (h.weight_nonneg hmem) hle threshold

/-- Every run of events, in the middle of whatever is going on, leaves the totals and the weights in
this order. -/
theorem run {id : String} {timings : Timings} {source : Source} {start : Nat}
    {events : List Activity.Event} {activity : Activity Rat}
    (hrun : (Activity.quiet (.build id timings source start) []).run events = some activity) :
    activity.controller.Weighed where
  activeCategories := ((Activity.Sound.start ..).run hrun).balanced.activeCategories
  summed := summed_run hrun
  nonneg := by
    refine Activity.run_induction
      (motive := fun activity ↦ ∀ category ∈ activity.controller.categories,
        category.weighing.Nonneg) (forall_categories_step Category.lasting_nonneg) hrun ?_
    simp [Activity.quiet, build]

end Weighed

/-- After any events, in the middle of whatever is going on, the limits of the categories that hold
leases add up to the ceiling, whatever it is, but for one more for each of them at most, and if
their weights are not all zero for a half less for each of them at most. A heavier category never
has the smaller limit. -/
theorem limits_add_up (id : String) (timings : Timings) (source : Source) (start : Nat)
    {events : List Activity.Event} {activity : Activity Rat}
    (hrun : (Activity.quiet (.build id timings source start) []).run events = some activity)
    (threshold : Nat) :
    activity.controller.holders.length = activity.controller.totals.activeCategories ∧
      (activity.controller.limits threshold).sum ≤
        threshold + activity.controller.holders.length ∧
      (threshold ≤ Category.maxLimit → 0 < activity.controller.totals.weightSum →
        (threshold : Rat) - activity.controller.holders.length / 2 ≤
          (activity.controller.limits threshold).sum) ∧
      ∀ category ∈ activity.controller.holders, ∀ other ∈ activity.controller.holders,
        category.adjustedWeight ≤ other.adjustedWeight →
          category.fairLimit activity.controller.totals threshold ≤
            other.fairLimit activity.controller.totals threshold := by
  have hweighed := Weighed.run hrun
  refine ⟨hweighed.length_holders, hweighed.sum_limits_le threshold, ?_, ?_⟩
  · exact fun hthreshold hall ↦ hweighed.le_sum_limits hall hthreshold
  · exact fun category hmem other hother hle ↦ hweighed.limit_mono hmem hother hle threshold

/-- Such a controller: three categories of the weights one, one and three hold a lease each, while
one of the leases is on its way to be released. Under a ceiling of ten each of the light ones may
have two and the heavy one six, under a ceiling of two each of them may have one. -/
theorem limits_add_up_three :
    ∃ (source : Source) (events : List Activity.Event) (activity : Activity Rat),
      (Activity.quiet (.build "main" {} source 0) []).run events = some activity ∧
      activity.releasing = [⟨1, 1, 0⟩] ∧
      activity.controller.holders.map (·.adjustedWeight) = [1, 1, 3] ∧
      activity.controller.limits 10 = [2, 2, 6] ∧ activity.controller.limits 2 = [1, 1, 1] ∧
      (activity.controller.limits 2).sum ≤ 2 + activity.controller.holders.length ∧
      ((10 : Nat) : Rat) - activity.controller.holders.length / 2 ≤
        (activity.controller.limits 10).sum := by
  let settings : ControllerSettings :=
    { threshold := 10, defaultWeight := 1, ignorePopularity := true }
  let source : Source :=
    ⟨fun _ ↦ ⟨1, settings⟩, fun _ name ↦ if name = "heavy" then some 3 else none⟩
  let events : List Activity.Event :=
    [.lookUp source 0 "a", .lookUp source 0 "b", .lookUp source 0 "heavy",
      .answer source settings 0 0, .answer source settings 0 1, .answer source settings 0 2,
      .takeRelease ⟨1, 1, 0⟩]
  have hfacts : ((Activity.quiet (.build "main" {} source 0 : Controller Rat) []).run events).map
      (fun activity ↦ (activity.releasing, activity.controller.holders.map (·.adjustedWeight),
        activity.controller.limits 10, activity.controller.limits 2)) =
          some ([⟨1, 1, 0⟩], [1, 1, 3], [2, 2, 6], [1, 1, 1]) := by
    decide +kernel
  obtain ⟨activity, hrun, hfacts⟩ := Option.map_eq_some_iff.mp hfacts
  simp only [Prod.mk.injEq] at hfacts
  obtain ⟨hreleasing, hweights, hten, htwo⟩ := hfacts
  obtain ⟨-, hle, -⟩ := limits_add_up "main" {} source 0 hrun 2
  obtain ⟨-, -, hge, -⟩ := limits_add_up "main" {} source 0 hrun 10
  have hall : 0 < activity.controller.totals.weightSum := by
    rw [← (Weighed.run hrun).sum_weights, hweights]
    decide +kernel
  exact ⟨source, events, activity, hrun, hreleasing, hweights, hten, htwo, hle,
    hge (by decide) hall⟩

end Controller

end Admission
