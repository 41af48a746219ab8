import Admission.Proofs.Decision
import Admission.Proofs.Sums
import Mathlib.Algebra.Order.BigOperators.Group.List
import Mathlib.Algebra.Order.Round
import Mathlib.Data.Rat.Floor

/-!
# What share of the ceiling a category gets

In exact arithmetic the limit of a category is its part of the ceiling by weight, rounded, but at
least one (`Category.fairLimit_of_pos`). The weight it is compared with is that of the categories
that hold leases together with its own (`Carried.allWeight_eq`), whether it holds a lease itself or
not. No weight is negative, so a category weighs no more than all, and its part of the ceiling is no
more than the ceiling (`Category.fairLimit_le`); if it weighs something and no other category holds
a lease, its part is the whole ceiling (`Category.fairLimit_alone`).

What this rests on is kept by every advance: the counts are in order, the totals are the sums they
are meant to be, and no weight is negative (`Controller.Regular`).
-/

set_option autoImplicit false
set_option relaxedAutoImplicit false

namespace Admission

namespace Category

/-! ### Rounding -/

/-- For numbers that are not negative the two ways to round a half agree. -/
theorem round_of_nonneg {value : Rat} (h : 0 ≤ value) :
    Scalar.round value = ((round value : ℤ) : Rat) := by
  have hround : Scalar.round value = ((value + 1 / 2).floor : Rat) := if_neg (not_lt.mpr h)
  rw [hround, round_eq]
  rfl

theorem limitOfShare_intCast (share : ℤ) :
    limitOfShare (share : Rat) = max 1 (min share maxLimit).toNat := by
  have hone : (Scalar.ofNat 1 : Rat) = ((1 : ℤ) : Rat) := rfl
  have hmost : (Scalar.ofNat maxLimit : Rat) = ((maxLimit : ℤ) : Rat) := rfl
  have hwhole : ∀ whole : ℤ, Scalar.truncate (whole : Rat) = whole.toNat := fun whole ↦
    congrArg Int.toNat (Rat.floor_intCast whole)
  have hcap : (if (share : Rat) < Scalar.ofNat maxLimit then (share : Rat)
      else Scalar.ofNat maxLimit) = ((min share maxLimit : ℤ) : Rat) := by
    rw [hmost]
    by_cases hsmall : share < maxLimit
    · rw [if_pos (Int.cast_lt.mpr hsmall), min_eq_left hsmall.le]
    · rw [if_neg (mt Int.cast_lt.mp hsmall), min_eq_right (not_lt.mp hsmall)]
  have hpositive : 0 < maxLimit := by decide
  unfold limitOfShare
  rw [hcap, hwhole, hone]
  by_cases hleast : 1 ≤ share
  · rw [if_pos ⟨rfl, Int.cast_le.mpr hleast⟩]
    omega
  · rw [if_neg fun h ↦ hleast (Int.cast_le.mp h.2)]
    omega

/-! ### Shares -/

/-- The weight that the category is compared with. -/
def allWeight (category : Category Rat) (totals : Totals Rat) : Rat :=
  if category.isActive then totals.weightSum else totals.weightSum + category.adjustedWeight

variable {category : Category Rat} {totals : Totals Rat}

theorem share_of_pos (hall : 0 < category.allWeight totals) (hown : 0 ≤ category.adjustedWeight)
    (threshold : Nat) :
    category.share totals threshold =
      ((round (threshold * category.adjustedWeight / category.allWeight totals) : ℤ) : Rat) := by
  have hshare : category.share totals threshold =
      Scalar.round (threshold * category.adjustedWeight / category.allWeight totals) :=
    if_pos hall
  rw [hshare, round_of_nonneg (by positivity)]

theorem fairLimit_of_pos (hall : 0 < category.allWeight totals)
    (hown : 0 ≤ category.adjustedWeight) (threshold : Nat) :
    category.fairLimit totals threshold =
      max 1 (min (round (threshold * category.adjustedWeight / category.allWeight totals))
        maxLimit).toNat := by
  rw [fairLimit, share_of_pos hall hown, limitOfShare_intCast]

/-- Without any weight every category may hold one lease. -/
theorem fairLimit_of_not_pos (hall : ¬0 < category.allWeight totals) (threshold : Nat) :
    category.fairLimit totals threshold = 1 := by
  have hshare : category.share totals threshold = ((0 : ℤ) : Rat) := if_neg hall
  rw [fairLimit, hshare, limitOfShare_intCast]
  rfl

/-- A part of a whole number is not rounded beyond it. -/
theorem round_part_le {part all : Rat} (hall : 0 < all) (hle : part ≤ all) (threshold : Nat) :
    round ((threshold : Rat) * part / all) ≤ threshold := by
  have hpart : (threshold : Rat) * part / all ≤ threshold := by
    rw [div_le_iff₀ hall]
    exact mul_le_mul_of_nonneg_left hle (Nat.cast_nonneg threshold)
  rw [round_eq, ← Int.lt_add_one_iff, Int.floor_lt]
  push_cast
  linarith

/-- A part of the ceiling is no more than the ceiling, unless it is the one lease that every
category may hold. -/
theorem fairLimit_le (hown : 0 ≤ category.adjustedWeight)
    (hle : category.adjustedWeight ≤ category.allWeight totals) (threshold : Nat) :
    category.fairLimit totals threshold ≤ max 1 threshold := by
  by_cases hall : 0 < category.allWeight totals
  · have hround := round_part_le hall hle threshold
    rw [fairLimit_of_pos hall hown]
    omega
  · rw [fairLimit_of_not_pos hall]
    exact le_max_left ..

/-- A category that all the weight belongs to gets the whole ceiling. -/
theorem fairLimit_alone (hown : 0 < category.adjustedWeight)
    (halone : category.allWeight totals = category.adjustedWeight) (threshold : Nat) :
    category.fairLimit totals threshold = max 1 (min threshold maxLimit) := by
  rw [fairLimit_of_pos (halone ▸ hown) hown.le, halone, mul_div_cancel_right₀ _ hown.ne',
    round_natCast]
  omega

end Category

/-- All the weight is that of the others and that of the category itself. -/
theorem Carried.allWeight_eq {weights popularities : Rat} {others : Nat} {category : Category Rat}
    {totals : Totals Rat} (h : Carried weights popularities others (category, totals)) :
    category.allWeight totals = weights + category.adjustedWeight := by
  have hsum := h.weight
  unfold Category.allWeight
  by_cases hholds : category.isActive = true
  · rw [Category.part_of_active hholds] at hsum
    rw [if_pos hholds, hsum]
  · rw [Bool.not_eq_true] at hholds
    rw [Category.part_of_idle hholds, add_zero] at hsum
    rw [hholds, if_neg Bool.false_ne_true, hsum]

/-! ### No weight is negative -/

/-- The weight is not negative, and will not become so. -/
structure Weighing.Nonneg (weighing : Weighing Rat) : Prop where
  adjustedWeight : 0 ≤ weighing.adjustedWeight
  speedFactor : 0 ≤ weighing.speedFactor

namespace Category

theorem le_clamp {low high : Rat} (h : low ≤ high) (value : Rat) :
    low ≤ Scalar.clamp value low high := by
  have hraised : low ≤ if value < low then low else value := by
    split
    · exact le_rfl
    · next hvalue => exact not_lt.mp hvalue
  unfold Scalar.clamp
  dsimp only
  by_cases hhigh : high < if value < low then low else value
  · rw [if_pos hhigh]
    exact h
  · rw [if_neg hhigh]
    exact hraised

theorem nextSpeedFactor_nonneg {category : Category Rat} (h : 0 ≤ category.speedFactor)
    (now : Nat) : 0 ≤ category.nextSpeedFactor now := by
  have hleast : (0 : Rat) ≤ minSpeedFactor := by decide +kernel
  have hends : (minSpeedFactor : Rat) ≤ maxSpeedFactor := by decide +kernel
  unfold nextSpeedFactor
  split
  · exact h
  · split
    · exact hleast.trans (le_clamp hends _)
    · exact hleast.trans hends

theorem popularityFactorOf_nonneg (popularity : Rat) (totals : Totals Rat) :
    0 ≤ popularityFactorOf popularity totals := by
  have hleast : (0 : Rat) ≤ minPopularityFactor := by decide +kernel
  have hends : (minPopularityFactor : Rat) ≤ maxPopularityFactor := by decide +kernel
  unfold popularityFactorOf
  dsimp only
  split
  · exact hleast
  · split
    · exact hleast
    · exact hleast.trans (le_clamp hends _)

theorem scaledWeight_nonneg (baseWeight : Nat) {speed popularity : Rat} (hspeed : 0 ≤ speed)
    (hpopularity : 0 ≤ popularity) (settings : ControllerSettings) :
    0 ≤ scaledWeight baseWeight speed popularity settings := by
  have hbase : (0 : Rat) ≤ Scalar.ofNat baseWeight := Nat.cast_nonneg baseWeight
  unfold scaledWeight
  dsimp only
  split <;> split
  · exact hbase
  · exact mul_nonneg hbase hspeed
  · exact mul_nonneg hbase hpopularity
  · exact mul_nonneg (mul_nonneg hbase hspeed) hpopularity

theorem nonneg_recomputeWeight {category : Category Rat} (h : 0 ≤ category.speedFactor)
    (totals : Totals Rat) (now : Nat) (settings : ControllerSettings) :
    (category.recomputeWeight totals now settings).1.weighing.Nonneg :=
  have hspeed := nextSpeedFactor_nonneg h now
  ⟨scaledWeight_nonneg _ hspeed (popularityFactorOf_nonneg ..) settings, hspeed⟩

theorem lasting_nonneg (now : Nat) (settings : ControllerSettings) (weight : String → Nat) :
    Lasting (R := Rat) (fun category ↦ category.weighing.Nonneg) now settings weight := by
  refine .of_weighing ?_ ?_ ?_
  · have hspeed : (0 : Rat) ≤ maxSpeedFactor := by decide +kernel
    exact fun name ↦ ⟨Nat.cast_nonneg (weight name), hspeed⟩
  · exact fun category totals h ↦ nonneg_recomputeWeight h.speedFactor totals now settings
  · intro category totals h
    have hspeed : 0 ≤ (category.setBaseWeight (weight category.name) now).speedFactor :=
      h.speedFactor
    exact nonneg_recomputeWeight hspeed totals now settings

end Category

/-! ### Regular controllers -/

/-- The counts are in order, the totals are the sums they are meant to be, and no weight is
negative. -/
structure Controller.Regular (controller : Controller Rat) : Prop where
  inOrder : controller.InOrder
  summed : controller.Summed
  nonneg : ∀ category ∈ controller.categories, category.weighing.Nonneg

namespace Controller

theorem regular_build (id : String) (timings : Timings) (source : Source) (now : Nat) :
    (build id timings source now : Controller Rat).Regular where
  inOrder := .run id timings source now []
  summed := ⟨rfl, rfl⟩
  nonneg := by simp [build]

/-- What the other categories have in the sum of the weights is not negative. -/
theorem others_nonneg {plain : Controller Rat} {category : Category Rat}
    (h : ∀ category ∈ plain.categories, category.weighing.Nonneg)
    (hmem : category ∈ plain.categories) :
    0 ≤ plain.parts (·.adjustedWeight) - category.part (·.adjustedWeight) := by
  have hparts : ∀ part ∈ plain.categories.toList.map (Category.part (·.adjustedWeight)),
      0 ≤ part := by
    intro part hpart
    obtain ⟨other, hother, rfl⟩ := List.mem_map.mp hpart
    unfold Category.part
    split
    · exact (h other (Array.mem_toList_iff.mp hother)).adjustedWeight
    · exact le_rfl
  exact sub_nonneg.mpr (List.single_le_sum hparts _
    (List.mem_map_of_mem (Array.mem_toList_iff.mpr hmem)))

namespace Regular

variable {controller changed plain : Controller Rat} {source : Source} {now position : Nat}
  {settings : ControllerSettings} {category : Category Rat}

theorem advances {asked : Option ControllerSettings} (h : controller.Regular)
    (hadvance : Advances source now asked controller changed) : changed.Regular where
  inOrder := h.inOrder.leadsTo hadvance.leadsTo
  summed := by
    obtain ⟨settled, hsound⟩ := h.inOrder
    exact keeps_of_altered (fun hcount haltered h ↦ Summed.altered h hcount haltered) hsound
      hadvance.leadsTo h.summed
  nonneg := hadvance.forall_categories (fun _ ↦ Category.lasting_nonneg ..) h.nonneg

/-- Deciding about a request leaves the part of the others in the sums as it is. -/
theorem carried_decide (h : plain.Regular)
    (hcategory : plain.categories[position]? = some category) :
    Carried (plain.parts (·.adjustedWeight) - category.part (·.adjustedWeight))
      (plain.parts (·.popularity.value) - category.part (·.popularity.value))
      (plain.totals.activeCategories - if category.isActive then 1 else 0)
      ((plain.decideFor source settings now category).category,
        (plain.decideFor source settings now category).totals) := by
  have hcarried := h.summed.carried h.inOrder.accounted.activeCategories hcategory
  exact hcarried.altersAll (category.alters_decide ..)

/-- No category weighs more than all. -/
theorem weight_le_allWeight (h : plain.Regular)
    (hcategory : plain.categories[position]? = some category) :
    (plain.decideFor source settings now category).category.adjustedWeight ≤
      (plain.decideFor source settings now category).category.allWeight
        (plain.decideFor source settings now category).totals := by
  rw [(h.carried_decide hcategory).allWeight_eq]
  exact le_add_of_nonneg_left (others_nonneg h.nonneg (Array.mem_of_getElem? hcategory))

theorem nonneg_decide (h : plain.Regular)
    (hcategory : plain.categories[position]? = some category) :
    (plain.decideFor source settings now category).category.weighing.Nonneg :=
  (Category.lasting_nonneg now settings (source.baseWeight plain.id settings)).decide category
    plain.totals plain.timings (h.nonneg category (Array.mem_of_getElem? hcategory))

end Regular

end Controller

namespace Occasion

variable {occasion : Occasion}

theorem regular_plain : (occasion.plain Rat).Regular :=
  plain_keeps (fun _ ↦ True) (fun _ hadvance h ↦ h.advances hadvance) (fun _ _ ↦ trivial)
    (Controller.regular_build ..)

end Occasion

end Admission
