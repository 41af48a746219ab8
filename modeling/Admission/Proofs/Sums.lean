import Admission.Proofs.Alteration
import Admission.Proofs.Uninterrupted
import Mathlib.Algebra.BigOperators.Group.List.Basic
import Mathlib.Tactic.Linarith

/-!
# The totals are the sums they are meant to be

The sum of the weights and that of the popularities are not added up again when a category changes,
but changed along with it. In exact arithmetic the two come to the same: after any moves each is the
sum over the categories that hold leases (`Controller.sums_run`). What carries this is that every
alteration of a category leaves the part of the sums that belongs to the others as it is
(`Carried.alters`).

In rounded arithmetic the sums may drift, but not while no category holds a lease: then both are
zero, whatever the rounding.
-/

set_option autoImplicit false
set_option relaxedAutoImplicit false

namespace Admission

open Relation (ReflTransGen)

/-! ### Exact arithmetic -/

/-- What a category has in a sum over those that hold leases. -/
def Category.part (value : Category Rat → Rat) (category : Category Rat) : Rat :=
  if category.isActive then value category else 0

/-- A category and the totals, apart from the sums over the other categories and their number. -/
structure Carried (weights popularities : Rat) (others : Nat)
    (state : Category Rat × Totals Rat) : Prop where
  weight : state.2.weightSum = weights + state.1.part (·.adjustedWeight)
  popularity : state.2.popularitySum = popularities + state.1.part (·.popularity.value)
  active : state.2.activeCategories = others + if state.1.isActive then 1 else 0
  alone : others = 0 → weights = 0 ∧ popularities = 0

namespace Category

theorem part_of_active {value : Category Rat → Rat} {category : Category Rat}
    (h : category.isActive = true) : category.part value = value category := by
  rw [part, h, if_pos rfl]

theorem part_of_idle {value : Category Rat → Rat} {category : Category Rat}
    (h : category.isActive = false) : category.part value = 0 := by
  rw [part, h, if_neg Bool.false_ne_true]

theorem part_congr {value : Category Rat → Rat} {category next : Category Rat}
    (hactive : next.isActive = category.isActive) (hvalue : value next = value category) :
    next.part value = category.part value := by
  rw [part, part, hactive, hvalue]

end Category

namespace Carried

variable {weights popularities : Rat} {others : Nat} {category next : Category Rat}
  {totals : Totals Rat}

theorem congr (h : Carried weights popularities others (category, totals))
    (hactive : next.isActive = category.isActive)
    (hweight : next.adjustedWeight = category.adjustedWeight)
    (hpopularity : next.popularity = category.popularity) :
    Carried weights popularities others (next, totals) := by
  constructor
  · rw [Category.part_congr hactive hweight]
    exact h.weight
  · rw [Category.part_congr hactive (congrArg Popularity.value hpopularity)]
    exact h.popularity
  · rw [hactive]
    exact h.active
  · exact h.alone

/-- Counting a submission changes the popularity when it closes a window, and the sum with it. -/
theorem record (h : Carried weights popularities others (category, totals)) (now width : Nat) :
    Carried weights popularities others (category.recordSubmission totals now width) := by
  have hkeep := category.keepsCounts_recordSubmission totals now width
  have hactive : (category.recordSubmission totals now width).1.isActive = category.isActive :=
    Category.isActive_congr (congrArg Account.active hkeep.account)
  have hpopularity := h.popularity
  constructor
  · have hsum : (category.recordSubmission totals now width).2.weightSum = totals.weightSum := by
      simp only [Category.recordSubmission]
      split <;> rfl
    rw [hsum, Category.part_congr hactive rfl]
    exact h.weight
  · by_cases hholds : category.isActive = true
    · have hsum : (category.recordSubmission totals now width).2.popularitySum =
          totals.popularitySum +
            ((category.recordSubmission totals now width).1.popularity.value -
              category.popularity.value) := by
        simp only [Category.recordSubmission, hholds, Bool.and_true, decide_eq_true_eq]
        split
        · rfl
        · next hopen =>
          -- The window stays open, and the popularity as it was.
          have hsame :
              (category.popularity.record now width).value = category.popularity.value := by
            simp only [Popularity.record, if_pos (Nat.lt_of_not_le hopen)]
          rw [hsame, sub_self, add_zero]
      rw [Category.part_of_active hholds] at hpopularity
      rw [Category.part_of_active (hactive.trans hholds), hsum]
      linarith
    · rw [Bool.not_eq_true] at hholds
      have hsum : (category.recordSubmission totals now width).2.popularitySum =
          totals.popularitySum := by
        simp only [Category.recordSubmission, hholds, Bool.and_false, Bool.false_eq_true, if_false]
      rw [Category.part_of_idle hholds] at hpopularity
      rw [Category.part_of_idle (hactive.trans hholds), hsum]
      exact hpopularity
  · rw [hkeep.activeCategories, hactive]
    exact h.active
  · exact h.alone

/-- A new weight is carried into the sum if the category holds a lease. -/
theorem weigh (h : Carried weights popularities others (category, totals)) (now : Nat)
    (settings : ControllerSettings) :
    Carried weights popularities others (category.recomputeWeight totals now settings) := by
  have hkeep := category.keepsCounts_recomputeWeight totals now settings
  have hactive : (category.recomputeWeight totals now settings).1.isActive = category.isActive :=
    Category.isActive_congr (congrArg Account.active hkeep.account)
  have hweight := h.weight
  constructor
  · by_cases hholds : category.isActive = true
    · have hsum : (category.recomputeWeight totals now settings).2.weightSum = totals.weightSum +
          ((category.recomputeWeight totals now settings).1.adjustedWeight -
            category.adjustedWeight) := by
        simp only [Category.recomputeWeight, hholds, if_true]
      rw [Category.part_of_active hholds] at hweight
      rw [Category.part_of_active (hactive.trans hholds), hsum]
      linarith
    · rw [Bool.not_eq_true] at hholds
      have hsum :
          (category.recomputeWeight totals now settings).2.weightSum = totals.weightSum := by
        simp only [Category.recomputeWeight, hholds, Bool.false_eq_true, if_false]
      rw [Category.part_of_idle hholds] at hweight
      rw [Category.part_of_idle (hactive.trans hholds), hsum]
      exact hweight
  · have hsum : (category.recomputeWeight totals now settings).2.popularitySum =
        totals.popularitySum := by
      simp only [Category.recomputeWeight]
      split <;> rfl
    rw [hsum, Category.part_congr hactive rfl]
    exact h.popularity
  · rw [hkeep.activeCategories, hactive]
    exact h.active
  · exact h.alone

/-- The first lease of a category brings its weight and its popularity into the sums. -/
theorem grant (h : Carried weights popularities others (category, totals)) (now : Nat) :
    Carried weights popularities others (category.grant totals now) := by
  have hnext : (category.grant totals now).1.isActive = true := by
    simp [Category.grant, Category.isActive]
  have hweight := h.weight
  have hpopularity := h.popularity
  have hcount := h.active
  rcases Nat.eq_zero_or_pos category.active with hzero | hpos
  · have hidle : category.isActive = false := by simp [Category.isActive, hzero]
    rw [Category.part_of_idle hidle, add_zero] at hweight hpopularity
    rw [hidle] at hcount
    constructor
    · have hsum : (category.grant totals now).2.weightSum =
          totals.weightSum + category.adjustedWeight := by
        simp only [Category.grant, hzero, if_true]
        rfl
      rw [Category.part_of_active hnext, hsum, hweight]
      rfl
    · have hsum : (category.grant totals now).2.popularitySum =
          totals.popularitySum + category.popularity.value := by
        simp only [Category.grant, hzero, if_true]
        rfl
      rw [Category.part_of_active hnext, hsum, hpopularity]
      rfl
    · rw [Category.activeCategories_grant, hidle, hnext]
      exact congrArg (· + 1) hcount
    · exact h.alone
  · have hholds : category.isActive = true := category.isActive_iff.mpr hpos
    have htotals := category.totals_grant_of_active hpos totals now
    rw [Category.part_of_active hholds] at hweight hpopularity
    rw [hholds] at hcount
    constructor
    · rw [htotals, Category.part_of_active hnext]
      exact hweight
    · rw [htotals, Category.part_of_active hnext]
      exact hpopularity
    · rw [htotals, hnext]
      exact hcount
    · exact h.alone

/-- With its last lease a category takes its weight and its popularity out of the sums. If no other
category holds a lease the sums are set to zero, which is what the others have in them. -/
theorem leave (h : Carried weights popularities others (category, totals))
    (hholds : category.isActive = true) (hidle : next.isActive = false) :
    Carried weights popularities others
      (next, totals.leave category.adjustedWeight category.popularity.value) := by
  have hweight : totals.weightSum = weights + category.adjustedWeight := by
    have hsum := h.weight
    rw [Category.part_of_active hholds] at hsum
    exact hsum
  have hpopularity : totals.popularitySum = popularities + category.popularity.value := by
    have hsum := h.popularity
    rw [Category.part_of_active hholds] at hsum
    exact hsum
  have hcount : totals.activeCategories = others + 1 := by
    have hactive := h.active
    rw [hholds] at hactive
    exact hactive
  have hzero : (Scalar.zero : Rat) = 0 := Nat.cast_zero
  unfold Totals.leave
  by_cases halone : totals.activeCategories - 1 = 0
  · have hothers : others = 0 := by omega
    obtain ⟨hnoWeight, hnoPopularity⟩ := h.alone hothers
    rw [if_pos halone]
    constructor
    · rw [Category.part_of_idle hidle, hnoWeight, add_zero]
      exact hzero
    · rw [Category.part_of_idle hidle, hnoPopularity, add_zero]
      exact hzero
    · rw [hidle, hothers]
      rfl
    · exact h.alone
  · rw [if_neg halone]
    constructor
    · rw [Category.part_of_idle hidle, add_zero]
      change totals.weightSum - category.adjustedWeight = weights
      rw [hweight, add_sub_cancel_right]
    · rw [Category.part_of_idle hidle, add_zero]
      change totals.popularitySum - category.popularity.value = popularities
      rw [hpopularity, add_sub_cancel_right]
    · rw [hidle]
      change totals.activeCategories - 1 = others
      rw [hcount, Nat.add_sub_cancel]
    · exact h.alone

theorem takeOff (h : Carried weights popularities others (category, totals)) (grantedAt : Nat) :
    Carried weights popularities others (category.deactivateOne totals grantedAt) := by
  rcases Nat.eq_zero_or_pos category.active with hzero | hpos
  · rw [Category.deactivateOne, if_pos hzero]
    exact h
  · have hholds : category.isActive = true := category.isActive_iff.mpr hpos
    have hfewer : Carried weights popularities others
        (category, { totals with totalActive := totals.totalActive - 1 }) :=
      ⟨h.weight, h.popularity, h.active, h.alone⟩
    rw [Category.deactivateOne, if_neg (Nat.ne_of_gt hpos)]
    dsimp only
    by_cases hlast : category.active - 1 = 0
    · rw [if_pos hlast]
      exact hfewer.leave hholds (by simp [Category.isActive, hlast])
    · have hleft : Category.isActive { category with
          active := category.active - 1
          grantTimeSum := category.grantTimeSum - grantedAt } = true :=
        (Category.isActive_iff _).mpr (Nat.pos_of_ne_zero hlast)
      rw [if_neg hlast]
      exact hfewer.congr (hleft.trans hholds.symm) rfl rfl

/-- What belongs to the other categories stays through every alteration. -/
theorem alters {state state' : Category Rat × Totals Rat}
    (h : Carried weights popularities others state) (halters : Category.Alters state state') :
    Carried weights popularities others state' := by
  cases halters with
  | record category totals now width => exact h.record now width
  | weigh category totals now settings => exact h.weigh now settings
  | grant category totals now => exact h.grant now
  | takeOff category totals grantedAt => exact h.takeOff grantedAt
  | other totals hactive hweight hpopularity =>
    exact h.congr (Category.isActive_congr hactive) hweight hpopularity

theorem altersAll {state state' : Category Rat × Totals Rat}
    (h : Carried weights popularities others state)
    (halters : ReflTransGen Category.Alters state state') :
    Carried weights popularities others state' := by
  induction halters with
  | refl => exact h
  | tail _ hlast ih => exact ih.alters hlast

end Carried

/-- The totals are the sums over the categories that hold leases. -/
structure Controller.Summed (controller : Controller Rat) : Prop where
  weight : controller.totals.weightSum = ((controller.categories.toList.filter fun category ↦
    0 < category.active).map (·.adjustedWeight)).sum
  popularity : controller.totals.popularitySum =
    ((controller.categories.toList.filter fun category ↦
      0 < category.active).map (·.popularity.value)).sum

namespace Controller

/-- What all categories have in a sum. -/
def parts (controller : Controller Rat) (value : Category Rat → Rat) : Rat :=
  (controller.categories.toList.map (Category.part value)).sum

theorem sum_filter_eq_parts (controller : Controller Rat) (value : Category Rat → Rat) :
    ((controller.categories.toList.filter Category.isActive).map value).sum =
      controller.parts value := by
  unfold parts
  induction controller.categories.toList with
  | nil => rfl
  | cons category rest ih =>
    rw [List.map_cons, List.sum_cons, ← ih]
    by_cases hholds : category.isActive = true
    · rw [Category.part_of_active hholds, List.filter_cons_of_pos hholds, List.map_cons,
        List.sum_cons]
    · rw [List.filter_cons_of_neg hholds, Category.part_of_idle (Bool.not_eq_true _ ▸ hholds),
        zero_add]

theorem parts_replace {controller changed : Controller Rat} {position : Nat}
    {category next : Category Rat} (hcategory : controller.categories[position]? = some category)
    (hchanged : changed.categories = controller.categories.setIfInBounds position next)
    (value : Category Rat → Rat) :
    changed.parts value = controller.parts value - category.part value + next.part value := by
  obtain ⟨hlt, heq⟩ := Array.getElem?_eq_some_iff.mp hcategory
  have hlength : position < (controller.categories.toList.map (Category.part value)).length := by
    simpa using hlt
  have hset := List.sum_set' (controller.categories.toList.map (Category.part value)) position
    (next.part value)
  rw [dif_pos hlength, List.getElem_map, Array.getElem_toList, heq] at hset
  rw [parts, hchanged, Array.toList_setIfInBounds, List.map_set, hset, parts, sub_eq_add_neg,
    add_assoc]

namespace Summed

variable {controller changed : Controller Rat}

theorem of_parts (hweight : controller.totals.weightSum = controller.parts (·.adjustedWeight))
    (hpopularity : controller.totals.popularitySum = controller.parts (·.popularity.value)) :
    controller.Summed where
  weight := hweight.trans (controller.sum_filter_eq_parts _).symm
  popularity := hpopularity.trans (controller.sum_filter_eq_parts _).symm

theorem weight_eq_parts (h : controller.Summed) :
    controller.totals.weightSum = controller.parts (·.adjustedWeight) :=
  h.weight.trans (controller.sum_filter_eq_parts _)

theorem popularity_eq_parts (h : controller.Summed) :
    controller.totals.popularitySum = controller.parts (·.popularity.value) :=
  h.popularity.trans (controller.sum_filter_eq_parts _)

/-- If no other category holds a lease, the others have nothing in the sums. -/
theorem parts_eq_part {position : Nat} {category : Category Rat}
    (hcategory : controller.categories[position]? = some category)
    (halone : controller.categories.toList.countP (·.isActive) =
      if category.isActive then 1 else 0) (value : Category Rat → Rat) :
    controller.parts value - category.part value = 0 := by
  let idle : Category Rat := { category with active := 0 }
  have hidle : idle.isActive = false := rfl
  have hcount := Balanced.countP_replace hcategory idle
  rw [halone, hidle] at hcount
  have hnone : (controller.categories.setIfInBounds position idle).toList.countP
      (·.isActive) = 0 := by
    simp only [Bool.false_eq_true, if_false] at hcount
    omega
  let without : Controller Rat :=
    { controller with categories := controller.categories.setIfInBounds position idle }
  have hreplaced : without.parts value = _ := parts_replace hcategory rfl value
  rw [Category.part_of_idle hidle, add_zero] at hreplaced
  rw [← hreplaced]
  refine List.sum_eq_zero fun part hpart ↦ ?_
  obtain ⟨other, hmem, rfl⟩ := List.mem_map.mp hpart
  exact Category.part_of_idle (Bool.not_eq_true _ ▸ List.countP_eq_zero.mp hnone other hmem)

/-- The sums without one category are those over the others. -/
theorem carried (h : controller.Summed)
    (hcount : controller.totals.activeCategories =
      controller.categories.toList.countP (·.isActive))
    {position : Nat} {category : Category Rat}
    (hcategory : controller.categories[position]? = some category) :
    Carried (controller.parts (·.adjustedWeight) - category.part (·.adjustedWeight))
      (controller.parts (·.popularity.value) - category.part (·.popularity.value))
      (controller.totals.activeCategories - if category.isActive then 1 else 0)
      (category, controller.totals) := by
  have hmem : category ∈ controller.categories.toList :=
    Array.mem_toList_iff.mpr (Array.mem_of_getElem? hcategory)
  have hself : (if category.isActive then 1 else 0) ≤ controller.totals.activeCategories := by
    rw [hcount]
    split
    · next hholds => exact List.countP_pos_iff.mpr ⟨category, hmem, hholds⟩
    · exact Nat.zero_le _
  constructor
  · rw [sub_add_cancel]
    exact h.weight_eq_parts
  · rw [sub_add_cancel]
    exact h.popularity_eq_parts
  · exact (Nat.sub_add_cancel hself).symm
  · intro hothers
    have halone : controller.categories.toList.countP (·.isActive) =
        if category.isActive then 1 else 0 := by
      omega
    exact ⟨parts_eq_part hcategory halone _, parts_eq_part hcategory halone _⟩

/-- An event that leaves the categories alone, adds one or alters one keeps the sums right. -/
theorem altered (h : controller.Summed)
    (hcount : controller.totals.activeCategories =
      controller.categories.toList.countP (·.isActive))
    (haltered : controller.Altered changed) : changed.Summed := by
  cases haltered with
  | same hcategories htotals =>
    constructor
    · rw [hcategories, htotals]
      exact h.weight
    · rw [hcategories, htotals]
      exact h.popularity
  | @added category hidle hcategories htotals =>
    have hpart : ∀ value, category.part value = 0 := fun value ↦
      Category.part_of_idle (by simp [Category.isActive, hidle])
    have hparts : ∀ value, changed.parts value = controller.parts value := by
      intro value
      rw [parts, hcategories, Array.toList_push, List.map_append, List.sum_append,
        List.map_singleton, List.sum_singleton, hpart, add_zero, parts]
    apply of_parts
    · rw [htotals, hparts]
      exact h.weight_eq_parts
    · rw [htotals, hparts]
      exact h.popularity_eq_parts
  | replaced hcategory halters hcategories htotals =>
    have hcarried := (h.carried hcount hcategory).altersAll halters
    apply of_parts
    · rw [htotals, parts_replace hcategory hcategories]
      exact hcarried.weight
    · rw [htotals, parts_replace hcategory hcategories]
      exact hcarried.popularity

end Summed

end Controller

/-! ### Rounded arithmetic -/

variable {R : Type} [Scalar R]

/-- Active categories are counted, and without any the sums are zero. -/
structure Grounded (state : Category R × Totals R) : Prop where
  active_pos : state.1.isActive = true → 0 < state.2.activeCategories
  idle : state.2.activeCategories = 0 →
    state.2.weightSum = Scalar.zero ∧ state.2.popularitySum = Scalar.zero

namespace Grounded

variable {category next : Category R} {totals : Totals R}

/-- A change of the totals that comes with an active category does not come while no category holds
a lease. -/
theorem congr {totals' : Totals R} (h : Grounded (category, totals))
    (hactive : next.isActive = category.isActive)
    (hcount : totals'.activeCategories = totals.activeCategories)
    (hsums : category.isActive = false →
      totals'.weightSum = totals.weightSum ∧ totals'.popularitySum = totals.popularitySum) :
    Grounded (next, totals') := by
  constructor
  · intro hholds
    rw [hcount]
    exact h.active_pos (hactive ▸ hholds)
  · intro hnone
    rw [hcount] at hnone
    have hidle : category.isActive = false := by
      by_contra hholds
      rw [Bool.not_eq_false] at hholds
      exact Nat.ne_of_gt (h.active_pos hholds) hnone
    obtain ⟨hweight, hpopularity⟩ := hsums hidle
    rw [hweight, hpopularity]
    exact h.idle hnone

theorem grant (h : Grounded (category, totals)) (now : Nat) :
    Grounded (category.grant totals now) := by
  rcases Nat.eq_zero_or_pos category.active with hzero | hpos
  · have hidle : category.isActive = false := by simp [Category.isActive, hzero]
    have hcount := category.activeCategories_grant totals now
    rw [hidle, if_neg Bool.false_ne_true] at hcount
    constructor
    · intro _
      rw [hcount]
      exact Nat.succ_pos _
    · intro hnone
      rw [hcount] at hnone
      exact absurd hnone (Nat.succ_ne_zero _)
  · have hholds : category.isActive = true := category.isActive_iff.mpr hpos
    have hnext : (category.grant totals now).1.isActive = true := by
      simp [Category.grant, Category.isActive]
    have hsame : Grounded ((category.grant totals now).1,
        { totals with totalActive := totals.totalActive + 1 }) :=
      h.congr (hnext.trans hholds.symm) rfl fun _ ↦ ⟨rfl, rfl⟩
    rw [← category.totals_grant_of_active hpos totals now] at hsame
    exact hsame

theorem takeOff (h : Grounded (category, totals)) (grantedAt : Nat) :
    Grounded (category.deactivateOne totals grantedAt) := by
  rcases Nat.eq_zero_or_pos category.active with hzero | hpos
  · rw [Category.deactivateOne, if_pos hzero]
    exact h
  · have hholds : category.isActive = true := category.isActive_iff.mpr hpos
    rw [Category.deactivateOne, if_neg (Nat.ne_of_gt hpos)]
    dsimp only
    by_cases hlast : category.active - 1 = 0
    · rw [if_pos hlast]
      constructor
      · intro hleft
        simp [Category.isActive, hlast] at hleft
      · unfold Totals.leave
        split
        · exact fun _ ↦ ⟨rfl, rfl⟩
        · next hmore => exact fun hnone ↦ absurd hnone hmore
    · have hleft : Category.isActive { category with
          active := category.active - 1
          grantTimeSum := category.grantTimeSum - grantedAt } = true :=
        (Category.isActive_iff _).mpr (Nat.pos_of_ne_zero hlast)
      rw [if_neg hlast]
      exact h.congr (hleft.trans hholds.symm) rfl fun _ ↦ ⟨rfl, rfl⟩

theorem alters {state state' : Category R × Totals R} (h : Grounded state)
    (halters : Category.Alters state state') : Grounded state' := by
  cases halters with
  | record category totals now width =>
    have hkeep := category.keepsCounts_recordSubmission totals now width
    refine h.congr (Category.isActive_congr (congrArg Account.active hkeep.account))
      hkeep.activeCategories fun hidle ↦ ?_
    simp [hidle]
  | weigh category totals now settings =>
    have hkeep := category.keepsCounts_recomputeWeight totals now settings
    refine h.congr (Category.isActive_congr (congrArg Account.active hkeep.account))
      hkeep.activeCategories fun hidle ↦ ?_
    simp [hidle]
  | grant category totals now => exact h.grant now
  | takeOff category totals grantedAt => exact h.takeOff grantedAt
  | other totals hactive hweight hpopularity =>
    exact h.congr (Category.isActive_congr hactive) rfl fun _ ↦ ⟨rfl, rfl⟩

theorem altersAll {state state' : Category R × Totals R} (h : Grounded state)
    (halters : ReflTransGen Category.Alters state state') : Grounded state' := by
  induction halters with
  | refl => exact h
  | tail _ hlast ih => exact ih.alters hlast

end Grounded

namespace Controller

/-- While no category holds a lease the sums are zero. -/
def ZeroWhenIdle (controller : Controller R) : Prop :=
  controller.totals.activeCategories = 0 →
    controller.totals.weightSum = Scalar.zero ∧ controller.totals.popularitySum = Scalar.zero

theorem ZeroWhenIdle.altered {controller changed : Controller R} (h : controller.ZeroWhenIdle)
    (hcount : controller.totals.activeCategories =
      controller.categories.toList.countP (·.isActive))
    (haltered : controller.Altered changed) : changed.ZeroWhenIdle := by
  cases haltered with
  | same hcategories htotals =>
    rw [ZeroWhenIdle, htotals]
    exact h
  | added hidle hcategories htotals =>
    rw [ZeroWhenIdle, htotals]
    exact h
  | @replaced position category next totals hcategory halters hcategories htotals =>
    have hgrounded : Grounded (category, controller.totals) := by
      refine ⟨fun hholds ↦ ?_, h⟩
      have hmem : category ∈ controller.categories.toList :=
        Array.mem_toList_iff.mpr (Array.mem_of_getElem? hcategory)
      rw [hcount]
      exact List.countP_pos_iff.mpr ⟨category, hmem, hholds⟩
    rw [ZeroWhenIdle, htotals]
    exact (hgrounded.altersAll halters).idle

/-- What every alteration of a controller in order keeps, every run of events keeps. -/
theorem run_keeps_of_altered {motive : Controller R → Prop}
    (haltered : ∀ {controller changed : Controller R},
      controller.totals.activeCategories = controller.categories.toList.countP (·.isActive) →
        controller.Altered changed → motive controller → motive changed)
    {activity last : Activity R} {events : List Activity.Event} (hsound : activity.Sound)
    (hrun : activity.run events = some last) (h : motive activity.controller) :
    motive last.controller := by
  have hlast := Activity.run_induction
    (motive := fun activity ↦ activity.Sound ∧ motive activity.controller)
    (fun hstep h ↦ ⟨h.1.step hstep,
      haltered h.1.balanced.activeCategories (altered_step hstep) h.2⟩) hrun ⟨hsound, h⟩
  exact hlast.2

/-- What every alteration of a controller in order keeps is kept wherever events lead from there. -/
theorem keeps_of_altered {motive : Controller R → Prop}
    (haltered : ∀ {controller changed : Controller R},
      controller.totals.activeCategories = controller.categories.toList.countP (·.isActive) →
        controller.Altered changed → motive controller → motive changed)
    {controller changed : Controller R} {settled : List Settlement}
    (hsound : (Activity.quiet controller settled).Sound)
    (hleads : Activity.LeadsTo controller changed) (h : motive controller) : motive changed := by
  obtain ⟨settled', events, hrun⟩ := hleads settled
  exact run_keeps_of_altered haltered hsound hrun h

/-- In exact arithmetic, and in the middle of whatever is going on, the sums of the totals are those
over the categories that hold leases. -/
theorem summed_run {id : String} {timings : Timings} {source : Source} {start : Nat}
    {events : List Activity.Event} {activity : Activity Rat}
    (hrun : (Activity.quiet (.build id timings source start) []).run events = some activity) :
    activity.controller.Summed :=
  run_keeps_of_altered (fun hcount haltered h ↦ Summed.altered h hcount haltered)
    (.start id timings source start) hrun ⟨rfl, rfl⟩

/-- What every alteration of a controller in order keeps, every run of moves keeps. -/
theorem run_of_altered {motive : Controller R → Prop}
    (haltered : ∀ {controller changed : Controller R},
      controller.totals.activeCategories = controller.categories.toList.countP (·.isActive) →
        controller.Altered changed → motive controller → motive changed)
    {id : String} {timings : Timings} {source : Source} {now : Nat}
    (hbuild : motive (build id timings source now)) (moves : List Move) :
    motive ((build id timings source now).run moves) :=
  keeps_of_altered haltered (.start id timings source now)
    (.run (build id timings source now) moves) hbuild

/-- After any moves the totals are, in exact arithmetic, the sums over the categories that hold
leases; and in any arithmetic they are zero while no category does. -/
theorem sums_run (id : String) (timings : Timings) (source : Source) (now : Nat)
    (moves : List Move) :
    ((build id timings source now : Controller Rat).run moves).Summed ∧
      ∀ (R : Type) [Scalar R],
        ((build id timings source now : Controller R).run moves).ZeroWhenIdle := by
  constructor
  · exact run_of_altered (motive := Summed) (fun hcount haltered h ↦ h.altered hcount haltered)
      ⟨rfl, rfl⟩ moves
  · intro R _
    exact run_of_altered (motive := ZeroWhenIdle)
      (fun hcount haltered h ↦ h.altered hcount haltered) (fun _ ↦ ⟨rfl, rfl⟩) moves

end Controller

end Admission
