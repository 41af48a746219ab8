import Admission.Proofs.Reclaiming
import Admission.Proofs.Speed

/-!
# The order in which a sweep visits the lost leases

The table of leases has no order of its own, so a sweep may visit the stale leases in any order, and
settle what it took in any order. Every lease it settles changes the totals, and the next category
is weighed against the changed ones, so that two sweeps of the same leases are apart on the way.
In exact arithmetic they end up alike, but for the weights that were made with the popularity of the
others (`Activity.sweeps_alike`).

What carries this is that a lost lease changes a category, apart from that weight, in a way that the
category alone decides (`Category.alone_abandon`), and that two such changes may come in either
order (`Category.lose_lose`). The totals then follow from the categories.
-/

set_option autoImplicit false
set_option relaxedAutoImplicit false

namespace Admission

open Ledger (Reclaimed)

/-! ### Taking the leases off the list -/

namespace Ledger

variable {ledger : Ledger} {stale other : List Nat}

/-- The numbers of the leases that a sweep finds stale. It looks for them when it has taken up the
queue. -/
def foundStale (ledger : Ledger) (now : Nat) : Option Nat → List Nat
  | none => []
  | some bound => (ledger.receiveAll ledger.dropped).1.staleNumbers now bound

/-- Takes back the dropped leases and then the stale ones in a given order. -/
def collectIn (ledger : Ledger) (stale : List Nat) : Ledger × List Reclaimed :=
  let received := ledger.receiveAll ledger.dropped
  let claimed := received.1.claimAll stale
  (claimed.1, received.2 ++ claimed.2)

theorem collect_eq_collectIn (ledger : Ledger) (now : Nat) (bound : Option Nat) :
    ledger.collect now bound = ledger.collectIn (ledger.foundStale now bound) := by
  cases bound with
  | none => simp [collect, foundStale, collectIn, claimAll]
  | some bound => rfl

theorem nodup_foundStale (nodup : (ledger.outstanding.map (·.number)).Nodup) (now : Nat)
    (bound : Option Nat) : (ledger.foundStale now bound).Nodup := by
  cases bound with
  | none => exact .nil
  | some bound => exact nodup_filter (nodup_receiveAll nodup _) _

theorem active_foundStale {now number : Nat} {bound : Option Nat}
    (h : number ∈ ledger.foundStale now bound) :
    (ledger.receiveAll ledger.dropped).1.phase? number = some .active := by
  cases bound with
  | none => cases h
  | some bound =>
    obtain ⟨lease, hmem, rfl⟩ := List.mem_map.mp h
    have hstale := (List.mem_filter.mp hmem).2
    unfold isStale at hstale
    split at hstale
    · cases hstale
    · next token htoken =>
      simp only [Bool.and_eq_true, decide_eq_true_eq] at hstale
      rw [phase?, htoken, Option.map_some, hstale.1.1]

/-- Claiming active leases in another order leaves the same ledger. -/
theorem claimAll_perm (hperm : stale.Perm other) (nodup : stale.Nodup)
    (h : ∀ number ∈ stale, ledger.phase? number = some .active) :
    (ledger.claimAll stale).1 = (ledger.claimAll other).1 := by
  have hnodup : other.Nodup := hperm.nodup_iff.mp nodup
  have hactive : ∀ number ∈ other, ledger.phase? number = some .active :=
    fun number hmem ↦ h number (hperm.mem_iff.mpr hmem)
  have htokens : (ledger.claimAll stale).1.tokens = (ledger.claimAll other).1.tokens := by
    refine Array.ext_getElem? fun number ↦ ?_
    rw [tokens_claimAll nodup h, tokens_claimAll hnodup hactive]
    simp only [hperm.mem_iff]
  have hlist : (ledger.claimAll stale).1.outstanding = (ledger.claimAll other).1.outstanding := by
    rw [outstanding_claimAll nodup h, outstanding_claimAll hnodup hactive]
    simp only [hperm.mem_iff]
  have hqueue : (ledger.claimAll stale).1.dropped = (ledger.claimAll other).1.dropped := by
    rw [dropped_claimAll, dropped_claimAll]
  generalize (ledger.claimAll stale).1 = first at htokens hlist hqueue
  generalize (ledger.claimAll other).1 = second at htokens hlist hqueue
  cases first
  cases second
  simp only [Ledger.mk.injEq]
  exact ⟨htokens, hlist, hqueue⟩

/-- Claiming active leases in another order takes the same leases. -/
theorem taken_claimAll_perm (hperm : stale.Perm other) (nodup : stale.Nodup)
    (h : ∀ number ∈ stale, ledger.phase? number = some .active)
    (hnumbers : (ledger.outstanding.map (·.number)).Nodup) :
    (ledger.claimAll stale).2.Perm (ledger.claimAll other).2 := by
  have hnodup : other.Nodup := hperm.nodup_iff.mp nodup
  have hactive : ∀ number ∈ other, ledger.phase? number = some .active :=
    fun number hmem ↦ h number (hperm.mem_iff.mpr hmem)
  have hleases : ((ledger.claimAll stale).2.map (·.lease)).Perm
      ((ledger.claimAll other).2.map (·.lease)) := by
    have hsplit := (perm_claimAll nodup h hnumbers).symm.trans
      (perm_claimAll hnodup hactive hnumbers)
    rw [claimAll_perm hperm nodup h] at hsplit
    exact (List.perm_append_right_iff _).mp hsplit
  -- All are taken as stale ones, so the leases tell what was taken.
  have hstale : ∀ taken : List Reclaimed, (∀ reclaimed ∈ taken, reclaimed.loss = .stale) →
      (taken.map (·.lease)).map (fun lease ↦ (⟨lease, .stale⟩ : Reclaimed)) = taken := by
    intro taken hloss
    rw [List.map_map]
    refine (List.map_congr_left fun reclaimed hmem ↦ ?_).trans (List.map_id taken)
    rw [Function.comp_apply, ← hloss reclaimed hmem, id]
  have hmapped := hleases.map fun lease ↦ (⟨lease, .stale⟩ : Reclaimed)
  rw [hstale _ fun reclaimed hmem ↦ (taken_claimAll nodup h reclaimed hmem).1,
    hstale _ fun reclaimed hmem ↦ (taken_claimAll hnodup hactive reclaimed hmem).1] at hmapped
  exact hmapped

/-- Visiting the stale leases in another order leaves the same ledger and takes the same leases. -/
theorem collectIn_perm (hnumbers : (ledger.outstanding.map (·.number)).Nodup) {now : Nat}
    {bound : Option Nat} (hstale : stale.Perm (ledger.foundStale now bound))
    (hother : other.Perm (ledger.foundStale now bound)) :
    (ledger.collectIn stale).1 = (ledger.collectIn other).1 ∧
      (ledger.collectIn stale).2.Perm (ledger.collectIn other).2 := by
  have hperm : stale.Perm other := hstale.trans hother.symm
  have hnodup : stale.Nodup := hstale.nodup_iff.mpr (nodup_foundStale hnumbers now bound)
  have hactive : ∀ number ∈ stale,
      (ledger.receiveAll ledger.dropped).1.phase? number = some .active :=
    fun number hmem ↦ active_foundStale (hstale.mem_iff.mp hmem)
  exact ⟨claimAll_perm hperm hnodup hactive,
    (taken_claimAll_perm hperm hnodup hactive (nodup_receiveAll hnumbers _)).append_left _⟩

/-- What is taken stood on the list, and the rest of the list stays. -/
theorem perm_collectIn (hnumbers : (ledger.outstanding.map (·.number)).Nodup) {now : Nat}
    {bound : Option Nat} (hstale : stale.Perm (ledger.foundStale now bound)) :
    ledger.outstanding.Perm
      ((ledger.collectIn stale).2.map (·.lease) ++ (ledger.collectIn stale).1.outstanding) := by
  have hnodup : stale.Nodup := hstale.nodup_iff.mpr (nodup_foundStale hnumbers now bound)
  have hclaimed := perm_claimAll hnodup
    (fun number hmem ↦ active_foundStale (hstale.mem_iff.mp hmem)) (nodup_receiveAll hnumbers _)
  rw [collectIn, List.map_append, List.append_assoc]
  exact (perm_receiveAll hnumbers _).trans (hclaimed.append_left _)

end Ledger

/-! ### Settling one lease -/

namespace Category

variable {category : Category Rat} {settings : ControllerSettings} {now : Nat}

/-- A category without what it has from the others: its popularity factor, and its weight if the
factor is part of it. -/
def alone (settings : ControllerSettings) (category : Category Rat) : Category Rat :=
  { category with
    popularityFactor := 0
    adjustedWeight := if settings.ignorePopularity then category.adjustedWeight else 0 }

/-- The speed of a category that loses a lease. While it has no durations to compare with it is at
its usual speed, and keeps the speed it had when it has no lease either. -/
def speedLeft (now : Nat) (category : Category Rat) (grantedAt : Nat) : Rat :=
  if 0 < category.durations.recent.length then
    nextSpeedFactor
      { category with
        active := category.active - 1
        grantTimeSum := category.grantTimeSum - grantedAt } now
  else if category.active - 1 = 0 then category.speedFactor
  else maxSpeedFactor

/-- A category alone after it lost a lease and came to a speed. -/
def leftAt (settings : ControllerSettings) (category : Category Rat) (grantedAt : Nat)
    (speedFactor : Rat) : Category Rat :=
  { category with
    abandoned := category.abandoned + 1
    active := category.active - 1
    grantTimeSum := category.grantTimeSum - grantedAt
    peakActive := max category.peakActive (category.active - 1)
    speedFactor
    popularityFactor := 0
    adjustedWeight :=
      if settings.ignorePopularity then scaledWeight category.baseWeight speedFactor 0 settings
      else 0 }

/-- What a lost lease makes of a category alone. -/
def lose (settings : ControllerSettings) (now : Nat) (category : Category Rat) (grantedAt : Nat) :
    Category Rat :=
  category.leftAt settings grantedAt (category.speedLeft now grantedAt)

/-- Without durations to compare with, the present speed is the usual one. -/
theorem nextSpeedFactor_of_count_eq_zero (hcount : category.durations.count = 0)
    (hactive : category.active ≠ 0) (now : Nat) :
    category.nextSpeedFactor now = maxSpeedFactor := by
  have hsamples : category.speedSamples ≠ 0 := by
    rw [speedSamples]
    omega
  have husual : category.usualMean now = category.momentMean now := by
    rw [usualMean, if_neg (by omega)]
  have hclamp : Scalar.clamp (1 : Rat) minSpeedFactor maxSpeedFactor = maxSpeedFactor := by
    decide +kernel
  rw [nextSpeedFactor, if_neg hsamples, husual]
  split
  · next hpositive =>
    have hne : category.momentMean now ≠ (0 : Rat) := ne_of_gt hpositive
    exact (congrArg (Scalar.clamp · minSpeedFactor maxSpeedFactor) (div_self hne)).trans hclamp
  · rfl

/-- With durations to compare with, the next speed does not depend on the speed before. -/
theorem nextSpeedFactor_congr {first second : Category Rat}
    (hrecent : 0 < first.durations.recent.length) (hdurations : second.durations = first.durations)
    (hactive : second.active = first.active) (htimes : second.grantTimeSum = first.grantTimeSum)
    (now : Nat) : second.nextSpeedFactor now = first.nextSpeedFactor now := by
  have hsamples : first.speedSamples ≠ 0 := by
    rw [speedSamples]
    omega
  have hsame : second.speedSamples = first.speedSamples := by
    rw [speedSamples, speedSamples, hactive, hdurations]
  have hmoment : second.momentMean now = (first.momentMean now : Rat) := by
    rw [momentMean, momentMean, runningTime, runningTime, hsame, hactive, htimes, hdurations]
  have husual : second.usualMean now = (first.usualMean now : Rat) := by
    rw [usualMean, usualMean, hmoment, hdurations]
  rw [nextSpeedFactor, nextSpeedFactor, if_neg hsamples, if_neg (hsame ▸ hsamples), hmoment, husual]

/-- Settling a lost lease brings a category to the speed that it alone decides. -/
theorem speedFactor_abandon_eq (hactive : 0 < category.active)
    (hkept : category.durations.recent.length = 0 → category.durations.count = 0)
    (totals : Totals Rat) (grantedAt now : Nat) (settings : ControllerSettings) :
    (category.abandon totals grantedAt now settings).1.speedFactor =
      category.speedLeft now grantedAt := by
  let left : Category Rat :=
    { category with
      active := category.active - 1
      grantTimeSum := category.grantTimeSum - grantedAt }
  have hnext : (category.abandon totals grantedAt now settings).1.speedFactor =
      left.nextSpeedFactor now := by
    simp only [abandon, deactivateOne, if_neg (Nat.ne_of_gt hactive), recomputeWeight]
    rfl
  rw [hnext, speedLeft]
  split
  · rfl
  · next hrecent =>
    have hnone : category.durations.recent.length = 0 := by omega
    split
    · next hidle =>
      have hsamples : left.speedSamples = 0 := by
        simp only [speedSamples, left]
        omega
      rw [nextSpeedFactor, if_pos hsamples]
    · next hholds =>
      have hcount : left.durations.count = 0 := hkept hnone
      exact nextSpeedFactor_of_count_eq_zero hcount hholds now

/-- Settling a lost lease does to a category alone what the category alone decides. The category
must hold a lease, and have kept its latest durations if it has any. -/
theorem alone_abandon (hactive : 0 < category.active)
    (hkept : category.durations.recent.length = 0 → category.durations.count = 0)
    (totals : Totals Rat) (grantedAt now : Nat) (settings : ControllerSettings) :
    (category.abandon totals grantedAt now settings).1.alone settings =
      (category.alone settings).lose settings now grantedAt := by
  have hspeed := category.speedFactor_abandon_eq hactive hkept totals grantedAt now settings
  have hweight : (category.abandon totals grantedAt now settings).1.adjustedWeight =
      scaledWeight category.baseWeight
        (category.abandon totals grantedAt now settings).1.speedFactor
        (category.abandon totals grantedAt now settings).1.popularityFactor settings := by
    simp only [abandon, deactivateOne, if_neg (Nat.ne_of_gt hactive), recomputeWeight]
  have hplain : ∀ popularity, settings.ignorePopularity = true →
      scaledWeight category.baseWeight (category.speedLeft now grantedAt) popularity settings =
        scaledWeight category.baseWeight (category.speedLeft now grantedAt) 0 settings := by
    intro popularity hignore
    rw [scaledWeight, scaledWeight, hignore, if_pos rfl, if_pos rfl]
  simp only [alone, hweight, hspeed, lose, leftAt]
  split
  · next hignore =>
    rw [hplain _ hignore]
    simp only [abandon, deactivateOne, if_neg (Nat.ne_of_gt hactive), recomputeWeight]
    rfl
  · simp only [abandon, deactivateOne, if_neg (Nat.ne_of_gt hactive), recomputeWeight]
    rfl

/-- Categories that are the same alone differ in their popularity factors and weights at most. -/
theorem eq_of_alone {category other : Category Rat}
    (h : category.alone settings = other.alone settings) :
    other = { category with
      popularityFactor := other.popularityFactor
      adjustedWeight := other.adjustedWeight } :=
  (congrArg (fun category : Category Rat ↦ { category with
    popularityFactor := other.popularityFactor
    adjustedWeight := other.adjustedWeight }) h).symm

theorem adjustedWeight_of_alone {category other : Category Rat}
    (h : category.alone settings = other.alone settings)
    (hignore : settings.ignorePopularity = true) :
    other.adjustedWeight = category.adjustedWeight := by
  have hweight := congrArg Category.adjustedWeight h
  simp only [alone, hignore, if_true] at hweight
  exact hweight.symm

/-- Two leases of a category may be lost in either order. -/
theorem lose_lose (settings : ControllerSettings) (now : Nat) (category : Category Rat)
    (first second : Nat) :
    (category.lose settings now first).lose settings now second =
      (category.lose settings now second).lose settings now first := by
  have htimes : category.grantTimeSum - first - second = category.grantTimeSum - second - first :=
    Nat.sub_right_comm ..
  have hspeed : (category.lose settings now first).speedLeft now second =
      (category.lose settings now second).speedLeft now first := by
    by_cases hrecent : 0 < category.durations.recent.length
    · rw [speedLeft, speedLeft, if_pos (by exact hrecent), if_pos (by exact hrecent)]
      apply nextSpeedFactor_congr
      case hrecent => exact hrecent
      case hdurations | hactive => rfl
      case htimes => exact htimes
    · simp only [speedLeft, lose, leftAt, if_neg hrecent]
  rw [lose, hspeed, lose]
  simp only [leftAt, lose, htimes]

end Category

/-! ### Settling all of them -/

/-- The latest durations are kept, so that there is one if there was any. -/
def Durations.Remembered (durations : Durations) : Prop :=
  durations.recent.length = 0 → durations.count = 0

theorem Durations.Keeps.remembered {durations : Durations} {all : List Nat}
    (h : durations.Keeps all) : durations.Remembered := by
  intro hnone
  have hitems : History.latest all = [] := by
    rw [← h.recent]
    exact List.length_eq_zero_iff.mp hnone
  have hlength := congrArg List.length hitems
  rw [History.latest, List.length_drop, List.length_nil] at hlength
  rw [h.count]
  simp only [History.capacity] at hlength
  omega

namespace Controller

variable {controller changed first second : Controller Rat} {settings : ControllerSettings}
  {now : Nat} {lost others : List Reclaimed} {held : List Lease} {settled : List Settlement}

/-- What the loss of leases makes of the categories, each alone. -/
def loseAll (settings : ControllerSettings) (now : Nat) (categories : Array (Category Rat))
    (lost : List Reclaimed) : Array (Category Rat) :=
  lost.foldl (fun categories reclaimed ↦
    categories.modify reclaimed.lease.category fun category ↦
      category.lose settings now reclaimed.lease.grantedAt) categories

/-- The categories alone do not tell in which order the leases were lost. -/
theorem loseAll_perm (hperm : lost.Perm others) (categories : Array (Category Rat)) :
    loseAll settings now categories lost = loseAll settings now categories others := by
  refine hperm.foldl_eq' (fun first _ second _ categories ↦ ?_) categories
  refine Array.ext_getElem? fun position ↦ ?_
  simp only [Array.getElem?_modify]
  by_cases hfirst : first.lease.category = position
  · by_cases hsecond : second.lease.category = position
    · simp only [hfirst, hsecond, if_true, Option.map_map, Function.comp_def]
      refine congrArg (Option.map · _) (funext fun category ↦ ?_)
      exact category.lose_lose settings now _ _
    · simp only [hfirst, hsecond, if_true, if_false]
  · simp only [hfirst, if_false]

/-- Replacing a category changes the view of that category. -/
theorem views_modify {R α : Type} {controller changed : Controller R} {view : Category R → α}
    {position : Nat} {category next : Category R} {change : α → α}
    (hcategory : controller.categories[position]? = some category)
    (hcategories : changed.categories = controller.categories.setIfInBounds position next)
    (hview : view next = change (view category)) :
    changed.views view = (controller.views view).modify position change := by
  refine Array.ext_getElem? fun other ↦ ?_
  rw [views_replace hcategories, Array.getElem?_setIfInBounds, Array.getElem?_modify]
  by_cases hother : position = other
  · subst hother
    have hplace := getElem?_views view hcategory
    rw [if_pos rfl, if_pos rfl, if_pos (Array.getElem?_eq_some_iff.mp hplace).1, hplace, hview]
    rfl
  · rw [if_neg hother, if_neg hother]

/-- What a sweep settles changes the categories alone by the leases lost. -/
theorem Balanced.views_abandonAll (h : controller.Balanced (lost.map (·.lease) ++ held) settled)
    (hremembered : ∀ category ∈ controller.categories, category.durations.Remembered)
    (settings : ControllerSettings) (now : Nat) :
    (controller.abandonAll settings now lost).views (Category.alone settings) =
      loseAll settings now (controller.views (Category.alone settings)) lost := by
  induction lost generalizing controller settled with
  | nil => rfl
  | cons reclaimed rest ih =>
    rw [List.map_cons, List.cons_append] at h
    obtain ⟨category, hcategory⟩ := h.exists_category
    have hfree := h.deactivatable hcategory
    have hkept := hremembered category (Array.mem_of_getElem? hcategory)
    have hone : (Controller.abandonOne settings now controller reclaimed).views
        (Category.alone settings) =
          (controller.views (Category.alone settings)).modify reclaimed.lease.category
            fun category ↦ category.lose settings now reclaimed.lease.grantedAt := by
      have hcategories : (Controller.abandonOne settings now controller reclaimed).categories =
          controller.categories.setIfInBounds reclaimed.lease.category
            (category.abandon controller.totals reclaimed.lease.grantedAt now settings).1 := by
        rw [Controller.abandonOne, Controller.updateCategory, hcategory]
      exact views_modify hcategory hcategories (Category.alone_abandon hfree.active_pos hkept ..)
    have hlater := forall_updateCategory hremembered reclaimed.lease.category
      fun category totals hbefore ↦
        show (category.abandon totals reclaimed.lease.grantedAt now settings).1.durations.Remembered
        from Category.durations_abandon category totals _ now settings ▸ hbefore
    have hrest := ih (h.abandonOne settings now) hlater
    exact hrest.trans (congrArg (loseAll settings now · rest) hone)

/-- When a sweep has settled what it took, the books are balanced without it. -/
theorem Balanced.left_abandonAll (h : controller.Balanced (lost.map (·.lease) ++ held) settled)
    (settings : ControllerSettings) (now : Nat) :
    ∃ settled', (controller.abandonAll settings now lost).Balanced held settled' := by
  induction lost generalizing controller settled with
  | nil => exact ⟨settled, h⟩
  | cons reclaimed rest ih => exact ih (h.abandonOne settings now)

theorem Summed.abandonAll (hsummed : controller.Summed)
    (h : controller.Balanced (lost.map (·.lease) ++ held) settled) (settings : ControllerSettings)
    (now : Nat) : (controller.abandonAll settings now lost).Summed := by
  induction lost generalizing controller settled with
  | nil => exact hsummed
  | cons reclaimed rest ih =>
    exact ih (hsummed.altered h.activeCategories (altered_abandonOne ..))
      (h.abandonOne settings now)

/-- Two controllers that agree on everything but the weights that were made with the popularity of
other categories, and on those as well if the settings leave popularity out. -/
structure AlikeButWeights (settings : ControllerSettings) (first second : Controller Rat) :
    Prop where
  rest : second = { first with categories := second.categories, totals := second.totals }
  totals : second.totals = { first.totals with weightSum := second.totals.weightSum }
  size : second.categories.size = first.categories.size
  category : ∀ (position : Nat) (category other : Category Rat),
    first.categories[position]? = some category → second.categories[position]? = some other →
      other = { category with
        popularityFactor := other.popularityFactor
        adjustedWeight := other.adjustedWeight }
  weightSum : settings.ignorePopularity = true → second.totals.weightSum = first.totals.weightSum
  adjustedWeight : settings.ignorePopularity = true →
    ∀ (position : Nat) (category other : Category Rat),
      first.categories[position]? = some category → second.categories[position]? = some other →
        other.adjustedWeight = category.adjustedWeight

theorem abandonAll_eq (controller : Controller Rat) (settings : ControllerSettings) (now : Nat)
    (lost : List Reclaimed) :
    ∃ categories totals,
      controller.abandonAll settings now lost = { controller with categories, totals } := by
  induction lost generalizing controller with
  | nil => exact ⟨_, _, rfl⟩
  | cons reclaimed rest ih =>
    obtain ⟨categories, totals, hlater⟩ := ih (controller.abandonOne settings now reclaimed)
    refine ⟨categories, totals, hlater.trans ?_⟩
    unfold abandonOne updateCategory
    split <;> rfl

/-- What all categories have in a sum can be told from the categories alone, if it is not a weight
that was left out. -/
theorem parts_alone {value : Category Rat → Rat}
    (hvalue : ∀ category, value (category.alone settings) = value category)
    (controller : Controller Rat) : controller.parts value =
      ((controller.views (Category.alone settings)).toList.map (Category.part value)).sum := by
  rw [parts, views, Array.toList_map, List.map_map]
  refine congrArg List.sum (List.map_congr_left fun category _ ↦ ?_)
  have hpart : (category.alone settings).part value = category.part value :=
    Category.part_congr rfl (hvalue category)
  exact hpart.symm

theorem countP_alone (settings : ControllerSettings) (controller : Controller Rat) :
    controller.categories.toList.countP (·.isActive) =
      (controller.views (Category.alone settings)).toList.countP (·.isActive) := by
  rw [views, Array.toList_map, List.countP_map]
  rfl

/-- The totals follow from the categories alone, and from the number of leases. -/
theorem AlikeButWeights.of_views
    (hrest : second = { first with categories := second.categories, totals := second.totals })
    (hviews : first.views (Category.alone settings) = second.views (Category.alone settings))
    {otherSettled : List Settlement} (hfirst : first.Balanced held settled)
    (hsecond : second.Balanced held otherSettled) (hfirstSums : first.Summed)
    (hsecondSums : second.Summed) : AlikeButWeights settings first second := by
  have halone : ∀ {position : Nat} {category other : Category Rat},
      first.categories[position]? = some category → second.categories[position]? = some other →
        category.alone settings = other.alone settings := by
    intro position category other hcategory hother
    have hseen := getElem?_views (Category.alone settings) hcategory
    rw [hviews, getElem?_views _ hother] at hseen
    exact (Option.some.inj hseen).symm
  constructor
  case rest => exact hrest
  case totals =>
    have hactive : second.totals.activeCategories = first.totals.activeCategories := by
      rw [hsecond.activeCategories, hfirst.activeCategories, countP_alone settings,
        countP_alone settings, hviews]
    have hpopularity : second.totals.popularitySum = first.totals.popularitySum := by
      rw [hsecondSums.popularity_eq_parts, hfirstSums.popularity_eq_parts,
        parts_alone (fun _ ↦ rfl), parts_alone (fun _ ↦ rfl), hviews]
    have htotal : second.totals.totalActive = first.totals.totalActive := by
      rw [hsecond.totalActive, hfirst.totalActive]
    change second.totals = ⟨second.totals.weightSum, first.totals.activeCategories,
      first.totals.popularitySum, first.totals.totalActive⟩
    rw [← hactive, ← hpopularity, ← htotal]
  case size => rw [← size_views (Category.alone settings), ← hviews, size_views]
  case category =>
    exact fun position category other hcategory hother ↦
      Category.eq_of_alone (halone hcategory hother)
  case weightSum =>
    intro hignore
    have hvalue : ∀ category : Category Rat,
        (category.alone settings).adjustedWeight = category.adjustedWeight := by
      intro category
      rw [Category.alone, if_pos hignore]
    rw [hsecondSums.weight_eq_parts, hfirstSums.weight_eq_parts, parts_alone hvalue,
      parts_alone hvalue, hviews]
  case adjustedWeight =>
    exact fun hignore position category other hcategory hother ↦
      Category.adjustedWeight_of_alone (halone hcategory hother) hignore

/-- Settling lost leases in another order leads to a controller that is alike. -/
theorem Balanced.alike_abandonAll (h : controller.Balanced (lost.map (·.lease) ++ held) settled)
    (hsummed : controller.Summed)
    (hremembered : ∀ category ∈ controller.categories, category.durations.Remembered)
    (hperm : lost.Perm others) (settings : ControllerSettings) (now : Nat) :
    AlikeButWeights settings (controller.abandonAll settings now lost)
      (controller.abandonAll settings now others) := by
  have hother : controller.Balanced (others.map (·.lease) ++ held) settled :=
    h.perm ((hperm.map _).append_right _)
  obtain ⟨firstSettled, hfirst⟩ := h.left_abandonAll settings now
  obtain ⟨secondSettled, hsecond⟩ := hother.left_abandonAll settings now
  refine .of_views ?_ ?_ hfirst hsecond (hsummed.abandonAll h settings now)
    (hsummed.abandonAll hother settings now)
  · obtain ⟨firstCategories, firstTotals, hfirstEq⟩ := controller.abandonAll_eq settings now lost
    obtain ⟨categories, totals, hsecondEq⟩ := controller.abandonAll_eq settings now others
    rw [hfirstEq, hsecondEq]
  · rw [h.views_abandonAll hremembered, hother.views_abandonAll hremembered, loseAll_perm hperm]

/-! ### A whole sweep -/

/-- A sweep leads from a controller to another, whatever the order in which it visits the stale
leases and the order in which it settles what it took. -/
inductive SweepsTo (controller : Controller Rat) (settings : ControllerSettings) (now : Nat) :
    Controller Rat → Prop
  | intro {stale : List Nat} {lost : List Reclaimed}
    (hstale : stale.Perm (controller.ledger.foundStale now controller.timings.abandonAfter))
    (hlost : lost.Perm (controller.ledger.collectIn stale).2) :
    SweepsTo controller settings now
      (abandonAll
        { controller with ledger := (controller.ledger.collectIn stale).1, lastSweepAt := now }
        settings now lost)

/-- The sweep of the library is one of them. -/
theorem sweepsTo_sweep (controller : Controller Rat) (settings : ControllerSettings) (now : Nat) :
    controller.SweepsTo settings now (controller.sweep settings now).controller := by
  rw [sweep, Ledger.collect_eq_collectIn]
  exact .intro (.refl _) (.refl _)

end Controller

namespace Activity

variable {activity : Activity Rat}

/-- Every category has counted the durations of its leases and remembers the latest. -/
theorem remembered_run {id : String} {timings : Timings} {source : Source} {start : Nat}
    {events : List Event}
    (hrun : (quiet (.build id timings source start) []).run events = some activity) :
    ∀ category ∈ activity.controller.categories, category.durations.Remembered := by
  have hstart : (quiet (.build id timings source start) [] : Activity Rat).Timed [] := by
    refine ⟨fun hsome ↦ ?_, fun _ ↦ rfl⟩
    simp [quiet, Controller.build] at hsome
  have htimed : activity.Timed ([] ++ events) :=
    hstart.run (Sound.start id timings source start) hrun
  intro category hmem
  obtain ⟨position, hposition⟩ := Array.mem_iff_getElem?.mp hmem
  exact (htimed.keeps hposition).remembered

/-- Whatever the parties have in hand, as long as no sweep is running: two orders in which a sweep
may visit the leases it takes back lead to controllers that are alike, and the sweep of the library
visits them in one such order. -/
theorem sweeps_alike (id : String) (timings : Timings) (source : Source) (start : Nat)
    {events : List Event}
    (hrun : (quiet (.build id timings source start) []).run events = some activity)
    (hfree : activity.sweep = none) (settings : ControllerSettings) (now : Nat) :
    activity.controller.SweepsTo settings now (activity.controller.sweep settings now).controller ∧
      ∀ first second : Controller Rat, activity.controller.SweepsTo settings now first →
        activity.controller.SweepsTo settings now second →
          first.AlikeButWeights settings second := by
  refine ⟨activity.controller.sweepsTo_sweep settings now, ?_⟩
  have hsound := (Sound.start id timings source start).run hrun
  have hnumbers := hsound.custody.nodup_outstanding
  have hheld : activity.controller.Balanced activity.controller.ledger.outstanding
      activity.settled := by
    have hbalanced := hsound.balanced
    rwa [held, taken_of_free hfree] at hbalanced
  rintro _ _ ⟨hstale, hlost⟩ ⟨hstale', hlost'⟩
  obtain ⟨hledger, htaken⟩ := Ledger.collectIn_perm hnumbers hstale hstale'
  have hcollected := hheld.perm ((Ledger.perm_collectIn hnumbers hstale).trans
    ((hlost.symm.map (·.lease)).append_right _))
  have hsummed := Controller.summed_run hrun
  rw [← hledger]
  apply Controller.Balanced.alike_abandonAll
  case h => exact hcollected.congr rfl rfl
  case hsummed => exact ⟨hsummed.weight, hsummed.popularity⟩
  case hremembered => exact remembered_run hrun
  case hperm => exact hlost.trans (htaken.trans hlost'.symm)

/-- Three stale leases of two categories, of which the first is twice as popular as the second.
Visited in either order they leave the same counts and sums; the first category is weighed twice as
high when its lease is settled while the other still holds leases. -/
theorem sweeps_alike_three :
    ∃ (source : Source) (settings : ControllerSettings) (events : List Event)
      (activity : Activity Rat) (first second : Controller Rat),
      (quiet (.build "main" {} source 0) []).run events = some activity ∧
      activity.sweep = none ∧
      activity.controller.SweepsTo settings 3601000 first ∧
      activity.controller.SweepsTo settings 3601000 second ∧
      first.AlikeButWeights settings second ∧
      (first.categories[0]?).map (·.adjustedWeight) = some 1000 ∧
      (second.categories[0]?).map (·.adjustedWeight) = some 2000 := by
  let source : Source := ⟨fun _ ↦ ⟨0, {}⟩, fun _ _ ↦ none⟩
  let settings : ControllerSettings := { enabled := false }
  let events : List Event :=
    [.lookUp source 0 "a", .lookUp source 0 "b", .count 0 0, .count 1000 0, .count 1000 1,
      .answer source settings 1000 0, .answer source settings 1000 1,
      .answer source settings 1000 1]
  have hfacts : ((quiet (.build "main" {} source 0 : Controller Rat) []).run events).map
      (fun activity ↦ (activity.sweep.isNone,
        activity.controller.ledger.foundStale 3601000 activity.controller.timings.abandonAfter,
        ((activity.controller.sweep settings 3601000).controller.categories[0]?).map
          (·.adjustedWeight),
        (((Controller.abandonAll
          { activity.controller with
            ledger := (activity.controller.ledger.collectIn [0, 1, 2]).1, lastSweepAt := 3601000 }
          settings 3601000 (activity.controller.ledger.collectIn [0, 1, 2]).2).categories[0]?).map
            (·.adjustedWeight)))) =
          some (true, [2, 1, 0], some 1000, some 2000) := by
    decide +kernel
  obtain ⟨activity, hrun, hfacts⟩ := Option.map_eq_some_iff.mp hfacts
  simp only [Prod.mk.injEq] at hfacts
  obtain ⟨hsweep, hfound, hfirst, hsecond⟩ := hfacts
  have hfree : activity.sweep = none := Option.isNone_iff_eq_none.mp hsweep
  obtain ⟨hlibrary, halike⟩ := sweeps_alike "main" {} source 0 hrun hfree settings 3601000
  have hstale : [0, 1, 2].Perm (activity.controller.ledger.foundStale 3601000
      activity.controller.timings.abandonAfter) := by
    rw [hfound]
    decide
  have hother : activity.controller.SweepsTo settings 3601000 _ := .intro hstale (.refl _)
  exact ⟨source, settings, events, activity, _, _, hrun, hfree, hlibrary, hother,
    halike _ _ hlibrary hother, hfirst, hsecond⟩

end Activity

end Admission
