import Admission.Category.Durations
import Admission.Category.Popularity
import Admission.Overload

/-!
# The state of a category

A category is a named kind of work. Its share of the controller's slots goes by its adjusted weight,

    adjusted = base weight × speed factor × popularity factor,

and its limit is that share of the ceiling, rounded, but at least one. The speed factor, from 0.4 to
1.0, compares the mean duration over all time with an estimate from the leases held now and the
latest durations: a category slower than it used to be is throttled. The popularity factor, from 1.0
to 2.5, compares the category's popularity with the mean over the categories that hold leases.

`Totals` are sums over the categories that hold leases. They are not added up again but changed
along with the categories, so every operation below that changes a weight, a popularity or a number
of leases takes the totals and answers the new ones.
-/

set_option autoImplicit false
set_option relaxedAutoImplicit false

namespace Admission

/-- Sums over the categories that hold leases. -/
structure Totals (R : Type) where
  /-- The sum of the adjusted weights. -/
  weightSum : R
  /-- The number of categories that hold leases. -/
  activeCategories : Nat
  /-- The sum of the popularities. -/
  popularitySum : R
  /-- The number of leases. -/
  totalActive : Nat

namespace Totals

variable {R : Type} [Scalar R]

/-- The sums when no category holds a lease. -/
def start : Totals R := ⟨Scalar.zero, 0, Scalar.zero, 0⟩

/-- The sums when a category of the given weight and popularity takes its first lease. -/
def enter (totals : Totals R) (weight popularity : R) : Totals R :=
  { totals with
    weightSum := totals.weightSum + weight
    activeCategories := totals.activeCategories + 1
    popularitySum := totals.popularitySum + popularity }

/-- The sums when a category of the given weight and popularity has given back its last lease. When
no other category holds a lease the sums start again from zero, so that rounding errors do not pile
up. -/
def leave (totals : Totals R) (weight popularity : R) : Totals R :=
  if totals.activeCategories - 1 = 0 then
    { totals with weightSum := Scalar.zero, popularitySum := Scalar.zero, activeCategories := 0 }
  else
    { totals with
      weightSum := totals.weightSum - weight
      popularitySum := totals.popularitySum - popularity
      activeCategories := totals.activeCategories - 1 }

end Totals

/-- The state of a category. -/
structure Category (R : Type) where
  name : String
  baseWeight : Nat
  /-- When the base weight was last read. -/
  weightCheckedAt : Nat
  adjustedWeight : R
  speedFactor : R
  popularityFactor : R
  popularity : Popularity R
  durations : Durations
  /-- The number of leases held. -/
  active : Nat
  /-- The sum of the times at which the held leases were granted. -/
  grantTimeSum : Nat
  /-- The limit of the latest admission. -/
  limit : Nat
  /-- The most leases held since the peak was last reported. -/
  peakActive : Nat
  peakSampledAt : Nat
  /-- How many requests were granted, how many refused, and how many leases were lost. -/
  admitted : Nat
  rejected : Nat
  abandoned : Nat
  overload : OverloadState

/-- The most leases that a category held between two reports. -/
structure PeakSample (R : Type) where
  category : String
  peakActive : Nat
  limit : Nat
  adjustedWeight : R

namespace Category

variable {R : Type} [Scalar R]

/-- The least speed factor. -/
def minSpeedFactor : R := 0.4

/-- The greatest speed factor, which changes nothing. -/
def maxSpeedFactor : R := 1.0

/-- The least popularity factor, which changes nothing. -/
def minPopularityFactor : R := 1.0

/-- The greatest popularity factor. -/
def maxPopularityFactor : R := 2.5

/-- A category that nobody has asked for yet. -/
def fresh (name : String) (baseWeight now : Nat) : Category R where
  name
  baseWeight
  weightCheckedAt := now
  adjustedWeight := Scalar.ofNat baseWeight
  speedFactor := maxSpeedFactor
  popularityFactor := minPopularityFactor
  popularity := .start now
  durations := {}
  active := 0
  grantTimeSum := 0
  limit := 1
  peakActive := 0
  peakSampledAt := now
  admitted := 0
  rejected := 0
  abandoned := 0
  overload := ⟨false, now⟩

/-- Whether the category holds a lease. -/
def isActive (category : Category R) : Bool := 0 < category.active

/-! ### Weights -/

/-- Whether the base weight is due to be read again. -/
def weightRefreshDue (category : Category R) (now interval : Nat) : Bool :=
  interval ≤ now - category.weightCheckedAt

/-- Sets the base weight. -/
def setBaseWeight (category : Category R) (weight now : Nat) : Category R :=
  { category with baseWeight := weight, weightCheckedAt := now }

/-- Counts a submission, and carries the change of popularity into the totals. -/
def recordSubmission (category : Category R) (totals : Totals R) (now width : Nat) :
    Category R × Totals R :=
  let recorded := category.popularity.record now width
  let closed := max width 1 ≤ now - category.popularity.openedAt
  ({ category with popularity := recorded },
    if closed && category.isActive then
      { totals with
        popularitySum := totals.popularitySum + (recorded.value - category.popularity.value) }
    else totals)

/-- How long the leases held now have been held, all together. -/
def runningTime (category : Category R) (now : Nat) : Nat :=
  now * category.active - category.grantTimeSum

/-- The number of durations that the present speed is estimated from. -/
def speedSamples (category : Category R) : Nat :=
  category.active + category.durations.recent.length

/-- The mean over the leases held now and the latest durations. -/
def momentMean (category : Category R) (now : Nat) : R :=
  Scalar.mean (category.runningTime now + category.durations.recent.sum) category.speedSamples

/-- The mean of all durations; until there is one, the present mean stands in for it. -/
def usualMean (category : Category R) (now : Nat) : R :=
  if 0 < category.durations.count then
    Scalar.mean category.durations.total category.durations.count
  else category.momentMean now

/-- The usual speed compared with the present one. Without a lease or a duration it stays as it
was. -/
def nextSpeedFactor (category : Category R) (now : Nat) : R :=
  if category.speedSamples = 0 then category.speedFactor
  else if Scalar.zero < category.momentMean now then
    Scalar.clamp (category.usualMean now / category.momentMean now) minSpeedFactor maxSpeedFactor
  else maxSpeedFactor

/-- A popularity compared with the mean over the categories that hold leases. -/
def popularityFactorOf (popularity : R) (totals : Totals R) : R :=
  if totals.activeCategories = 0 then minPopularityFactor
  else
    let average := totals.popularitySum / Scalar.ofNat totals.activeCategories
    if average ≤ Scalar.zero then minPopularityFactor
    else Scalar.clamp (popularity / average) minPopularityFactor maxPopularityFactor

/-- The base weight times the factors that the settings do not leave out. -/
def scaledWeight (baseWeight : Nat) (speed popularity : R) (settings : ControllerSettings) : R :=
  let weight := Scalar.ofNat baseWeight
  let weight := if settings.ignoreSpeed then weight else weight * speed
  if settings.ignorePopularity then weight else weight * popularity

/-- Computes the factors and the adjusted weight anew, and carries the change of weight into the
totals. -/
def recomputeWeight (category : Category R) (totals : Totals R) (now : Nat)
    (settings : ControllerSettings) : Category R × Totals R :=
  let speedFactor := category.nextSpeedFactor now
  let popularityFactor := popularityFactorOf category.popularity.value totals
  let weight := scaledWeight category.baseWeight speedFactor popularityFactor settings
  ({ category with
      speedFactor
      popularityFactor
      adjustedWeight := weight
      peakActive := max category.peakActive category.active },
    if category.isActive then
      { totals with weightSum := totals.weightSum + (weight - category.adjustedWeight) }
    else totals)

/-! ### Limits -/

/-- The category's share of a ceiling before it is cut to a limit. The weight of a category without
leases is not yet part of the totals. -/
def share (category : Category R) (totals : Totals R) (threshold : Nat) : R :=
  let allWeight :=
    if category.isActive then totals.weightSum else totals.weightSum + category.adjustedWeight
  if Scalar.zero < allWeight then
    Scalar.round (Scalar.ofNat threshold * category.adjustedWeight / allWeight)
  else Scalar.zero

/-- The greatest limit. -/
def maxLimit : Nat := 0xFFFFFFFF

/-- A share as a number of leases, from one to `maxLimit`. -/
def limitOfShare (share : R) : Nat :=
  if Scalar.isFinite share ∧ Scalar.ofNat 1 ≤ share then
    Scalar.truncate (if share < Scalar.ofNat maxLimit then share else Scalar.ofNat maxLimit)
  else 1

/-- The category's limit under a ceiling. -/
def fairLimit (category : Category R) (totals : Totals R) (threshold : Nat) : Nat :=
  limitOfShare (category.share totals threshold)

/-- Reports the peak and starts a new one, if the last report is long enough ago. -/
def samplePeak (category : Category R) (now interval : Nat) :
    Category R × Option (PeakSample R) :=
  if now - category.peakSampledAt < interval then (category, none)
  else
    ({ category with peakActive := 0, peakSampledAt := now },
      some ⟨category.name, category.peakActive, category.limit, category.adjustedWeight⟩)

/-! ### Leases -/

/-- Counts a lease granted now. -/
def grant (category : Category R) (totals : Totals R) (now : Nat) : Category R × Totals R :=
  let entered :=
    if category.active = 0 then totals.enter category.adjustedWeight category.popularity.value
    else totals
  ({ category with
      active := category.active + 1
      grantTimeSum := category.grantTimeSum + now
      admitted := category.admitted + 1
      peakActive := max category.peakActive (category.active + 1) },
    { entered with totalActive := entered.totalActive + 1 })

/-- Counts a refusal. -/
def reject (category : Category R) : Category R :=
  { category with rejected := category.rejected + 1 }

/-- Takes a lease granted at the given time off the counts. -/
def deactivateOne (category : Category R) (totals : Totals R) (grantedAt : Nat) :
    Category R × Totals R :=
  if category.active = 0 then (category, totals)
  else
    let left : Category R :=
      { category with
        active := category.active - 1
        grantTimeSum := category.grantTimeSum - grantedAt }
    let fewer : Totals R := { totals with totalActive := totals.totalActive - 1 }
    (left,
      if left.active = 0 then fewer.leave category.adjustedWeight category.popularity.value
      else fewer)

/-- Settles a released lease: its duration is recorded. -/
def finish (category : Category R) (totals : Totals R) (grantedAt now : Nat)
    (settings : ControllerSettings) : Category R × Totals R :=
  let recorded := { category with durations := category.durations.push (now - grantedAt) }
  let (left, totals) := recorded.deactivateOne totals grantedAt
  left.recomputeWeight totals now settings

/-- Settles a lost lease: its duration is not recorded. -/
def abandon (category : Category R) (totals : Totals R) (grantedAt now : Nat)
    (settings : ControllerSettings) : Category R × Totals R :=
  let counted := { category with abandoned := category.abandoned + 1 }
  let (left, totals) := counted.deactivateOne totals grantedAt
  left.recomputeWeight totals now settings

end Category

/-- A category as it is shown to callers. -/
structure CategorySnapshot (R : Type) where
  name : String
  baseWeight : Nat
  adjustedWeight : R
  speedFactor : R
  popularityFactor : R
  popularity : R
  active : Nat
  limit : Nat
  peakActive : Nat
  admitted : Nat
  rejected : Nat
  abandoned : Nat
  finished : Nat
  recentMean : R
  totalMean : R
  overloaded : Bool
  overloadChangedAt : Nat

/-- The present state as it is shown to callers. -/
def Category.snapshot {R : Type} [Scalar R] (category : Category R) : CategorySnapshot R where
  name := category.name
  baseWeight := category.baseWeight
  adjustedWeight := category.adjustedWeight
  speedFactor := category.speedFactor
  popularityFactor := category.popularityFactor
  popularity := category.popularity.value
  active := category.active
  limit := category.limit
  peakActive := category.peakActive
  admitted := category.admitted
  rejected := category.rejected
  abandoned := category.abandoned
  finished := category.durations.count
  recentMean := category.durations.recentMean
  totalMean := category.durations.totalMean
  overloaded := category.overload.overloaded
  overloadChangedAt := category.overload.changedAt

end Admission
