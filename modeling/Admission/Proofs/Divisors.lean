import Admission.Proofs.Shares
import Admission.Controller.Snapshot

/-!
# Every division has a divisor

A category divides when it takes a mean, when it compares its speed or its popularity with another,
and when it counts the windows that have passed. The definitions here do what those of a category
do, but a division without a positive divisor has no result. They always have one, and it is the
same (`Category.recordSubmission?_eq`, `Category.recomputeWeight?_eq`, `Category.snapshot?_eq`): no
division is made whose divisor is not positive, whatever the state of the category, the totals, the
settings and the clock. The one division that remains, that of a ceiling by all the weight, is made
behind a check of its own.
-/

set_option autoImplicit false
set_option relaxedAutoImplicit false

namespace Admission

/-- The quotient of two numbers, if the divisor is positive. -/
def quotient? (dividend divisor : Rat) : Option Rat :=
  if 0 < divisor then some (dividend / divisor) else none

/-- The whole part of the quotient of two counts, if the divisor is positive. -/
def wholeQuotient? (dividend divisor : Nat) : Option Nat :=
  if 0 < divisor then some (dividend / divisor) else none

/-- The mean of some terms, if there are any. -/
def mean? (sum count : Nat) : Option Rat := quotient? (Scalar.ofNat sum) (Scalar.ofNat count)

theorem quotient?_of_pos {divisor : Rat} (h : 0 < divisor) (dividend : Rat) :
    quotient? dividend divisor = some (dividend / divisor) :=
  if_pos h

theorem wholeQuotient?_of_pos {divisor : Nat} (h : 0 < divisor) (dividend : Nat) :
    wholeQuotient? dividend divisor = some (dividend / divisor) :=
  if_pos h

theorem mean?_of_pos {count : Nat} (h : 0 < count) (sum : Nat) :
    mean? sum count = some (Scalar.mean sum count) :=
  quotient?_of_pos (Nat.cast_pos.mpr h) _

/-! ### Popularity -/

theorem History.length_push_pos (history : History) (value : Nat) :
    0 < (history.push value).length := by
  unfold push trim
  split
  · next hnone => simp [append] at hnone
  · next oldest kept hitems =>
    split
    · next hlong =>
      rw [length, hitems, List.length_cons] at hlong
      have hcapacity : capacity = 50 := rfl
      rw [length]
      dsimp only
      omega
    · rw [length, hitems, List.length_cons]
      exact Nat.succ_pos _

namespace Popularity

/-- Counts a submission as `record` does, if it can. -/
def record? (popularity : Popularity Rat) (now width : Nat) : Option (Popularity Rat) :=
  let width := max width 1
  let count := min (popularity.pending + 1) maxPending
  let elapsed := now - popularity.openedAt
  if elapsed < width then some { popularity with pending := count }
  else do
    let windows ← wholeQuotient? elapsed width
    let samples := closeWindow popularity.samples (min (windows - 1) History.capacity) count
    let value ← mean? samples.sum samples.length
    return { value, samples, pending := 0, openedAt := now }

theorem length_closeWindow_pos (samples : History) (silent count : Nat) :
    0 < (closeWindow samples silent count).length :=
  History.length_push_pos ..

theorem record?_eq (popularity : Popularity Rat) (now width : Nat) :
    popularity.record? now width = some (popularity.record now width) := by
  have hwidth : 0 < max width 1 := lt_max_of_lt_right Nat.one_pos
  unfold record? record
  dsimp only
  split
  · rfl
  · rw [wholeQuotient?_of_pos hwidth, Option.bind_eq_bind, Option.bind_some,
      mean?_of_pos (length_closeWindow_pos ..)]
    rfl

end Popularity

/-! ### Durations -/

namespace Durations

/-- The mean of the latest durations, if it can be taken. -/
def recentMean? (durations : Durations) : Option Rat :=
  if durations.recent.items.isEmpty then some Scalar.zero
  else mean? durations.recent.sum durations.recent.length

/-- The mean of all durations, if it can be taken. -/
def totalMean? (durations : Durations) : Option Rat :=
  if durations.count = 0 then some Scalar.zero else mean? durations.total durations.count

theorem recentMean?_eq (durations : Durations) :
    durations.recentMean? = some durations.recentMean := by
  unfold recentMean? recentMean
  split
  · rfl
  · next hsome =>
    rw [List.isEmpty_iff] at hsome
    exact mean?_of_pos (List.length_pos_iff.mpr hsome) _

theorem totalMean?_eq (durations : Durations) :
    durations.totalMean? = some durations.totalMean := by
  unfold totalMean? totalMean
  split
  · rfl
  · next hsome => exact mean?_of_pos (Nat.pos_of_ne_zero hsome) _

end Durations

/-! ### Weights -/

namespace Category

section Parts

variable {R : Type} [Scalar R]

/-- The category and the totals once a submission is counted and leaves the given popularity. -/
def recordedAs (category : Category R) (totals : Totals R) (now width : Nat)
    (recorded : Popularity R) : Category R × Totals R :=
  let closed := max width 1 ≤ now - category.popularity.openedAt
  ({ category with popularity := recorded },
    if closed && category.isActive then
      { totals with
        popularitySum := totals.popularitySum + (recorded.value - category.popularity.value) }
    else totals)

/-- The category and the totals once the weight is computed anew from the given factors. -/
def weighedBy (category : Category R) (totals : Totals R) (settings : ControllerSettings)
    (speedFactor popularityFactor : R) : Category R × Totals R :=
  let weight := scaledWeight category.baseWeight speedFactor popularityFactor settings
  ({ category with
      speedFactor
      popularityFactor
      adjustedWeight := weight
      peakActive := max category.peakActive category.active },
    if category.isActive then
      { totals with weightSum := totals.weightSum + (weight - category.adjustedWeight) }
    else totals)

theorem recordSubmission_eq (category : Category R) (totals : Totals R) (now width : Nat) :
    category.recordSubmission totals now width =
      category.recordedAs totals now width (category.popularity.record now width) :=
  rfl

theorem recomputeWeight_eq (category : Category R) (totals : Totals R) (now : Nat)
    (settings : ControllerSettings) :
    category.recomputeWeight totals now settings =
      category.weighedBy totals settings (category.nextSpeedFactor now)
        (popularityFactorOf category.popularity.value totals) :=
  rfl

end Parts

/-- The mean over the leases held now and the latest durations, if it can be taken. -/
def momentMean? (category : Category Rat) (now : Nat) : Option Rat :=
  mean? (category.runningTime now + category.durations.recent.sum) category.speedSamples

/-- The mean of all durations, if it can be taken. -/
def usualMean? (category : Category Rat) (now : Nat) : Option Rat :=
  if 0 < category.durations.count then mean? category.durations.total category.durations.count
  else category.momentMean? now

/-- The usual speed compared with the present one, if it can be. -/
def nextSpeedFactor? (category : Category Rat) (now : Nat) : Option Rat :=
  if category.speedSamples = 0 then some category.speedFactor
  else do
    let moment ← category.momentMean? now
    let usual ← category.usualMean? now
    if Scalar.zero < moment then
      let ratio ← quotient? usual moment
      return Scalar.clamp ratio minSpeedFactor maxSpeedFactor
    else return maxSpeedFactor

/-- A popularity compared with the mean over the categories that hold leases, if it can be. -/
def popularityFactorOf? (popularity : Rat) (totals : Totals Rat) : Option Rat :=
  if totals.activeCategories = 0 then some minPopularityFactor
  else do
    let average ← quotient? totals.popularitySum (Scalar.ofNat totals.activeCategories)
    if average ≤ Scalar.zero then return minPopularityFactor
    else
      let ratio ← quotient? popularity average
      return Scalar.clamp ratio minPopularityFactor maxPopularityFactor

theorem momentMean?_eq {category : Category Rat} (h : category.speedSamples ≠ 0) (now : Nat) :
    category.momentMean? now = some (category.momentMean now) :=
  mean?_of_pos (Nat.pos_of_ne_zero h) _

theorem usualMean?_eq {category : Category Rat} (h : category.speedSamples ≠ 0) (now : Nat) :
    category.usualMean? now = some (category.usualMean now) := by
  unfold usualMean? usualMean
  split
  · next hcount => exact mean?_of_pos hcount _
  · exact momentMean?_eq h now

theorem nextSpeedFactor?_eq (category : Category Rat) (now : Nat) :
    category.nextSpeedFactor? now = some (category.nextSpeedFactor now) := by
  unfold nextSpeedFactor? nextSpeedFactor
  split
  · rfl
  · next hsamples =>
    rw [momentMean?_eq hsamples, usualMean?_eq hsamples, Option.bind_eq_bind, Option.bind_some,
      Option.bind_some]
    split
    · next hmoment =>
      rw [quotient?_of_pos hmoment]
      rfl
    · rfl

theorem popularityFactorOf?_eq (popularity : Rat) (totals : Totals Rat) :
    popularityFactorOf? popularity totals = some (popularityFactorOf popularity totals) := by
  unfold popularityFactorOf? popularityFactorOf
  dsimp only
  split
  · rfl
  · next hactive =>
    have hcount : (0 : Rat) < Scalar.ofNat totals.activeCategories :=
      Nat.cast_pos.mpr (Nat.pos_of_ne_zero hactive)
    rw [quotient?_of_pos hcount, Option.bind_eq_bind, Option.bind_some]
    split
    · rfl
    · next haverage =>
      rw [quotient?_of_pos (not_le.mp haverage)]
      rfl

/-- Counts a submission as `recordSubmission` does, if it can. -/
def recordSubmission? (category : Category Rat) (totals : Totals Rat) (now width : Nat) :
    Option (Category Rat × Totals Rat) :=
  (category.popularity.record? now width).map (category.recordedAs totals now width)

/-- Computes the weight anew as `recomputeWeight` does, if it can. -/
def recomputeWeight? (category : Category Rat) (totals : Totals Rat) (now : Nat)
    (settings : ControllerSettings) : Option (Category Rat × Totals Rat) := do
  let speedFactor ← category.nextSpeedFactor? now
  let popularityFactor ← popularityFactorOf? category.popularity.value totals
  return category.weighedBy totals settings speedFactor popularityFactor

/-- The category as it is shown to callers, if it can be. -/
def snapshot? (category : Category Rat) : Option (CategorySnapshot Rat) := do
  let recentMean ← category.durations.recentMean?
  let totalMean ← category.durations.totalMean?
  return { category.snapshot with recentMean, totalMean }

theorem recordSubmission?_eq (category : Category Rat) (totals : Totals Rat) (now width : Nat) :
    category.recordSubmission? totals now width =
      some (category.recordSubmission totals now width) := by
  rw [recordSubmission?, Popularity.record?_eq, Option.map_some, recordSubmission_eq]

theorem recomputeWeight?_eq (category : Category Rat) (totals : Totals Rat) (now : Nat)
    (settings : ControllerSettings) :
    category.recomputeWeight? totals now settings =
      some (category.recomputeWeight totals now settings) := by
  rw [recomputeWeight?, nextSpeedFactor?_eq, popularityFactorOf?_eq, recomputeWeight_eq]
  rfl

theorem snapshot?_eq (category : Category Rat) : category.snapshot? = some category.snapshot := by
  rw [snapshot?, Durations.recentMean?_eq, Durations.totalMean?_eq]
  rfl

end Category

end Admission
