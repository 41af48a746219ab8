import Admission.Proofs.Divisors
import Admission.Proofs.Speed

/-!
# Whole numbers in machine words

A machine keeps whole numbers in words of 32, 64 or 128 bits, where a sum or a product may be too
large and a difference may be negative. The definitions here do what those of a controller do, but a
sum or a product that does not fit its word has no result, and neither has a negative difference;
only where a subtraction is meant to stop at zero, or a counter at its greatest value, it stops.

`Controller.Fits` says that every number that a controller carries along fits its word. If a
controller fits before and after something is dealt with, then everything that is computed meanwhile
fits as well, and comes to the same (`Activity.Dealing.actInWords_eq`). Most results are themselves
carried along. The sum over a history is not: it is largest before the oldest value is taken off,
when it is over one value more than a history keeps (`History.pushInWords_eq`).
-/

set_option autoImplicit false
set_option relaxedAutoImplicit false

namespace Admission

namespace Word

/-- The sum of two numbers, if it fits a word of so many bits. -/
def sum? (bits first second : Nat) : Option Nat :=
  if first + second < 2 ^ bits then some (first + second) else none

/-- The product of two numbers, if it fits a word of so many bits. -/
def product? (bits first second : Nat) : Option Nat :=
  if first * second < 2 ^ bits then some (first * second) else none

/-- The difference of two numbers, if it is not negative. -/
def difference? (first second : Nat) : Option Nat :=
  if second ≤ first then some (first - second) else none

variable {bits first second : Nat}

theorem sum?_of_lt (h : first + second < 2 ^ bits) :
    sum? bits first second = some (first + second) :=
  if_pos h

theorem product?_of_lt (h : first * second < 2 ^ bits) :
    product? bits first second = some (first * second) :=
  if_pos h

theorem difference?_of_le (h : second ≤ first) :
    difference? first second = some (first - second) :=
  if_pos h

end Word

/-! ### Histories -/

namespace History

/-- Adds a value at the end, if the sum fits. -/
def appendInWords (history : History) (value : Nat) : Option History :=
  (Word.sum? 64 history.sum value).map fun sum ↦ ⟨history.items ++ [value], sum⟩

/-- Takes the oldest value off when there are too many, if it is part of the sum. -/
def trimInWords (history : History) : Option History :=
  match history.items with
  | [] => some history
  | oldest :: kept =>
    if capacity < history.length then
      (Word.difference? history.sum oldest).map fun sum ↦ ⟨kept, sum⟩
    else some history

/-- Adds a value to the series. -/
def pushInWords (history : History) (value : Nat) : Option History :=
  (history.appendInWords value).bind trimInWords

/-- Adds values to the series one after another. -/
def pushAllInWords (history : History) (values : List Nat) : Option History :=
  values.foldlM pushInWords history

/-- The sum is that of the values kept, of which there are not too many, each up to a bound. -/
structure Within (bound : Nat) (history : History) : Prop where
  summed : history.Summed
  length_le : history.length ≤ capacity
  le : ∀ value ∈ history.items, value ≤ bound

variable {bound value : Nat} {history : History}

theorem within_empty (bound : Nat) : ({} : History).Within bound :=
  ⟨rfl, Nat.zero_le _, nofun⟩

theorem Within.sum_le (h : history.Within bound) : history.sum ≤ capacity * bound := by
  calc history.sum = history.items.sum := h.summed
    _ ≤ history.items.length * bound := List.sum_le_card_nsmul _ _ h.le
    _ ≤ capacity * bound := Nat.mul_le_mul_right bound h.length_le

theorem Within.push (h : history.Within bound) (hvalue : value ≤ bound) :
    (history.push value).Within bound := by
  have hshort : history.items.length - capacity = 0 := Nat.sub_eq_zero_of_le h.length_le
  have hall : history.items = latest history.items := by
    rw [latest, hshort, List.drop_zero]
  have hitems := items_push hall value
  refine ⟨sum_push h.summed value, ?_, ?_⟩
  · rw [length, hitems]
    exact length_latest_le _
  · intro other hmem
    rw [hitems] at hmem
    rcases List.mem_append.mp (List.mem_of_mem_drop hmem) with hmem | hmem
    · exact h.le other hmem
    · exact (List.mem_singleton.mp hmem).trans_le hvalue

theorem trimInWords_eq (h : history.Summed) : history.trimInWords = some history.trim := by
  unfold trimInWords trim
  cases hitems : history.items with
  | nil => rfl
  | cons oldest kept =>
    have hpart : oldest ≤ history.sum := by
      rw [h, hitems]
      exact Nat.le_add_right ..
    dsimp only
    rw [Word.difference?_of_le hpart]
    split <;> rfl

/-- Before the oldest value is taken off, the sum is over one value more than are kept. -/
theorem pushInWords_eq (h : history.Within bound) (hvalue : value ≤ bound)
    (hbound : (capacity + 1) * bound < 2 ^ 64) :
    history.pushInWords value = some (history.push value) := by
  have hsum : history.sum + value < 2 ^ 64 := by
    have hkept := h.sum_le
    rw [Nat.succ_mul] at hbound
    omega
  rw [pushInWords, appendInWords, Word.sum?_of_lt hsum]
  exact trimInWords_eq (summed_append h.summed value)

-- Two values are too many for a word if each takes up half of it.
example : (⟨[2 ^ 63], 2 ^ 63⟩ : History).pushInWords (2 ^ 63) = none := by decide

theorem Within.pushAll (h : history.Within bound) {values : List Nat}
    (hvalues : ∀ value ∈ values, value ≤ bound) : (history.pushAll values).Within bound := by
  induction values generalizing history with
  | nil => exact h
  | cons first rest ih =>
    obtain ⟨hfirst, hrest⟩ := List.forall_mem_cons.mp hvalues
    exact ih (h.push hfirst) hrest

theorem pushAllInWords_eq (h : history.Within bound) {values : List Nat}
    (hvalues : ∀ value ∈ values, value ≤ bound) (hbound : (capacity + 1) * bound < 2 ^ 64) :
    history.pushAllInWords values = some (history.pushAll values) := by
  induction values generalizing history with
  | nil => rfl
  | cons first rest ih =>
    obtain ⟨hfirst, hrest⟩ := List.forall_mem_cons.mp hvalues
    rw [pushAllInWords, List.foldlM_cons, pushInWords_eq h hfirst hbound]
    exact ih (h.push hfirst) hrest

end History

/-! ### Popularity -/

namespace Popularity

variable {R : Type}

/-- The counter and the samples of a popularity fit their words. -/
structure Fits (popularity : Popularity R) : Prop where
  pending : popularity.pending < 2 ^ 32
  samples : popularity.samples.Within maxPending

variable [Scalar R]

/-- The samples after closing a window of the given count. -/
def closeWindowInWords (samples : History) (silent count : Nat) : Option History :=
  (samples.pushAllInWords (List.replicate silent 0)).bind (·.pushInWords count)

/-- Counts a submission as `record` does. -/
def recordInWords (popularity : Popularity R) (now width : Nat) : Option (Popularity R) :=
  let width := max width 1
  let count := min (popularity.pending + 1) maxPending
  let elapsed := now - popularity.openedAt
  if elapsed < width then some { popularity with pending := count }
  else do
    let silent ← Word.difference? (elapsed / width) 1
    let samples ← closeWindowInWords popularity.samples (min silent History.capacity) count
    return {
      value := Scalar.mean samples.sum samples.length
      samples
      pending := 0
      openedAt := now }

theorem forall_replicate_le (silent : Nat) :
    ∀ value ∈ List.replicate silent 0, value ≤ maxPending := by
  intro value hmem
  rw [List.eq_of_mem_replicate hmem]
  exact Nat.zero_le _

theorem closeWindowInWords_eq {samples : History} (h : samples.Within maxPending) (silent : Nat)
    {count : Nat} (hcount : count ≤ maxPending) :
    closeWindowInWords samples silent count = some (closeWindow samples silent count) := by
  have hbound : (History.capacity + 1) * maxPending < 2 ^ 64 := by decide
  rw [closeWindowInWords, History.pushAllInWords_eq h (forall_replicate_le silent) hbound,
    Option.bind_some, History.pushInWords_eq (h.pushAll (forall_replicate_le silent)) hcount hbound]
  rfl

theorem fits_start (now : Nat) : (start now : Popularity R).Fits :=
  ⟨Nat.two_pow_pos 32, History.within_empty _⟩

variable {popularity : Popularity R}

theorem Fits.record (h : popularity.Fits) (now width : Nat) :
    (popularity.record now width).Fits := by
  have hcount : min (popularity.pending + 1) maxPending ≤ maxPending := min_le_right ..
  unfold Popularity.record
  dsimp only
  split
  · exact ⟨Nat.lt_of_le_of_lt hcount (by decide), h.samples⟩
  · exact ⟨Nat.two_pow_pos 32, (h.samples.pushAll (forall_replicate_le _)).push hcount⟩

theorem recordInWords_eq (h : popularity.Fits) (now width : Nat) :
    popularity.recordInWords now width = some (popularity.record now width) := by
  unfold recordInWords Popularity.record
  dsimp only
  split
  · rfl
  · next hclosed =>
    -- The window that closes has lasted one width at least.
    have hone : 1 ≤ (now - popularity.openedAt) / max width 1 :=
      Nat.div_pos (not_lt.mp hclosed) (lt_max_of_lt_right Nat.one_pos)
    rw [Word.difference?_of_le hone, Option.bind_eq_bind, Option.bind_some,
      closeWindowInWords_eq h.samples _ (min_le_right ..)]
    rfl

end Popularity

/-! ### Durations -/

namespace Durations

/-- The latest durations, their number and their sum fit their words. -/
structure Fits (durations : Durations) : Prop where
  recent : durations.recent.Within (2 ^ 58)
  count : durations.count < 2 ^ 64
  total : durations.total < 2 ^ 128

/-- Adds a duration. -/
def pushInWords (durations : Durations) (duration : Nat) : Option Durations := do
  let recent ← durations.recent.pushInWords duration
  let count ← Word.sum? 64 durations.count 1
  let total ← Word.sum? 128 durations.total duration
  return { recent, count, total }

theorem pushInWords_eq {durations : Durations} {duration : Nat} (h : durations.Fits)
    (hduration : duration ≤ 2 ^ 58) (hafter : (durations.push duration).Fits) :
    durations.pushInWords duration = some (durations.push duration) := by
  rw [pushInWords, History.pushInWords_eq h.recent hduration (by decide),
    Word.sum?_of_lt hafter.count, Word.sum?_of_lt hafter.total]
  rfl

end Durations

/-! ### Categories -/

variable {R : Type}

/-- The counts of the totals fit their words. -/
structure Totals.Fits (totals : Totals R) : Prop where
  activeCategories : totals.activeCategories < 2 ^ 32
  totalActive : totals.totalActive < 2 ^ 32

/-- The whole numbers that a category carries along fit their words. -/
structure Category.Fits (category : Category R) : Prop where
  popularity : category.popularity.Fits
  durations : category.durations.Fits
  active : category.active < 2 ^ 32
  grantTimeSum : category.grantTimeSum < 2 ^ 128
  admitted : category.admitted < 2 ^ 64
  rejected : category.rejected < 2 ^ 64
  abandoned : category.abandoned < 2 ^ 64

variable [Scalar R]

/-- The sums when a category of the given weight and popularity takes its first lease. -/
def Totals.enterInWords (totals : Totals R) (weight popularity : R) : Option (Totals R) :=
  (Word.sum? 32 totals.activeCategories 1).map fun activeCategories ↦
    { totals with
      weightSum := totals.weightSum + weight
      activeCategories
      popularitySum := totals.popularitySum + popularity }

namespace Category

/-- Counts a submission. -/
def recordSubmissionInWords (category : Category R) (totals : Totals R) (now width : Nat) :
    Option (Category R × Totals R) :=
  (category.popularity.recordInWords now width).map (category.recordedAs totals now width)

/-- The mean over the leases held now and the latest durations, of which there are so many. -/
def momentMeanInWords (category : Category R) (now samples : Nat) : Option R := do
  let held ← Word.product? 128 now category.active
  let time ← Word.sum? 128 (held - category.grantTimeSum) category.durations.recent.sum
  return Scalar.mean time samples

/-- The usual speed compared with a present mean. -/
def speedFactorAt (category : Category R) (moment : R) : R :=
  let usual :=
    if 0 < category.durations.count then
      Scalar.mean category.durations.total category.durations.count
    else moment
  if Scalar.zero < moment then Scalar.clamp (usual / moment) minSpeedFactor maxSpeedFactor
  else maxSpeedFactor

/-- The usual speed compared with the present one. -/
def nextSpeedFactorInWords (category : Category R) (now : Nat) : Option R := do
  let samples ← Word.sum? 128 category.active category.durations.recent.length
  if samples = 0 then return category.speedFactor
  else
    let moment ← category.momentMeanInWords now samples
    return category.speedFactorAt moment

/-- Computes the factors and the adjusted weight anew. -/
def recomputeWeightInWords (category : Category R) (totals : Totals R) (now : Nat)
    (settings : ControllerSettings) : Option (Category R × Totals R) :=
  (category.nextSpeedFactorInWords now).map fun speedFactor ↦
    category.weighedBy totals settings speedFactor
      (popularityFactorOf category.popularity.value totals)

/-- The category with its weight brought up to date. -/
def refreshWeightInWords (category : Category R) (totals : Totals R) (now weight : Nat)
    (timings : Timings) (settings : ControllerSettings) : Option (Category R × Totals R) :=
  let weighed :=
    if category.weightRefreshDue now timings.weightRefresh then category.setBaseWeight weight now
    else category
  weighed.recomputeWeightInWords totals now settings

/-- Decides about a request for a category whose weight is up to date. -/
def decideWeighed (weighed : Category R × Totals R) (now : Nat) (timings : Timings)
    (settings : ControllerSettings) : Decision R :=
  let (sampled, peak) := weighed.1.samplePeak now timings.peakSampleInterval
  let limit := sampled.fairLimit weighed.2 settings.threshold
  let change := sampled.overload.transition? R sampled.active limit settings
  { category := { sampled with limit, overload := sampled.overload.apply now change }
    totals := weighed.2
    peak
    change
    granted := sampled.mayEnter weighed.2 limit settings }

/-- Decides about a request. -/
def decideInWords (category : Category R) (totals : Totals R) (now weight : Nat) (timings : Timings)
    (settings : ControllerSettings) : Option (Decision R) :=
  (category.refreshWeightInWords totals now weight timings settings).map
    (decideWeighed · now timings settings)

/-- Counts a lease granted now. -/
def grantInWords (category : Category R) (totals : Totals R) (now : Nat) :
    Option (Category R × Totals R) := do
  let entered ←
    if category.active = 0 then
      totals.enterInWords category.adjustedWeight category.popularity.value
    else some totals
  let active ← Word.sum? 32 category.active 1
  let grantTimeSum ← Word.sum? 128 category.grantTimeSum now
  let admitted ← Word.sum? 64 category.admitted 1
  let totalActive ← Word.sum? 32 entered.totalActive 1
  return ({ category with
      active
      grantTimeSum
      admitted
      peakActive := max category.peakActive active },
    { entered with totalActive })

/-- Counts a refusal. -/
def rejectInWords (category : Category R) : Option (Category R) :=
  (Word.sum? 64 category.rejected 1).map fun rejected ↦ { category with rejected }

/-- Takes a lease granted at the given time off the counts. -/
def deactivateOneInWords (category : Category R) (totals : Totals R) (grantedAt : Nat) :
    Option (Category R × Totals R) :=
  if category.active = 0 then some (category, totals)
  else
    (Word.difference? category.active 1).map fun active ↦
      let left : Category R :=
        { category with active, grantTimeSum := category.grantTimeSum - grantedAt }
      let fewer : Totals R := { totals with totalActive := totals.totalActive - 1 }
      (left,
        if left.active = 0 then fewer.leave category.adjustedWeight category.popularity.value
        else fewer)

/-- Settles a released lease. -/
def finishInWords (category : Category R) (totals : Totals R) (grantedAt now : Nat)
    (settings : ControllerSettings) : Option (Category R × Totals R) := do
  let durations ← category.durations.pushInWords (now - grantedAt)
  let (left, totals) ← { category with durations }.deactivateOneInWords totals grantedAt
  left.recomputeWeightInWords totals now settings

/-- Settles a lost lease. -/
def abandonInWords (category : Category R) (totals : Totals R) (grantedAt now : Nat)
    (settings : ControllerSettings) : Option (Category R × Totals R) := do
  let abandoned ← Word.sum? 64 category.abandoned 1
  let (left, totals) ← { category with abandoned }.deactivateOneInWords totals grantedAt
  left.recomputeWeightInWords totals now settings

variable {category : Category R} {totals : Totals R} {now : Nat}

theorem recordSubmissionInWords_eq (h : category.Fits) (totals : Totals R) (now width : Nat) :
    category.recordSubmissionInWords totals now width =
      some (category.recordSubmission totals now width) := by
  rw [recordSubmissionInWords, Popularity.recordInWords_eq h.popularity, Option.map_some,
    recordSubmission_eq]

/-- The time that leases have been held, all together, is far from the largest word. -/
theorem momentMeanInWords_eq (hactive : category.active < 2 ^ 32)
    (hrecent : category.durations.recent.Within (2 ^ 58)) (hnow : now ≤ 2 ^ 58) :
    category.momentMeanInWords now category.speedSamples = some (category.momentMean now) := by
  have hheld : now * category.active ≤ 2 ^ 58 * 2 ^ 32 := Nat.mul_le_mul hnow hactive.le
  have hsum : category.durations.recent.sum ≤ 50 * 2 ^ 58 := hrecent.sum_le
  have hproduct : now * category.active < 2 ^ 128 := by omega
  have htime : now * category.active - category.grantTimeSum + category.durations.recent.sum <
      2 ^ 128 := by
    omega
  rw [momentMeanInWords, Word.product?_of_lt hproduct, Option.bind_eq_bind, Option.bind_some,
    Word.sum?_of_lt htime]
  rfl

theorem nextSpeedFactorInWords_eq (hactive : category.active < 2 ^ 32)
    (hrecent : category.durations.recent.Within (2 ^ 58)) (hnow : now ≤ 2 ^ 58) :
    category.nextSpeedFactorInWords now = some (category.nextSpeedFactor now) := by
  have hlength : category.durations.recent.length ≤ 50 := hrecent.length_le
  have hsamples : category.active + category.durations.recent.length < 2 ^ 128 := by omega
  have hmoment := momentMeanInWords_eq hactive hrecent hnow
  unfold nextSpeedFactorInWords nextSpeedFactor
  rw [Word.sum?_of_lt hsamples, Option.bind_eq_bind, Option.bind_some]
  unfold speedSamples at hmoment ⊢
  split
  · rfl
  · rw [hmoment]
    rfl

theorem recomputeWeightInWords_eq (hactive : category.active < 2 ^ 32)
    (hrecent : category.durations.recent.Within (2 ^ 58)) (hnow : now ≤ 2 ^ 58)
    (totals : Totals R) (settings : ControllerSettings) :
    category.recomputeWeightInWords totals now settings =
      some (category.recomputeWeight totals now settings) := by
  rw [recomputeWeightInWords, nextSpeedFactorInWords_eq hactive hrecent hnow, Option.map_some,
    recomputeWeight_eq]

theorem refreshWeightInWords_eq (h : category.Fits) (hnow : now ≤ 2 ^ 58) (totals : Totals R)
    (weight : Nat) (timings : Timings) (settings : ControllerSettings) :
    category.refreshWeightInWords totals now weight timings settings =
      some (category.refreshWeight totals now weight timings settings) := by
  unfold refreshWeightInWords refreshWeight
  dsimp only
  split
  · have hactive : (category.setBaseWeight weight now).active < 2 ^ 32 := h.active
    exact recomputeWeightInWords_eq hactive h.durations.recent hnow totals settings
  · exact recomputeWeightInWords_eq h.active h.durations.recent hnow totals settings

theorem decideInWords_eq (h : category.Fits) (hnow : now ≤ 2 ^ 58) (totals : Totals R)
    (weight : Nat) (timings : Timings) (settings : ControllerSettings) :
    category.decideInWords totals now weight timings settings =
      some (category.decide totals now weight timings settings) := by
  rw [decideInWords, refreshWeightInWords_eq h hnow, Option.map_some]
  rfl

/-- What a grant counts is carried along. -/
theorem grantInWords_eq (hcategory : (category.grant totals now).1.Fits)
    (htotals : (category.grant totals now).2.Fits) :
    category.grantInWords totals now = some (category.grant totals now) := by
  have hactive : category.active + 1 < 2 ^ 32 := hcategory.active
  have hgrantTimes : category.grantTimeSum + now < 2 ^ 128 := hcategory.grantTimeSum
  have hadmitted : category.admitted + 1 < 2 ^ 64 := hcategory.admitted
  have htotal := htotals.totalActive
  have hcategories := htotals.activeCategories
  rw [totalActive_grant] at htotal
  rw [activeCategories_grant] at hcategories
  unfold grantInWords grant
  rw [Word.sum?_of_lt hactive, Word.sum?_of_lt hgrantTimes, Word.sum?_of_lt hadmitted]
  by_cases hidle : category.active = 0
  · have hentered : totals.activeCategories + 1 < 2 ^ 32 := by
      simpa [isActive, hidle] using hcategories
    rw [if_pos hidle, if_pos hidle, Totals.enterInWords, Word.sum?_of_lt hentered]
    simp only [Option.map_some, Option.bind_eq_bind, Option.bind_some, Word.sum?_of_lt htotal]
    rfl
  · rw [if_neg hidle, if_neg hidle]
    simp only [Option.bind_eq_bind, Option.bind_some, Word.sum?_of_lt htotal]
    rfl

omit [Scalar R] in
theorem rejectInWords_eq (hcategory : category.reject.Fits) :
    category.rejectInWords = some category.reject := by
  have hrejected : category.rejected + 1 < 2 ^ 64 := hcategory.rejected
  rw [rejectInWords, Word.sum?_of_lt hrejected]
  rfl

/-- Taking a lease off is guarded, so nothing can be negative. -/
theorem deactivateOneInWords_eq (category : Category R) (totals : Totals R) (grantedAt : Nat) :
    category.deactivateOneInWords totals grantedAt =
      some (category.deactivateOne totals grantedAt) := by
  unfold deactivateOneInWords deactivateOne
  split
  · rfl
  · next hsome =>
    rw [Word.difference?_of_le (Nat.pos_of_ne_zero hsome)]
    rfl

theorem finishInWords_eq (h : category.Fits) {grantedAt : Nat} {settings : ControllerSettings}
    (hafter : (category.finish totals grantedAt now settings).1.Fits) (hnow : now ≤ 2 ^ 58) :
    category.finishInWords totals grantedAt now settings =
      some (category.finish totals grantedAt now settings) := by
  let recorded := { category with durations := category.durations.push (now - grantedAt) }
  have hactive : (recorded.deactivateOne totals grantedAt).1.active < 2 ^ 32 := hafter.active
  have hrecent : (recorded.deactivateOne totals grantedAt).1.durations.recent.Within (2 ^ 58) :=
    hafter.durations.recent
  have hduration : now - grantedAt ≤ 2 ^ 58 := (Nat.sub_le ..).trans hnow
  have hpushed := hafter.durations
  rw [durations_finish] at hpushed
  rw [finishInWords, Durations.pushInWords_eq h.durations hduration hpushed, Option.bind_eq_bind,
    Option.bind_some, deactivateOneInWords_eq]
  exact recomputeWeightInWords_eq hactive hrecent hnow _ settings

theorem abandonInWords_eq {grantedAt : Nat} {settings : ControllerSettings}
    (hafter : (category.abandon totals grantedAt now settings).1.Fits) (hnow : now ≤ 2 ^ 58) :
    category.abandonInWords totals grantedAt now settings =
      some (category.abandon totals grantedAt now settings) := by
  let counted := { category with abandoned := category.abandoned + 1 }
  have hactive : (counted.deactivateOne totals grantedAt).1.active < 2 ^ 32 := hafter.active
  have hrecent : (counted.deactivateOne totals grantedAt).1.durations.recent.Within (2 ^ 58) :=
    hafter.durations.recent
  have habandoned : category.abandoned + 1 < 2 ^ 64 := by
    have hcount : (counted.deactivateOne totals grantedAt).1.abandoned = category.abandoned + 1 :=
      counted.view_deactivateOne (·.abandoned) (fun _ _ _ ↦ rfl) totals grantedAt
    rw [← hcount]
    exact hafter.abandoned
  rw [abandonInWords, Word.sum?_of_lt habandoned, Option.bind_eq_bind, Option.bind_some,
    deactivateOneInWords_eq]
  exact recomputeWeightInWords_eq hactive hrecent hnow _ settings

end Category

namespace Controller

open Ledger (Reclaimed)

/-- Changes one category together with the totals. -/
def updateCategoryInWords (controller : Controller R) (position : Nat)
    (change : Category R → Totals R → Option (Category R × Totals R)) : Option (Controller R) :=
  match controller.categories[position]? with
  | none => some controller
  | some category =>
    (change category controller.totals).map fun (category, totals) ↦
      { controller with
        categories := controller.categories.setIfInBounds position category
        totals }

/-- Counts a submission for the category at a position. -/
def countSubmissionInWords (controller : Controller R) (now position : Nat) :
    Option (Controller R) :=
  controller.updateCategoryInWords position fun category totals ↦
    category.recordSubmissionInWords totals now controller.timings.popularityWindow

/-- Decides about a request for a category. -/
def decideForInWords (controller : Controller R) (source : Source) (settings : ControllerSettings)
    (now : Nat) (category : Category R) : Option (Decision R) :=
  category.decideInWords controller.totals now
    (source.baseWeight controller.id settings category.name) controller.timings settings

/-- Enters the lease that was decided to be granted, under the next identifier. -/
def enterLeaseInWords (controller : Controller R) (decision : Decision R) (now position : Nat) :
    Option (Controller R × Lease) := do
  let (granted, totals) ← decision.category.grantInWords decision.totals now
  let (ledger, lease) := controller.ledger.grant position now
  let _ ← Word.sum? 64 lease.number 1
  return ({ controller with
      categories := controller.categories.setIfInBounds position granted
      totals
      ledger },
    lease)

/-- Counts the refusal that was decided. -/
def refuseInWords (controller : Controller R) (decision : Decision R) (position : Nat) :
    Option (Controller R) :=
  decision.category.rejectInWords.map fun category ↦
    { controller with
      categories := controller.categories.setIfInBounds position category
      totals := decision.totals }

/-- Decides about a request for the category at a position, and does what was decided. -/
def answerAtInWords (controller : Controller R) (source : Source) (settings : ControllerSettings)
    (now position : Nat) : Option (Outcome R (Except AdmissionError Lease)) :=
  match controller.categories[position]? with
  | none => some ⟨controller, .error (.rejected "" 0 0), []⟩
  | some category => do
    let decision ← controller.decideForInWords source settings now category
    let notices := controller.decisionNotices now category decision
    if decision.granted then
      let (admitted, lease) ← controller.enterLeaseInWords decision now position
      return ⟨admitted, .ok lease, notices⟩
    else
      let refused ← controller.refuseInWords decision position
      let decided := decision.category
      return ⟨refused, .error (.rejected decided.name decided.active decided.limit), notices⟩

/-- Settles a released lease under the given settings. -/
def settleInWords (controller : Controller R) (settings : ControllerSettings) (now : Nat)
    (lease : Lease) : Option (Controller R) :=
  let removed := { controller with ledger := controller.ledger.remove lease.number }
  removed.updateCategoryInWords lease.category fun category totals ↦
    category.finishInWords totals lease.grantedAt now settings

/-- Settles one lease as lost. -/
def abandonOneInWords (settings : ControllerSettings) (now : Nat) (controller : Controller R)
    (reclaimed : Reclaimed) : Option (Controller R) :=
  controller.updateCategoryInWords reclaimed.lease.category fun category totals ↦
    category.abandonInWords totals reclaimed.lease.grantedAt now settings

/-- Every whole number that a controller carries along fits its word, and so does the identifier of
every lease. -/
structure Fits (controller : Controller R) : Prop where
  categories : ∀ category ∈ controller.categories, category.Fits
  totals : controller.totals.Fits
  identifiers : controller.ledger.tokens.size < 2 ^ 64

variable {controller : Controller R} {now position : Nat}

omit [Scalar R] in
theorem Fits.congr {changed : Controller R} (h : controller.Fits)
    (hcategories : changed.categories = controller.categories)
    (htotals : changed.totals = controller.totals) (hledger : changed.ledger = controller.ledger) :
    changed.Fits :=
  ⟨hcategories ▸ h.categories, htotals ▸ h.totals, hledger ▸ h.identifiers⟩

omit [Scalar R] in
/-- A change of a category that can be computed if it leaves one that fits. -/
theorem updateCategoryInWords_eq
    {changeInWords : Category R → Totals R → Option (Category R × Totals R)}
    {change : Category R → Totals R → Category R × Totals R} (h : controller.Fits)
    (hafter : (controller.updateCategory position change).Fits)
    (hchange : ∀ {category : Category R} {totals : Totals R}, category.Fits →
      (change category totals).1.Fits →
        changeInWords category totals = some (change category totals)) :
    controller.updateCategoryInWords position changeInWords =
      some (controller.updateCategory position change) := by
  unfold updateCategoryInWords updateCategory at *
  cases hcategory : controller.categories[position]? with
  | none => rfl
  | some category =>
    rw [hcategory] at hafter
    obtain ⟨hlt, -⟩ := Array.getElem?_eq_some_iff.mp hcategory
    have hleft : (change category controller.totals).1.Fits := by
      refine hafter.categories _ (Array.mem_of_getElem? (i := position) ?_)
      simp [hlt]
    dsimp only
    rw [hchange (h.categories _ (Array.mem_of_getElem? hcategory)) hleft]
    rfl

theorem countSubmissionInWords_eq (h : controller.Fits)
    (hafter : (controller.countSubmission now position).Fits) :
    controller.countSubmissionInWords now position =
      some (controller.countSubmission now position) := by
  unfold countSubmissionInWords countSubmission at *
  exact updateCategoryInWords_eq h hafter fun hcategory _ ↦
    Category.recordSubmissionInWords_eq hcategory ..

theorem settleInWords_eq {settings : ControllerSettings} {lease : Lease} (h : controller.Fits)
    (hafter : (controller.settle settings now lease).Fits) (hnow : now ≤ 2 ^ 58) :
    controller.settleInWords settings now lease = some (controller.settle settings now lease) := by
  unfold settleInWords settle at *
  have hremoved : { controller with ledger := controller.ledger.remove lease.number }.Fits :=
    ⟨h.categories, h.totals, h.identifiers⟩
  exact updateCategoryInWords_eq hremoved hafter fun hcategory hleft ↦
    Category.finishInWords_eq hcategory hleft hnow

theorem abandonOneInWords_eq {settings : ControllerSettings} {reclaimed : Reclaimed}
    (h : controller.Fits) (hafter : (abandonOne settings now controller reclaimed).Fits)
    (hnow : now ≤ 2 ^ 58) :
    abandonOneInWords settings now controller reclaimed =
      some (abandonOne settings now controller reclaimed) := by
  unfold abandonOneInWords abandonOne at *
  exact updateCategoryInWords_eq h hafter fun _ hleft ↦ Category.abandonInWords_eq hleft hnow

theorem enterLeaseInWords_eq {decision : Decision R}
    (hposition : position < controller.categories.size)
    (hafter : (controller.enterLease decision now position).1.Fits) :
    controller.enterLeaseInWords decision now position =
      some (controller.enterLease decision now position) := by
  have hgranted : (decision.category.grant decision.totals now).1.Fits := by
    refine hafter.categories _ (Array.mem_of_getElem? (i := position) ?_)
    simp [enterLease, hposition]
  have hidentifier : (controller.ledger.grant position now).2.number + 1 < 2 ^ 64 := by
    have hsize := hafter.identifiers
    simpa [enterLease, Ledger.grant] using hsize
  rw [enterLeaseInWords, Category.grantInWords_eq hgranted hafter.totals, Option.bind_eq_bind,
    Option.bind_some]
  dsimp only
  rw [Word.sum?_of_lt hidentifier]
  rfl

omit [Scalar R] in
theorem refuseInWords_eq {decision : Decision R} (hposition : position < controller.categories.size)
    (hafter : (controller.refuse decision position).Fits) :
    controller.refuseInWords decision position = some (controller.refuse decision position) := by
  have hrejected : decision.category.reject.Fits := by
    refine hafter.categories _ (Array.mem_of_getElem? (i := position) ?_)
    simp [refuse, hposition]
  rw [refuseInWords, Category.rejectInWords_eq hrejected]
  rfl

theorem answerAtInWords_eq {source : Source} {settings : ControllerSettings} (h : controller.Fits)
    (hafter : (controller.answerAt source settings now position).controller.Fits)
    (hnow : now ≤ 2 ^ 58) :
    controller.answerAtInWords source settings now position =
      some (controller.answerAt source settings now position) := by
  unfold answerAtInWords answerAt at *
  cases hcategory : controller.categories[position]? with
  | none => rfl
  | some category =>
    obtain ⟨hposition, -⟩ := Array.getElem?_eq_some_iff.mp hcategory
    have hdecide : controller.decideForInWords source settings now category =
        some (controller.decideFor source settings now category) :=
      Category.decideInWords_eq (h.categories _ (Array.mem_of_getElem? hcategory)) hnow ..
    rw [hcategory] at hafter
    dsimp only at hafter ⊢
    rw [hdecide, Option.bind_eq_bind, Option.bind_some]
    split at hafter
    · next hgranted =>
      rw [if_pos hgranted, enterLeaseInWords_eq hposition hafter, if_pos hgranted]
      rfl
    · next hrefused =>
      rw [if_neg hrefused, refuseInWords_eq hposition hafter, if_neg hrefused]
      rfl

end Controller

namespace Activity

/-- What is dealt with. Looking up a category computes nothing. -/
def Dealing.actInWords (controller : Controller R) : Dealing → Option (Controller R)
  | nothing => some controller
  | lookUp source now name => some (controller.getCategory source now name).1
  | count now position => controller.countSubmissionInWords now position
  | answer source settings now position =>
    (controller.answerAtInWords source settings now position).map (·.controller)
  | finish settings now lease => controller.settleInWords settings now lease
  | lose settings now reclaimed => controller.abandonOneInWords settings now reclaimed

/-- The clock reading that something is dealt with at. -/
def Dealing.reading? : Dealing → Option Nat
  | nothing => none
  | lookUp _ now _ | count now _ | answer _ _ now _ | finish _ now _ | lose _ now _ => some now

/-- While the numbers carried along fit their words before and after something is dealt with, all
numbers on the way fit theirs, and the words come to what the whole numbers come to. -/
theorem Dealing.actInWords_eq {controller : Controller R} {dealing : Dealing}
    (h : controller.Fits) (hafter : (dealing.act controller).Fits)
    (hnow : ∀ now ∈ dealing.reading?, now ≤ 2 ^ 58) :
    dealing.actInWords controller = some (dealing.act controller) := by
  cases dealing with
  | nothing => rfl
  | lookUp source now name => rfl
  | count now position => exact Controller.countSubmissionInWords_eq h hafter
  | answer source settings now position =>
    rw [actInWords, Controller.answerAtInWords_eq h hafter (hnow now rfl)]
    rfl
  | finish settings now lease => exact Controller.settleInWords_eq h hafter (hnow now rfl)
  | lose settings now reclaimed => exact Controller.abandonOneInWords_eq h hafter (hnow now rfl)

end Activity

end Admission
