import Admission.Proofs.Activity
import Mathlib.Logic.Relation

/-!
# What can happen to a category and the totals

Five things happen to a category together with the totals: a submission is counted, the weight is
computed anew, a lease is entered, a lease is taken off, and all else changes neither the totals nor
what they are made of. `Category.Alters` lists them. Every operation of a category is a few of them
one after another, and every event leaves the categories alone, adds one without leases or alters
one (`Controller.altered_step`). A property of the weights is thus a matter of five cases.
-/

set_option autoImplicit false
set_option relaxedAutoImplicit false

namespace Admission

open Relation (ReflTransGen)

variable {R : Type} [Scalar R]

/-- One alteration of a category together with the totals. -/
inductive Category.Alters : Category R × Totals R → Category R × Totals R → Prop
  | record (category : Category R) (totals : Totals R) (now width : Nat) :
    Alters (category, totals) (category.recordSubmission totals now width)
  | weigh (category : Category R) (totals : Totals R) (now : Nat) (settings : ControllerSettings) :
    Alters (category, totals) (category.recomputeWeight totals now settings)
  | grant (category : Category R) (totals : Totals R) (now : Nat) :
    Alters (category, totals) (category.grant totals now)
  | takeOff (category : Category R) (totals : Totals R) (grantedAt : Nat) :
    Alters (category, totals) (category.deactivateOne totals grantedAt)
  | other {category next : Category R} (totals : Totals R) (hactive : next.active = category.active)
      (hweight : next.adjustedWeight = category.adjustedWeight)
      (hpopularity : next.popularity = category.popularity) :
    Alters (category, totals) (next, totals)

namespace Category

theorem alters_refreshWeight (category : Category R) (totals : Totals R) (now weight : Nat)
    (timings : Timings) (settings : ControllerSettings) :
    ReflTransGen Alters (category, totals)
      (category.refreshWeight totals now weight timings settings) := by
  unfold refreshWeight
  split
  · have hset : Alters (category, totals) (category.setBaseWeight weight now, totals) :=
      .other totals rfl rfl rfl
    exact (ReflTransGen.single hset).tail (.weigh ..)
  · exact .single (.weigh ..)

/-- A decision weighs the category; what it notes down beside changes no weight. -/
theorem alters_decide (category : Category R) (totals : Totals R) (now weight : Nat)
    (timings : Timings) (settings : ControllerSettings) :
    ReflTransGen Alters (category, totals)
      ((category.decide totals now weight timings settings).category,
        (category.decide totals now weight timings settings).totals) := by
  refine (alters_refreshWeight category totals now weight timings settings).tail ?_
  have hsampled : ∀ (weighed : Category R) (interval : Nat),
      (weighed.samplePeak now interval).1.active = weighed.active ∧
      (weighed.samplePeak now interval).1.adjustedWeight = weighed.adjustedWeight ∧
      (weighed.samplePeak now interval).1.popularity = weighed.popularity := by
    intro weighed interval
    unfold samplePeak
    split <;> exact ⟨rfl, rfl, rfl⟩
  obtain ⟨hactive, hweight, hpopularity⟩ := hsampled
    (category.refreshWeight totals now weight timings settings).1 timings.peakSampleInterval
  exact .other _ hactive hweight hpopularity

theorem alters_finish (category : Category R) (totals : Totals R) (grantedAt now : Nat)
    (settings : ControllerSettings) :
    ReflTransGen Alters (category, totals) (category.finish totals grantedAt now settings) := by
  have hrecorded : Alters (category, totals)
      ({ category with durations := category.durations.push (now - grantedAt) }, totals) :=
    .other totals rfl rfl rfl
  exact ((ReflTransGen.single hrecorded).tail (.takeOff _ _ grantedAt)).tail (.weigh ..)

theorem alters_abandon (category : Category R) (totals : Totals R) (grantedAt now : Nat)
    (settings : ControllerSettings) :
    ReflTransGen Alters (category, totals) (category.abandon totals grantedAt now settings) := by
  have hcounted : Alters (category, totals)
      ({ category with abandoned := category.abandoned + 1 }, totals) :=
    .other totals rfl rfl rfl
  exact ((ReflTransGen.single hcounted).tail (.takeOff _ _ grantedAt)).tail (.weigh ..)

end Category

/-- What an event does to the categories and the totals of a controller. -/
inductive Controller.Altered (controller changed : Controller R) : Prop
  | same (hcategories : changed.categories = controller.categories)
    (htotals : changed.totals = controller.totals)
  | added {category : Category R} (hidle : category.active = 0)
    (hcategories : changed.categories = controller.categories.push category)
    (htotals : changed.totals = controller.totals)
  | replaced {position : Nat} {category next : Category R} {totals : Totals R}
    (hcategory : controller.categories[position]? = some category)
    (halters : ReflTransGen Category.Alters (category, controller.totals) (next, totals))
    (hcategories : changed.categories = controller.categories.setIfInBounds position next)
    (htotals : changed.totals = totals)

namespace Controller

theorem altered_updateCategory (controller : Controller R) (position : Nat)
    {change : Category R → Totals R → Category R × Totals R}
    (h : ∀ category : Category R, ReflTransGen Category.Alters (category, controller.totals)
      (change category controller.totals)) :
    controller.Altered (controller.updateCategory position change) := by
  unfold updateCategory
  split
  · exact .same rfl rfl
  · next category hcategory => exact .replaced hcategory (h category) rfl rfl

theorem altered_getCategory (controller : Controller R) (source : Source) (now : Nat)
    (name : String) : controller.Altered (controller.getCategory source now name).1 := by
  unfold getCategory
  split
  · exact .same rfl rfl
  · unfold createCategory
    split
    · exact .same rfl rfl
    · have hpush := congrArg (fun categories : Array (Category R) ↦ categories.push
        (.fresh name ((controller.refreshSettings source now).baseWeight source name) now))
        (categories_refreshSettings controller source now)
      exact .added rfl hpush (totals_refreshSettings ..)

theorem altered_answerAt (controller : Controller R) (source : Source)
    (settings : ControllerSettings) (now position : Nat) :
    controller.Altered (controller.answerAt source settings now position).controller := by
  unfold answerAt
  split
  · exact .same rfl rfl
  · next category hcategory =>
    have hdecided := category.alters_decide controller.totals now
      (source.baseWeight controller.id settings category.name) controller.timings settings
    have hrefused : ReflTransGen Category.Alters (category, controller.totals)
        ((controller.decideFor source settings now category).category.reject,
          (controller.decideFor source settings now category).totals) :=
      hdecided.tail (.other _ rfl rfl rfl)
    dsimp only
    split
    · exact .replaced hcategory (hdecided.tail (.grant ..)) rfl rfl
    · exact .replaced hcategory hrefused rfl rfl

theorem altered_countSubmission (controller : Controller R) (now position : Nat) :
    controller.Altered (controller.countSubmission now position) := by
  unfold countSubmission
  exact controller.altered_updateCategory position fun category ↦ .single (.record ..)

theorem altered_settle (controller : Controller R) (settings : ControllerSettings) (now : Nat)
    (lease : Lease) : controller.Altered (controller.settle settings now lease) := by
  unfold settle updateCategory
  dsimp only
  split
  · exact .same rfl rfl
  · next category hcategory => exact .replaced hcategory (category.alters_finish ..) rfl rfl

theorem altered_abandonOne (controller : Controller R) (settings : ControllerSettings) (now : Nat)
    (reclaimed : Ledger.Reclaimed) :
    controller.Altered (controller.abandonOne settings now reclaimed) :=
  controller.altered_updateCategory _ fun category ↦ category.alters_abandon ..

theorem Altered.congr {controller changed other : Controller R} (h : controller.Altered changed)
    (hcategories : other.categories = changed.categories)
    (htotals : other.totals = changed.totals) : controller.Altered other := by
  cases h with
  | same hsame htotal => exact .same (hcategories.trans hsame) (htotals.trans htotal)
  | added hidle hpush htotal => exact .added hidle (hcategories.trans hpush) (htotals.trans htotal)
  | replaced hcategory halters hset htotal =>
    exact .replaced hcategory halters (hcategories.trans hset) (htotals.trans htotal)

/-- Every event leaves the categories alone, adds one without leases, or alters one. -/
theorem altered_step {activity next : Activity R} {event : Activity.Event}
    (hstep : activity.step event = some next) : activity.controller.Altered next.controller := by
  have hdealt := Activity.dealt_step hstep
  refine Altered.congr ?_ hdealt.categories hdealt.totals
  cases activity.dealing event with
  | nothing => exact .same rfl rfl
  | lookUp source now name => exact altered_getCategory ..
  | count now position => exact altered_countSubmission ..
  | answer source settings now position => exact altered_answerAt ..
  | finish settings now lease => exact altered_settle ..
  | lose settings now reclaimed => exact altered_abandonOne ..

end Controller

end Admission
