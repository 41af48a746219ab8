import Admission.Proofs.Aftermath
import Admission.Proofs.Apportionment
import Admission.Proofs.Divisors
import Admission.Proofs.Folding
import Admission.Proofs.Refusal

/-!
# How far a weight may be from its base

In exact arithmetic the factors of every category stay between their ends, whatever happens, and
with them the adjusted weight stays between two fifths of the base weight and two and a half times
of it (`Category.Moderate`). The base weight and the adjusted weight are not written at the same
time, but no operation changes one of them and leaves the other behind.

If the source never serves a base weight of zero then no category weighs nothing, and a decision
divides the ceiling by a weight that is positive (`Decision.Apportions`). All other divisions have
a positive divisor in any case (`Category.recordSubmission?_eq` and the like).
-/

set_option autoImplicit false
set_option relaxedAutoImplicit false

namespace Admission

/-! ### Factors -/

namespace Category

theorem clamp_mem {low high : Rat} (h : low ≤ high) (value : Rat) :
    low ≤ Scalar.clamp value low high ∧ Scalar.clamp value low high ≤ high := by
  rw [clamp_eq h]
  exact ⟨le_max_left .., max_le h (min_le_left ..)⟩

theorem minSpeedFactor_eq : (minSpeedFactor : Rat) = 2 / 5 := by decide +kernel

theorem maxSpeedFactor_eq : (maxSpeedFactor : Rat) = 1 := by decide +kernel

theorem minPopularityFactor_eq : (minPopularityFactor : Rat) = 1 := by decide +kernel

theorem maxPopularityFactor_eq : (maxPopularityFactor : Rat) = 5 / 2 := by decide +kernel

/-- The speed stays between two fifths and one. -/
theorem nextSpeedFactor_mem {category : Category Rat}
    (h : 2 / 5 ≤ category.speedFactor ∧ category.speedFactor ≤ 1) (now : Nat) :
    2 / 5 ≤ category.nextSpeedFactor now ∧ category.nextSpeedFactor now ≤ 1 := by
  unfold nextSpeedFactor
  rw [minSpeedFactor_eq, maxSpeedFactor_eq]
  split
  · exact h
  · split
    · exact clamp_mem (by norm_num) _
    · norm_num

/-- The popularity factor is between one and two and a half. -/
theorem popularityFactorOf_mem (popularity : Rat) (totals : Totals Rat) :
    1 ≤ popularityFactorOf popularity totals ∧ popularityFactorOf popularity totals ≤ 5 / 2 := by
  unfold popularityFactorOf
  dsimp only
  rw [minPopularityFactor_eq, maxPopularityFactor_eq]
  split
  · norm_num
  · split
    · norm_num
    · exact clamp_mem (by norm_num) _

/-- Whatever factors the settings leave out, the weight is no further from its base than the factors
together allow. -/
theorem scaledWeight_mem (base : Nat) {speed popularity : Rat}
    (hspeed : 2 / 5 ≤ speed ∧ speed ≤ 1) (hpopularity : 1 ≤ popularity ∧ popularity ≤ 5 / 2)
    (settings : ControllerSettings) :
    2 / 5 * (base : Rat) ≤ scaledWeight base speed popularity settings ∧
      scaledWeight base speed popularity settings ≤ 5 / 2 * (base : Rat) := by
  have hbase : (0 : Rat) ≤ base := Nat.cast_nonneg base
  -- The speed takes the weight down to two fifths at most, the popularity only up from there.
  let paced : Rat := if settings.ignoreSpeed then base else base * speed
  have hpaced : 2 / 5 * (base : Rat) ≤ paced ∧ paced ≤ base := by
    unfold paced
    split
    · constructor <;> linarith
    · constructor <;> nlinarith
  have hweight : scaledWeight base speed popularity settings =
      if settings.ignorePopularity then paced else paced * popularity := rfl
  rw [hweight]
  split
  · constructor <;> linarith
  · constructor <;> nlinarith

end Category

/-- The factors are between their ends, and the weight is no further from its base than they
allow. -/
structure Weighing.Moderate (weighing : Weighing Rat) : Prop where
  speed : 2 / 5 ≤ weighing.speedFactor ∧ weighing.speedFactor ≤ 1
  popularity : 1 ≤ weighing.popularityFactor ∧ weighing.popularityFactor ≤ 5 / 2
  weight : 2 / 5 * (weighing.baseWeight : Rat) ≤ weighing.adjustedWeight ∧
    weighing.adjustedWeight ≤ 5 / 2 * (weighing.baseWeight : Rat)

/-- Who has a base weight weighs something. -/
theorem Weighing.Moderate.weight_pos {weighing : Weighing Rat} (h : weighing.Moderate)
    (hbase : 1 ≤ weighing.baseWeight) : 0 < weighing.adjustedWeight := by
  have hone : (1 : Rat) ≤ weighing.baseWeight := by exact_mod_cast hbase
  linarith [h.weight.1]

/-- A category of moderate weight, whose popularity is not negative and whose limit is not zero. -/
structure Category.Moderate (category : Category Rat) : Prop where
  weighing : category.weighing.Moderate
  popularity : 0 ≤ category.popularity.value
  limit : 1 ≤ category.limit

namespace Category

theorem moderate_recomputeWeight {category : Category Rat}
    (h : 2 / 5 ≤ category.speedFactor ∧ category.speedFactor ≤ 1) (totals : Totals Rat) (now : Nat)
    (settings : ControllerSettings) :
    (category.recomputeWeight totals now settings).1.weighing.Moderate := by
  have hspeed := nextSpeedFactor_mem h now
  have hpopularity := popularityFactorOf_mem category.popularity.value totals
  exact ⟨hspeed, hpopularity, scaledWeight_mem category.baseWeight hspeed hpopularity settings⟩

theorem lasting_moderate_weighing (now : Nat) (settings : ControllerSettings)
    (weight : String → Nat) :
    Lasting (R := Rat) (fun category ↦ category.weighing.Moderate) now settings weight := by
  refine .of_weighing (fun name ↦ ?_) ?_ ?_
  · have hbase : (0 : Rat) ≤ weight name := Nat.cast_nonneg _
    have hspeed : 2 / 5 ≤ (maxSpeedFactor : Rat) ∧ (maxSpeedFactor : Rat) ≤ 1 := by decide +kernel
    have hpopularity : 1 ≤ (minPopularityFactor : Rat) ∧ (minPopularityFactor : Rat) ≤ 5 / 2 := by
      decide +kernel
    have hweight : 2 / 5 * (weight name : Rat) ≤ weight name ∧
        (weight name : Rat) ≤ 5 / 2 * (weight name : Rat) := by
      constructor <;> linarith
    exact ⟨hspeed, hpopularity, hweight⟩
  · exact fun category totals h ↦ moderate_recomputeWeight h.speed totals now settings
  · intro category totals h
    have hspeed : 2 / 5 ≤ (category.setBaseWeight (weight category.name) now).speedFactor ∧
        (category.setBaseWeight (weight category.name) now).speedFactor ≤ 1 := h.speed
    exact moderate_recomputeWeight hspeed totals now settings

/-- What a category has at its creation and an operation keeps, it keeps together with anything else
of this kind. -/
theorem Lasting.and {R : Type} [Scalar R] {first second : Category R → Prop} {now : Nat}
    {settings : ControllerSettings} {weight : String → Nat}
    (h : Lasting first now settings weight) (h' : Lasting second now settings weight) :
    Lasting (fun category ↦ first category ∧ second category) now settings weight where
  fresh name := ⟨h.fresh name, h'.fresh name⟩
  recordSubmission category totals width hboth :=
    ⟨h.recordSubmission category totals width hboth.1,
      h'.recordSubmission category totals width hboth.2⟩
  decide category totals timings hboth :=
    ⟨h.decide category totals timings hboth.1, h'.decide category totals timings hboth.2⟩
  grant category totals hboth := ⟨h.grant category totals hboth.1, h'.grant category totals hboth.2⟩
  reject category hboth := ⟨h.reject category hboth.1, h'.reject category hboth.2⟩
  finish category totals grantedAt hboth :=
    ⟨h.finish category totals grantedAt hboth.1, h'.finish category totals grantedAt hboth.2⟩
  abandon category totals grantedAt hboth :=
    ⟨h.abandon category totals grantedAt hboth.1, h'.abandon category totals grantedAt hboth.2⟩

theorem limit_deactivateOne {R : Type} [Scalar R] (category : Category R) (totals : Totals R)
    (grantedAt : Nat) : (category.deactivateOne totals grantedAt).1.limit = category.limit :=
  category.view_deactivateOne (·.limit) (fun _ _ _ ↦ rfl) totals grantedAt

/-- A popularity is the mean of counts. -/
theorem lasting_popularity_nonneg (now : Nat) (settings : ControllerSettings)
    (weight : String → Nat) :
    Lasting (R := Rat) (fun category ↦ 0 ≤ category.demand.popularity.value) now settings
      weight where
  fresh name := le_rfl
  recordSubmission category totals width h := by
    change 0 ≤ (category.popularity.record now width).value
    unfold Popularity.record
    dsimp only
    split
    · exact h
    · exact div_nonneg (Nat.cast_nonneg _) (Nat.cast_nonneg _)
  decide category totals timings h := by
    rw [demand_decide]
    exact h
  grant category totals h := h
  reject category h := h
  finish category totals grantedAt h := by
    rw [demand_aside.finish]
    exact h
  abandon category totals grantedAt h := by
    rw [demand_aside.abandon]
    exact h

/-- A limit is the fair one of a decision, which is at least one. -/
theorem lasting_one_le_limit {R : Type} [Scalar R] [Scalar.Truncates R] (now : Nat)
    (settings : ControllerSettings) (weight : String → Nat) :
    Lasting (R := R) (fun category ↦ 1 ≤ category.limit) now settings weight where
  fresh name := le_rfl
  recordSubmission category totals width h := h
  decide category totals timings h := one_le_fairLimit ..
  grant category totals h := h
  reject category h := h
  finish category totals grantedAt h := by
    change 1 ≤ (deactivateOne _ totals grantedAt).1.limit
    rw [limit_deactivateOne]
    exact h
  abandon category totals grantedAt h := by
    change 1 ≤ (deactivateOne _ totals grantedAt).1.limit
    rw [limit_deactivateOne]
    exact h

end Category

namespace Controller

/-- In every run of events, and in the middle of whatever is going on, every category is
moderate. -/
theorem moderate_run {id : String} {timings : Timings} {source : Source} {start : Nat}
    {events : List Activity.Event} {activity : Activity Rat}
    (hrun : (Activity.quiet (.build id timings source start) []).run events = some activity) :
    ∀ category ∈ activity.controller.categories, category.Moderate := by
  have hlasting := fun now settings weight ↦
    (Category.lasting_moderate_weighing now settings weight).and
      ((Category.lasting_popularity_nonneg now settings weight).and
        (Category.lasting_one_le_limit now settings weight))
  have hall := Activity.run_induction (forall_categories_step hlasting) hrun
    (by simp [Activity.quiet, build])
  exact fun category hmem ↦ ⟨(hall category hmem).1, (hall category hmem).2.1,
    (hall category hmem).2.2⟩

end Controller

/-! ### Weights that are served -/

namespace Activity

variable {R : Type} [Scalar R]

/-- The base weight that the source serves, if it is asked for one: when a category is created, and
when a request is answered and the weight of the category is due to be read again. -/
def Dealing.served (controller : Controller R) : Dealing → Option Nat
  | .lookUp source now name =>
    match controller.position? name with
    | some _ => none
    | none => some ((controller.refreshSettings source now).baseWeight source name)
  | .answer source settings now position =>
    (controller.categories[position]?).bind fun category ↦
      if category.weightRefreshDue now controller.timings.weightRefresh then
        some (source.baseWeight controller.id settings category.name)
      else none
  | _ => none

/-- The base weights that the source serves in a run of events. -/
def weightsServed (activity : Activity R) (events : List Event) : List Nat :=
  (activity.passages events).filterMap fun passage ↦
    (passage.before.dealing passage.event).served passage.before.controller

variable {activity last next : Activity R} {events : List Event} {event : Event}

theorem weightsServed_concat (hrun : activity.run events = some last)
    (hstep : last.step event = some next) :
    activity.weightsServed (events ++ [event]) =
      activity.weightsServed events ++ ((last.dealing event).served last.controller).toList := by
  rw [weightsServed, passages_concat hrun hstep, List.filterMap_append, weightsServed]
  cases hserved : (last.dealing event).served last.controller <;> simp [hserved]

theorem baseWeight_aside : Category.Aside (R := R) (·.baseWeight) where
  finish _ _ _ _ _ := Category.view_deactivateOne (·.baseWeight) (fun _ _ _ ↦ rfl) ..
  abandon _ _ _ _ _ := Category.view_deactivateOne (·.baseWeight) (fun _ _ _ ↦ rfl) ..

/-- A decision reads the base weight again if it is due. -/
theorem baseWeight_decide (category : Category R) (totals : Totals R) (now weight : Nat)
    (timings : Timings) (settings : ControllerSettings) :
    (category.decide totals now weight timings settings).category.baseWeight =
      if category.weightRefreshDue now timings.weightRefresh then weight
      else category.baseWeight := by
  have hweighed : (category.refreshWeight totals now weight timings settings).1.baseWeight =
      if category.weightRefreshDue now timings.weightRefresh then weight
      else category.baseWeight := by
    unfold Category.refreshWeight
    split <;> rfl
  exact (Category.view_samplePeak (·.baseWeight) (fun _ _ _ ↦ rfl) ..).trans hweighed

theorem one_le_baseWeight_decideFor {controller : Controller R} {source : Source}
    {settings : ControllerSettings} {now position : Nat} {category : Category R}
    (hcategory : controller.categories[position]? = some category)
    (hserved : ∀ weight ∈ (Dealing.answer source settings now position).served controller,
      1 ≤ weight) (h : 1 ≤ category.baseWeight) :
    1 ≤ (controller.decideFor source settings now category).category.baseWeight := by
  rw [Controller.decideFor, baseWeight_decide]
  split
  · next hdue =>
    refine hserved _ ?_
    rw [Dealing.served, hcategory]
    exact if_pos hdue
  · exact h

/-- The base weight of a category is as it was or as it is served. -/
theorem one_le_baseWeight_of_leaves {controller : Controller R} {position : Nat}
    {dealing : Dealing} {after : Category R} (hleaves : dealing.Leaves controller position after)
    (hserved : ∀ weight ∈ dealing.served controller, 1 ≤ weight)
    (h : ∀ category ∈ controller.categories, 1 ≤ category.baseWeight) : 1 ≤ after.baseWeight := by
  have hkept : ∀ {before : Category R}, controller.categories[position]? = some before →
      after.baseWeight = before.baseWeight → 1 ≤ after.baseWeight := by
    intro before hbefore hsame
    exact (h before (Array.mem_of_getElem? hbefore)).trans_eq hsame.symm
  cases hleaves with
  | created hnew hnone hafter =>
    rw [hafter]
    refine hserved _ ?_
    rw [Dealing.served, hnew]
    rfl
  | counted hbefore hafter => exact hkept hbefore (hafter ▸ rfl)
  | @answered source settings now before hbefore hafter =>
    have hsame : after.baseWeight =
        (controller.decideFor source settings now before).category.baseWeight := by
      rw [hafter]
      unfold Controller.answered
      dsimp only
      split <;> rfl
    rw [hsame]
    exact one_le_baseWeight_decideFor hbefore hserved (h before (Array.mem_of_getElem? hbefore))
  | finished hlease hbefore hafter =>
    refine hkept hbefore ?_
    rw [hafter]
    exact baseWeight_aside.finish ..
  | lost hlease hbefore hafter =>
    refine hkept hbefore ?_
    rw [hafter]
    exact baseWeight_aside.abandon ..
  | kept hbefore => exact hkept hbefore rfl

/-- If only positive base weights are served, every category has one. -/
theorem one_le_baseWeight {id : String} {timings : Timings} {source : Source} {start : Nat}
    (hrun : (quiet (.build id timings source start : Controller R) []).run events = some activity)
    (hserved : ∀ weight ∈ (quiet (.build id timings source start : Controller R)
      []).weightsServed events, 1 ≤ weight) :
    ∀ category ∈ activity.controller.categories, 1 ≤ category.baseWeight := by
  induction events using List.reverseRecOn generalizing activity with
  | nil =>
    cases hrun
    simp [quiet, Controller.build]
  | append_singleton events event ih =>
    obtain ⟨middle, hmiddle, hstep⟩ := foldlM_concat_eq_some_iff.mp hrun
    rw [weightsServed_concat hmiddle hstep] at hserved
    have hbefore := ih hmiddle fun weight hweight ↦ hserved weight (List.mem_append_left _ hweight)
    intro category hmem
    obtain ⟨position, hposition⟩ := Array.mem_iff_getElem?.mp hmem
    refine one_le_baseWeight_of_leaves (leaves_step hstep hposition) (fun weight hweight ↦ ?_)
      hbefore
    exact hserved weight (List.mem_append_right _ (Option.mem_toList.mpr hweight))

end Activity

/-! ### Limits -/

/-- What a limit is, and why it can be: all the weight that the ceiling is divided by is positive,
and the limit is the rounded share by weight, but at least one. -/
structure Decision.Apportions (decision : Decision Rat) (threshold : Nat) : Prop where
  allWeight_pos : 0 < decision.category.allWeight decision.totals
  limit : (decision.category.limit : Rat) = max 1 (Scalar.round
    (threshold * decision.category.adjustedWeight / decision.category.allWeight decision.totals))

/-- If a limit can be as great as the ceiling it is the rounded share, but at least one. -/
theorem Category.fairLimit_eq_max {category : Category Rat} {totals : Totals Rat} {threshold : Nat}
    (hall : 0 < category.allWeight totals) (hown : 0 ≤ category.adjustedWeight)
    (hle : category.adjustedWeight ≤ category.allWeight totals)
    (hthreshold : threshold ≤ maxLimit) :
    (category.fairLimit totals threshold : Rat) = max 1 (Scalar.round
      (threshold * category.adjustedWeight / category.allWeight totals)) := by
  have hround := round_part_le hall hle threshold
  rw [fairLimit_of_pos hall hown, round_of_nonneg (by positivity)]
  set share := round ((threshold : Rat) * category.adjustedWeight / category.allWeight totals)
  have hwhole : ((max 1 (min share maxLimit).toNat : ℕ) : ℤ) = max 1 share := by
    omega
  exact_mod_cast hwhole

namespace Controller

variable {controller : Controller Rat} {source : Source} {settings : ControllerSettings}
  {now position : Nat} {category : Category Rat}

/-- What the other categories weigh is not negative, so all weigh at least as much as the category
that is decided about. -/
theorem Weighed.le_allWeight (h : controller.Weighed)
    (hcategory : controller.categories[position]? = some category) (source : Source)
    (settings : ControllerSettings) (now : Nat) :
    (controller.decideFor source settings now category).category.adjustedWeight ≤
      (controller.decideFor source settings now category).category.allWeight
        (controller.decideFor source settings now category).totals := by
  have hcarried := (h.summed.carried h.activeCategories hcategory).altersAll
    (category.alters_decide controller.totals now
      (source.baseWeight controller.id settings category.name) controller.timings settings)
  rw [decideFor, hcarried.allWeight_eq]
  exact le_add_of_nonneg_left (others_nonneg h.nonneg (Array.mem_of_getElem? hcategory))

/-- A category that weighs something has a positive part in all the weight. -/
theorem Weighed.apportions (h : controller.Weighed)
    (hcategory : controller.categories[position]? = some category)
    (hpositive : 0 < (controller.decideFor source settings now category).category.adjustedWeight)
    (hthreshold : settings.threshold ≤ Category.maxLimit) :
    (controller.decideFor source settings now category).Apportions settings.threshold := by
  have hle := h.le_allWeight hcategory source settings now
  have hall := hpositive.trans_le hle
  refine ⟨hall, ?_⟩
  rw [decideFor, Category.limit_decide]
  exact Category.fairLimit_eq_max hall hpositive.le hle hthreshold

/-- In every run of events, in the middle of whatever is going on, the factors of every category are
between their ends, its popularity is not negative, its limit is at least one, and its adjusted
weight is between two fifths of its base weight and two and a half times of it. If only positive
base weights are ever served, the ceiling is always divided by a positive weight, and a limit is the
rounded share by weight, but at least one. And no other division lacks a positive divisor. -/
theorem weights_within_bounds (id : String) (timings : Timings) (source : Source) (start : Nat)
    {events : List Activity.Event} {activity : Activity Rat}
    (hrun : (Activity.quiet (.build id timings source start) []).run events = some activity) :
    (∀ category ∈ activity.controller.categories, category.Moderate) ∧
      (∀ (asking : Source) (settings : ControllerSettings) (now position : Nat)
        (next : Activity Rat) (category : Category Rat),
        activity.step (.answer asking settings now position) = some next →
        activity.controller.categories[position]? = some category →
        settings.threshold ≤ Category.maxLimit →
        (∀ weight ∈ (Activity.quiet (.build id timings source start : Controller Rat)
          []).weightsServed (events ++ [.answer asking settings now position]), 1 ≤ weight) →
          (activity.controller.decideFor asking settings now category).Apportions
            settings.threshold) ∧
      ∀ (category : Category Rat) (totals : Totals Rat) (now width : Nat)
        (settings : ControllerSettings),
        category.recordSubmission? totals now width =
            some (category.recordSubmission totals now width) ∧
          category.recomputeWeight? totals now settings =
            some (category.recomputeWeight totals now settings) ∧
          category.snapshot? = some category.snapshot := by
  refine ⟨moderate_run hrun, ?_, ?_⟩
  · intro asking settings now position next category hstep hcategory hthreshold hserved
    rw [Activity.weightsServed_concat hrun hstep] at hserved
    have hmem := Array.mem_of_getElem? hcategory
    have hbase : 1 ≤ category.baseWeight :=
      Activity.one_le_baseWeight hrun
        (fun weight hweight ↦ hserved weight (List.mem_append_left _ hweight)) category hmem
    have hdecided : 1 ≤
        (activity.controller.decideFor asking settings now category).category.baseWeight :=
      Activity.one_le_baseWeight_decideFor hcategory (fun weight hweight ↦
        hserved weight (List.mem_append_right _ (Option.mem_toList.mpr hweight))) hbase
    have hmoderate :
        (activity.controller.decideFor asking settings now category).category.weighing.Moderate :=
      (Category.lasting_moderate_weighing now settings
        (asking.baseWeight activity.controller.id settings)).decide category
          activity.controller.totals activity.controller.timings
          (moderate_run hrun category hmem).weighing
    exact (Weighed.run hrun).apportions hcategory (hmoderate.weight_pos hdecided) hthreshold
  · intro category totals now width settings
    exact ⟨category.recordSubmission?_eq totals now width,
      category.recomputeWeight?_eq totals now settings, category.snapshot?_eq⟩

/-- Such a run: categories of the weights one and three are created, the light one takes a lease,
and the heavy one is decided about under a ceiling of ten. -/
theorem weights_within_bounds_three :
    ∃ (source : Source) (events : List Activity.Event) (activity next : Activity Rat)
      (category : Category Rat),
      (Activity.quiet (.build "main" {} source 0) []).run events = some activity ∧
      activity.step (.answer source { threshold := 10 } 0 1) = some next ∧
      activity.controller.categories[1]? = some category ∧ category.Moderate ∧
      category.baseWeight = 3 ∧
      (Activity.quiet (.build "main" {} source 0 : Controller Rat) []).weightsServed
        (events ++ [.answer source { threshold := 10 } 0 1]) = [1, 3] ∧
      (activity.controller.decideFor source { threshold := 10 } 0 category).Apportions 10 := by
  let settings : ControllerSettings := { threshold := 10 }
  let source : Source :=
    ⟨fun _ ↦ ⟨1, settings⟩, fun _ name ↦ if name = "heavy" then some 3 else some 1⟩
  let events : List Activity.Event :=
    [.lookUp source 0 "a", .lookUp source 0 "heavy", .answer source settings 0 0]
  let began : Activity Rat := Activity.quiet (.build "main" {} source 0) []
  let event : Activity.Event := .answer source settings 0 1
  have hpossible : ((began.run events).bind (·.step event)).isSome = true := by decide +kernel
  have hserved : began.weightsServed (events ++ [event]) = [1, 3] := by decide +kernel
  have hheavy : ∀ activity ∈ began.run events,
      (activity.controller.categories[1]?).map (·.baseWeight) = some 3 := by
    decide +kernel
  obtain ⟨next, hnext⟩ := Option.isSome_iff_exists.mp hpossible
  obtain ⟨activity, hrun, hstep⟩ := Option.bind_eq_some_iff.mp hnext
  obtain ⟨category, hcategory, hbase⟩ := Option.map_eq_some_iff.mp (hheavy activity hrun)
  obtain ⟨hmoderate, happortions, -⟩ := weights_within_bounds "main" {} source 0 hrun
  have hpositive : ∀ weight ∈ began.weightsServed (events ++ [event]), 1 ≤ weight := by
    rw [hserved]
    decide
  exact ⟨source, events, activity, next, category, hrun, hstep, hcategory,
    hmoderate category (Array.mem_of_getElem? hcategory), hbase, hserved,
    happortions source settings 0 1 next category hstep hcategory (by decide) hpositive⟩

end Controller

end Admission
