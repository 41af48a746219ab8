import Admission.Proofs.Course
import Admission.Proofs.Settlement
import Admission.Proofs.Windows
import Mathlib.Algebra.BigOperators.Ring.Finset
import Mathlib.Algebra.Group.Action.Defs
import Mathlib.Algebra.Order.BigOperators.Group.List
import Mathlib.Data.Rat.Floor
import Mathlib.Tactic.Ring

/-!
# The speed of a category by all of its leases

A category keeps counts and sums about its leases rather than the leases. `naiveSpeed` is its speed
by the leases themselves: the mean duration of all that were released, compared with the mean over
those held and the latest released. `Category.Counts` says what the counts stand for, and then the
speed computed from them is the naive one (`Category.Counts.nextSpeedFactor`).

An event computes the speed anew when it answers a request or settles a lease, and otherwise leaves
it alone (`Activity.paced_step`). The durations counted are those of the leases that were released,
in the order of their settlement (`Activity.Timed`). Hence in every run the speed follows from the
leases (`Activity.speed_of_leases`).
-/

set_option autoImplicit false
set_option relaxedAutoImplicit false

namespace Admission

/-! ### Speed from first principles -/

/-- The mean of lengths of time. -/
def meanTime (times : List Rat) : Rat := times.sum / times.length

/-- How long leases that were granted at certain times have been held. -/
def heldFor (now : Nat) (grants : List Nat) : List Rat :=
  grants.map fun granted : Nat ↦ (now : Rat) - granted

/-- What the present speed is estimated from: how long the leases held have been held, and the
latest durations of leases that were released. -/
def presentTimes (now : Nat) (grants durations : List Nat) : List Rat :=
  heldFor now grants ++ (History.latest durations).map Nat.cast

/-- The usual speed compared with the present one, between two fifths and one. `grants` are the
times at which the leases held were granted, and `durations` are the durations of all leases that
were released; until there is one, the present speed is the usual one. Without any lease the speed
stays as it was before. -/
def naiveSpeed (now : Nat) (grants durations : List Nat) (before : Rat) : Rat :=
  let present := presentTimes now grants durations
  let moment := meanTime present
  let usual := if durations = [] then moment else meanTime (durations.map Nat.cast)
  if present = [] then before
  else if moment = 0 then 1
  else max (2 / 5) (min 1 (usual / moment))

namespace Durations

/-- All durations so far are counted and added up, and the latest are kept. -/
structure Keeps (durations : Durations) (all : List Nat) : Prop where
  recent : durations.recent.items = History.latest all
  recentSum : durations.recent.sum = (History.latest all).sum
  count : durations.count = all.length
  total : durations.total = all.sum

theorem keeps_nil : ({} : Durations).Keeps [] := ⟨rfl, rfl, rfl, rfl⟩

theorem Keeps.push {durations : Durations} {all : List Nat} (h : durations.Keeps all)
    (duration : Nat) : (durations.push duration).Keeps (all ++ [duration]) := by
  have hitems : (durations.recent.push duration).items = History.latest (all ++ [duration]) :=
    History.items_push h.recent duration
  have hsummed : durations.recent.Summed := by
    rw [History.Summed, h.recentSum, h.recent]
    rfl
  constructor
  case recent => exact hitems
  case recentSum =>
    rw [← hitems]
    exact History.sum_push hsummed duration
  case count => simp [Durations.push, h.count]
  case total => simp [Durations.push, h.total]

end Durations

theorem sum_heldFor (now : Nat) (grants : List Nat) :
    (heldFor now grants).sum = (now : Rat) * grants.length - (grants.sum : Nat) := by
  induction grants with
  | nil => simp [heldFor]
  | cons first rest ih =>
    rw [heldFor, List.map_cons, List.sum_cons, ← heldFor, ih, List.sum_cons, List.length_cons]
    push_cast
    ring

namespace Category

variable {category : Category Rat} {now : Nat} {grants durations : List Nat}

/-- What the counts of a category say about its leases. -/
structure Counts (category : Category Rat) (grants durations : List Nat) : Prop where
  active : category.active = grants.length
  grantTimeSum : category.grantTimeSum = grants.sum
  durations : category.durations.Keeps durations

theorem Counts.speedSamples (h : category.Counts grants durations) (now : Nat) :
    category.speedSamples = (presentTimes now grants durations).length := by
  rw [presentTimes, Category.speedSamples, History.length, h.active, h.durations.recent,
    List.length_append, heldFor, List.length_map, List.length_map]

/-- The leases held have been held as long as the counts say, all together. -/
theorem Counts.runningTime (h : category.Counts grants durations)
    (hnow : ∀ granted ∈ grants, granted ≤ now) :
    ((category.runningTime now : Nat) : Rat) = (heldFor now grants).sum := by
  have hle : grants.sum ≤ now * grants.length := by
    have hbound := List.sum_le_card_nsmul grants now hnow
    rwa [smul_eq_mul, Nat.mul_comm] at hbound
  rw [Category.runningTime, h.active, h.grantTimeSum, Nat.cast_sub hle, sum_heldFor]
  push_cast
  rfl

theorem Counts.momentMean (h : category.Counts grants durations)
    (hnow : ∀ granted ∈ grants, granted ≤ now) :
    category.momentMean now = meanTime (presentTimes now grants durations) := by
  have hsum : ((category.runningTime now + category.durations.recent.sum : Nat) : Rat) =
      (presentTimes now grants durations).sum := by
    rw [presentTimes, Nat.cast_add, h.runningTime hnow, h.durations.recentSum, List.sum_append,
      Nat.cast_list_sum]
  rw [meanTime, ← hsum, ← h.speedSamples now]
  rfl

theorem Counts.usualMean (h : category.Counts grants durations) :
    category.usualMean now =
      if durations = [] then category.momentMean now else meanTime (durations.map Nat.cast) := by
  have hcount := h.durations.count
  have htotal := h.durations.total
  rw [Category.usualMean, hcount, htotal]
  by_cases hnone : durations = []
  · rw [if_pos hnone, hnone, List.length_nil, if_neg (Nat.lt_irrefl 0)]
  · rw [if_neg hnone, if_pos (List.length_pos_iff.mpr hnone), meanTime, List.length_map,
      ← Nat.cast_list_sum]
    rfl

theorem clamp_eq {low high : Rat} (h : low ≤ high) (value : Rat) :
    Scalar.clamp value low high = max low (min high value) := by
  have hclamp : Scalar.clamp value low high =
      if high < (if value < low then low else value) then high
      else if value < low then low else value := rfl
  rw [hclamp]
  split_ifs with hlow hhigh hhigh
  · exact absurd hhigh (not_lt.mpr h)
  · rw [min_eq_right (hlow.le.trans h), max_eq_left hlow.le]
  · rw [min_eq_left hhigh.le, max_eq_right h]
  · rw [min_eq_right (not_lt.mp hhigh), max_eq_right (not_lt.mp hlow)]

/-- The counts of a category are enough to tell its speed. -/
theorem Counts.nextSpeedFactor (h : category.Counts grants durations)
    (hnow : ∀ granted ∈ grants, granted ≤ now) :
    category.nextSpeedFactor now = naiveSpeed now grants durations category.speedFactor := by
  have hnone : category.speedSamples = 0 ↔ presentTimes now grants durations = [] := by
    rw [h.speedSamples now, List.length_eq_zero_iff]
  have hmoment := h.momentMean hnow
  have hpositive : Scalar.zero < meanTime (presentTimes now grants durations) ↔
      meanTime (presentTimes now grants durations) ≠ 0 := by
    have hnonneg : 0 ≤ category.momentMean now :=
      div_nonneg (Nat.cast_nonneg _) (Nat.cast_nonneg _)
    rw [hmoment] at hnonneg
    exact hnonneg.lt_iff_ne'
  have hleast : (minSpeedFactor : Rat) = 2 / 5 := by decide +kernel
  have hmost : (maxSpeedFactor : Rat) = 1 := by decide +kernel
  have hclamp : ∀ value : Rat, Scalar.clamp value (2 / 5) 1 = max (2 / 5) (min 1 value) :=
    clamp_eq (by norm_num)
  simp only [Category.nextSpeedFactor, naiveSpeed, hnone, hpositive, h.usualMean, hmoment, hclamp,
    hleast, hmost, ite_not]

end Category

/-! ### What changes the speed -/

open Ledger (Reclaimed)

variable {R : Type}

/-- How fast the leases of a category are done with. -/
structure Pace (R : Type) where
  durations : Durations
  speedFactor : R

namespace Category

/-- The side of a category that its speed belongs to. -/
def pace (category : Category R) : Pace R := ⟨category.durations, category.speedFactor⟩

variable [Scalar R]

theorem pace_deactivateOne (category : Category R) (totals : Totals R) (grantedAt : Nat) :
    (category.deactivateOne totals grantedAt).1.pace = category.pace :=
  category.view_deactivateOne pace (fun _ _ _ ↦ rfl) totals grantedAt

/-- Computing the weight anew computes the speed anew, from what the category shows afterwards and
the speed before. -/
theorem speedFactor_recomputeWeight (category : Category R) (totals : Totals R) (now : Nat)
    (settings : ControllerSettings) :
    (category.recomputeWeight totals now settings).1.speedFactor =
      nextSpeedFactor { (category.recomputeWeight totals now settings).1 with
        speedFactor := category.speedFactor } now :=
  rfl

theorem durations_finish (category : Category R) (totals : Totals R) (grantedAt now : Nat)
    (settings : ControllerSettings) :
    (category.finish totals grantedAt now settings).1.durations =
      category.durations.push (now - grantedAt) :=
  congrArg Pace.durations (pace_deactivateOne ..)

theorem speedFactor_finish (category : Category R) (totals : Totals R) (grantedAt now : Nat)
    (settings : ControllerSettings) :
    (category.finish totals grantedAt now settings).1.speedFactor =
      nextSpeedFactor { (category.finish totals grantedAt now settings).1 with
        speedFactor := category.speedFactor } now := by
  let recorded := { category with durations := category.durations.push (now - grantedAt) }
  have hspeed : (recorded.deactivateOne totals grantedAt).1.speedFactor = category.speedFactor :=
    congrArg Pace.speedFactor (pace_deactivateOne ..)
  rw [← hspeed]
  exact speedFactor_recomputeWeight (recorded.deactivateOne totals grantedAt).1 ..

theorem durations_abandon (category : Category R) (totals : Totals R) (grantedAt now : Nat)
    (settings : ControllerSettings) :
    (category.abandon totals grantedAt now settings).1.durations = category.durations :=
  congrArg Pace.durations (pace_deactivateOne ..)

theorem speedFactor_abandon (category : Category R) (totals : Totals R) (grantedAt now : Nat)
    (settings : ControllerSettings) :
    (category.abandon totals grantedAt now settings).1.speedFactor =
      nextSpeedFactor { (category.abandon totals grantedAt now settings).1 with
        speedFactor := category.speedFactor } now := by
  let counted := { category with abandoned := category.abandoned + 1 }
  have hspeed : (counted.deactivateOne totals grantedAt).1.speedFactor = category.speedFactor :=
    congrArg Pace.speedFactor (pace_deactivateOne ..)
  rw [← hspeed]
  exact speedFactor_recomputeWeight (counted.deactivateOne totals grantedAt).1 ..

/-- A decision computes the speed anew before the lease is granted. -/
theorem pace_decide (category : Category R) (totals : Totals R) (now weight : Nat)
    (timings : Timings) (settings : ControllerSettings) :
    (category.decide totals now weight timings settings).category.pace =
      ⟨category.durations, category.nextSpeedFactor now⟩ := by
  have hweigh : (category.refreshWeight totals now weight timings settings).1.pace =
      ⟨category.durations, category.nextSpeedFactor now⟩ := by
    unfold refreshWeight
    split <;> rfl
  exact (view_samplePeak pace (fun _ _ _ ↦ rfl) ..).trans hweigh

end Category

namespace Controller

variable [Scalar R]

theorem pace_answered (plain : Controller R) (source : Source) (settings : ControllerSettings)
    (now : Nat) (asked : Category R) :
    (plain.answered source settings now asked).pace =
      ⟨asked.durations, asked.nextSpeedFactor now⟩ := by
  refine Eq.trans ?_ (asked.pace_decide plain.totals now
    (source.baseWeight plain.id settings asked.name) plain.timings settings)
  unfold answered
  dsimp only
  split <;> rfl

end Controller

namespace Activity

variable {activity next : Activity R} {position : Nat}

/-- How long the lease was held that an event settles as released, if it is of a certain
category. -/
def Event.duration? (position : Nat) : Event → Option Nat
  | .settle _ now lease => if lease.category = position then some (now - lease.grantedAt) else none
  | _ => none

/-- The durations of the released leases of a category, in the order in which they were settled. -/
def durations (position : Nat) (events : List Event) : List Nat :=
  events.filterMap (Event.duration? position)

/-- When a dealing computes the weight of a category anew, if it does: when it answers a request for
it, and when it settles a lease of it, be it released or lost. -/
def Dealing.weighs? (position : Nat) : Dealing → Option Nat
  | .answer _ _ now place => if place = position then some now else none
  | .finish _ now lease => if lease.category = position then some now else none
  | .lose _ now reclaimed => if reclaimed.lease.category = position then some now else none
  | _ => none

/-- The grant times of the leases of a category that are held when an event computes its weight. The
lease that the event grants is not held yet, and one that it settles is held no longer. -/
def grantsDuring (activity next : Activity R) (position : Nat) : List Nat :=
  ((activity.unsettled.filter (· ∈ next.unsettled)).filter (·.category = position)).map
    (·.grantedAt)

theorem mem_unsettled {lease : Lease} :
    lease ∈ activity.unsettled ↔ lease ∈ activity.controller.ledger.granted ∧
      lease ∉ activity.settled.map (·.lease) := by
  rw [unsettled, List.mem_filter, decide_eq_true_eq]

variable [Scalar R]

/-! ### Leases held meanwhile -/

/-- The grant times of the leases of a category that are held. -/
def grants (activity : Activity R) (position : Nat) : List Nat :=
  (activity.unsettled.filter (·.category = position)).map (·.grantedAt)

omit [Scalar R] in
/-- An event that only grants leaves all leases held that were. -/
theorem grantsDuring_of_grants
    (hgranted : activity.controller.ledger.granted ⊆ next.controller.ledger.granted)
    (hsettled : next.settled = activity.settled) (position : Nat) :
    activity.grantsDuring next position = activity.grants position := by
  have hall : activity.unsettled.filter (· ∈ next.unsettled) = activity.unsettled := by
    refine List.filter_eq_self.mpr fun lease hmem ↦ ?_
    rw [mem_unsettled] at hmem
    rw [decide_eq_true_eq, mem_unsettled, hsettled]
    exact ⟨hgranted hmem.1, hmem.2⟩
  rw [grantsDuring, hall, grants]

omit [Scalar R] in
/-- An event that only settles leaves no other leases held than are held afterwards. -/
theorem grantsDuring_of_settles
    (hgranted : next.controller.ledger.granted = activity.controller.ledger.granted)
    (hsettled : activity.settled ⊆ next.settled) (position : Nat) :
    activity.grantsDuring next position = next.grants position := by
  have hall : activity.unsettled.filter (· ∈ next.unsettled) = next.unsettled := by
    have hnext : next.unsettled = activity.controller.ledger.granted.filter fun lease ↦
        lease ∉ next.settled.map (·.lease) := by
      rw [← hgranted, unsettled]
    have hbefore : activity.unsettled = activity.controller.ledger.granted.filter fun lease ↦
        lease ∉ activity.settled.map (·.lease) := rfl
    rw [hbefore, List.filter_filter]
    refine (List.filter_congr fun lease hmem ↦ ?_).trans hnext.symm
    rw [← Bool.decide_and, decide_eq_decide, mem_unsettled, hgranted]
    constructor
    · exact fun h ↦ h.1.2
    · exact fun h ↦ ⟨⟨hmem, h⟩, fun hbefore ↦ h (List.map_subset _ hsettled hbefore)⟩
  rw [grantsDuring, hall, grants]

theorem granted_answerAt (plain : Controller R) (source : Source)
    (settings : ControllerSettings) (now position : Nat) :
    plain.ledger.granted ⊆
      (plain.answerAt source settings now position).controller.ledger.granted := by
  rcases plain.answerAt_cases source settings now position with
    ⟨category, -, hafter, -⟩ | ⟨-, -, -, -, hafter | ⟨category, -, hafter⟩⟩
  · rw [hafter]
    intro lease hmem
    exact (plain.ledger.granted_grant position now).symm ▸ List.mem_append_left _ hmem
  · rw [hafter]
    exact List.Subset.refl _
  · rw [hafter]
    exact List.Subset.refl _

omit [Scalar R] in
theorem dealing_ne_finish (sweep : Option Sweep) {settings : ControllerSettings} {now : Nat}
    {lease : Lease} : sweep.elim .nothing Sweep.dealing ≠ .finish settings now lease := by
  rcases cases_dealing_sweep sweep with hnothing | ⟨running, reclaimed, -, hlose⟩
  · rw [hnothing]
    nofun
  · rw [hlose]
    nofun

omit [Scalar R] in
/-- Only an event that settles a released lease has its duration recorded. -/
theorem duration?_eq (activity : Activity R) (event : Event) (position : Nat) :
    event.duration? position =
      match activity.dealing event with
      | .finish _ now lease =>
        if lease.category = position then some (now - lease.grantedAt) else none
      | _ => none := by
  cases event with
  | sweepOn =>
    simp only [Event.duration?, dealing]
    split
    · next heq => exact absurd heq (dealing_ne_finish activity.sweep)
    · rfl
  | _ => rfl

/-- What an event does to the speed of a category. -/
inductive Paced (activity next : Activity R) (event : Event) (position : Nat)
    (after : Category R) : Prop
  | created (hnone : activity.controller.categories[position]? = none)
    (hpace : after.pace = ⟨{}, Category.maxSpeedFactor⟩)
    (hidle : (activity.dealing event).weighs? position = none)
    (hduration : event.duration? position = none)
  | kept {before : Category R} (hbefore : activity.controller.categories[position]? = some before)
    (hpace : after.pace = before.pace) (hidle : (activity.dealing event).weighs? position = none)
    (hduration : event.duration? position = none)
  | answered {before : Category R} {now : Nat}
    (hbefore : activity.controller.categories[position]? = some before)
    (hpace : after.pace = ⟨before.durations, before.nextSpeedFactor now⟩)
    (hweighs : (activity.dealing event).weighs? position = some now)
    (hduration : event.duration? position = none)
    (hgrants : activity.grantsDuring next position = activity.grants position)
  | settled {before : Category R} {now : Nat}
    (hbefore : activity.controller.categories[position]? = some before)
    (hdurations : after.durations =
      (event.duration? position).elim before.durations before.durations.push)
    (hspeed : after.speedFactor =
      Category.nextSpeedFactor { after with speedFactor := before.speedFactor } now)
    (hweighs : (activity.dealing event).weighs? position = some now)
    (hgrants : activity.grantsDuring next position = next.grants position)

theorem paced_step {event : Event} (hstep : activity.step event = some next)
    {after : Category R} (hafter : next.controller.categories[position]? = some after) :
    activity.Paced next event position after := by
  have hdealt := dealt_step hstep
  have hduration := activity.duration?_eq event position
  have hledger := hdealt.ledger
  have hsettled := hdealt.settled
  rw [hdealt.categories] at hafter
  rcases hdealing : activity.dealing event with
    _ | ⟨source, now, name⟩ | ⟨now, place⟩ | ⟨source, settings, now, place⟩ |
      ⟨settings, now, lease⟩ | ⟨settings, now, reclaimed⟩
  all_goals
    have hweighs := congrArg (Dealing.weighs? position) hdealing
    rw [hdealing] at hafter hduration hledger hsettled
  case nothing => exact .kept hafter rfl hweighs hduration
  case lookUp =>
    rcases activity.controller.views_getCategory Category.pace source now name with
      hsame | ⟨weight, hnew⟩
    · obtain ⟨before, hbefore, hpace⟩ := Controller.exists_of_views hsame hafter
      exact .kept hbefore hpace hweighs hduration
    · rcases Controller.cases_of_views_push hnew hafter with
        ⟨hnone, hpace⟩ | ⟨before, hbefore, hpace⟩
      · exact .created hnone hpace hweighs hduration
      · exact .kept hbefore hpace hweighs hduration
  case count =>
    have hsame : (activity.controller.countSubmission now place).views Category.pace =
        activity.controller.views Category.pace :=
      Controller.views_updateCategory _ _ fun _ _ ↦ rfl
    obtain ⟨before, hbefore, hpace⟩ := Controller.exists_of_views hsame hafter
    exact .kept hbefore hpace hweighs hduration
  case answer =>
    rcases Controller.cases_answerAt hafter with ⟨asked, rfl, hasked, rfl⟩ | ⟨hother, hbefore⟩
    · have hgrows := granted_answerAt activity.controller source settings now place
      refine .answered hasked (Controller.pace_answered ..) (hweighs.trans (if_pos rfl)) hduration
        (grantsDuring_of_grants ?_ hsettled place)
      rw [hledger nofun]
      exact hgrows
    · exact .kept hbefore rfl (hweighs.trans (if_neg hother)) hduration
  case finish =>
    have hgranted : next.controller.ledger.granted = activity.controller.ledger.granted := by
      rw [hledger nofun, Dealing.act, Controller.ledger_settle]
      rfl
    rcases Controller.cases_updateCategory hafter with
      ⟨before, rfl, hbefore, rfl⟩ | ⟨hother, hbefore⟩
    · refine .settled hbefore ?_ (Category.speedFactor_finish ..) (hweighs.trans (if_pos rfl))
        (grantsDuring_of_settles hgranted (hsettled ▸ List.subset_cons_self ..) _)
      rw [Category.durations_finish, hduration.trans (if_pos rfl)]
      rfl
    · exact .kept hbefore rfl (hweighs.trans (if_neg hother)) (hduration.trans (if_neg hother))
  case lose =>
    have hgranted : next.controller.ledger.granted = activity.controller.ledger.granted := by
      rw [hledger nofun, Dealing.act, Controller.abandonOne, Controller.ledger_updateCategory]
    rcases Controller.cases_updateCategory hafter with
      ⟨before, rfl, hbefore, rfl⟩ | ⟨hother, hbefore⟩
    · refine .settled hbefore ?_ (Category.speedFactor_abandon ..) (hweighs.trans (if_pos rfl))
        (grantsDuring_of_settles hgranted (hsettled ▸ List.subset_cons_self ..) _)
      rw [Category.durations_abandon, hduration]
      rfl
    · exact .kept hbefore rfl (hweighs.trans (if_neg hother)) hduration

/-! ### All leases so far -/

/-- The durations of a category are those of the released leases of a run, and there are none where
there is no category. -/
structure Timed (activity : Activity R) (events : List Event) : Prop where
  keeps : ∀ {position : Nat} {category : Category R},
    activity.controller.categories[position]? = some category →
      category.durations.Keeps (durations position events)
  absent : ∀ {position : Nat}, activity.controller.categories[position]? = none →
    durations position events = []

omit [Scalar R] in
theorem durations_concat (position : Nat) (events : List Event) (event : Event) :
    durations position (events ++ [event]) =
      durations position events ++ (event.duration? position).toList := by
  rw [durations, List.filterMap_append, durations]
  cases hduration : event.duration? position <;> simp [hduration]

/-- A category is there to stay. -/
theorem size_le_step {event : Event} (hstep : activity.step event = some next) :
    activity.controller.categories.size ≤ next.controller.categories.size := by
  cases Controller.altered_step hstep with
  | same hcategories => rw [hcategories]
  | added hidle hcategories =>
    rw [hcategories, Array.size_push]
    exact Nat.le_succ _
  | replaced hcategory halters hcategories => rw [hcategories, Array.size_setIfInBounds]

/-- Only leases of categories that are there are settled. -/
theorem Sound.duration?_eq_none (hsound : activity.Sound) {event : Event}
    (hstep : activity.step event = some next)
    (hnone : activity.controller.categories[position]? = none) :
    event.duration? position = none := by
  cases event with
  | settle settings now lease =>
    simp only [Activity.step] at hstep
    split at hstep
    · next hmem =>
      have hheld : lease ∈ activity.held :=
        List.mem_append_right _ (hsound.custody.releasing_mem lease hmem)
      have hlt := hsound.balanced.held_lt lease hheld
      rw [Array.getElem?_eq_none_iff] at hnone
      exact if_neg (by omega)
    · cases hstep
  | _ => rfl

theorem Timed.step {events : List Event} {event : Event} (h : activity.Timed events)
    (hsound : activity.Sound) (hstep : activity.step event = some next) :
    next.Timed (events ++ [event]) := by
  constructor
  case keeps =>
    intro position after hafter
    rw [durations_concat]
    cases paced_step hstep hafter with
    | created hnone hpace hidle hduration =>
      have hdurations : after.durations = {} := congrArg Pace.durations hpace
      rw [hduration, h.absent hnone, hdurations]
      exact Durations.keeps_nil
    | kept hbefore hpace hidle hduration =>
      have hdurations : after.durations = _ := congrArg Pace.durations hpace
      rw [hduration, Option.toList_none, List.append_nil, hdurations]
      exact h.keeps hbefore
    | answered hbefore hpace hweighs hduration hgrants =>
      have hdurations : after.durations = _ := congrArg Pace.durations hpace
      rw [hduration, Option.toList_none, List.append_nil, hdurations]
      exact h.keeps hbefore
    | settled hbefore hdurations hspeed hweighs hgrants =>
      rw [hdurations]
      cases event.duration? position with
      | none =>
        rw [Option.toList_none, List.append_nil]
        exact h.keeps hbefore
      | some duration => exact (h.keeps hbefore).push duration
  case absent =>
    intro position hnone
    have hbefore : activity.controller.categories[position]? = none := by
      rw [Array.getElem?_eq_none_iff] at hnone ⊢
      exact (size_le_step hstep).trans hnone
    rw [durations_concat, h.absent hbefore, hsound.duration?_eq_none hstep hbefore]
    rfl

theorem Timed.run {before events : List Event} (h : activity.Timed before)
    (hsound : activity.Sound) (hrun : activity.run events = some next) :
    next.Timed (before ++ events) := by
  suffices hboth : next.Sound ∧ next.Timed (before ++ events) from hboth.2
  refine foldlM_induction (motive := fun events last ↦ last.Sound ∧ last.Timed (before ++ events))
    ⟨hsound, by rwa [List.append_nil]⟩ (fun hstep hsofar ↦ ?_) hrun
  rw [← List.append_assoc]
  exact ⟨hsofar.1.step hstep, hsofar.2.step hsofar.1 hstep⟩

/-- The counts of a category are those of the leases held. -/
theorem Sound.counts {activity : Activity Rat} (h : activity.Sound) {events : List Event}
    (htimed : activity.Timed events) {category : Category Rat}
    (hcategory : activity.controller.categories[position]? = some category) :
    category.Counts (activity.grants position) (durations position events) := by
  have haccount := h.balanced.account position category hcategory
  have hperm := h.perm_unsettled
  constructor
  case active =>
    have hactive : category.active = _ := congrArg Account.active haccount
    rw [hactive, grants, List.length_map, ← List.countP_eq_length_filter]
    exact (hperm.countP_eq _).symm
  case grantTimeSum =>
    have htimes : category.grantTimeSum = _ := congrArg Account.grantTimeSum haccount
    rw [htimes, grants]
    exact ((hperm.filter _).map _).sum_eq.symm
  case durations => exact htimed.keeps hcategory

/-- In every run the speed of a category follows from its leases alone. It has counted and added up
the durations of all that were released, in the order of their settlement, and keeps the latest; a
lease that was lost, or released after it was lost, is not among them. Whenever an event computes
its weight at a time that is not before any of its leases held then was granted, its speed becomes
the one that these durations and the times held ask for, and so it does whenever else its weight
might be computed. No other event changes it. -/
theorem speed_of_leases (id : String) (timings : Timings) (source : Source) (start : Nat)
    {events : List Event} {event : Event} {activity next : Activity Rat}
    (hrun : (quiet (.build id timings source start) []).run events = some activity)
    (hstep : activity.step event = some next) {position : Nat} {after : Category Rat}
    (hafter : next.controller.categories[position]? = some after) :
    after.durations.Keeps (durations position (events ++ [event])) ∧
      (∀ now, (activity.dealing event).weighs? position = some now →
        (∀ granted ∈ activity.grantsDuring next position, granted ≤ now) →
          ∃ before, activity.controller.categories[position]? = some before ∧
            after.speedFactor = naiveSpeed now (activity.grantsDuring next position)
              (durations position (events ++ [event])) before.speedFactor) ∧
      ((activity.dealing event).weighs? position = none →
        after.speedFactor =
          (activity.controller.categories[position]?).elim 1 (·.speedFactor)) ∧
      ∀ (totals : Totals Rat) (now : Nat) (settings : ControllerSettings),
        (∀ granted ∈ next.grants position, granted ≤ now) →
          (after.recomputeWeight totals now settings).1.speedFactor =
            naiveSpeed now (next.grants position) (durations position (events ++ [event]))
              after.speedFactor := by
  have hsound := (Sound.start id timings source start).run hrun
  have hstart : (quiet (.build id timings source start) [] : Activity Rat).Timed [] := by
    refine ⟨fun hsome ↦ ?_, fun _ ↦ rfl⟩
    simp [quiet, Controller.build] at hsome
  have htimed : activity.Timed events := hstart.run (Sound.start id timings source start) hrun
  have hnext := htimed.step hsound hstep
  have hcounts := (hsound.step hstep).counts hnext hafter
  refine ⟨hnext.keeps hafter, ?_, ?_, fun totals now settings hnow ↦ hcounts.nextSpeedFactor hnow⟩
  · intro now hweighs hnow
    cases paced_step hstep hafter with
    | created _ _ hidle => rw [hidle] at hweighs; cases hweighs
    | kept _ _ hidle => rw [hidle] at hweighs; cases hweighs
    | @answered before _ hbefore hpace hsome hduration hgrants =>
      obtain rfl := Option.some.inj (hsome.symm.trans hweighs)
      have hspeed : after.speedFactor = _ := congrArg Pace.speedFactor hpace
      rw [hgrants] at hnow ⊢
      refine ⟨before, hbefore, ?_⟩
      rw [hspeed, durations_concat, hduration, Option.toList_none, List.append_nil]
      exact (hsound.counts htimed hbefore).nextSpeedFactor hnow
    | @settled before _ hbefore hdurations hspeed hsome hgrants =>
      obtain rfl := Option.some.inj (hsome.symm.trans hweighs)
      rw [hgrants] at hnow ⊢
      refine ⟨before, hbefore, ?_⟩
      rw [hspeed]
      have hsame : Category.Counts { after with speedFactor := before.speedFactor }
          (next.grants position) (durations position (events ++ [event])) :=
        ⟨hcounts.active, hcounts.grantTimeSum, hcounts.durations⟩
      exact hsame.nextSpeedFactor hnow
  · intro hweighs
    cases paced_step hstep hafter with
    | created hnone hpace =>
      have hspeed : after.speedFactor = _ := congrArg Pace.speedFactor hpace
      rw [hnone, hspeed]
      decide +kernel
    | kept hbefore hpace =>
      rw [hbefore]
      exact congrArg Pace.speedFactor hpace
    | answered _ _ hsome => rw [hsome] at hweighs; cases hweighs
    | settled _ _ _ hsome => rw [hsome] at hweighs; cases hweighs

/-- Such a run: of four leases two are released after a tenth and four tenths of a second and one is
lost, and at a request after a second the last of them has been held for almost as long, so that the
category is at half its usual speed. -/
theorem speed_of_leases_half :
    ∃ (source : Source) (events : List Event) (event : Event) (activity next : Activity Rat)
      (before after : Category Rat),
      (quiet (.build "main" {} source 0) []).run events = some activity ∧
      activity.step event = some next ∧
      (activity.dealing event).weighs? 0 = some 1000 ∧
      activity.controller.categories[0]? = some before ∧
      next.controller.categories[0]? = some after ∧
      after.durations.Keeps [100, 390] ∧
      after.speedFactor = naiveSpeed 1000 [20] [100, 390] before.speedFactor ∧
      naiveSpeed 1000 [20] [100, 390] before.speedFactor = 1 / 2 := by
  let source : Source := ⟨fun _ ↦ ⟨0, {}⟩, fun _ _ ↦ none⟩
  let all : ControllerSettings := { enabled := false }
  let events : List Event :=
    [.lookUp source 0 "a", .answer source all 0 0, .answer source all 10 0,
      .answer source all 20 0, .answer source all 30 0, .takeRelease ⟨0, 0, 0⟩,
      .settle all 100 ⟨0, 0, 0⟩, .takeRelease ⟨1, 0, 10⟩, .settle all 400 ⟨1, 0, 10⟩,
      .takeDrop ⟨3, 0, 30⟩, .post 3, .beginSweep all 500, .sweepOn, .sweepOn, .sweepOn, .sweepOn,
      .sweepOn, .sweepOn]
  let event : Event := .answer source all 1000 0
  let began : Activity Rat := quiet (.build "main" {} source 0) []
  have hruns : (began.run (events ++ [event])).isSome = true := by decide +kernel
  have hseen : ∀ activity ∈ began.run events, ∀ next ∈ activity.step event,
      activity.grantsDuring next 0 = [20] ∧ next.controller.categories[0]?.isSome = true := by
    decide +kernel
  have hhalf : ∀ before : Rat, naiveSpeed 1000 [20] [100, 390] before = 1 / 2 := by
    intro before
    have hsome : presentTimes 1000 [20] [100, 390] ≠ [] := by decide +kernel
    rw [naiveSpeed, if_neg hsome]
    decide +kernel
  obtain ⟨last, hlast⟩ := Option.isSome_iff_exists.mp hruns
  rw [run_append] at hlast
  obtain ⟨activity, hrun, hlast⟩ := Option.bind_eq_some_iff.mp hlast
  rw [run_cons] at hlast
  obtain ⟨next, hstep, -⟩ := Option.bind_eq_some_iff.mp hlast
  obtain ⟨hgrants, hsome⟩ := hseen activity hrun next hstep
  obtain ⟨after, hafter⟩ := Option.isSome_iff_exists.mp hsome
  obtain ⟨hkeeps, hweighed, -⟩ := speed_of_leases "main" {} source 0 hrun hstep hafter
  have hweighs : (activity.dealing event).weighs? 0 = some 1000 := rfl
  rw [hgrants] at hweighed
  obtain ⟨before, hbefore, hspeed⟩ := hweighed 1000 hweighs (by decide)
  exact ⟨source, events, event, activity, next, before, after, hrun, hstep, hweighs, hbefore,
    hafter, hkeeps, hspeed, hhalf before.speedFactor⟩

end Activity

end Admission
