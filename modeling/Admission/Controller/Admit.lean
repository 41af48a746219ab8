import Admission.Controller.Sweep

/-!
# Admitting a request

A request for a category is counted, lost leases are swept up if it is time, the category's weight
is brought up to date, and its limit follows from the weights. The request is granted if the
category is below its limit, if the controller refuses nobody, or if slots that nobody uses may be
lent.
-/

set_option autoImplicit false
set_option relaxedAutoImplicit false

namespace Admission

variable {R : Type} [Scalar R]

/-- What a category decides about a request. -/
structure Decision (R : Type) where
  /-- The category with its weight, its peak, its limit and its overload brought up to date. -/
  category : Category R
  totals : Totals R
  peak : Option (PeakSample R)
  change : Option Transition
  granted : Bool

namespace Category

/-- The category with its weight brought up to date; `weight` is the base weight to set if it is
due. -/
def refreshWeight (category : Category R) (totals : Totals R) (now weight : Nat)
    (timings : Timings) (settings : ControllerSettings) : Category R × Totals R :=
  let weighed :=
    if category.weightRefreshDue now timings.weightRefresh then category.setBaseWeight weight now
    else category
  weighed.recomputeWeight totals now settings

/-- Whether a request is granted under a limit. -/
def mayEnter (category : Category R) (totals : Totals R) (limit : Nat)
    (settings : ControllerSettings) : Bool :=
  !settings.enabled || category.active < limit ||
    (settings.shareUnused && totals.totalActive < settings.threshold)

/-- Decides about a request. -/
def decide (category : Category R) (totals : Totals R) (now weight : Nat) (timings : Timings)
    (settings : ControllerSettings) : Decision R :=
  let (weighed, totals) := category.refreshWeight totals now weight timings settings
  let (sampled, peak) := weighed.samplePeak now timings.peakSampleInterval
  let limit := sampled.fairLimit totals settings.threshold
  let change := sampled.overload.transition? R sampled.active limit settings
  { category := { sampled with limit, overload := sampled.overload.apply now change }
    totals
    peak
    change
    granted := sampled.mayEnter totals limit settings }

end Category

namespace Controller

/-- What there is to tell about a change of overload. -/
def overloadEvent (controller : Controller R) (category : Category R) (now since : Nat)
    (transition : Transition) : OverloadEvent where
  controller := controller.id
  category := category.name
  transition
  active := category.active
  limit := category.limit
  since
  time := now

/-- Counts a submission for the category at a position. -/
def countSubmission (controller : Controller R) (now position : Nat) : Controller R :=
  controller.updateCategory position fun category totals ↦
    category.recordSubmission totals now controller.timings.popularityWindow

/-- Decides about a request for a category, once it is counted and lost leases are swept up. -/
def decideFor (controller : Controller R) (source : Source) (settings : ControllerSettings)
    (now : Nat) (category : Category R) : Decision R :=
  category.decide controller.totals now (source.baseWeight controller.id settings category.name)
    controller.timings settings

/-- What there is to tell about a decision. -/
def decisionNotices (controller : Controller R) (now : Nat) (category : Category R)
    (decision : Decision R) : List (Notice R) :=
  (decision.peak.map .peak).toList ++
    (decision.change.map fun transition ↦
      .overload (controller.overloadEvent decision.category now category.overload.changedAt
        transition)).toList

/-- Enters the lease that was decided to be granted to the category at a position. -/
def enterLease (controller : Controller R) (decision : Decision R) (now position : Nat) :
    Controller R × Lease :=
  let (granted, totals) := decision.category.grant decision.totals now
  let (ledger, lease) := controller.ledger.grant position now
  ({ controller with
      categories := controller.categories.setIfInBounds position granted
      totals
      ledger },
    lease)

/-- Counts the refusal that was decided for the category at a position. -/
def refuse (controller : Controller R) (decision : Decision R) (position : Nat) : Controller R :=
  { controller with
    categories := controller.categories.setIfInBounds position decision.category.reject
    totals := decision.totals }

/-- Decides about a request for the category at a position, and does what was decided. -/
def answerAt (controller : Controller R) (source : Source) (settings : ControllerSettings)
    (now position : Nat) : Outcome R (Except AdmissionError Lease) :=
  match controller.categories[position]? with
  | none => ⟨controller, .error (.rejected "" 0 0), []⟩
  | some category =>
    let decision := controller.decideFor source settings now category
    let notices := controller.decisionNotices now category decision
    if decision.granted then
      let (admitted, lease) := controller.enterLease decision now position
      ⟨admitted, .ok lease, notices⟩
    else
      let decided := decision.category
      ⟨controller.refuse decision position,
        .error (.rejected decided.name decided.active decided.limit), notices⟩

/-- Answers a request for the category at a position. -/
def requestAt (controller : Controller R) (source : Source) (now position : Nat) :
    Outcome R (Except AdmissionError Lease) :=
  let controller := controller.refreshSettings source now
  let settings := controller.current
  let swept := (controller.countSubmission now position).sweepIfDue settings now
  let answered := swept.controller.answerAt source settings now position
  ⟨answered.controller, answered.answer, swept.notices ++ answered.notices⟩

/-- Answers a request for a category, which is created if need be. -/
def request (controller : Controller R) (source : Source) (now : Nat) (name : String) :
    Outcome R (Except AdmissionError Lease) :=
  let (controller, position) := controller.getCategory source now name
  controller.requestAt source now position

end Controller

end Admission
