import Admission.Controller

/-!
# Sweeping for lost leases

A sweep takes back the leases that were dropped and those whose holders have shown no sign of life
for too long, and settles each as lost. An admission sweeps if the last sweep is long enough ago; a
sweep may also be asked for.
-/

set_option autoImplicit false
set_option relaxedAutoImplicit false

namespace Admission.Controller

open Ledger (Reclaimed)

variable {R : Type} [Scalar R]

/-- Settles one lease as lost. -/
def abandonOne (settings : ControllerSettings) (now : Nat) (controller : Controller R)
    (reclaimed : Reclaimed) : Controller R :=
  controller.updateCategory reclaimed.lease.category fun category totals ↦
    category.abandon totals reclaimed.lease.grantedAt now settings

/-- Settles leases as lost, one after another. -/
def abandonAll (controller : Controller R) (settings : ControllerSettings) (now : Nat)
    (reclaimed : List Reclaimed) : Controller R :=
  reclaimed.foldl (abandonOne settings now) controller

/-- What there is to tell about a lost lease. -/
def lossNotice (controller : Controller R) (now : Nat) (reclaimed : Reclaimed) : Notice R :=
  .reclaimed controller.id (controller.categoryName reclaimed.lease.category) reclaimed.lease.id
    (now - reclaimed.lease.grantedAt) reclaimed.loss

/-- Takes back the lost leases and settles them. -/
def sweep (controller : Controller R) (settings : ControllerSettings) (now : Nat) :
    Outcome R (List Reclaimed) :=
  let (ledger, reclaimed) := controller.ledger.collect now controller.timings.abandonAfter
  let swept := { controller with ledger, lastSweepAt := now }
  { controller := swept.abandonAll settings now reclaimed
    answer := reclaimed
    notices := reclaimed.map (controller.lossNotice now) }

/-- Whether the last sweep is long enough ago. -/
def sweepDue (controller : Controller R) (now : Nat) : Bool :=
  controller.timings.reconcileInterval ≤ now - controller.lastSweepAt

/-- Sweeps if the last sweep is long enough ago. -/
def sweepIfDue (controller : Controller R) (settings : ControllerSettings) (now : Nat) :
    Outcome R (List Reclaimed) :=
  if controller.sweepDue now then controller.sweep settings now else ⟨controller, [], []⟩

/-- Sweeps at once, and answers how many leases were taken back. -/
def reconcile (controller : Controller R) (source : Source) (now : Nat) : Outcome R Nat :=
  let controller := controller.refreshSettings source now
  let outcome := controller.sweep controller.current now
  ⟨outcome.controller, outcome.answer.length, outcome.notices⟩

end Admission.Controller
