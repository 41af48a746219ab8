import Admission.Controller.Sweep

/-!
# What the holder of a lease can do with it

A lease is released once. It may also be dropped, which leaves it to the next sweep, and as long as
it is held its holder may show a sign of life. A release that comes after a sweep has taken the
lease back is accepted once, and counts nothing.
-/

set_option autoImplicit false
set_option relaxedAutoImplicit false

namespace Admission.Controller

variable {R : Type} [Scalar R]

/-- Settles a released lease under the given settings. -/
def settle (controller : Controller R) (settings : ControllerSettings) (now : Nat) (lease : Lease) :
    Controller R :=
  let removed := { controller with ledger := controller.ledger.remove lease.number }
  removed.updateCategory lease.category fun category totals ↦
    category.finish totals lease.grantedAt now settings

/-- Settles a lease that its holder has taken on to release. Answers how long it was held. -/
def finish (controller : Controller R) (source : Source) (now : Nat) (lease : Lease) :
    Controller R × Nat :=
  let controller := controller.refreshSettings source now
  (controller.settle controller.current now lease, now - lease.grantedAt)

/-- Releases a lease. Answers how long it was held. -/
def release (controller : Controller R) (source : Source) (now : Nat) (lease : Lease) :
    Outcome R (Except AdmissionError Nat) :=
  let name := controller.categoryName lease.category
  match controller.ledger.exchange lease.number .active .released with
  | some ledger =>
    let (controller, held) := { controller with ledger }.finish source now lease
    ⟨controller, .ok held, []⟩
  | none =>
    match controller.ledger.exchange lease.number .reconciled .released with
    | some ledger =>
      ⟨{ controller with ledger }, .ok (now - lease.grantedAt),
        [.releasedLate controller.id name lease.id]⟩
    | none => ⟨controller, .error (.doubleRelease name lease.id), []⟩

/-- Drops a lease. A lease that is no longer active is left as it is. -/
def drop (controller : Controller R) (lease : Lease) : Outcome R Unit :=
  match controller.ledger.exchange lease.number .active .abandoned with
  | some ledger =>
    ⟨{ controller with ledger := ledger.post lease.number }, (),
      [.dropped controller.id (controller.categoryName lease.category) lease.id]⟩
  | none => ⟨controller, (), []⟩

/-- Shows a sign of life. -/
def heartbeat (controller : Controller R) (now : Nat) (lease : Lease) : Controller R :=
  { controller with ledger := controller.ledger.touch lease.number now }

/-- Exempts a lease from becoming stale. -/
def supervise (controller : Controller R) (lease : Lease) : Controller R :=
  { controller with ledger := controller.ledger.supervise lease.number }

end Admission.Controller
