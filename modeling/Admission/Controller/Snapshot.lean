import Admission.Controller

/-!
# A controller as it is shown to callers
-/

set_option autoImplicit false
set_option relaxedAutoImplicit false

namespace Admission

/-- The settings, the totals and the categories of a controller at one time. -/
structure ControllerSnapshot (R : Type) where
  id : String
  settingsVersion : Nat
  threshold : Nat
  enabled : Bool
  totals : Totals R
  /-- The number of leases that are not settled. -/
  outstanding : Nat
  /-- The categories in the order of their creation. -/
  categories : List (CategorySnapshot R)

namespace Controller

variable {R : Type} [Scalar R]

/-- The present state of one category. -/
def category? (controller : Controller R) (name : String) : Option (CategorySnapshot R) :=
  (controller.position? name).bind fun position ↦
    (controller.categories[position]?).map (·.snapshot)

/-- The present state. The settings are renewed first if they are old enough. -/
def snapshot (controller : Controller R) (source : Source) (now : Nat) :
    Controller R × ControllerSnapshot R :=
  let controller := controller.refreshSettings source now
  (controller,
    { id := controller.id
      settingsVersion := controller.settings.version
      threshold := controller.current.threshold
      enabled := controller.current.enabled
      totals := controller.totals
      outstanding := controller.ledger.outstanding.length
      categories := controller.categories.toList.map (·.snapshot) })

/-- The controller for a diagnosis. -/
def shape (controller : Controller R) : String :=
  Text.Shape.openRecord "Controller"
    [("id", Text.quote controller.id), ("timings", controller.timings.shape)]

end Controller

end Admission
