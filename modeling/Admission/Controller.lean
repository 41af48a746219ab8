import Admission.Config
import Admission.Error
import Admission.Notice

/-!
# A controller

A controller shares one ceiling of slots among its categories. It admits a request at once or
refuses it at once: nobody waits. Its parts are the state of every category, the totals over those
that hold leases, the ledger of leases, and a copy of its settings that it renews from the source.

Operations are functions of the controller, of the source as it is, and of the time on the clock.
Each answers with an `Outcome`: the controller afterwards, the answer to the caller, and what there
is to tell.
-/

set_option autoImplicit false
set_option relaxedAutoImplicit false

namespace Admission

/-- The state of a controller. -/
structure Controller (R : Type) where
  id : String
  timings : Timings
  /-- The copy of the settings. -/
  settings : VersionedSettings
  /-- When the settings were last read. -/
  settingsReadAt : Nat
  /-- The positions of the categories by name, the latest first. -/
  index : List (String × Nat)
  /-- The categories in the order of their creation. -/
  categories : Array (Category R)
  totals : Totals R
  ledger : Ledger
  lastSweepAt : Nat

/-- What an operation leaves, answers and tells. -/
structure Outcome (R α : Type) where
  controller : Controller R
  answer : α
  notices : List (Notice R)

namespace Controller

variable {R : Type} [Scalar R]

/-- A controller as it is built. -/
def build (id : String) (timings : Timings) (source : Source) (now : Nat) : Controller R where
  id
  timings
  settings := source.settings id
  settingsReadAt := now
  index := []
  categories := #[]
  totals := .start
  ledger := {}
  lastSweepAt := now

/-! ### Settings -/

/-- Reads the settings from the source. -/
def readSettings (controller : Controller R) (source : Source) (now : Nat) : Controller R :=
  { controller with settings := source.settings controller.id, settingsReadAt := now }

/-- Reads the settings if the copy is old enough. -/
def refreshSettings (controller : Controller R) (source : Source) (now : Nat) : Controller R :=
  if now - controller.settingsReadAt < controller.timings.settingsRefresh then controller
  else controller.readSettings source now

/-- The values of the copy. -/
def current (controller : Controller R) : ControllerSettings := controller.settings.settings

/-- The base weight of a category by the source and the copy of the settings. -/
def baseWeight (controller : Controller R) (source : Source) (name : String) : Nat :=
  source.baseWeight controller.id controller.current name

/-! ### Categories -/

/-- The position of a category. -/
def position? (controller : Controller R) (name : String) : Option Nat :=
  (controller.index.find? fun entry ↦ entry.1 = name).map (·.2)

/-- Adds the state of a new category, and answers its position. -/
def addCategory (controller : Controller R) (name : String) (weight now : Nat) :
    Controller R × Nat :=
  ({ controller with categories := controller.categories.push (.fresh name weight now) },
    controller.categories.size)

/-- Enters the position of a category under its name. -/
def enterName (controller : Controller R) (name : String) (position : Nat) : Controller R :=
  { controller with index := (name, position) :: controller.index }

/-- Creates a category unless it has come into being since it was last looked up. -/
def createCategory (controller : Controller R) (source : Source) (now : Nat) (name : String) :
    Controller R × Nat :=
  match controller.position? name with
  | some position => (controller, position)
  | none =>
    let controller := controller.refreshSettings source now
    let (controller, position) :=
      controller.addCategory name (controller.baseWeight source name) now
    (controller.enterName name position, position)

/-- The position of a category, which is created if need be. -/
def getCategory (controller : Controller R) (source : Source) (now : Nat) (name : String) :
    Controller R × Nat :=
  match controller.position? name with
  | some position => (controller, position)
  | none => controller.createCategory source now name

/-- The names of the categories, in the order of their creation. -/
def categoryNames (controller : Controller R) : List String :=
  (controller.index.mergeSort fun first second ↦ first.2 ≤ second.2).map (·.1)

/-- The name of the category at a position. -/
def categoryName (controller : Controller R) (position : Nat) : String :=
  match controller.categories[position]? with
  | none => ""
  | some category => category.name

/-- Changes one category together with the totals. -/
def updateCategory (controller : Controller R) (position : Nat)
    (change : Category R → Totals R → Category R × Totals R) : Controller R :=
  match controller.categories[position]? with
  | none => controller
  | some category =>
    let (category, totals) := change category controller.totals
    { controller with
      categories := controller.categories.setIfInBounds position category
      totals }

end Controller

end Admission
