import Admission.Controller.Snapshot
import Admission.Controller.Sweep

/-!
# The controllers of a program

A registry keeps controllers under names, for those who want to look at all of them or to sweep all
of them. A controller that is registered stands under its own identifier; one that is made on demand
stands under the name it was asked for by.
-/

set_option autoImplicit false
set_option relaxedAutoImplicit false

namespace Admission

/-- Controllers under names. -/
structure Registry (R : Type) where
  controllers : NameMap (Controller R) := .empty

namespace Registry

variable {R : Type} [Scalar R]

instance : Inhabited (Registry R) := ⟨{}⟩

/-- The controller under a name. -/
def get? (registry : Registry R) (name : String) : Option (Controller R) :=
  registry.controllers.get? name

/-- The names, in order. -/
def ids (registry : Registry R) : List String := registry.controllers.keys

/-- The controllers, in order of their names. -/
def toList (registry : Registry R) : List (Controller R) := registry.controllers.values

/-- Puts a controller under a name. -/
def put (registry : Registry R) (name : String) (controller : Controller R) : Registry R :=
  ⟨registry.controllers.insert name controller⟩

/-- Registers a controller under its own identifier, which must be free. -/
def register (registry : Registry R) (controller : Controller R) :
    Except AdmissionError (Registry R) :=
  if registry.controllers.contains controller.id then
    .error (.invalidConfig s!"controller `{controller.id}` already registered")
  else .ok (registry.put controller.id controller)

/-- The controller under a name, which is made if there is none. -/
def getOrInsertWith (registry : Registry R) (name : String) (make : Unit → Controller R) :
    Registry R × Controller R :=
  match registry.get? name with
  | some controller => (registry, controller)
  | none =>
    let made := make ()
    (registry.put name made, made)

/-- Lets an operation act on every controller, in order of their names. -/
def visit {α : Type} (registry : Registry R)
    (operation : String → Controller R → Controller R × α) : Registry R × List α :=
  let visited := registry.controllers.mapEntries operation
  (⟨visited.mapValues Prod.fst⟩, visited.values.map Prod.snd)

/-- Snapshots of all controllers; `source` is the source of the controller under a name. -/
def snapshots (registry : Registry R) (source : String → Source) (now : Nat) :
    Registry R × List (ControllerSnapshot R) :=
  registry.visit fun name controller ↦ controller.snapshot (source name) now

/-- Sweeps all controllers. Answers how many leases each took back, and what there is to tell. -/
def reconcileAll (registry : Registry R) (source : String → Source) (now : Nat) :
    Registry R × List (Nat × List (Notice R)) :=
  registry.visit fun name controller ↦
    let outcome := controller.reconcile (source name) now
    (outcome.controller, outcome.answer, outcome.notices)

/-- The number of leases held in all controllers. -/
def totalActive (registry : Registry R) : Nat :=
  registry.toList.foldl (fun total controller ↦ total + controller.totals.totalActive) 0

/-- Builds and registers a controller for each identifier in turn. -/
def buildAll (timings : Timings) (source : Source) (now : Nat) :
    List String → Registry R → Except AdmissionError (Registry R)
  | [], registry => .ok registry
  | id :: ids, registry =>
    match registry.register (.build id timings source now) with
    | .error error => .error error
    | .ok registry => buildAll timings source now ids registry

/-- A registry with the controllers of a configuration that is free of faults, and the store that
serves it. -/
def ofConfig (config : AdmissionConfig) (now : Nat) :
    Except AdmissionError (Registry R × ConfigStore) :=
  match config.fault? with
  | some fault => .error (.invalidConfig fault.message)
  | none =>
    let store := ConfigStore.ofConfig config
    match buildAll config.timings store.source now config.controllers.keys {} with
    | .error error => .error error
    | .ok registry => .ok (registry, store)

end Registry

end Admission
