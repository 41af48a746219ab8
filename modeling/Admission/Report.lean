import Admission.Decimal.Double
import Admission.Engine
import Admission.Json.Parser
import Admission.Json.Printer
import Admission.Json.Record
import Admission.Registry

/-!
# Reports for administrators

`Health` says whether any category is overloaded, and which. An `AdminReport` shows every controller
with its categories, and an engine if one is given; it is written as JSON with one item to a line.
-/

set_option autoImplicit false
set_option relaxedAutoImplicit false

namespace Admission

/-- Whether all is well. -/
structure Health where
  ok : Bool
  /-- The number of controllers. -/
  controllers : Nat
  /-- The overloaded categories, each after its controller and a slash. -/
  overloaded : List String
deriving DecidableEq

namespace Health

instance : Inhabited Health := ⟨⟨false, 0, []⟩⟩

variable {R : Type}

/-- The overloaded categories of a controller. -/
def overloadedOf (snapshot : ControllerSnapshot R) : List String :=
  (snapshot.categories.filter (·.overloaded)).map fun category ↦ snapshot.id ++ "/" ++ category.name

/-- The health of the controllers that the snapshots show. -/
def ofSnapshots (snapshots : List (ControllerSnapshot R)) : Health :=
  let overloaded := snapshots.flatMap overloadedOf
  { ok := overloaded.isEmpty, controllers := snapshots.length, overloaded }

open Json (bool? nat64? string? list?)

/-- The fields of a health report. -/
def fields : List (Json.Field Health) :=
  [.of "ok" bool? fun value health ↦ { health with ok := value },
   .of "controllers" nat64? fun value health ↦ { health with controllers := value },
   .of "overloaded" (list? string?) fun value health ↦ { health with overloaded := value }]

/-- Reads a health report, of which nothing may be missing. -/
def ofJson? : Json → Option Health := Json.wholeRecord? fields default

/-- Writes a health report. -/
def toJson (health : Health) : Json :=
  Json.ofMembers
    [("ok", .bool health.ok),
     ("controllers", .ofNat health.controllers),
     ("overloaded", .array (health.overloaded.map .ofText))]

end Health

/-- Everything there is to see. -/
structure AdminReport (R : Type) where
  /-- When the report was made. -/
  generatedAt : Nat
  controllers : List (ControllerSnapshot R)
  engine : Option EngineStats

/-- A number in a report. -/
def Json.ofFloat (value : Float) : Json := .number (Decimal.ofFloat value)

/-- Writes a category. -/
def CategorySnapshot.toJson (category : CategorySnapshot Float) : Json :=
  Json.ofMembers
    [("name", .ofText category.name),
     ("base_weight", .ofNat category.baseWeight),
     ("adjusted_weight", .ofFloat category.adjustedWeight),
     ("speed_factor", .ofFloat category.speedFactor),
     ("popularity_factor", .ofFloat category.popularityFactor),
     ("popularity", .ofFloat category.popularity),
     ("active", .ofNat category.active),
     ("limit", .ofNat category.limit),
     ("peak_active", .ofNat category.peakActive),
     ("admitted", .ofNat category.admitted),
     ("rejected", .ofNat category.rejected),
     ("abandoned", .ofNat category.abandoned),
     ("finished", .ofNat category.finished),
     ("recent_avg_ms", .ofFloat category.recentMean),
     ("total_avg_ms", .ofFloat category.totalMean),
     ("overloaded", .bool category.overloaded),
     ("overload_changed_ms", .ofNat category.overloadChangedAt)]

/-- Writes a controller. -/
def ControllerSnapshot.toJson (controller : ControllerSnapshot Float) : Json :=
  Json.ofMembers
    [("id", .ofText controller.id),
     ("settings_version", .ofNat controller.settingsVersion),
     ("threshold", .ofNat controller.threshold),
     ("enabled", .bool controller.enabled),
     ("active_weight_sum", .ofFloat controller.totals.weightSum),
     ("active_categories", .ofNat controller.totals.activeCategories),
     ("popularity_sum", .ofFloat controller.totals.popularitySum),
     ("total_active", .ofNat controller.totals.totalActive),
     ("outstanding_leases", .ofNat controller.outstanding),
     ("categories", .array (controller.categories.map CategorySnapshot.toJson))]

/-- Writes an engine. -/
def EngineStats.toJson (stats : EngineStats) : Json := .ofEntries .ofNat stats.entries

/-- Writes a report. -/
def AdminReport.toJson (report : AdminReport Float) : Json :=
  Json.ofMembers
    [("generated_at_ms", .ofNat report.generatedAt),
     ("controllers", .array (report.controllers.map ControllerSnapshot.toJson)),
     ("engine", .ofOption EngineStats.toJson report.engine)]

/-- The text of a report. -/
def AdminReport.text (report : AdminReport Float) : String := report.toJson.pretty

end Admission
