import Admission.Config
import Admission.Json.Parser
import Admission.Json.Printer
import Admission.Json.Record

/-!
# Configuration as JSON

The member names of settings, timings and configurations, and how each value is read and written. A
configuration is read from text in two steps, each with an error of its own: the text must be JSON
of the right shape, and the configuration it gives must be free of faults.
-/

set_option autoImplicit false
set_option relaxedAutoImplicit false

namespace Admission

open Json (nat32? nat64? bool? optional? nameMap?)

/-! ### Settings -/

/-- The fields of settings. -/
def ControllerSettings.fields : List (Json.Field ControllerSettings) :=
  [.of "threshold" nat32? fun value settings ↦ { settings with threshold := value },
   .of "warning_threshold_percent" nat32? fun value settings ↦
      { settings with warningPercent := value },
   .of "release_threshold_percent" nat32? fun value settings ↦
      { settings with releasePercent := value },
   .of "enabled" bool? fun value settings ↦ { settings with enabled := value },
   .of "ignore_speed" bool? fun value settings ↦ { settings with ignoreSpeed := value },
   .of "ignore_popularity" bool? fun value settings ↦ { settings with ignorePopularity := value },
   .of "share_unused" bool? fun value settings ↦ { settings with shareUnused := value },
   .of "default_weight" nat32? fun value settings ↦ { settings with defaultWeight := value },
   .of "category_weights" (nameMap? nat32?) fun value settings ↦
      { settings with categoryWeights := value }]

/-- Reads settings. -/
def ControllerSettings.ofJson? : Json → Option ControllerSettings :=
  Json.record? ControllerSettings.fields default

/-- Writes settings. -/
def ControllerSettings.toJson (settings : ControllerSettings) : Json :=
  Json.ofMembers
    [("threshold", .ofNat settings.threshold),
     ("warning_threshold_percent", .ofNat settings.warningPercent),
     ("release_threshold_percent", .ofNat settings.releasePercent),
     ("enabled", .bool settings.enabled),
     ("ignore_speed", .bool settings.ignoreSpeed),
     ("ignore_popularity", .bool settings.ignorePopularity),
     ("share_unused", .bool settings.shareUnused),
     ("default_weight", .ofNat settings.defaultWeight),
     ("category_weights", .ofEntries .ofNat settings.categoryWeights.entries)]

/-! ### Timings -/

/-- The fields of timings. -/
def Timings.fields : List (Json.Field Timings) :=
  [.of "settings_refresh_ms" nat64? fun value timings ↦ { timings with settingsRefresh := value },
   .of "weight_refresh_ms" nat64? fun value timings ↦ { timings with weightRefresh := value },
   .of "reconcile_interval_ms" nat64? fun value timings ↦
      { timings with reconcileInterval := value },
   .of "peak_sample_interval_ms" nat64? fun value timings ↦
      { timings with peakSampleInterval := value },
   .of "popularity_window_ms" nat64? fun value timings ↦
      { timings with popularityWindow := value },
   .of "abandon_after_ms" (optional? nat64?) fun value timings ↦
      { timings with abandonAfter := value }]

/-- Reads timings. -/
def Timings.ofJson? : Json → Option Timings := Json.record? Timings.fields default

/-- Writes timings. -/
def Timings.toJson (timings : Timings) : Json :=
  Json.ofMembers
    [("settings_refresh_ms", .ofNat timings.settingsRefresh),
     ("weight_refresh_ms", .ofNat timings.weightRefresh),
     ("reconcile_interval_ms", .ofNat timings.reconcileInterval),
     ("peak_sample_interval_ms", .ofNat timings.peakSampleInterval),
     ("popularity_window_ms", .ofNat timings.popularityWindow),
     ("abandon_after_ms", .ofOption .ofNat timings.abandonAfter)]

/-! ### Configurations -/

namespace AdmissionConfig

/-- The fields of a configuration. -/
def fields : List (Json.Field AdmissionConfig) :=
  [.of "controllers" (nameMap? ControllerSettings.ofJson?) fun value config ↦
      { config with controllers := value },
   .of "timings" Timings.ofJson? fun value config ↦ { config with timings := value }]

/-- Reads a configuration. -/
def ofJson? : Json → Option AdmissionConfig := Json.record? fields default

/-- Writes a configuration. -/
def toJson (config : AdmissionConfig) : Json :=
  Json.ofMembers
    [("controllers", .ofEntries ControllerSettings.toJson config.controllers.entries),
     ("timings", config.timings.toJson)]

/-- Why a text gives no configuration. -/
inductive TextError where
  /-- The text is not JSON of the right shape. -/
  | malformed
  | invalid (fault : ConfigFault)
deriving DecidableEq

/-- The error in words. What exactly is malformed is not said. -/
def TextError.message : TextError → String
  | malformed => "parse error"
  | invalid fault => fault.message

/-- Reads a configuration and checks it. -/
def ofText (text : String) : Except TextError AdmissionConfig :=
  match (Json.parse? text).bind ofJson? with
  | none => .error .malformed
  | some config =>
    match config.fault? with
    | some fault => .error (.invalid fault)
    | none => .ok config

end AdmissionConfig

end Admission
