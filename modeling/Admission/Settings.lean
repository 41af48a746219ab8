import Admission.NameMap
import Admission.Text.Shape

/-!
# Settings and timings of a controller

`ControllerSettings` are the values a controller re-reads while it runs; `Timings` are the
intervals fixed when it is built. Both can hold values that make no sense, such as a ceiling of
zero: `fault?` names the first thing that is wrong, and a controller works with faulty settings all
the same.
-/

set_option autoImplicit false
set_option relaxedAutoImplicit false

namespace Admission

/-- The values of one controller that may change while it runs. -/
structure ControllerSettings where
  /-- The number of slots that all categories share. -/
  threshold : Nat := 100
  /-- A category with more than this percentage of its limit in use enters overload. -/
  warningPercent : Nat := 90
  /-- A category with less than this percentage of its limit in use leaves overload. -/
  releasePercent : Nat := 70
  /-- Whether requests are ever refused. -/
  enabled : Bool := true
  /-- Leave the speed factor out of the weight. -/
  ignoreSpeed : Bool := false
  /-- Leave the popularity factor out of the weight. -/
  ignorePopularity : Bool := false
  /-- Let a category take slots that no other category uses. -/
  shareUnused : Bool := false
  /-- The base weight of a category without one of its own. -/
  defaultWeight : Nat := 1000
  /-- The base weights of single categories. -/
  categoryWeights : NameMap Nat := .empty
deriving DecidableEq

/-- What can be wrong with settings. -/
inductive SettingsFault where
  | zeroThreshold
  | zeroWarning
  | releaseAboveWarning (release warning : Nat)
  | zeroDefaultWeight
  | zeroWeight (category : String)
deriving DecidableEq

/-- The fault in words. -/
def SettingsFault.message : SettingsFault → String
  | zeroThreshold => "threshold must be greater than 0"
  | zeroWarning => "warning_threshold_percent must be greater than 0"
  | releaseAboveWarning release warning =>
    s!"release_threshold_percent ({release}) must not exceed warning_threshold_percent ({warning})"
  | zeroDefaultWeight => "default_weight must be greater than 0"
  | zeroWeight category => s!"weight for category `{category}` must be greater than 0"

namespace ControllerSettings

instance : Inhabited ControllerSettings := ⟨{}⟩

/-- The settings with a ceiling of their own and all else as usual. -/
def withThreshold (threshold : Nat) : ControllerSettings := { threshold }

/-- The base weight of a category. -/
def weightFor (settings : ControllerSettings) (category : String) : Nat :=
  (settings.categoryWeights.get? category).getD settings.defaultWeight

/-- The first fault of the settings. -/
def fault? (settings : ControllerSettings) : Option SettingsFault :=
  if settings.threshold = 0 then some .zeroThreshold
  else if settings.warningPercent = 0 then some .zeroWarning
  else if settings.warningPercent < settings.releasePercent then
    some (.releaseAboveWarning settings.releasePercent settings.warningPercent)
  else if settings.defaultWeight = 0 then some .zeroDefaultWeight
  else
    (settings.categoryWeights.entries.find? fun entry ↦ entry.2 = 0).map fun entry ↦
      .zeroWeight entry.1

end ControllerSettings

/-- The intervals of a controller, in milliseconds. -/
structure Timings where
  /-- The settings are read again when they are this old. -/
  settingsRefresh : Nat := 5000
  /-- The base weight of a category is read again when it is this old. -/
  weightRefresh : Nat := 1000
  /-- An admission sweeps for lost leases when the last sweep is this long ago. -/
  reconcileInterval : Nat := 300
  /-- The peak of a category is reported when the last report is this long ago. -/
  peakSampleInterval : Nat := 1000
  /-- The width of one popularity sample. -/
  popularityWindow : Nat := 1000
  /-- A lease without a sign of life for this long counts as lost; without a bound, none does. -/
  abandonAfter : Option Nat := some 3600000
deriving DecidableEq

instance : Inhabited Timings := ⟨{}⟩

/-- The timings for a diagnosis. -/
def Timings.shape (timings : Timings) : String :=
  Text.Shape.record "AdmissionTimings"
    [("settings_refresh_ms", toString timings.settingsRefresh),
     ("weight_refresh_ms", toString timings.weightRefresh),
     ("reconcile_interval_ms", toString timings.reconcileInterval),
     ("peak_sample_interval_ms", toString timings.peakSampleInterval),
     ("popularity_window_ms", toString timings.popularityWindow),
     ("abandon_after_ms", Text.Shape.ofOption toString timings.abandonAfter)]

/-- What can be wrong with timings. -/
inductive TimingsFault where
  | zeroPopularityWindow
  | zeroAbandonAfter
deriving DecidableEq

/-- The fault in words. -/
def TimingsFault.message : TimingsFault → String
  | zeroPopularityWindow => "popularity_window_ms must be greater than 0"
  | zeroAbandonAfter => "abandon_after_ms must be greater than 0 when set"

/-- The first fault of the timings. -/
def Timings.fault? (timings : Timings) : Option TimingsFault :=
  if timings.popularityWindow = 0 then some .zeroPopularityWindow
  else if timings.abandonAfter = some 0 then some .zeroAbandonAfter
  else none

end Admission
