import Admission.Settings

/-!
# Configuration and where it is served from

An `AdmissionConfig` holds the settings of every controller and the timings they share. Controllers
never see it whole: they ask a `Source`, which answers for one controller or one category at a time.
A `ConfigStore` is a configuration that may be edited while controllers read it; every edit, also
one that changes nothing, gives it a new version.
-/

set_option autoImplicit false
set_option relaxedAutoImplicit false

namespace Admission

/-- The settings of every controller. -/
structure AdmissionConfig where
  controllers : NameMap ControllerSettings := .empty
  timings : Timings := {}
deriving DecidableEq

/-- What can be wrong with a configuration. -/
inductive ConfigFault where
  | timings (fault : TimingsFault)
  | controller (id : String) (fault : SettingsFault)
deriving DecidableEq

/-- The fault in words. -/
def ConfigFault.message : ConfigFault → String
  | timings fault => "timings invalid: " ++ fault.message
  | controller id fault => s!"controller `{id}` invalid: " ++ fault.message

namespace AdmissionConfig

instance : Inhabited AdmissionConfig := ⟨{}⟩

/-- The first fault of the configuration: the timings come first, then the controllers by name. -/
def fault? (config : AdmissionConfig) : Option ConfigFault :=
  match config.timings.fault? with
  | some fault => some (.timings fault)
  | none => config.controllers.entries.findSome? fun entry ↦
      entry.2.fault?.map (.controller entry.1)

/-- The settings configured for a controller, or the usual ones. -/
def settingsFor (config : AdmissionConfig) (controller : String) : ControllerSettings :=
  (config.controllers.get? controller).getD default

end AdmissionConfig

/-- Settings together with the version of the source they were read from. -/
structure VersionedSettings where
  version : Nat
  settings : ControllerSettings
deriving DecidableEq, Inhabited

/-- What a controller can ask for its configuration. -/
structure Source where
  /-- The present settings of a controller. -/
  settings : String → VersionedSettings
  /-- The base weight set for one category of a controller, if there is one. -/
  weight : String → String → Option Nat

/-- The base weight of a category: the one that the source sets, or else that of the settings. -/
def Source.baseWeight (source : Source) (controller : String) (settings : ControllerSettings)
    (category : String) : Nat :=
  (source.weight controller category).getD (settings.weightFor category)

/-- A configuration that may be edited. -/
structure ConfigStore where
  config : AdmissionConfig := {}
  version : Nat := 0

namespace ConfigStore

instance : Inhabited ConfigStore := ⟨{}⟩

/-- A store that serves the given configuration as its first version. -/
def ofConfig (config : AdmissionConfig) : ConfigStore := ⟨config, 1⟩

/-- Edits the configuration. -/
def update (store : ConfigStore) (edit : AdmissionConfig → AdmissionConfig) : ConfigStore :=
  ⟨edit store.config, store.version + 1⟩

/-- Replaces the settings of a controller. -/
def setController (store : ConfigStore) (controller : String) (settings : ControllerSettings) :
    ConfigStore :=
  store.update fun config ↦
    { config with controllers := config.controllers.insert controller settings }

/-- Edits the settings of a controller that has some. -/
def editController (store : ConfigStore) (controller : String)
    (edit : ControllerSettings → ControllerSettings) : ConfigStore :=
  store.update fun config ↦
    match config.controllers.get? controller with
    | none => config
    | some settings =>
      { config with controllers := config.controllers.insert controller (edit settings) }

/-- Removes the settings of a controller. -/
def removeController (store : ConfigStore) (controller : String) : ConfigStore :=
  store.update fun config ↦ { config with controllers := config.controllers.erase controller }

/-- Sets the base weight of one category. A controller without settings gets the usual ones. -/
def setCategoryWeight (store : ConfigStore) (controller category : String) (weight : Nat) :
    ConfigStore :=
  store.update fun config ↦
    let settings := config.settingsFor controller
    let weighted :=
      { settings with categoryWeights := settings.categoryWeights.insert category weight }
    { config with controllers := config.controllers.insert controller weighted }

/-- The present settings of a controller. -/
def settings (store : ConfigStore) (controller : String) : VersionedSettings :=
  ⟨store.version, store.config.settingsFor controller⟩

/-- The base weight set for one category. -/
def weight (store : ConfigStore) (controller category : String) : Option Nat :=
  (store.config.controllers.get? controller).bind (·.categoryWeights.get? category)

/-- The store as controllers see it. -/
def source (store : ConfigStore) : Source := ⟨store.settings, store.weight⟩

/-- The store as seen through a source that leaves weights to the settings. -/
def sourceWithoutWeights (store : ConfigStore) : Source := ⟨store.settings, fun _ _ ↦ none⟩

end ConfigStore

end Admission
