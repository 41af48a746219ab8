import Admission.Proofs.RoundTrip
import Admission.Registry

/-!
# A configuration that is given in part

A text need not give every field. `ControllerSettings.Given`, `Timings.Given` and
`AdmissionConfig.Given` are what a text gives of settings, timings and a configuration, a field that
does not occur being `none`. `Given.In` says that the members of an object give this, in any order
and with any other members between them, and `Given.overlay` puts what is given over the usual
values. Of several entries of a map with one name the last counts (`Given.LastCounts`).

`AdmissionConfig.overlays_given` is that every text of such an object, written in any way that the
grammar allows (`Json.Derives`), is read as the overlay; that the overlay is taken if it is sound
and refused otherwise; and that a registry is built for every configuration that is taken, with one
controller for each identifier that works with what is configured for it (`Registry.Builds`).
-/

set_option autoImplicit false
set_option relaxedAutoImplicit false

namespace Admission

open Json

/-! ### Numbers -/

namespace Json

theorem readsWritten_nat32? : ReadsWritten nat32? (WrittenNat (2 ^ 32)) id := by
  rintro value json ⟨hbound, rfl⟩
  exact nat32?_ofNat hbound

theorem readsWritten_nat64? : ReadsWritten nat64? (WrittenNat (2 ^ 64)) id := by
  rintro value json ⟨hbound, rfl⟩
  exact nat64?_ofNat hbound

end Json

/-! ### Settings -/

/-- What a text gives of settings. -/
structure ControllerSettings.Given where
  threshold : Option Nat := none
  warningPercent : Option Nat := none
  releasePercent : Option Nat := none
  enabled : Option Bool := none
  ignoreSpeed : Option Bool := none
  ignorePopularity : Option Bool := none
  shareUnused : Option Bool := none
  defaultWeight : Option Nat := none
  /-- The entries as they stand in the text, names perhaps repeated. -/
  categoryWeights : Option (List (String × Nat)) := none

namespace ControllerSettings

/-- The members of an object give this, among other things. -/
structure Given.In (given : Given) (members : List (String × Json)) : Prop where
  threshold : Gives (WrittenNat (2 ^ 32)) members "threshold" given.threshold
  warningPercent :
    Gives (WrittenNat (2 ^ 32)) members "warning_threshold_percent" given.warningPercent
  releasePercent :
    Gives (WrittenNat (2 ^ 32)) members "release_threshold_percent" given.releasePercent
  enabled : Gives WrittenBool members "enabled" given.enabled
  ignoreSpeed : Gives WrittenBool members "ignore_speed" given.ignoreSpeed
  ignorePopularity : Gives WrittenBool members "ignore_popularity" given.ignorePopularity
  shareUnused : Gives WrittenBool members "share_unused" given.shareUnused
  defaultWeight : Gives (WrittenNat (2 ^ 32)) members "default_weight" given.defaultWeight
  categoryWeights :
    Gives (WrittenEntries (WrittenNat (2 ^ 32))) members "category_weights" given.categoryWeights

/-- An object gives this. -/
def Given.Written (given : Given) (json : Json) : Prop :=
  ∃ members, json = .ofMembers members ∧ given.In members

/-- The usual settings with what is given in place. -/
def Given.overlay (given : Given) : ControllerSettings where
  threshold := given.threshold.getD (default : ControllerSettings).threshold
  warningPercent := given.warningPercent.getD (default : ControllerSettings).warningPercent
  releasePercent := given.releasePercent.getD (default : ControllerSettings).releasePercent
  enabled := given.enabled.getD (default : ControllerSettings).enabled
  ignoreSpeed := given.ignoreSpeed.getD (default : ControllerSettings).ignoreSpeed
  ignorePopularity := given.ignorePopularity.getD (default : ControllerSettings).ignorePopularity
  shareUnused := given.shareUnused.getD (default : ControllerSettings).shareUnused
  defaultWeight := given.defaultWeight.getD (default : ControllerSettings).defaultWeight
  categoryWeights := (given.categoryWeights.map NameMap.ofEntries).getD
    (default : ControllerSettings).categoryWeights

/-- Of several weights for one category the last counts. -/
theorem Given.get?_overlay (given : Given) (category : String) :
    given.overlay.categoryWeights.get? category =
      NameMap.lastOf (given.categoryWeights.getD []) category := by
  rw [overlay]
  cases given.categoryWeights with
  | none => rfl
  | some entries => exact NameMap.get?_ofEntries entries category

/-- Settings are read as what an object gives of them over the usual ones. -/
theorem readsWritten_ofJson? : ReadsWritten ofJson? Given.Written Given.overlay := by
  rintro given json ⟨members, rfl, h⟩
  rw [ofJson?, record?_ofMembers commutes_fields (by decide)]
  refine foldlM_fill_of_gives (·.threshold) readsWritten_nat32? h.threshold rfl ?_
  refine foldlM_fill_of_gives (·.warningPercent) readsWritten_nat32? h.warningPercent rfl ?_
  refine foldlM_fill_of_gives (·.releasePercent) readsWritten_nat32? h.releasePercent rfl ?_
  refine foldlM_fill_of_gives (·.enabled) readsWritten_bool? h.enabled rfl ?_
  refine foldlM_fill_of_gives (·.ignoreSpeed) readsWritten_bool? h.ignoreSpeed rfl ?_
  refine foldlM_fill_of_gives (·.ignorePopularity) readsWritten_bool? h.ignorePopularity rfl ?_
  refine foldlM_fill_of_gives (·.shareUnused) readsWritten_bool? h.shareUnused rfl ?_
  refine foldlM_fill_of_gives (·.defaultWeight) readsWritten_nat32? h.defaultWeight rfl ?_
  refine foldlM_fill_of_gives (·.categoryWeights) readsWritten_nat32?.nameMap? h.categoryWeights
    rfl ?_
  simp [Given.overlay]

end ControllerSettings

/-! ### Timings -/

/-- What a text gives of timings. A lease may also be given no bound, which is not the same as
giving nothing. -/
structure Timings.Given where
  settingsRefresh : Option Nat := none
  weightRefresh : Option Nat := none
  reconcileInterval : Option Nat := none
  peakSampleInterval : Option Nat := none
  popularityWindow : Option Nat := none
  abandonAfter : Option (Option Nat) := none

namespace Timings

/-- The members of an object give this, among other things. -/
structure Given.In (given : Given) (members : List (String × Json)) : Prop where
  settingsRefresh : Gives (WrittenNat (2 ^ 64)) members "settings_refresh_ms" given.settingsRefresh
  weightRefresh : Gives (WrittenNat (2 ^ 64)) members "weight_refresh_ms" given.weightRefresh
  reconcileInterval :
    Gives (WrittenNat (2 ^ 64)) members "reconcile_interval_ms" given.reconcileInterval
  peakSampleInterval :
    Gives (WrittenNat (2 ^ 64)) members "peak_sample_interval_ms" given.peakSampleInterval
  popularityWindow :
    Gives (WrittenNat (2 ^ 64)) members "popularity_window_ms" given.popularityWindow
  abandonAfter :
    Gives (WrittenOption (WrittenNat (2 ^ 64))) members "abandon_after_ms" given.abandonAfter

/-- An object gives this. -/
def Given.Written (given : Given) (json : Json) : Prop :=
  ∃ members, json = .ofMembers members ∧ given.In members

/-- The usual timings with what is given in place. -/
def Given.overlay (given : Given) : Timings where
  settingsRefresh := given.settingsRefresh.getD (default : Timings).settingsRefresh
  weightRefresh := given.weightRefresh.getD (default : Timings).weightRefresh
  reconcileInterval := given.reconcileInterval.getD (default : Timings).reconcileInterval
  peakSampleInterval := given.peakSampleInterval.getD (default : Timings).peakSampleInterval
  popularityWindow := given.popularityWindow.getD (default : Timings).popularityWindow
  abandonAfter := given.abandonAfter.getD (default : Timings).abandonAfter

/-- Timings are read as what an object gives of them over the usual ones. -/
theorem readsWritten_ofJson? : ReadsWritten ofJson? Given.Written Given.overlay := by
  rintro given json ⟨members, rfl, h⟩
  rw [ofJson?, record?_ofMembers commutes_fields (by decide)]
  refine foldlM_fill_of_gives (·.settingsRefresh) readsWritten_nat64? h.settingsRefresh rfl ?_
  refine foldlM_fill_of_gives (·.weightRefresh) readsWritten_nat64? h.weightRefresh rfl ?_
  refine foldlM_fill_of_gives (·.reconcileInterval) readsWritten_nat64? h.reconcileInterval rfl ?_
  refine foldlM_fill_of_gives (·.peakSampleInterval) readsWritten_nat64? h.peakSampleInterval
    rfl ?_
  refine foldlM_fill_of_gives (·.popularityWindow) readsWritten_nat64? h.popularityWindow rfl ?_
  refine foldlM_fill_of_gives (·.abandonAfter) (readsWritten_nat64?.optional? rfl) h.abandonAfter
    rfl ?_
  simp [Given.overlay]

end Timings

/-! ### Configurations -/

/-- What a text gives of a configuration. -/
structure AdmissionConfig.Given where
  /-- The entries as they stand in the text, identifiers perhaps repeated. -/
  controllers : Option (List (String × ControllerSettings.Given)) := none
  timings : Option Timings.Given := none

namespace AdmissionConfig

/-- The members of an object give this, among other things. -/
structure Given.In (given : Given) (members : List (String × Json)) : Prop where
  controllers :
    Gives (WrittenEntries ControllerSettings.Given.Written) members "controllers" given.controllers
  timings : Gives Timings.Given.Written members "timings" given.timings

/-- The usual configuration with what is given in place. -/
def Given.overlay (given : Given) : AdmissionConfig where
  controllers := (given.controllers.map fun entries ↦
    .ofEntries (entries.map fun entry ↦ (entry.1, entry.2.overlay))).getD
      (default : AdmissionConfig).controllers
  timings := (given.timings.map (·.overlay)).getD (default : AdmissionConfig).timings

/-- Of several entries with one name the last counts, both of controllers and of the weights that
one of them is given. -/
structure Given.LastCounts (given : Given) : Prop where
  controller : ∀ id, given.overlay.controllers.get? id =
    (NameMap.lastOf (given.controllers.getD []) id).map (·.overlay)
  weight : ∀ settings : ControllerSettings.Given, ∀ category,
    settings.overlay.categoryWeights.get? category =
      NameMap.lastOf (settings.categoryWeights.getD []) category

theorem Given.lastCounts (given : Given) : given.LastCounts where
  weight := ControllerSettings.Given.get?_overlay
  controller := by
    intro id
    rw [overlay]
    cases given.controllers with
    | none => rfl
    | some entries =>
      exact (NameMap.get?_ofEntries _ id).trans (NameMap.lastOf_map _ entries id)

/-- A configuration is read as what an object gives of it over the usual one. -/
theorem ofJson?_ofMembers {given : Given} {members : List (String × Json)} (h : given.In members) :
    ofJson? (.ofMembers members) = some given.overlay := by
  rw [ofJson?, record?_ofMembers commutes_fields (by decide)]
  refine foldlM_fill_of_gives (·.controllers) ControllerSettings.readsWritten_ofJson?.nameMap?
    h.controllers rfl ?_
  exact foldlM_fill_of_gives (·.timings) Timings.readsWritten_ofJson? h.timings rfl rfl

end AdmissionConfig

/-! ### Sound configurations -/

/-- Settings that make sense. -/
structure ControllerSettings.Sound (settings : ControllerSettings) : Prop where
  threshold : 0 < settings.threshold
  warningPercent : 0 < settings.warningPercent
  releasePercent : settings.releasePercent ≤ settings.warningPercent
  defaultWeight : 0 < settings.defaultWeight
  categoryWeights : ∀ category, settings.categoryWeights.get? category ≠ some 0

/-- Timings that make sense. -/
structure Timings.Sound (timings : Timings) : Prop where
  popularityWindow : 0 < timings.popularityWindow
  abandonAfter : timings.abandonAfter ≠ some 0

/-- A configuration that makes sense: so do its timings and the settings of every controller. -/
structure AdmissionConfig.Sound (config : AdmissionConfig) : Prop where
  timings : config.timings.Sound
  controllers : ∀ id settings, config.controllers.get? id = some settings → settings.Sound

theorem ControllerSettings.fault?_eq_none_iff {settings : ControllerSettings} :
    settings.fault? = none ↔ settings.Sound := by
  have hweights : (settings.categoryWeights.entries.find? fun entry ↦ entry.2 = 0) = none ↔
      ∀ category, settings.categoryWeights.get? category ≠ some 0 := by
    rw [List.find?_eq_none]
    constructor
    · intro h category hzero
      exact h _ (NameMap.get?_eq_some_iff.mp hzero) (decide_eq_true rfl)
    · intro h entry hmem hzero
      refine h entry.1 (NameMap.get?_eq_some_iff.mpr ?_)
      rwa [← of_decide_eq_true hzero]
  constructor
  · intro h
    unfold fault? at h
    split_ifs at h with hthreshold hwarning hrelease hweight
    refine ⟨?_, ?_, ?_, ?_, hweights.mp (Option.map_eq_none_iff.mp h)⟩
    · omega
    · omega
    · omega
    · omega
  · intro h
    have hthreshold := h.threshold
    have hwarning := h.warningPercent
    have hrelease := h.releasePercent
    have hweight := h.defaultWeight
    rw [fault?, if_neg (by omega), if_neg (by omega), if_neg (by omega), if_neg (by omega),
      hweights.mpr h.categoryWeights]
    rfl

theorem Timings.fault?_eq_none_iff {timings : Timings} :
    timings.fault? = none ↔ timings.Sound := by
  unfold fault?
  constructor
  · intro h
    split_ifs at h with hwindow hbound
    exact ⟨Nat.pos_of_ne_zero hwindow, hbound⟩
  · rintro ⟨hwindow, hbound⟩
    rw [if_neg (Nat.ne_of_gt hwindow), if_neg hbound]

namespace AdmissionConfig

variable {config : AdmissionConfig}

theorem fault?_eq_none_iff : config.fault? = none ↔ config.Sound := by
  have hcontrollers : (config.controllers.entries.findSome? fun entry ↦
      entry.2.fault?.map (ConfigFault.controller entry.1)) = none ↔
        ∀ id settings, config.controllers.get? id = some settings → settings.Sound := by
    rw [List.findSome?_eq_none_iff]
    constructor
    · intro h id settings hsettings
      exact ControllerSettings.fault?_eq_none_iff.mp
        (Option.map_eq_none_iff.mp (h _ (NameMap.get?_eq_some_iff.mp hsettings)))
    · intro h entry hmem
      exact Option.map_eq_none_iff.mpr (ControllerSettings.fault?_eq_none_iff.mpr
        (h entry.1 entry.2 (NameMap.get?_eq_some_iff.mpr hmem)))
  cases htimings : config.timings.fault? with
  | none =>
    rw [fault?, htimings, hcontrollers]
    exact ⟨fun h ↦ ⟨Timings.fault?_eq_none_iff.mp htimings, h⟩, (·.controllers)⟩
  | some fault =>
    rw [fault?, htimings]
    refine ⟨nofun, fun h ↦ ?_⟩
    rw [Timings.fault?_eq_none_iff.mpr h.timings] at htimings
    cases htimings

/-- A text that is read is taken if what it is read as makes sense, and refused otherwise. -/
theorem ofText_of_read {text : String} (hread : (parse? text).bind ofJson? = some config) :
    (config.Sound → ofText text = .ok config) ∧
      (¬config.Sound → ∃ fault, ofText text = .error (.invalid fault)) := by
  rw [ofText, hread, ← fault?_eq_none_iff]
  dsimp only
  cases config.fault? with
  | none => exact ⟨fun _ ↦ rfl, fun h ↦ absurd rfl h⟩
  | some fault => exact ⟨fun h ↦ (by cases h), fun _ ↦ ⟨fault, rfl⟩⟩

end AdmissionConfig

/-! ### Registries -/

variable {R : Type} [Scalar R]

/-- A controller works with these settings, now and whenever it reads them again, and with the base
weights that they set. -/
structure Controller.Serves (controller : Controller R) (source : Source)
    (settings : ControllerSettings) : Prop where
  current : controller.current = settings
  refreshed : ∀ now, (controller.refreshSettings source now).current = settings
  weight : ∀ now name,
    (controller.refreshSettings source now).baseWeight source name = settings.weightFor name

/-- The registry has one controller for each of the configuration, in order of their identifiers,
and each works with what is configured for it. -/
structure Registry.Builds (registry : Registry R) (source : Source) (config : AdmissionConfig) :
    Prop where
  ids : registry.ids = config.controllers.keys
  sorted : registry.ids.Pairwise (· < ·)
  controller : ∀ id settings, config.controllers.get? id = some settings →
    ∃ controller, registry.get? id = some controller ∧ controller.id = id ∧
      controller.timings = config.timings ∧ controller.Serves source settings

namespace Controller

omit [Scalar R] in
/-- A controller whose copy is what the source serves for it works with that. -/
theorem serves_of_current {controller : Controller R} {source : Source}
    {settings : ControllerSettings} (hcurrent : controller.current = settings)
    (hsettings : (source.settings controller.id).settings = settings)
    (hweight : ∀ name, source.weight controller.id name = settings.categoryWeights.get? name) :
    controller.Serves source settings := by
  have hrefreshed : ∀ now, (controller.refreshSettings source now).current = settings ∧
      (controller.refreshSettings source now).id = controller.id := by
    intro now
    unfold refreshSettings
    split
    · exact ⟨hcurrent, rfl⟩
    · exact ⟨hsettings, rfl⟩
  refine ⟨hcurrent, fun now ↦ (hrefreshed now).1, fun now name ↦ ?_⟩
  rw [baseWeight, Source.baseWeight, (hrefreshed now).1, (hrefreshed now).2, hweight,
    ControllerSettings.weightFor]
  cases settings.categoryWeights.get? name <;> rfl

/-- What a store serves for a controller is what its configuration says. -/
theorem serves_build {config : AdmissionConfig} {id : String} {settings : ControllerSettings}
    (h : config.controllers.get? id = some settings) (timings : Timings) (now : Nat) :
    (build id timings (ConfigStore.ofConfig config).source now : Controller R).Serves
      (ConfigStore.ofConfig config).source settings := by
  have hsettings : ((ConfigStore.ofConfig config).source.settings id).settings = settings := by
    simp [ConfigStore.source, ConfigStore.settings, ConfigStore.ofConfig,
      AdmissionConfig.settingsFor, h]
  refine serves_of_current hsettings hsettings fun name ↦ ?_
  change (config.controllers.get? id).bind (·.categoryWeights.get? name) = _
  rw [h, Option.bind_some]

end Controller

namespace Registry

/-- Identifiers that are free and different are registered one after the other. -/
theorem buildAll_eq_ok (timings : Timings) (source : Source) (now : Nat) {ids : List String}
    (hids : ids.Nodup) {registry : Registry R} (hfree : ∀ id ∈ ids, registry.get? id = none) :
    ∃ built, buildAll timings source now ids registry = .ok built ∧
      ∀ id, built.get? id =
        if id ∈ ids then some (.build id timings source now) else registry.get? id := by
  induction ids generalizing registry with
  | nil => exact ⟨registry, rfl, fun _ ↦ rfl⟩
  | cons first ids ih =>
    obtain ⟨hfirst, hrest⟩ := List.nodup_cons.mp hids
    let made : Controller R := .build first timings source now
    have hnot : registry.controllers.contains made.id = false := by
      rw [NameMap.contains, show registry.controllers.get? made.id = none from
        hfree first List.mem_cons_self]
      rfl
    have hregister : registry.register made = .ok (registry.put made.id made) := by
      rw [register, hnot]
      rfl
    have hput : ∀ id, (registry.put made.id made).get? id =
        if id = first then some made else registry.get? id :=
      fun id ↦ NameMap.get?_insert registry.controllers first id made
    have hothers : ∀ id ∈ ids, (registry.put made.id made).get? id = none := by
      intro id hmem
      have hne : id ≠ first := fun hsame ↦ hfirst (hsame ▸ hmem)
      rw [hput, if_neg hne]
      exact hfree id (List.mem_cons_of_mem _ hmem)
    obtain ⟨built, hbuilt, hfound⟩ := ih hrest hothers
    refine ⟨built, ?_, fun id ↦ ?_⟩
    · rw [buildAll, hregister]
      exact hbuilt
    · rw [hfound, hput]
      by_cases hsame : id = first
      · subst hsame
        simp [hfirst, made]
      · simp [hsame]

/-- A registry is built for every configuration that makes sense. -/
theorem ofConfig_of_sound {config : AdmissionConfig} (h : config.Sound) (now : Nat) :
    ∃ registry : Registry R, ofConfig config now = .ok (registry, .ofConfig config) ∧
      registry.Builds (ConfigStore.ofConfig config).source config := by
  let source := (ConfigStore.ofConfig config).source
  have hfree : ∀ id ∈ config.controllers.keys, ({} : Registry R).get? id = none := fun _ _ ↦ rfl
  obtain ⟨built, hbuilt, hfound⟩ :=
    buildAll_eq_ok config.timings source now config.controllers.nodup_keys hfree
  have hsame : built.controllers = config.controllers.mapEntries fun id _ ↦
      .build id config.timings source now := by
    refine NameMap.ext_get? fun id ↦ ?_
    rw [NameMap.get?_mapEntries]
    refine (hfound id).trans ?_
    by_cases hmem : id ∈ config.controllers.keys
    · obtain ⟨settings, hsettings⟩ := NameMap.mem_keys_iff.mp hmem
      rw [if_pos hmem, hsettings]
      rfl
    · have hnone : config.controllers.get? id = none :=
        Option.eq_none_iff_forall_ne_some.mpr fun settings hsettings ↦
          hmem (NameMap.mem_keys_iff.mpr ⟨settings, hsettings⟩)
      rw [if_neg hmem, hnone]
      rfl
  have hids : built.ids = config.controllers.keys := by
    rw [ids, hsame]
    simp [NameMap.keys, NameMap.mapEntries, Function.comp_def]
  refine ⟨built, ?_, hids, hids ▸ config.controllers.pairwise_keys, fun id settings hsettings ↦ ?_⟩
  · rw [ofConfig, AdmissionConfig.fault?_eq_none_iff.mpr h]
    simp only [source] at hbuilt
    simp only [hbuilt]
  · refine ⟨.build id config.timings source now, ?_, rfl, rfl,
      Controller.serves_build hsettings config.timings now⟩
    rw [hfound, if_pos (NameMap.mem_keys_iff.mpr ⟨settings, hsettings⟩)]

end Registry

/-! ### Texts that give a configuration in part -/

namespace AdmissionConfig

/-- Whatever fields a text gives, in whatever order and with whatever else between them, it is read
as the usual configuration with these fields in place, the last of several entries of a map
counting. That is the answer if it makes sense; otherwise the answer is an error. A registry is
built for every configuration that is an answer, and its controllers work with what the text gives
for them. -/
theorem overlays_given {given : Given} {members : List (String × Json)} {text : String}
    (hgiven : given.In members) (htext : Derives (.value (.ofMembers members)) text.toList) :
    (parse? text).bind ofJson? = some given.overlay ∧ given.LastCounts ∧
      (∀ config, ofText text = .ok config ↔ config = given.overlay ∧ config.Sound) ∧
      (¬given.overlay.Sound → ∃ fault, ofText text = .error (.invalid fault)) ∧
      ∀ config, ofText text = .ok config → ∀ now, ∃ (registry : Registry R) (store : ConfigStore),
        Registry.ofConfig config now = .ok (registry, store) ∧
          registry.Builds store.source config := by
  have hread : (parse? text).bind ofJson? = some given.overlay := by
    rw [parse?_eq_some_iff.mpr htext]
    exact ofJson?_ofMembers hgiven
  obtain ⟨htaken, hrefused⟩ := ofText_of_read hread
  have hanswer : ∀ config, ofText text = .ok config ↔ config = given.overlay ∧ config.Sound := by
    intro config
    constructor
    · intro hconfig
      by_cases hsound : given.overlay.Sound
      · rw [htaken hsound] at hconfig
        cases hconfig
        exact ⟨rfl, hsound⟩
      · obtain ⟨fault, hfault⟩ := hrefused hsound
        rw [hfault] at hconfig
        cases hconfig
    · rintro ⟨rfl, hsound⟩
      exact htaken hsound
  refine ⟨hread, given.lastCounts, hanswer, hrefused, fun config hconfig now ↦ ?_⟩
  obtain ⟨registry, hbuilt, hbuilds⟩ :=
    Registry.ofConfig_of_sound (R := R) ((hanswer config).mp hconfig).2 now
  exact ⟨registry, _, hbuilt, hbuilds⟩

/-- In this text members that are no fields stand between the others, an identifier is given twice,
and leases are given no bound. The first settings under that identifier would not make sense. -/
theorem overlays_given_scattered :
    ∃ (config : AdmissionConfig) (registry : Registry Rat) (store : ConfigStore),
      ofText ("\x7b\"timings\":\x7b\"abandon_after_ms\":null\x7d,\"more\":[3,\"\\n\"]," ++
        "\"controllers\":\x7b\"web\":\x7b\"threshold\":0\x7d," ++
        "\"web\":\x7b\"more\":true,\"threshold\":16\x7d,\"db\":\x7b\x7d\x7d\x7d") = .ok config ∧
      config = { controllers := .insert (.insert .empty "web" { threshold := 16 }) "db" {}
                 timings := { abandonAfter := none } } ∧
      Registry.ofConfig config 5 = .ok (registry, store) ∧ registry.ids = ["db", "web"] := by
  let members : List (String × Json) :=
    [("timings", .ofMembers [("abandon_after_ms", .null)]),
     ("more", .array [.ofNat 3, .ofText "\n"]),
     ("controllers", .ofMembers
       [("web", .ofMembers [("threshold", .ofNat 0)]),
        ("web", .ofMembers [("more", .bool true), ("threshold", .ofNat 16)]),
        ("db", .ofMembers [])])]
  let given : Given :=
    { controllers :=
        some [("web", { threshold := some 0 }), ("web", { threshold := some 16 }), ("db", {})]
      timings := some { abandonAfter := some none } }
  have hplain : Plain (.ofMembers members) := by
    have harray : Plain (.array [.ofNat 3, .ofText "\n"]) :=
      .array (by simp [Plain.number, Plain.text])
    simp [members, plain_ofMembers_iff, harray, Plain.null, Plain.number, Plain.bool]
  have hsettings : ∀ {threshold : Option Nat} {members : List (String × Json)},
      Gives (WrittenNat (2 ^ 32)) members "threshold" threshold →
        (∀ member ∈ members, member.1 = "threshold" ∨ member.1 = "more") →
          ControllerSettings.Given.Written { threshold } (.ofMembers members) := by
    intro threshold members hthreshold hnames
    refine ⟨members, rfl, ?_⟩
    constructor
    case threshold => exact hthreshold
    all_goals
      intro member hmem
      rcases hnames member hmem with hname | hname <;> simp [hname]
  have hgiven : given.In members := by
    constructor
    case controllers =>
      refine ⟨_, ⟨_, rfl, ?_⟩, rfl⟩
      refine .cons ⟨rfl, hsettings ⟨_, ⟨by decide, rfl⟩, rfl⟩ (by simp)⟩ ?_
      refine .cons ⟨rfl, hsettings ⟨_, ⟨by decide, rfl⟩, rfl⟩ (by simp)⟩ ?_
      exact .cons ⟨rfl, hsettings nofun nofun⟩ .nil
    case timings =>
      refine ⟨_, ⟨_, rfl, ?_⟩, rfl⟩
      constructor <;> simp [Gives, WrittenOption]
  obtain ⟨-, -, hanswer, -, hbuilt⟩ := overlays_given (R := Rat) hgiven hplain.derives_compress
  have hsound : given.overlay.Sound := fault?_eq_none_iff.mp (by decide +kernel)
  have hconfig := (hanswer given.overlay).mpr ⟨rfl, hsound⟩
  obtain ⟨registry, store, hregistry, hbuilds⟩ := hbuilt _ hconfig 5
  refine ⟨_, registry, store, ?_, by decide +kernel, hregistry,
    hbuilds.ids.trans (by decide +kernel)⟩
  rw [← hconfig]
  exact congrArg ofText (by decide +kernel)

end AdmissionConfig

end Admission
