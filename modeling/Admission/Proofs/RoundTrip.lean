import Admission.Config.Json
import Admission.Pool.Config
import Admission.Proofs.Filling
import Admission.Report
import Mathlib.Algebra.Group.Nat.Defs

/-!
# What is written is read as it was

A configuration, the sizes of a pool and a health report come back from their texts. Three things
meet here: a reader gives back what its writer was given, value by value and field by field, as long
as numbers fit their words (`Fits`); it does not look at the order of members (`Json.Respects`); and
the parser finds what a text spells (`Json.Spells`). A time without bound is written as `null`,
which is a value of its own, since a member that is missing would keep the usual bound.

`Json.ReadAs` says of a value that all its texts are read in one way, and `round_trip` that this is
so for every configuration that is free of faults, every pool configuration and every health report.
-/

set_option autoImplicit false
set_option relaxedAutoImplicit false

namespace Admission

namespace NameMap

variable {α : Type}

theorem findEntry_eq_none {name : String} {entries : List (String × α)}
    (h : name ∉ entries.map (·.1)) : findEntry name entries = none := by
  induction entries with
  | nil => rfl
  | cons entry entries ih =>
    simp only [List.map_cons, List.mem_cons, not_or] at h
    rw [findEntry, if_neg h.1, ih h.2]

/-- A list of entries without repetition, put into a map one by one, adds what it lists. -/
theorem get?_foldl_insert {entries : List (String × α)} (h : (entries.map (·.1)).Nodup)
    (map : NameMap α) (name : String) :
    (entries.foldl (fun map entry ↦ map.insert entry.1 entry.2) map).get? name =
      (findEntry name entries).or (map.get? name) := by
  induction entries generalizing map with
  | nil => rfl
  | cons entry entries ih =>
    obtain ⟨hfirst, hrest⟩ := List.nodup_cons.mp h
    rw [List.foldl_cons, ih hrest, get?_insert, findEntry]
    by_cases hname : name = entry.1
    · subst hname
      rw [findEntry_eq_none hfirst, if_pos rfl, if_pos rfl]
      rfl
    · rw [if_neg hname, if_neg hname]

/-- A map is what its entries make of the empty one. -/
theorem foldl_insert_entries (map : NameMap α) :
    map.entries.foldl (fun map entry ↦ map.insert entry.1 entry.2) empty = map := by
  refine ext_get? fun name ↦ ?_
  rw [get?_foldl_insert map.nodup_keys, get?_empty, Option.or_none]
  rfl

end NameMap

namespace Json

variable {α : Type} {json : Json}

/-! ### Values -/

theorem digitsValue_toDigits (value : Nat) : digitsValue (Nat.toDigits 10 value) = value := by
  have hfold : ∀ (digits : List Char) (start : Nat),
      digits.foldl (fun value digit ↦ value * 10 + (digit.toNat - '0'.toNat)) start =
        Nat.ofDigitChars 10 digits start := by
    intro digits
    induction digits with
    | nil => exact fun _ ↦ Nat.ofDigitChars_nil.symm
    | cons digit digits ih =>
      intro start
      rw [List.foldl_cons, ih, Nat.ofDigitChars_cons, Nat.mul_comm]
  rw [digitsValue, hfold, Nat.ofDigitChars_ten_toDigits]

theorem nat?_ofNat {bound value : Nat} (h : value < bound) :
    nat? bound (.ofNat value) = some value := by
  have hdigits : (Nat.toDigits 10 value).all Char.isDigit = true :=
    List.all_eq_true.mpr fun _ ↦ isDigit_toDigits
  simp only [ofNat, nat?, Nat.toString_eq_repr, Nat.toList_repr, hdigits, digitsValue_toDigits, h,
    decide_true, Bool.and_true, if_true]

theorem nat32?_ofNat {value : Nat} (h : value < 2 ^ 32) : nat32? (.ofNat value) = some value :=
  nat?_ofNat (by simpa using h)

theorem nat64?_ofNat {value : Nat} (h : value < 2 ^ 64) : nat64? (.ofNat value) = some value :=
  nat?_ofNat (by simpa using h)

theorem optional?_ofOption {read : Json → Option α} {write : α → Json} {value : Option α}
    (h : ∀ found ∈ value, read (write found) = some found ∧ write found ≠ .null) :
    optional? read (.ofOption write value) = some value := by
  cases value with
  | none => rfl
  | some found =>
    obtain ⟨hread, hnull⟩ := h found rfl
    rw [ofOption, optional?, hread, Option.map_some]
    exact hnull

theorem list?_map {read : Json → Option α} {write : α → Json} (values : List α)
    (h : ∀ value ∈ values, read (write value) = some value) :
    list? read (.array (values.map write)) = some values := by
  change (values.map write).mapM read = some values
  induction values with
  | nil => rfl
  | cons value values ih =>
    obtain ⟨hfirst, hrest⟩ := List.forall_mem_cons.mp h
    rw [List.map_cons, List.mapM_cons, hfirst, ih hrest]
    rfl

/-- A map that is written is read as it was. -/
theorem nameMap?_ofEntries {read : Json → Option α} {write : α → Json} (map : NameMap α)
    (h : ∀ entry ∈ map.entries, read (write entry.2) = some entry.2) :
    nameMap? read (.ofEntries write map.entries) = some map := by
  have hentries : List.Forall₂
      (fun entry member ↦ member.1 = entry.1 ∧ read member.2 = some entry.2) map.entries
      (map.entries.map fun entry ↦ (entry.1, write entry.2)) :=
    List.forall₂_map_right_iff.mpr (List.forall₂_same.mpr fun entry hmem ↦ ⟨rfl, h entry hmem⟩)
  exact (nameMap?_ofMembers hentries).trans (congrArg some map.foldl_insert_entries)

/-! ### Texts of a value -/

/-- A text spells a value with its members in any order, and has nothing but blanks after it. -/
def StandsFor (text : String) (json : Json) : Prop :=
  ∃ (written : Json) (rest : List Char), json.Reordered written ∧
    Spells (.value written) text.toList rest ∧ skipBlanks rest = []

/-- Every text of a value is read as the answer: whatever order the members are in, wherever there
are blanks, and however the two writers write it. -/
structure ReadAs {β : Type} (json : Json) (read : String → β) (answer : β) : Prop where
  standing : ∀ text, StandsFor text json → read text = answer
  compressed : ∀ written, json.Reordered written → read written.compress = answer
  laidOut : ∀ written, json.Reordered written → read written.pretty = answer

/-- A map may be written in any order. -/
theorem reordered_ofEntries {write rewrite : α → Json} {entries order : List (String × α)}
    (hnames : (entries.map (·.1)).Nodup) (hperm : order.Perm entries)
    (h : ∀ entry ∈ entries, Reordered (write entry.2) (rewrite entry.2)) :
    Reordered (.ofEntries write entries) (.ofEntries rewrite order) := by
  let become : String → Json := fun name ↦
    ((entries.find? fun entry ↦ entry.1 = name).map fun entry ↦ rewrite entry.2).getD .null
  have hbecome : ∀ entry ∈ entries, become entry.1 = rewrite entry.2 := by
    intro entry hmem
    have hfound : entries.find? (fun other ↦ other.1 = entry.1) = some entry := by
      cases hfind : entries.find? fun other ↦ other.1 = entry.1 with
      | none => simpa using List.find?_eq_none.mp hfind entry hmem
      | some found =>
        have hname : found.1 = entry.1 := by simpa using List.find?_some hfind
        rw [List.inj_on_of_nodup_map hnames (List.mem_of_find?_eq_some hfind) hmem hname]
    simp only [become, hfound, Option.map_some, Option.getD_some]
  refine .object become ?_ ?_ ?_
  · rw [List.map_map]
    exact hnames
  · intro member hmem
    obtain ⟨entry, hentry, rfl⟩ := List.mem_map.mp hmem
    exact (hbecome entry hentry).symm ▸ h entry hentry
  · have hsame : entries.map (fun entry ↦ (entry.1, rewrite entry.2)) =
        entries.map fun entry ↦ (entry.1, become entry.1) :=
      List.map_congr_left fun entry hentry ↦ by rw [hbecome entry hentry]
    rw [List.map_map]
    exact (hperm.map _).trans (.of_eq hsame)

/-- What is written for a plain value stands for it. -/
theorem readAs_of_standing {β : Type} {read : String → β} {answer : β} (hplain : Plain json)
    (h : ∀ text, StandsFor text json → read text = answer) : json.ReadAs read answer where
  standing := h
  compressed := fun written hwritten ↦
    h _ ⟨written, [], hwritten, spells_compress (hplain.reordered hwritten), rfl⟩
  laidOut := fun written hwritten ↦
    h _ ⟨written, [], hwritten, spells_pretty (hplain.reordered hwritten), rfl⟩

/-- A reader of values that gives back what was written reads every text of it. -/
theorem parse?_of_standsFor {read : Json → Option α} (hrespects : Respects read) {text : String}
    (h : StandsFor text json) : (parse? text).bind read = read json := by
  obtain ⟨written, rest, hwritten, hspells, hrest⟩ := h
  rw [parse?_of_spells hspells hrest, Option.bind_some, hrespects hwritten]

theorem plain_ofEntries {write : α → Json} {entries : List (String × α)}
    (h : ∀ entry ∈ entries, Plain (write entry.2)) : Plain (.ofEntries write entries) := by
  refine .object fun member hmem ↦ ?_
  obtain ⟨entry, hentry, rfl⟩ := List.mem_map.mp hmem
  exact h entry hentry

end Json

open Json

/-! ### Settings -/

/-- The numbers of the settings fit their words. -/
structure ControllerSettings.Fits (settings : ControllerSettings) : Prop where
  threshold : settings.threshold < 2 ^ 32
  warningPercent : settings.warningPercent < 2 ^ 32
  releasePercent : settings.releasePercent < 2 ^ 32
  defaultWeight : settings.defaultWeight < 2 ^ 32
  categoryWeights : ∀ entry ∈ settings.categoryWeights.entries, entry.2 < 2 ^ 32

namespace ControllerSettings

theorem plain_toJson (settings : ControllerSettings) : Plain settings.toJson := by
  have hweights : Plain (.ofEntries .ofNat settings.categoryWeights.entries) :=
    plain_ofEntries fun entry _ ↦ .number entry.2
  exact .object (by simp [hweights, Plain.number, Plain.bool])

/-- No field of settings touches another. -/
theorem commutes_fields : fields.Pairwise Field.Commutes := by
  simp only [fields, List.pairwise_cons, List.forall_mem_cons, List.not_mem_nil, false_imp_iff,
    implies_true, List.Pairwise.nil, and_true]
  and_intros <;> exact Field.commutes_of fun _ _ _ ↦ rfl

theorem respects_ofJson? : Respects ofJson? := by
  refine respects_record? commutes_fields ?_ _
  have hnumber : Respects nat32? := respects_nat? _
  simp only [fields, List.forall_mem_cons, List.not_mem_nil, false_imp_iff, implies_true,
    and_true]
  and_intros <;> apply Field.respects_of
  all_goals first | exact hnumber | exact respects_bool? | exact hnumber.nameMap?

theorem ofJson?_toJson {settings : ControllerSettings} (h : settings.Fits) :
    ofJson? settings.toJson = some settings := by
  have hweights : nameMap? nat32? (.ofEntries .ofNat settings.categoryWeights.entries) =
      some settings.categoryWeights :=
    nameMap?_ofEntries _ fun entry hmem ↦ nat?_ofNat (h.categoryWeights entry hmem)
  simp [ofJson?, toJson, record?, fields?, ofMembers, setMembers?, fields, Field.of, bool?,
    hweights, nat32?_ofNat h.threshold, nat32?_ofNat h.warningPercent,
    nat32?_ofNat h.releasePercent, nat32?_ofNat h.defaultWeight]

end ControllerSettings

/-! ### Timings -/

/-- The numbers of the timings fit their words. -/
structure Timings.Fits (timings : Timings) : Prop where
  settingsRefresh : timings.settingsRefresh < 2 ^ 64
  weightRefresh : timings.weightRefresh < 2 ^ 64
  reconcileInterval : timings.reconcileInterval < 2 ^ 64
  peakSampleInterval : timings.peakSampleInterval < 2 ^ 64
  popularityWindow : timings.popularityWindow < 2 ^ 64
  abandonAfter : ∀ bound ∈ timings.abandonAfter, bound < 2 ^ 64

namespace Timings

theorem plain_toJson (timings : Timings) : Plain timings.toJson := by
  have hbound : Plain (.ofOption .ofNat timings.abandonAfter) := by
    cases timings.abandonAfter with
    | none => exact .null
    | some bound => exact .number bound
  exact .object (by simp [hbound, Plain.number])

/-- No field of timings touches another. -/
theorem commutes_fields : fields.Pairwise Field.Commutes := by
  simp only [fields, List.pairwise_cons, List.forall_mem_cons, List.not_mem_nil, false_imp_iff,
    implies_true, List.Pairwise.nil, and_true]
  and_intros <;> exact Field.commutes_of fun _ _ _ ↦ rfl

theorem respects_ofJson? : Respects ofJson? := by
  refine respects_record? commutes_fields ?_ _
  have hnumber : Respects nat64? := respects_nat? _
  simp only [fields, List.forall_mem_cons, List.not_mem_nil, false_imp_iff, implies_true,
    and_true]
  and_intros <;> apply Field.respects_of
  all_goals first | exact hnumber | exact hnumber.optional?

theorem ofJson?_toJson {timings : Timings} (h : timings.Fits) :
    ofJson? timings.toJson = some timings := by
  have hbound : optional? nat64? (.ofOption .ofNat timings.abandonAfter) =
      some timings.abandonAfter :=
    optional?_ofOption fun bound hmem ↦ ⟨nat64?_ofNat (h.abandonAfter bound hmem), nofun⟩
  simp [ofJson?, toJson, record?, fields?, ofMembers, setMembers?, fields, Field.of, hbound,
    nat64?_ofNat h.settingsRefresh, nat64?_ofNat h.weightRefresh, nat64?_ofNat h.reconcileInterval,
    nat64?_ofNat h.peakSampleInterval, nat64?_ofNat h.popularityWindow]

/-- Timings without a bound say so, where a missing member would mean the usual bound. -/
theorem member?_abandonAfter {timings : Timings} (h : timings.abandonAfter = none) :
    timings.toJson.member? "abandon_after_ms" = some .null := by
  simp [toJson, ofMembers, member?, ofOption, h]

end Timings

/-! ### Configurations -/

namespace AdmissionConfig

/-- All numbers of the configuration fit their words. -/
structure Fits (config : AdmissionConfig) : Prop where
  controllers : ∀ entry ∈ config.controllers.entries, entry.2.Fits
  timings : config.timings.Fits

theorem plain_toJson (config : AdmissionConfig) : Plain config.toJson := by
  have hcontrollers : Plain (.ofEntries ControllerSettings.toJson config.controllers.entries) :=
    plain_ofEntries fun entry _ ↦ entry.2.plain_toJson
  exact .object (by simp [hcontrollers, config.timings.plain_toJson])

/-- Neither field of a configuration touches the other. -/
theorem commutes_fields : fields.Pairwise Field.Commutes := by
  simp only [fields, List.pairwise_cons, List.forall_mem_cons, List.not_mem_nil, false_imp_iff,
    implies_true, List.Pairwise.nil, and_true]
  exact Field.commutes_of fun _ _ _ ↦ rfl

theorem respects_ofJson? : Respects ofJson? := by
  refine respects_record? commutes_fields ?_ _
  have hcontrollers : Respects (nameMap? ControllerSettings.ofJson?) :=
    ControllerSettings.respects_ofJson?.nameMap?
  simp only [fields, List.forall_mem_cons, List.not_mem_nil, false_imp_iff, implies_true,
    and_true]
  and_intros <;> apply Field.respects_of
  · exact hcontrollers
  · exact Timings.respects_ofJson?

theorem ofJson?_toJson {config : AdmissionConfig} (h : config.Fits) :
    ofJson? config.toJson = some config := by
  have hcontrollers : nameMap? ControllerSettings.ofJson?
      (.ofEntries ControllerSettings.toJson config.controllers.entries) =
        some config.controllers :=
    nameMap?_ofEntries _ fun entry hmem ↦
      ControllerSettings.ofJson?_toJson (h.controllers entry hmem)
  simp [ofJson?, toJson, record?, fields?, ofMembers, setMembers?, fields, Field.of, hcontrollers,
    Timings.ofJson?_toJson h.timings]

end AdmissionConfig

/-! ### Pools -/

namespace PoolConfig

/-- The numbers of the configuration fit their words. -/
structure Fits (config : PoolConfig) : Prop where
  coreWorkers : config.coreWorkers < 2 ^ 64
  maxWorkers : config.maxWorkers < 2 ^ 64
  maxQueueDepth : config.maxQueueDepth < 2 ^ 64
  keepAlive : config.keepAlive < 2 ^ 64
  stackSize : config.stackSize < 2 ^ 64

theorem plain_toJson (config : PoolConfig) : Plain config.toJson :=
  .object (by simp [Plain.number, Plain.text])

theorem respects_readOn? (processors : Nat) : Respects (readOn? processors) := by
  refine respects_record? ?_ ?_ _
  · simp only [fields, List.pairwise_cons, List.forall_mem_cons, List.not_mem_nil, false_imp_iff,
      implies_true, List.Pairwise.nil, and_true]
    and_intros <;> exact Field.commutes_of fun _ _ _ ↦ rfl
  · have hnumber : Respects nat64? := respects_nat? _
    simp only [fields, List.forall_mem_cons, List.not_mem_nil, false_imp_iff, implies_true,
      and_true]
    and_intros <;> apply Field.respects_of
    all_goals first | exact hnumber | exact respects_string?

/-- What is written says everything, so it is read alike on every machine. -/
theorem readOn?_toJson {config : PoolConfig} (h : config.Fits) (processors : Nat) :
    readOn? processors config.toJson = some config := by
  simp [readOn?, toJson, record?, fields?, ofMembers, setMembers?, fields, Field.of, ofText,
    string?, nat64?_ofNat h.coreWorkers, nat64?_ofNat h.maxWorkers, nat64?_ofNat h.maxQueueDepth,
    nat64?_ofNat h.keepAlive, nat64?_ofNat h.stackSize]

end PoolConfig

/-! ### Health reports -/

namespace Health

/-- The number of controllers fits its word. -/
structure Fits (health : Health) : Prop where
  controllers : health.controllers < 2 ^ 64

theorem plain_toJson (health : Health) : Plain health.toJson := by
  have hoverloaded : Plain (.array (health.overloaded.map .ofText)) := by
    refine .array fun item hmem ↦ ?_
    obtain ⟨text, -, rfl⟩ := List.mem_map.mp hmem
    exact .text text
  exact .object (by simp [hoverloaded, Plain.number, Plain.bool])

theorem respects_ofJson? : Respects ofJson? := by
  refine respects_wholeRecord? ?_ ?_ _
  · simp only [fields, List.pairwise_cons, List.forall_mem_cons, List.not_mem_nil, false_imp_iff,
      implies_true, List.Pairwise.nil, and_true]
    and_intros <;> exact Field.commutes_of fun _ _ _ ↦ rfl
  · have hnumber : Respects nat64? := respects_nat? _
    simp only [fields, List.forall_mem_cons, List.not_mem_nil, false_imp_iff, implies_true,
      and_true]
    and_intros <;> apply Field.respects_of
    all_goals first | exact hnumber | exact respects_bool? | exact respects_list? _

theorem ofJson?_toJson {health : Health} (h : health.Fits) :
    ofJson? health.toJson = some health := by
  have hoverloaded : list? string? (.array (health.overloaded.map .ofText)) =
      some health.overloaded :=
    list?_map _ fun _ _ ↦ rfl
  simp [ofJson?, toJson, wholeRecord?, fields?, ofMembers, setMembers?, fields, Field.of, bool?,
    hoverloaded, nat64?_ofNat h.controllers]

end Health

/-! ### Texts -/

/-- A configuration without faults is read from each of its texts, and so is every configuration of
a pool, on whatever machine, and every health report, whatever the names in them, as long as numbers
fit their words. In particular timings without a bound on silence come back without one, since this
is written out and what is not written is read as the usual bound. -/
theorem round_trip :
    (∀ config : AdmissionConfig, config.Fits → config.fault? = none →
      config.toJson.ReadAs AdmissionConfig.ofText (.ok config)) ∧
    (∀ config : PoolConfig, config.Fits → ∀ processors : Nat,
      config.toJson.ReadAs (fun text ↦ (parse? text).bind (PoolConfig.readOn? processors))
        (some config)) ∧
    (∀ health : Health, health.Fits →
      health.toJson.ReadAs (fun text ↦ (parse? text).bind Health.ofJson?) (some health)) ∧
    ∀ timings : Timings, timings.abandonAfter = none →
      timings.toJson.member? "abandon_after_ms" = some .null ∧
        (Timings.ofJson? (.object [])).bind (·.abandonAfter) = some 3600000 := by
  refine ⟨fun config hfits hvalid ↦ ?_, fun config hfits processors ↦ ?_, fun health hfits ↦ ?_,
    fun timings hnone ↦ ⟨Timings.member?_abandonAfter hnone, rfl⟩⟩
  · refine readAs_of_standing config.plain_toJson fun text htext ↦ ?_
    rw [AdmissionConfig.ofText, parse?_of_standsFor AdmissionConfig.respects_ofJson? htext,
      AdmissionConfig.ofJson?_toJson hfits]
    simp only [hvalid]
  · refine readAs_of_standing config.plain_toJson fun text htext ↦ ?_
    rw [parse?_of_standsFor (PoolConfig.respects_readOn? processors) htext,
      PoolConfig.readOn?_toJson hfits]
  · refine readAs_of_standing health.plain_toJson fun text htext ↦ ?_
    rw [parse?_of_standsFor Health.respects_ofJson? htext, Health.ofJson?_toJson hfits]

/-- Such a configuration, with a quote, a backslash, a line break and a control character in the
names of two controllers, which are written in another order, and timings without a bound; and a
pool and a health report with such names, the pool written on a machine with eight processors and
read on one with a single processor. -/
theorem round_trip_escapes :
    ∃ (config : AdmissionConfig) (written : Json) (pool : PoolConfig) (health : Health),
      config.controllers.keys = ["\"quoted\"", "\\\n\x01"] ∧
      config.timings.abandonAfter = none ∧
      config.toJson.Reordered written ∧ written.compress ≠ config.toJson.compress ∧
      AdmissionConfig.ofText written.compress = .ok config ∧
      AdmissionConfig.ofText written.pretty = .ok config ∧
      pool.coreWorkers = 8 ∧
      (parse? pool.toJson.pretty).bind (PoolConfig.readOn? 1) = some pool ∧
      health.toJson.compress =
        "\x7b\"ok\":false,\"controllers\":2,\"overloaded\":[\"\\\"quoted\\\"/\\u0001\"]\x7d" ∧
      (parse? health.toJson.compress).bind Health.ofJson? = some health := by
  let first : String × ControllerSettings := ("\"quoted\"", { threshold := 3 })
  let second : String × ControllerSettings :=
    ("\\\n\x01", { categoryWeights := .insert .empty "\t" 7 })
  let config : AdmissionConfig :=
    { controllers := .insert (.insert .empty first.1 first.2) second.1 second.2
      timings := { abandonAfter := none } }
  let swapped : Json := .ofEntries ControllerSettings.toJson [second, first]
  let written : Json :=
    .ofMembers [("controllers", swapped), ("timings", config.timings.toJson)]
  let pool : PoolConfig := { PoolConfig.forProcessors 8 with namePrefix := "\\\"" }
  let health : Health := ⟨false, 2, ["\"quoted\"/\x01"]⟩
  have hentries : config.controllers.entries = [first, second] := by decide +kernel
  have hwritten : config.toJson.Reordered written := by
    refine .object (fun name ↦ if name = "controllers" then swapped else config.timings.toJson)
      (by decide) ?_ (.refl _)
    rw [List.forall_mem_cons, List.forall_mem_singleton]
    refine ⟨?_, .refl _⟩
    refine reordered_ofEntries config.controllers.nodup_keys ?_ fun entry _ ↦ .refl _
    rw [hentries]
    exact .swap first second []
  have horder : written.compress ≠ config.toJson.compress := by
    intro hsame
    have hstart : written.write.take 20 = config.toJson.write.take 20 :=
      congrArg (·.take 20) (String.ofList_injective hsame)
    revert hstart
    decide +kernel
  obtain ⟨hconfig, hpool, hhealth, -⟩ := round_trip
  have hfits : config.Fits := by
    constructor
    · rw [hentries, List.forall_mem_cons, List.forall_mem_singleton]
      constructor <;> constructor <;> decide
    · constructor <;> decide
  have hread := hconfig config hfits (by decide +kernel)
  have hsizes := hpool pool ⟨by decide, by decide, by decide, by decide, by decide⟩ 1
  have hreport := hhealth health ⟨by decide⟩
  exact ⟨config, written, pool, health, by decide +kernel, rfl, hwritten, horder,
    hread.compressed written hwritten, hread.laidOut written hwritten, rfl,
    hsizes.laidOut _ (.refl _), by decide +kernel, hreport.compressed _ (.refl _)⟩

end Admission
