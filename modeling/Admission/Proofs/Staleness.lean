import Admission.Controller.Settle
import Admission.Proofs.Timeline

/-!
# How old the configuration in use can be

A controller works with a copy of its settings, and a category with a base weight that was
determined by such a copy. The two have intervals of their own, and both are counted from the time
of reading: so settings in use are younger than one interval, and the settings behind a base weight
are younger than the two together (`Timeline.bounded_staleness`). A weight that was set for a
category and then taken away again is therefore out of use once the two intervals have passed.

Which settings an operation works with is said by `Controller.Works`, operation by operation.
-/

set_option autoImplicit false
set_option relaxedAutoImplicit false

namespace Admission

variable {R : Type} [Scalar R]

namespace Controller

variable (controller : Controller R) (source : Source) (now : Nat)

/-- A request for the category at a position that goes by the given settings. -/
def requestWith (settings : ControllerSettings) (position : Nat) :
    Outcome R (Except AdmissionError Lease) :=
  let swept := (controller.countSubmission now position).sweepIfDue settings now
  let answered := swept.controller.answerAt source settings now position
  ⟨answered.controller, answered.answer, swept.notices ++ answered.notices⟩

/-- Every operation works with the given settings: after a refresh it does what they ask for. -/
structure Works (settings : VersionedSettings) : Prop where
  requestAt : ∀ position, controller.requestAt source now position =
    (controller.refreshSettings source now).requestWith source now settings.settings position
  request : ∀ name, controller.request source now name =
    ((controller.getCategory source now name).1.refreshSettings source now).requestWith source now
      settings.settings (controller.getCategory source now name).2
  release : ∀ (lease : Lease) (ledger : Ledger),
    controller.ledger.exchange lease.number .active .released = some ledger →
      controller.release source now lease =
        ⟨settle { controller.refreshSettings source now with ledger } settings.settings now lease,
          .ok (now - lease.grantedAt), []⟩
  reconcile : (controller.reconcile source now).controller =
    ((controller.refreshSettings source now).sweep settings.settings now).controller
  snapshot : (controller.snapshot source now).2.settingsVersion = settings.version ∧
    (controller.snapshot source now).2.threshold = settings.settings.threshold ∧
    (controller.snapshot source now).2.enabled = settings.settings.enabled

/-- Looking up a category leaves the copy as a refresh would leave it, or leaves it alone. -/
theorem settings_getCategory (name : String) :
    ((controller.getCategory source now name).1.refreshSettings source now).settings =
      (controller.refreshSettings source now).settings := by
  have hfresh := controller.upToDate_refreshSettings source now
  rcases hfound : controller.position? name with _ | position
  · rw [getCategory, hfound]
    dsimp only
    rw [createCategory, hfound]
    dsimp only
    exact hfresh.settings_eq rfl
  · rw [getCategory, hfound]

/-- The operations work with the copy as a refresh leaves it. -/
theorem works : controller.Works source now (controller.refreshSettings source now).settings where
  requestAt position := rfl
  request name := by
    rw [← controller.settings_getCategory source now name]
    rfl
  release lease ledger hexchange := by
    rw [release, hexchange]
    dsimp only [Controller.finish]
    rw [refreshSettings_withLedger]
    rfl
  reconcile := rfl
  snapshot := ⟨rfl, rfl, rfl⟩

end Controller

namespace Category

/-- The base weight is read again if it is due, and stays as it was otherwise. -/
theorem baseWeight_cases {category after : Category R} {totals : Totals R} {now weight : Nat}
    {timings : Timings} {settings : ControllerSettings}
    (h : after.weighing =
      (category.refreshWeight totals now weight timings settings).1.weighing) :
    after.baseWeight = weight ∨
      now - category.weightCheckedAt < timings.weightRefresh ∧
        after.baseWeight = category.baseWeight := by
  have hbase : after.baseWeight = _ := congrArg Weighing.baseWeight h
  rw [hbase]
  unfold refreshWeight
  split
  · exact .inl rfl
  · next hyoung =>
    rw [weightRefreshDue, decide_eq_true_eq, Nat.not_le] at hyoung
    exact .inr ⟨hyoung, rfl⟩

end Category

namespace Timeline

variable {timeline : Timeline} {moment : Nat} {name : String} {found : Controller R}
  {position : Nat}

/-- At every moment each operation works with settings that were served recently. -/
theorem exists_works (moment : Nat) :
    ∃ read, timeline.Recent timeline.timings.settingsRefresh read moment ∧
      (timeline.controllerAt R moment).Works (timeline.storeAt moment).source
        (timeline.clock moment) (timeline.served read) := by
  have hsourced := timeline.sourced_controllerAt (R := R) moment
  obtain ⟨copied, hcopied⟩ := (hsourced.chain none (Controller.advances_refreshSettings ..)).copied
  obtain ⟨read, hrecent, hsettings⟩ := hcopied.recent (Controller.upToDate_refreshSettings ..)
  refine ⟨read, hrecent, ?_⟩
  rw [← hsettings]
  exact Controller.works ..

variable (timeline) (R) in
/-- A request is made for a category, by its name or by a position that was looked up before. -/
def Admits (moment : Nat) (name : String) : Prop :=
  timeline.happening moment = .ask (.request name) ∨
    ∃ position, timeline.happening moment = .ask (.requestAt position) ∧
      (timeline.controllerAt R moment).names[position]? = some name

/-- A category as a request leaves it: its base weight was determined recently, with settings that
were recent then, and its weight is computed from the base weight by settings that are recent. -/
structure Admitted (timeline : Timeline) (moment : Nat) (category : Category R)
    (determined read : Nat) : Prop where
  recent : timeline.Recent timeline.timings.weightRefresh determined moment
  settings_recent : timeline.Recent timeline.timings.settingsRefresh read determined
  baseWeight_eq : category.baseWeight = timeline.determinedWeight determined read category.name
  adjustedWeight_eq : ∃ served, timeline.Recent timeline.timings.settingsRefresh served moment ∧
    category.adjustedWeight = Category.scaledWeight category.baseWeight category.speedFactor
      category.popularityFactor (timeline.served served).settings

/-- A request for a category is a request at its position, to the controller or to the one that
looking up the name leaves. -/
theorem exists_found (hadmits : timeline.Admits R moment name) :
    ∃ (found : Controller R) (position : Nat), timeline.Sourced moment found ∧
      found.names[position]? = some name ∧
      timeline.controllerAt R (moment + 1) =
        (found.requestAt (timeline.storeAt moment).source (timeline.clock moment)
          position).controller := by
  have hsourced := timeline.sourced_controllerAt (R := R) moment
  rcases hadmits with hask | ⟨position, hask, hname⟩
  · have hfound := hsourced.chain none (Controller.advances_getCategory _ _ _ name)
    refine ⟨_, _, hfound, hsourced.indexed.names_getCategory .., ?_⟩
    rw [controllerAt, hask]
    rfl
  · refine ⟨timeline.controllerAt R moment, position, hsourced, hname, ?_⟩
    rw [controllerAt, hask]
    rfl

/-- An answer that goes by an up-to-date copy leaves the category admitted. -/
theorem Sourced.answered {plain : Controller R} (h : timeline.Sourced moment plain)
    (hfresh : plain.UpToDate (timeline.storeAt moment).source (timeline.clock moment))
    (hname : plain.names[position]? = some name) :
    ∃ category determined read,
      (plain.answerAt (timeline.storeAt moment).source plain.current (timeline.clock moment)
        position).controller.categories[position]? = some category ∧
        category.name = name ∧ timeline.Admitted moment category determined read := by
  obtain ⟨copied, hcopied⟩ := h.copied
  obtain ⟨served, hrecent, hsettings⟩ := hcopied.recent hfresh
  have hcurrent : plain.current = (timeline.served served).settings :=
    congrArg VersionedSettings.settings hsettings
  obtain ⟨category, hcategory, rfl⟩ := Controller.exists_category_of_name hname
  obtain ⟨determined, read, hdetermined⟩ :=
    h.determined category (Array.mem_of_getElem? hcategory)
  obtain ⟨after, hafter, hdecided⟩ := Controller.exists_decided (timeline.storeAt moment).source
    plain.current (timeline.clock moment) hcategory
  have hweighing : after.weighing = (category.refreshWeight plain.totals (timeline.clock moment)
      ((timeline.storeAt moment).source.baseWeight plain.id plain.current category.name)
      plain.timings plain.current).1.weighing :=
    hdecided.weighing.trans (category.weighing_decide ..)
  have hsame : after.name = category.name :=
    (congrArg Weighing.name hdecided.weighing).trans (category.name_decide ..)
  have hscaled : after.weighing.adjustedWeight = Category.scaledWeight after.weighing.baseWeight
      after.weighing.speedFactor after.weighing.popularityFactor plain.current := by
    rw [hweighing]
    rfl
  have hadjusted : ∃ served, timeline.Recent timeline.timings.settingsRefresh served moment ∧
      after.adjustedWeight = Category.scaledWeight after.baseWeight after.speedFactor
        after.popularityFactor (timeline.served served).settings :=
    ⟨served, hrecent, hcurrent ▸ hscaled⟩
  -- The base weight is determined now by the copy in use, or was determined at an earlier moment.
  rcases Category.baseWeight_cases hweighing with hset | ⟨hyoung, hkept⟩
  · refine ⟨after, moment, served, hafter, hsame, ⟨le_rfl, .inl rfl⟩, hrecent, ?_, hadjusted⟩
    rw [hcopied.id_eq, hcurrent] at hset
    rw [hsame]
    exact hset
  · refine ⟨after, determined, read, hafter, hsame, ⟨hdetermined.determined_le, .inr ?_⟩,
      hdetermined.recent, ?_, hadjusted⟩
    · rw [← hdetermined.checkedAt_eq, ← hcopied.timings_eq]
      exact hyoung
    · rw [hsame]
      exact hkept.trans hdetermined.baseWeight_eq

/-- A request at the position of a category leaves it admitted. -/
theorem Sourced.admitted (h : timeline.Sourced moment found)
    (hname : found.names[position]? = some name) :
    ∃ category determined read,
      (found.requestAt (timeline.storeAt moment).source (timeline.clock moment)
        position).controller.categories[position]? = some category ∧
        category.name = name ∧ timeline.Admitted moment category determined read := by
  rw [Controller.controller_requestAt, ← Controller.current_beforeAnswerAt _ _ _ position]
  refine (h.chain none (Controller.advances_beforeAnswerAt ..)).answered
    (found.upToDate_beforeAnswerAt ..) ?_
  rw [Controller.names_beforeAnswerAt]
  exact hname

/-- Every request for a category leaves it admitted. -/
theorem admitted_of_admits (hadmits : timeline.Admits R moment name) :
    ∃ position category determined read,
      (timeline.controllerAt R (moment + 1)).position? name = some position ∧
        (timeline.controllerAt R (moment + 1)).categories[position]? = some category ∧
        category.name = name ∧ timeline.Admitted moment category determined read := by
  obtain ⟨found, position, hsourced, hname, hafter⟩ := timeline.exists_found hadmits
  obtain ⟨category, determined, read, hcategory, hsame, hadmitted⟩ := hsourced.admitted hname
  rw [← hafter] at hcategory
  have hindexed := (timeline.sourced_controllerAt (R := R) (moment + 1)).indexed
  refine ⟨position, category, determined, read, ?_, hcategory, hsame, hadmitted⟩
  exact hsame ▸ hindexed.position?_name hcategory

/-! ### A weight that was taken away -/

section Removed

variable {interval earlier removed determined read : Nat}

variable (timeline) in
/-- From an earlier moment on, no weight is set for a name. -/
def Removed (removed moment : Nat) (name : String) : Prop :=
  ∀ later, removed < later → later ≤ moment →
    (timeline.storeAt later).weight timeline.id name = none

theorem Recent.clock_le (h : timeline.Recent interval earlier moment) :
    timeline.clock moment ≤ timeline.clock earlier + interval := by
  rcases h.2 with rfl | hyoung
  · exact Nat.le_add_right ..
  · omega

/-- What is recent is later than what happened an interval ago. -/
theorem Recent.later (hclock : Monotone timeline.clock)
    (h : timeline.Recent interval earlier moment) (hremoved : removed < moment)
    (hlong : timeline.clock removed + interval ≤ timeline.clock moment) : removed < earlier := by
  by_contra hle
  rw [Nat.not_lt] at hle
  have hbefore : timeline.clock earlier ≤ timeline.clock removed := hclock hle
  rcases h.2 with rfl | hyoung
  · exact absurd hremoved (Nat.not_lt.mpr hle)
  · omega

/-- Settings that are served when no weight is set for a name have none for it. -/
theorem weightFor_served (hnone : (timeline.storeAt read).weight timeline.id name = none) :
    (timeline.served read).settings.weightFor name =
      (timeline.served read).settings.defaultWeight := by
  rw [ConfigStore.weight] at hnone
  rw [served, ConfigStore.settings, AdmissionConfig.settingsFor]
  rcases hfound : (timeline.storeAt read).config.controllers.get? timeline.id with _ | settings
  · rfl
  · rw [hfound] at hnone
    exact congrArg (Option.getD · settings.defaultWeight) hnone

/-- The two intervals after a moment, all that a base weight goes back to is later than it. -/
theorem Admitted.later {category : Category R} (hclock : Monotone timeline.clock)
    (h : timeline.Admitted moment category determined read) (hremoved : removed < moment)
    (hlong : timeline.clock removed + timeline.timings.weightRefresh +
      timeline.timings.settingsRefresh ≤ timeline.clock moment) :
    removed < determined ∧ removed < read := by
  have hclose := h.recent.clock_le
  have hafter : removed < determined := h.recent.later hclock hremoved (by omega)
  exact ⟨hafter, h.settings_recent.later hclock hafter (by omega)⟩

/-- A base weight that goes back to what is later than the removal is that of the settings. -/
theorem Admitted.baseWeight_of_removed {category : Category R}
    (h : timeline.Admitted moment category determined read)
    (hremoved : timeline.Removed removed moment category.name) (hafter : removed < determined)
    (hlater : removed < read) :
    category.baseWeight = (timeline.served read).settings.defaultWeight := by
  have hnone := hremoved determined hafter h.recent.1
  rw [h.baseWeight_eq, determinedWeight, hnone, Option.getD_none]
  exact weightFor_served (hremoved read hlater (h.settings_recent.1.trans h.recent.1))

end Removed

/-! ### The versions that are seen -/

section Version

variable {earlier later : Nat} {controller changed : Controller R}

variable (timeline) (R) in
/-- The snapshot that is taken at a moment. -/
def snapshotAt (moment : Nat) : ControllerSnapshot R :=
  ((timeline.controllerAt R moment).snapshot (timeline.storeAt moment).source
    (timeline.clock moment)).2

/-- No advance goes back to an older version. -/
theorem Sourced.version_le {asked : Option ControllerSettings}
    (h : timeline.Sourced moment controller)
    (hadvance : Controller.Advances (timeline.storeAt moment).source (timeline.clock moment) asked
      controller changed) : controller.settings.version ≤ changed.settings.version := by
  obtain ⟨read, hcopied⟩ := h.copied
  rcases hadvance.copy_cases with rfl | hcopy
  · rw [hcopied.settings_eq]
    have hserved : (timeline.served read).version ≤ (timeline.served moment).version :=
      timeline.version_mono hcopied.read_le
    exact hserved
  · exact (congrArg (·.settings.version) hcopy).ge

theorem version_le_controllerAt (h : earlier ≤ later) :
    (timeline.controllerAt R earlier).settings.version ≤
      (timeline.controllerAt R later).settings.version := by
  induction h with
  | refl => exact le_rfl
  | @step later _ ih =>
    obtain ⟨asked, hchain⟩ := timeline.advances_controllerAt (R := R) later
    have hstep := Controller.Advances.keep
      (motive := fun changed ↦ timeline.Sourced later changed ∧
        (timeline.controllerAt R later).settings.version ≤ changed.settings.version)
      (fun hadvance h ↦ ⟨h.1.advances hadvance, h.2.trans (h.1.version_le hadvance)⟩)
      hchain ⟨timeline.sourced_controllerAt later, le_rfl⟩
    exact ih.trans hstep.2

/-- A snapshot shows the version of the copy that it leaves. -/
theorem settingsVersion_snapshotAt (h : timeline.happening moment = .snapshot) :
    (timeline.snapshotAt R moment).settingsVersion =
      (timeline.controllerAt R (moment + 1)).settings.version := by
  rw [controllerAt, h]
  rfl

theorem settingsVersion_le (h : earlier ≤ later) (hearlier : timeline.happening earlier = .snapshot)
    (hlater : timeline.happening later = .snapshot) :
    (timeline.snapshotAt R earlier).settingsVersion ≤
      (timeline.snapshotAt R later).settingsVersion := by
  rw [settingsVersion_snapshotAt hearlier, settingsVersion_snapshotAt hlater]
  exact version_le_controllerAt (Nat.succ_le_succ h)

end Version

variable (timeline) (R) in
/-- At every moment each operation works with settings that were served recently. A request for a
category goes by a base weight that was determined recently, by the weight set for the category or
else by settings that had been served recently. All this is later than what happened the two
intervals ago or before, so no weight that was taken away by then takes part in it. From one
snapshot to the next the version never falls. -/
theorem bounded_staleness (hclock : Monotone timeline.clock) :
    (∀ moment, ∃ read, timeline.Recent timeline.timings.settingsRefresh read moment ∧
      (timeline.controllerAt R moment).Works (timeline.storeAt moment).source
        (timeline.clock moment) (timeline.served read)) ∧
    (∀ moment name, timeline.Admits R moment name →
      ∃ position category determined read,
        (timeline.controllerAt R (moment + 1)).position? name = some position ∧
          (timeline.controllerAt R (moment + 1)).categories[position]? = some category ∧
          category.name = name ∧ timeline.Admitted moment category determined read ∧
          ∀ removed < moment,
            timeline.clock removed + timeline.timings.weightRefresh +
              timeline.timings.settingsRefresh ≤ timeline.clock moment →
              removed < determined ∧ removed < read ∧
                (timeline.Removed removed moment name →
                  category.baseWeight = (timeline.served read).settings.defaultWeight)) ∧
    ∀ earlier later, earlier ≤ later → timeline.happening earlier = .snapshot →
      timeline.happening later = .snapshot →
        (timeline.snapshotAt R earlier).settingsVersion ≤
          (timeline.snapshotAt R later).settingsVersion := by
  refine ⟨timeline.exists_works, ?_, fun _ _ ↦ settingsVersion_le⟩
  intro moment name hadmits
  obtain ⟨position, category, determined, read, hposition, hcategory, hname, hadmitted⟩ :=
    timeline.admitted_of_admits hadmits
  refine ⟨position, category, determined, read, hposition, hcategory, hname, hadmitted, ?_⟩
  intro removed hbefore hlong
  obtain ⟨hafter, hlater⟩ := hadmitted.later hclock hbefore hlong
  refine ⟨hafter, hlater, fun hremoved ↦ ?_⟩
  rw [← hname] at hremoved
  exact hadmitted.baseWeight_of_removed hremoved hafter hlater

/-- Such a request: the weight that was set for a category is taken away after its first request, a
snapshot is taken, and the two intervals after the edit there is another request, which goes by the
weight of the settings. -/
theorem bounded_staleness_removed :
    ∃ timeline : Timeline, Monotone timeline.clock ∧
      (timeline.controllerAt Rat 1).categories[0]?.map (·.baseWeight) = some 5 ∧
      timeline.Removed 1 3 "a" ∧ timeline.Admits Rat 3 "a" ∧
      (∃ position category read,
        (timeline.controllerAt Rat 4).position? "a" = some position ∧
          (timeline.controllerAt Rat 4).categories[position]? = some category ∧ 1 < read ∧
          category.baseWeight = (timeline.served read).settings.defaultWeight) ∧
      (timeline.snapshotAt Rat 2).settingsVersion ≤
        (timeline.snapshotAt Rat 4).settingsVersion := by
  let timeline : Timeline :=
    { id := "main"
      timings := { settingsRefresh := 10, weightRefresh := 20 }
      store := (ConfigStore.ofConfig {}).setCategoryWeight "main" "a" 5
      clock := fun moment ↦ 15 * moment
      happening := fun
        | 1 => .edit fun config ↦ { config with controllers := .empty }
        | 2 | 4 => .snapshot
        | _ => .ask (.request "a") }
  have hclock : Monotone timeline.clock := fun _ _ h ↦ Nat.mul_le_mul_left 15 h
  have hremoved : timeline.Removed 1 3 "a" := by
    intro later hafter hbefore
    obtain rfl | rfl : later = 2 ∨ later = 3 := by omega
    · rfl
    · rfl
  have hadmits : timeline.Admits Rat 3 "a" := .inl rfl
  obtain ⟨-, hrequests, hsnapshots⟩ := bounded_staleness Rat timeline hclock
  obtain ⟨position, category, determined, read, hposition, hcategory, -, -, hlater⟩ :=
    hrequests 3 "a" hadmits
  obtain ⟨-, hread, hweight⟩ := hlater 1 (by decide) (by decide)
  exact ⟨timeline, hclock, by decide +kernel, hremoved, hadmits,
    ⟨position, category, read, hposition, hcategory, hread, hweight hremoved⟩,
    hsnapshots 2 4 (by decide) rfl rfl⟩

end Timeline

end Admission
