import Admission.Controller.Snapshot
import Admission.Proofs.Decision
import Mathlib.Order.Monotone.Basic

/-!
# A controller and its store over time

A `Timeline` is a sequence of moments. At each the store is edited, something is asked of the
controller, or a snapshot of it is taken, and each has a time on the clock. What a controller keeps
of the store goes back to moments: the copy of its settings to the one at which it was read, and the
base weight of a category to the one at which it was determined, by the copy as it was then. This is
kept by every advance (`Timeline.Sourced.advances`), so it holds at every moment
(`Timeline.sourced_controllerAt`).
-/

set_option autoImplicit false
set_option relaxedAutoImplicit false

namespace Admission

open Relation (ReflTransGen)

/-- What can happen at one moment. -/
inductive Happening where
  | edit (change : AdmissionConfig → AdmissionConfig)
  | ask (operation : Operation)
  | snapshot

/-- A store, a controller that is built from it, and what happens from then on. -/
structure Timeline where
  id : String
  timings : Timings
  /-- The store at first. -/
  store : ConfigStore
  /-- The time at every moment. -/
  clock : Nat → Nat
  happening : Nat → Happening

namespace Timeline

variable (timeline : Timeline)

/-- The store at a moment. -/
def storeAt : Nat → ConfigStore
  | 0 => timeline.store
  | moment + 1 =>
    match timeline.happening moment with
    | .edit change => (storeAt moment).update change
    | _ => storeAt moment

/-- The settings that the store serves to the controller at a moment. -/
def served (moment : Nat) : VersionedSettings := (timeline.storeAt moment).settings timeline.id

/-- The base weight of a name as it is determined at a moment with settings that were read at an
earlier one: the weight set for the name, or else that of the settings. -/
def determinedWeight (moment read : Nat) (name : String) : Nat :=
  ((timeline.storeAt moment).weight timeline.id name).getD
    ((timeline.served read).settings.weightFor name)

/-- What is kept from an earlier moment is in use for less than an interval of time. -/
def Recent (interval earlier moment : Nat) : Prop :=
  earlier ≤ moment ∧
    (earlier = moment ∨ timeline.clock moment - timeline.clock earlier < interval)

section Controller

variable (R : Type) [Scalar R]

/-- The controller at a moment. It is built at the first. -/
def controllerAt : Nat → Controller R
  | 0 => .build timeline.id timeline.timings timeline.store.source (timeline.clock 0)
  | moment + 1 =>
    match timeline.happening moment with
    | .edit _ => controllerAt moment
    | .ask operation => (controllerAt moment).perform
        ⟨operation, (timeline.storeAt moment).source, timeline.clock moment⟩
    | .snapshot => ((controllerAt moment).snapshot (timeline.storeAt moment).source
        (timeline.clock moment)).1

end Controller

variable {timeline} {R : Type}

theorem version_mono {earlier later : Nat} (h : earlier ≤ later) :
    (timeline.served earlier).version ≤ (timeline.served later).version := by
  induction h with
  | refl => exact le_rfl
  | @step later _ ih =>
    refine ih.trans ?_
    have hlater : (timeline.storeAt later).version ≤ (timeline.storeAt (later + 1)).version := by
      rw [storeAt]
      split
      · exact Nat.le_succ _
      · exact le_rfl
    exact hlater

/-! ### Where the copy and the weights come from -/

/-- The copy of the settings was read at an earlier moment. -/
structure Copied (timeline : Timeline) (moment : Nat) (controller : Controller R) (read : Nat) :
    Prop where
  id_eq : controller.id = timeline.id
  timings_eq : controller.timings = timeline.timings
  read_le : read ≤ moment
  settings_eq : controller.settings = timeline.served read
  readAt_eq : controller.settingsReadAt = timeline.clock read

/-- The base weight was determined at an earlier moment, with settings that were recent then. -/
structure Determined (timeline : Timeline) (moment : Nat) (weighing : Weighing R)
    (determined read : Nat) : Prop where
  determined_le : determined ≤ moment
  recent : timeline.Recent timeline.timings.settingsRefresh read determined
  checkedAt_eq : weighing.weightCheckedAt = timeline.clock determined
  baseWeight_eq : weighing.baseWeight = timeline.determinedWeight determined read weighing.name

/-- The copy and all base weights of a controller come from earlier moments. -/
structure Sourced (timeline : Timeline) (moment : Nat) (controller : Controller R) : Prop where
  copied : ∃ read, timeline.Copied moment controller read
  determined : ∀ category ∈ controller.categories,
    ∃ determined read, timeline.Determined moment category.weighing determined read
  indexed : controller.Indexed

variable {controller changed : Controller R} {moment later read : Nat}

/-- A copy that is up to date was read recently. -/
theorem Copied.recent (h : timeline.Copied moment controller read)
    (hfresh : controller.UpToDate (timeline.storeAt moment).source (timeline.clock moment)) :
    ∃ read, timeline.Recent timeline.timings.settingsRefresh read moment ∧
      controller.settings = timeline.served read := by
  rcases Controller.upToDate_iff.mp hfresh with hyoung | ⟨hsettings, -⟩
  · rw [h.readAt_eq, h.timings_eq] at hyoung
    exact ⟨read, ⟨h.read_le, .inr hyoung⟩, h.settings_eq⟩
  · rw [h.id_eq] at hsettings
    exact ⟨moment, ⟨le_rfl, .inl rfl⟩, hsettings⟩

theorem Sourced.mono (h : timeline.Sourced moment controller) (hle : moment ≤ later) :
    timeline.Sourced later controller where
  copied := by
    obtain ⟨read, hcopied⟩ := h.copied
    exact ⟨read, { hcopied with read_le := hcopied.read_le.trans hle }⟩
  determined category hmem := by
    obtain ⟨determined, read, hdetermined⟩ := h.determined category hmem
    exact ⟨determined, read,
      { hdetermined with determined_le := hdetermined.determined_le.trans hle }⟩
  indexed := h.indexed

variable [Scalar R]

/-- A base weight is determined by settings that are up to date, and stays as it was otherwise. -/
theorem Copied.lasting (h : timeline.Copied moment controller read)
    (hfresh : controller.UpToDate (timeline.storeAt moment).source (timeline.clock moment)) :
    Category.Lasting (R := R)
      (fun category ↦ ∃ determined read,
        timeline.Determined moment category.weighing determined read)
      (timeline.clock moment) controller.current
      (controller.baseWeight (timeline.storeAt moment).source) := by
  obtain ⟨fresh, hrecent, hsettings⟩ := h.recent hfresh
  have hweight : ∀ name, controller.baseWeight (timeline.storeAt moment).source name =
      timeline.determinedWeight moment fresh name := by
    intro name
    rw [Controller.baseWeight, Controller.current, h.id_eq, hsettings]
    rfl
  refine .of_weighing (motive := fun weighing : Weighing R ↦ ∃ determined read,
    timeline.Determined moment weighing determined read) ?_ ?_ ?_
  · exact fun name ↦ ⟨moment, fresh, le_rfl, hrecent, rfl, hweight name⟩
  · rintro category totals ⟨determined, read, hdetermined⟩
    exact ⟨determined, read, hdetermined.determined_le, hdetermined.recent,
      hdetermined.checkedAt_eq, hdetermined.baseWeight_eq⟩
  · intro category totals hbefore
    exact ⟨moment, fresh, le_rfl, hrecent, rfl, hweight category.name⟩

theorem Sourced.advances {asked : Option ControllerSettings}
    (h : timeline.Sourced moment controller)
    (hadvance : Controller.Advances (timeline.storeAt moment).source (timeline.clock moment) asked
      controller changed) : timeline.Sourced moment changed := by
  obtain ⟨read, hcopied⟩ := h.copied
  constructor
  case copied =>
    -- The copy is of this very moment, or it is the one from before.
    rcases hadvance.copy_cases with rfl | hcopy
    · refine ⟨moment, hcopied.id_eq, hcopied.timings_eq, le_rfl, ?_, rfl⟩
      exact congrArg (timeline.storeAt moment).settings hcopied.id_eq
    · exact ⟨read, (congrArg SettingsCopy.id hcopy).trans hcopied.id_eq,
        (congrArg SettingsCopy.timings hcopy).trans hcopied.timings_eq, hcopied.read_le,
        (congrArg SettingsCopy.settings hcopy).trans hcopied.settings_eq,
        (congrArg SettingsCopy.readAt hcopy).trans hcopied.readAt_eq⟩
  case determined => exact hadvance.forall_categories hcopied.lasting h.determined
  case indexed => exact h.indexed.advances hadvance

theorem Sourced.chain (h : timeline.Sourced moment controller) (asked : Option ControllerSettings)
    (hchain : ReflTransGen (Controller.Advances (timeline.storeAt moment).source
      (timeline.clock moment) asked) controller changed) : timeline.Sourced moment changed :=
  Controller.Advances.keep (fun hadvance h ↦ Sourced.advances h hadvance) hchain h

/-- From one moment to the next the controller goes through a few advances. -/
theorem advances_controllerAt (moment : Nat) :
    ∃ asked, ReflTransGen (Controller.Advances (timeline.storeAt moment).source
      (timeline.clock moment) asked) (timeline.controllerAt R moment)
        (timeline.controllerAt R (moment + 1)) := by
  rw [controllerAt]
  split
  · exact ⟨none, .refl⟩
  · next operation hask =>
    exact ⟨_, (timeline.controllerAt R moment).advances_perform
      ⟨operation, (timeline.storeAt moment).source, timeline.clock moment⟩⟩
  · exact ⟨none, Controller.advances_refreshSettings ..⟩

/-- At every moment the copy and all base weights come from earlier ones. -/
theorem sourced_controllerAt (moment : Nat) :
    timeline.Sourced moment (timeline.controllerAt R moment) := by
  induction moment with
  | zero =>
    constructor
    case copied => exact ⟨0, rfl, rfl, le_rfl, rfl, rfl⟩
    case determined => simp [controllerAt, Controller.build]
    case indexed =>
      exact Controller.indexed_build timeline.id timeline.timings timeline.store.source
        (timeline.clock 0)
  | succ moment ih =>
    obtain ⟨asked, hchain⟩ := timeline.advances_controllerAt (R := R) moment
    exact (ih.chain asked hchain).mono (Nat.le_succ moment)

end Timeline

end Admission
