import Admission.Proofs.Uninterrupted
import Mathlib.Logic.Relation

/-!
# What a move is made of

A move is a few advances one after another: the settings are read, a category is created, a
submission is counted, a sweep is made, a request is answered, a released lease is settled, or only
the phase of a lease is changed. `Controller.Advances` lists them and says of each which settings it
works with: always the copy, and the copy is up to date (`UpToDate`), which means that a refresh
would leave it as it is. `Controller.advances_perform` takes a move apart, so an invariant of moves
is a matter of seven cases (`Controller.run_keeps`).
-/

set_option autoImplicit false
set_option relaxedAutoImplicit false

namespace Admission

open Ledger (Reclaimed)
open Relation (ReflTransGen)

variable {R α : Type}

/-- What decides whether and when a controller reads its settings, and what it read. -/
structure SettingsCopy where
  id : String
  timings : Timings
  settings : VersionedSettings
  readAt : Nat

namespace Category

variable [Scalar R]

/-- Taking a lease off a category changes nothing but what it counts of the leases held. -/
theorem view_deactivateOne (view : Category R → α)
    (h : ∀ (category : Category R) (active grantTimeSum : Nat),
      view { category with active, grantTimeSum } = view category)
    (category : Category R) (totals : Totals R) (grantedAt : Nat) :
    view (category.deactivateOne totals grantedAt).1 = view category := by
  unfold deactivateOne
  split
  · rfl
  · exact h category ..

omit [Scalar R] in
/-- Reporting a peak changes nothing but the peak and when it was reported. -/
theorem view_samplePeak (view : Category R → α)
    (h : ∀ (category : Category R) (peakActive peakSampledAt : Nat),
      view { category with peakActive, peakSampledAt } = view category)
    (category : Category R) (now interval : Nat) :
    view (category.samplePeak now interval).1 = view category := by
  unfold samplePeak
  split
  · rfl
  · exact h category ..

theorem name_deactivateOne (category : Category R) (totals : Totals R) (grantedAt : Nat) :
    (category.deactivateOne totals grantedAt).1.name = category.name :=
  category.view_deactivateOne (·.name) (fun _ _ _ ↦ rfl) totals grantedAt

theorem name_finish (category : Category R) (totals : Totals R) (grantedAt now : Nat)
    (settings : ControllerSettings) :
    (category.finish totals grantedAt now settings).1.name = category.name :=
  name_deactivateOne ..

theorem name_abandon (category : Category R) (totals : Totals R) (grantedAt now : Nat)
    (settings : ControllerSettings) :
    (category.abandon totals grantedAt now settings).1.name = category.name :=
  name_deactivateOne ..

end Category

namespace Controller

/-! ### The copy of the settings -/

/-- The copy of the settings, with whose it is and when it was read. -/
def copy (controller : Controller R) : SettingsCopy where
  id := controller.id
  timings := controller.timings
  settings := controller.settings
  readAt := controller.settingsReadAt

/-- A refresh would leave the copy of the settings as it is. -/
def UpToDate (controller : Controller R) (source : Source) (now : Nat) : Prop :=
  controller.refreshSettings source now = controller

/-- The settings that an operation works with. -/
def settingsAt (controller : Controller R) (source : Source) (now : Nat) : ControllerSettings :=
  (controller.refreshSettings source now).current

variable {controller changed : Controller R} {source : Source} {now : Nat}

/-- A copy is up to date while it is young enough, and when it was read just now. -/
theorem upToDate_iff :
    controller.UpToDate source now ↔
      now - controller.settingsReadAt < controller.timings.settingsRefresh ∨
        controller.settings = source.settings controller.id ∧ controller.settingsReadAt = now := by
  unfold UpToDate refreshSettings
  split
  · next hyoung => exact ⟨fun _ ↦ .inl hyoung, fun _ ↦ rfl⟩
  · next hold =>
    constructor
    · intro hread
      exact .inr ⟨(congrArg settings hread).symm, (congrArg settingsReadAt hread).symm⟩
    · rintro (hyoung | ⟨hsettings, hreadAt⟩)
      · exact absurd hyoung hold
      · rw [readSettings, ← hsettings, ← hreadAt]

theorem UpToDate.congr (h : controller.UpToDate source now)
    (hcopy : changed.copy = controller.copy) : changed.UpToDate source now := by
  have hid : changed.id = controller.id := congrArg SettingsCopy.id hcopy
  have htimings : changed.timings = controller.timings := congrArg SettingsCopy.timings hcopy
  have hsettings : changed.settings = controller.settings := congrArg SettingsCopy.settings hcopy
  have hreadAt : changed.settingsReadAt = controller.settingsReadAt :=
    congrArg SettingsCopy.readAt hcopy
  rw [upToDate_iff, hid, htimings, hsettings, hreadAt, ← upToDate_iff]
  exact h

/-- A refresh of an up-to-date copy changes none of the settings. -/
theorem UpToDate.settings_eq (h : controller.UpToDate source now)
    (hcopy : changed.copy = controller.copy) :
    (changed.refreshSettings source now).settings = controller.settings := by
  have hsame : changed.refreshSettings source now = changed := h.congr hcopy
  rw [hsame]
  exact congrArg SettingsCopy.settings hcopy

theorem upToDate_refreshSettings (controller : Controller R) (source : Source) (now : Nat) :
    (controller.refreshSettings source now).UpToDate source now := by
  rw [upToDate_iff]
  by_cases hyoung : now - controller.settingsReadAt < controller.timings.settingsRefresh
  · rw [refreshSettings, if_pos hyoung]
    exact .inl hyoung
  · rw [refreshSettings, if_neg hyoung]
    exact .inr ⟨rfl, rfl⟩

/-- A refresh concerns nothing but the copy. -/
theorem refreshSettings_withLedger (controller : Controller R) (ledger : Ledger) (source : Source)
    (now : Nat) :
    refreshSettings { controller with ledger } source now =
      { controller.refreshSettings source now with ledger } := by
  unfold refreshSettings
  dsimp only
  split <;> rfl

@[simp] theorem copy_updateCategory (controller : Controller R) (position : Nat)
    (change : Category R → Totals R → Category R × Totals R) :
    (controller.updateCategory position change).copy = controller.copy := by
  unfold updateCategory
  split <;> rfl

@[simp] theorem index_updateCategory (controller : Controller R) (position : Nat)
    (change : Category R → Totals R → Category R × Totals R) :
    (controller.updateCategory position change).index = controller.index := by
  unfold updateCategory
  split <;> rfl

variable [Scalar R]

theorem copy_abandonAll (controller : Controller R) (settings : ControllerSettings) (now : Nat)
    (reclaimed : List Reclaimed) :
    (controller.abandonAll settings now reclaimed).copy = controller.copy := by
  induction reclaimed generalizing controller with
  | nil => rfl
  | cons first rest ih => exact (ih _).trans (copy_updateCategory ..)

theorem index_abandonAll (controller : Controller R) (settings : ControllerSettings) (now : Nat)
    (reclaimed : List Reclaimed) :
    (controller.abandonAll settings now reclaimed).index = controller.index := by
  induction reclaimed generalizing controller with
  | nil => rfl
  | cons first rest ih => exact (ih _).trans (index_updateCategory ..)

@[simp] theorem copy_countSubmission (controller : Controller R) (now position : Nat) :
    (controller.countSubmission now position).copy = controller.copy :=
  copy_updateCategory ..

@[simp] theorem copy_sweepIfDue (controller : Controller R) (settings : ControllerSettings)
    (now : Nat) : (controller.sweepIfDue settings now).controller.copy = controller.copy := by
  unfold sweepIfDue
  split
  · exact copy_abandonAll ..
  · rfl

theorem copy_answerAt (controller : Controller R) (source : Source) (settings : ControllerSettings)
    (now position : Nat) :
    (controller.answerAt source settings now position).controller.copy = controller.copy := by
  unfold answerAt
  split
  · rfl
  · dsimp only
    split <;> rfl

theorem index_answerAt (controller : Controller R) (source : Source) (settings : ControllerSettings)
    (now position : Nat) :
    (controller.answerAt source settings now position).controller.index = controller.index := by
  unfold answerAt
  split
  · rfl
  · dsimp only
    split <;> rfl

/-! ### Views -/

section Views

variable {view : Category R → α}

/-- What is to be seen of every category, in the order of their creation. -/
def views (view : Category R → α) (controller : Controller R) : Array α :=
  controller.categories.map view

omit [Scalar R] in
theorem size_views (view : Category R → α) (controller : Controller R) :
    (controller.views view).size = controller.categories.size :=
  Array.size_map

omit [Scalar R] in
theorem getElem?_views (view : Category R → α) {position : Nat} {category : Category R}
    (hcategory : controller.categories[position]? = some category) :
    (controller.views view)[position]? = some (view category) := by
  rw [views, Array.getElem?_map, hcategory, Option.map_some]

omit [Scalar R] in
theorem views_replace {position : Nat} {next : Category R}
    (hcategories : changed.categories = controller.categories.setIfInBounds position next) :
    changed.views view = (controller.views view).setIfInBounds position (view next) := by
  rw [views, views, hcategories, Array.map_setIfInBounds]

omit [Scalar R] in
/-- A category that is replaced by one that looks alike leaves the views as they are. -/
theorem views_replace_of_eq {position : Nat} {category next : Category R}
    (hcategory : controller.categories[position]? = some category)
    (hcategories : changed.categories = controller.categories.setIfInBounds position next)
    (hview : view next = view category) : changed.views view = controller.views view := by
  rw [views_replace hcategories, hview]
  have hplace := getElem?_views view hcategory
  obtain ⟨hlt, hget⟩ := Array.getElem?_eq_some_iff.mp hplace
  rw [Array.setIfInBounds_def, dif_pos hlt, ← hget, Array.set_getElem_self]

omit [Scalar R] in
theorem views_updateCategory (controller : Controller R) (position : Nat)
    {change : Category R → Totals R → Category R × Totals R}
    (h : ∀ category totals, view (change category totals).1 = view category) :
    (controller.updateCategory position change).views view = controller.views view := by
  unfold updateCategory
  split
  · rfl
  · next category hcategory =>
    exact views_replace_of_eq hcategory rfl (h category controller.totals)

omit [Scalar R] in
theorem views_refreshSettings (controller : Controller R) (source : Source) (now : Nat) :
    (controller.refreshSettings source now).views view = controller.views view := by
  rw [views, categories_refreshSettings, views]

variable {settings : ControllerSettings} {now : Nat}

theorem views_abandonAll (controller : Controller R) (reclaimed : List Reclaimed)
    (habandon : ∀ (category : Category R) (totals : Totals R) (grantedAt : Nat),
      view (category.abandon totals grantedAt now settings).1 = view category) :
    (controller.abandonAll settings now reclaimed).views view = controller.views view := by
  induction reclaimed generalizing controller with
  | nil => rfl
  | cons first rest ih =>
    exact (ih _).trans (controller.views_updateCategory _ fun category totals ↦
      habandon category totals _)

theorem views_sweepIfDue (controller : Controller R)
    (habandon : ∀ (category : Category R) (totals : Totals R) (grantedAt : Nat),
      view (category.abandon totals grantedAt now settings).1 = view category) :
    (controller.sweepIfDue settings now).controller.views view = controller.views view := by
  unfold sweepIfDue
  split
  · exact views_abandonAll _ _ habandon
  · rfl

end Views

/-! ### Names -/

/-- The names of the categories, in the order of their creation. -/
def names (controller : Controller R) : Array String := controller.categories.map (·.name)

omit [Scalar R] in
theorem size_names (controller : Controller R) :
    controller.names.size = controller.categories.size :=
  size_views ..

omit [Scalar R] in
theorem size_categories (h : changed.names = controller.names) :
    changed.categories.size = controller.categories.size := by
  rw [← size_names, h, size_names]

omit [Scalar R] in
/-- A category that is replaced by one of its name leaves the names as they are. -/
theorem names_replace {position : Nat} {category next : Category R}
    (hcategory : controller.categories[position]? = some category)
    (hcategories : changed.categories = controller.categories.setIfInBounds position next)
    (hname : next.name = category.name) : changed.names = controller.names :=
  views_replace_of_eq hcategory hcategories hname

omit [Scalar R] in
theorem names_updateCategory (controller : Controller R) (position : Nat)
    {change : Category R → Totals R → Category R × Totals R}
    (h : ∀ category totals, (change category totals).1.name = category.name) :
    (controller.updateCategory position change).names = controller.names :=
  controller.views_updateCategory position h

omit [Scalar R] in
@[simp] theorem names_refreshSettings (controller : Controller R) (source : Source) (now : Nat) :
    (controller.refreshSettings source now).names = controller.names :=
  views_refreshSettings ..

@[simp] theorem names_countSubmission (controller : Controller R) (now position : Nat) :
    (controller.countSubmission now position).names = controller.names :=
  names_updateCategory controller position fun _ _ ↦ rfl

theorem names_abandonAll (controller : Controller R) (settings : ControllerSettings) (now : Nat)
    (reclaimed : List Reclaimed) :
    (controller.abandonAll settings now reclaimed).names = controller.names :=
  controller.views_abandonAll reclaimed fun category totals _ ↦ category.name_abandon totals ..

@[simp] theorem names_sweepIfDue (controller : Controller R) (settings : ControllerSettings)
    (now : Nat) : (controller.sweepIfDue settings now).controller.names = controller.names :=
  controller.views_sweepIfDue fun category totals _ ↦ category.name_abandon totals ..

/-! ### Requests -/

/-- The controller when it is about to answer a request for the category at a position: the request
is counted, and lost leases are swept up if it is time. -/
def beforeAnswerAt (controller : Controller R) (source : Source) (now position : Nat) :
    Controller R :=
  let controller := controller.refreshSettings source now
  ((controller.countSubmission now position).sweepIfDue controller.current now).controller

theorem copy_beforeAnswerAt (controller : Controller R) (source : Source) (now position : Nat) :
    (controller.beforeAnswerAt source now position).copy =
      (controller.refreshSettings source now).copy :=
  (copy_sweepIfDue ..).trans (copy_countSubmission ..)

theorem names_beforeAnswerAt (controller : Controller R) (source : Source) (now position : Nat) :
    (controller.beforeAnswerAt source now position).names = controller.names := by
  rw [beforeAnswerAt, names_sweepIfDue, names_countSubmission, names_refreshSettings]

theorem current_beforeAnswerAt (controller : Controller R) (source : Source) (now position : Nat) :
    (controller.beforeAnswerAt source now position).current = controller.settingsAt source now :=
  congrArg (fun copy : SettingsCopy ↦ copy.settings.settings) (copy_beforeAnswerAt ..)

theorem upToDate_beforeAnswerAt (controller : Controller R) (source : Source) (now position : Nat) :
    (controller.beforeAnswerAt source now position).UpToDate source now :=
  (upToDate_refreshSettings controller source now).congr (copy_beforeAnswerAt ..)

theorem controller_requestAt (controller : Controller R) (source : Source) (now position : Nat) :
    (controller.requestAt source now position).controller =
      ((controller.beforeAnswerAt source now position).answerAt source
        (controller.settingsAt source now) now position).controller := by
  simp only [requestAt, beforeAnswerAt, settingsAt]

theorem answer_requestAt (controller : Controller R) (source : Source) (now position : Nat) :
    (controller.requestAt source now position).answer =
      ((controller.beforeAnswerAt source now position).answerAt source
        (controller.settingsAt source now) now position).answer := by
  simp only [requestAt, beforeAnswerAt, settingsAt]

/-- The settings that a move answers a request with, if it makes one. -/
def asked (controller : Controller R) (move : Move) : Option ControllerSettings :=
  match move.operation with
  | .requestAt position =>
    if position < controller.categories.size then
      some (controller.settingsAt move.source move.now)
    else none
  | .request name =>
    some ((controller.getCategory move.source move.now name).1.settingsAt move.source move.now)
  | _ => none

/-- The settings that the requests among some moves are answered with. -/
def admissions (controller : Controller R) : List Move → List ControllerSettings
  | [] => []
  | move :: rest => (controller.asked move).toList ++ (controller.perform move).admissions rest

/-! ### Advances -/

/-- One advance in the course of a move that may answer a request with certain settings. -/
inductive Advances (source : Source) (now : Nat) (asked : Option ControllerSettings) :
    Controller R → Controller R → Prop
  | read (controller : Controller R) :
    Advances source now asked controller (controller.readSettings source now)
  | create {controller : Controller R} (hfresh : controller.UpToDate source now) {name : String}
    (hnew : controller.position? name = none) :
    Advances source now asked controller
      ((controller.addCategory name (controller.baseWeight source name) now).1.enterName name
        controller.categories.size)
  | count {controller : Controller R} (hfresh : controller.UpToDate source now) (position : Nat) :
    Advances source now asked controller (controller.countSubmission now position)
  | sweep {controller : Controller R} (hfresh : controller.UpToDate source now) :
    Advances source now asked controller (controller.sweep controller.current now).controller
  | answer {controller : Controller R} (hfresh : controller.UpToDate source now)
    (hasked : asked = some controller.current) (position : Nat) :
    Advances source now asked controller
      (controller.answerAt source controller.current now position).controller
  | finish {controller : Controller R} (hfresh : controller.UpToDate source now) {lease : Lease}
    (hgranted : lease ∈ controller.ledger.granted)
    (hactive : controller.ledger.phase? lease.number = some .active) :
    Advances source now asked controller
      (settle { controller with ledger := controller.ledger.setPhase lease.number .released }
        controller.current now lease)
  | mark {controller : Controller R} {ledger : Ledger}
    (hleads : Activity.LeadsTo controller { controller with ledger })
    (hlist : ledger.outstanding = controller.ledger.outstanding) :
    Advances source now asked controller { controller with ledger }

variable {asked : Option ControllerSettings}

/-- What every advance keeps, every row of advances keeps. -/
theorem Advances.keep {motive : Controller R → Prop}
    (hstep : ∀ {before after : Controller R},
      Advances source now asked before after → motive before → motive after)
    (hchain : ReflTransGen (Advances source now asked) controller changed)
    (h : motive controller) : motive changed := by
  induction hchain with
  | refl => exact h
  | tail _ hlast ih => exact hstep hlast ih

/-- Every advance is a run of events. -/
theorem Advances.leadsTo (h : Advances source now asked controller changed) :
    Activity.LeadsTo controller changed := by
  cases h with
  | read => exact .of_step (.readSettings source now) fun _ ↦ rfl
  | @create hfresh name hnew =>
    have hcreate := Activity.LeadsTo.getCategory controller source now name
    rw [getCategory, hnew, createCategory, hnew, show controller.refreshSettings source now =
      controller from hfresh] at hcreate
    exact hcreate
  | count hfresh position => exact .count controller now position
  | sweep hfresh => exact .sweep controller controller.current now
  | answer hfresh hasked position =>
    exact .answerAt controller source controller.current now position
  | @finish hfresh lease hgranted hactive =>
    have hrelease := Activity.LeadsTo.release controller source now hgranted
    rw [release, controller.ledger.exchange_of_phase? hactive] at hrelease
    dsimp only [Controller.finish] at hrelease
    -- A release refreshes the copy after it has changed the phase; here the copy is up to date.
    rw [refreshSettings_withLedger, show controller.refreshSettings source now =
      controller from hfresh] at hrelease
    exact hrelease
  | mark hleads hlist => exact hleads

/-- An advance that reads the settings does nothing else, and no other advance touches the copy. -/
theorem Advances.copy_cases (h : Advances source now asked controller changed) :
    changed = controller.readSettings source now ∨ changed.copy = controller.copy := by
  cases h with
  | read => exact .inl rfl
  | create hfresh hnew => exact .inr rfl
  | count hfresh position => exact .inr (copy_countSubmission ..)
  | sweep hfresh => exact .inr (copy_abandonAll ..)
  | answer hfresh hasked position => exact .inr (copy_answerAt ..)
  | finish hfresh hgranted hactive => exact .inr (copy_updateCategory ..)
  | mark hleads hlist => exact .inr rfl

theorem Advances.id_eq (h : Advances source now asked controller changed) :
    changed.id = controller.id := by
  rcases h.copy_cases with rfl | hcopy
  · rfl
  · exact congrArg SettingsCopy.id hcopy

theorem Advances.timings_eq (h : Advances source now asked controller changed) :
    changed.timings = controller.timings := by
  rcases h.copy_cases with rfl | hcopy
  · rfl
  · exact congrArg SettingsCopy.timings hcopy

theorem advances_refreshSettings (controller : Controller R) (source : Source) (now : Nat) :
    ReflTransGen (Advances source now asked) controller
      (controller.refreshSettings source now) := by
  unfold refreshSettings
  split
  · exact .refl
  · exact .single (.read controller)

theorem advances_getCategory (controller : Controller R) (source : Source) (now : Nat)
    (name : String) :
    ReflTransGen (Advances source now asked) controller
      (controller.getCategory source now name).1 := by
  unfold getCategory
  split
  · exact .refl
  · next hnew =>
    rw [createCategory, hnew]
    refine (advances_refreshSettings controller source now).tail
      (.create (upToDate_refreshSettings controller source now) ?_)
    rw [position?, index_refreshSettings]
    exact hnew

/-- Up to its answer a request reads the settings, counts and sweeps. -/
theorem advances_beforeAnswerAt (controller : Controller R) (source : Source) (now position : Nat) :
    ReflTransGen (Advances source now asked) controller
      (controller.beforeAnswerAt source now position) := by
  have hfresh := upToDate_refreshSettings controller source now
  have hcount : ReflTransGen (Advances source now asked) controller
      ((controller.refreshSettings source now).countSubmission now position) :=
    (advances_refreshSettings controller source now).tail (.count hfresh position)
  have hcopy := copy_countSubmission (controller.refreshSettings source now) now position
  have hcurrent : ((controller.refreshSettings source now).countSubmission now position).current =
      (controller.refreshSettings source now).current :=
    congrArg (fun copy : SettingsCopy ↦ copy.settings.settings) hcopy
  unfold beforeAnswerAt sweepIfDue
  dsimp only
  split
  · rw [← hcurrent]
    exact hcount.tail (.sweep (hfresh.congr hcopy))
  · exact hcount

theorem advances_requestAt (controller : Controller R) (source : Source) (now position : Nat)
    (hasked : position < controller.categories.size →
      asked = some (controller.settingsAt source now)) :
    ReflTransGen (Advances source now asked) controller
      (controller.requestAt source now position).controller := by
  have hbefore : ReflTransGen (Advances source now asked) controller
      (controller.beforeAnswerAt source now position) :=
    controller.advances_beforeAnswerAt source now position
  have hcurrent := controller.current_beforeAnswerAt source now position
  rw [controller_requestAt, ← hcurrent]
  by_cases hposition : position < controller.categories.size
  · refine hbefore.tail
      (.answer (controller.upToDate_beforeAnswerAt source now position) ?_ position)
    rw [hcurrent]
    exact hasked hposition
  · have hsize := size_categories (controller.names_beforeAnswerAt source now position)
    have hnone : (controller.beforeAnswerAt source now position).categories[position]? = none := by
      rw [Array.getElem?_eq_none_iff, hsize]
      exact Nat.le_of_not_lt hposition
    rw [answerAt, hnone]
    exact hbefore

/-- What is done with a lease is a row of advances if it is so for every lease granted. -/
theorem advances_onLease (controller : Controller R) (number : Nat) {action : Lease → Controller R}
    (h : ∀ lease ∈ controller.ledger.granted,
      ReflTransGen (Advances source now asked) controller (action lease)) :
    ReflTransGen (Advances source now asked) controller (controller.onLease number action) := by
  unfold onLease
  split
  · exact .refl
  · next lease hlease => exact h lease (controller.ledger.mem_granted_of_lease? hlease)

theorem advances_release (controller : Controller R) (source : Source) (now : Nat) {lease : Lease}
    (hgranted : lease ∈ controller.ledger.granted) :
    ReflTransGen (Advances source now asked) controller
      (controller.release source now lease).controller := by
  have hrelease := Activity.LeadsTo.release controller source now hgranted
  unfold release at hrelease ⊢
  dsimp only at hrelease ⊢
  split
  · next ledger hexchange =>
    obtain ⟨hactive, rfl⟩ := controller.ledger.exchange_eq_some_iff.mp hexchange
    have hledger := controller.ledger_refreshSettings source now
    dsimp only [Controller.finish]
    rw [refreshSettings_withLedger, ← hledger]
    refine (advances_refreshSettings controller source now).tail
      (.finish (upToDate_refreshSettings controller source now) ?_ ?_)
    · rw [hledger]
      exact hgranted
    · rw [hledger]
      exact hactive
  · next hactive =>
    rw [hactive] at hrelease
    dsimp only at hrelease
    split
    · next ledger hexchange =>
      rw [hexchange] at hrelease
      obtain ⟨-, rfl⟩ := controller.ledger.exchange_eq_some_iff.mp hexchange
      exact .single (.mark hrelease rfl)
    · exact .refl

theorem advances_drop (controller : Controller R) {source : Source} {now : Nat} {lease : Lease}
    (hgranted : lease ∈ controller.ledger.granted) :
    ReflTransGen (Advances source now asked) controller (controller.drop lease).controller := by
  have hdrop := Activity.LeadsTo.drop controller hgranted
  unfold drop at hdrop ⊢
  split
  · next ledger hexchange =>
    rw [hexchange] at hdrop
    obtain ⟨-, rfl⟩ := controller.ledger.exchange_eq_some_iff.mp hexchange
    exact .single (.mark hdrop rfl)
  · exact .refl

/-- Every move is a row of advances. -/
theorem advances_perform (controller : Controller R) (move : Move) :
    ReflTransGen (Advances move.source move.now (controller.asked move)) controller
      (controller.perform move) := by
  rcases move with ⟨operation, source, now⟩
  cases operation with
  | lookUp name => exact advances_getCategory controller source now name
  | requestAt position =>
    exact advances_requestAt controller source now position fun hposition ↦ if_pos hposition
  | request name =>
    exact (advances_getCategory controller source now name).trans
      (advances_requestAt _ source now _ fun _ ↦ rfl)
  | release number =>
    exact advances_onLease controller number fun lease hgranted ↦
      advances_release controller source now hgranted
  | drop number =>
    exact advances_onLease controller number fun lease hgranted ↦ advances_drop controller hgranted
  | forget number => exact .refl
  | heartbeat number =>
    exact advances_onLease controller number fun lease _ ↦
      .single (.mark (.of_step (.touch lease.number now) fun _ ↦ rfl) rfl)
  | supervise number =>
    exact advances_onLease controller number fun lease _ ↦
      .single (.mark (.of_step (.supervise lease.number) fun _ ↦ rfl) rfl)
  | reconcile =>
    exact (advances_refreshSettings controller source now).tail
      (.sweep (upToDate_refreshSettings controller source now))
  | refresh => exact advances_refreshSettings controller source now
  | readSettings => exact .single (.read controller)

/-- What every advance keeps under sources and settings of some kind, every run keeps. -/
theorem run_keeps {motive : Controller R → Prop} (served : Source → Prop)
    (admitted : ControllerSettings → Prop)
    (hstep : ∀ {source : Source} {now : Nat} {asked : Option ControllerSettings}
      {before after : Controller R}, served source → (∀ settings ∈ asked, admitted settings) →
        Advances source now asked before after → motive before → motive after)
    {moves : List Move} (hserved : ∀ move ∈ moves, served move.source)
    (hadmitted : ∀ settings ∈ controller.admissions moves, admitted settings)
    (h : motive controller) : motive (controller.run moves) := by
  induction moves generalizing controller with
  | nil => exact h
  | cons move rest ih =>
    have hfirst : served move.source := hserved move List.mem_cons_self
    have hasked : ∀ settings ∈ controller.asked move, admitted settings := fun settings hmem ↦
      hadmitted settings (List.mem_append_left _ (Option.mem_toList.mpr hmem))
    refine ih (fun other hmem ↦ hserved other (List.mem_cons_of_mem _ hmem))
      (fun settings hmem ↦ hadmitted settings (List.mem_append_right _ hmem)) ?_
    exact Advances.keep (fun hadvance ↦ hstep hfirst hasked hadvance)
      (controller.advances_perform move) h

end Controller

end Admission
