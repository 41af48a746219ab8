import Admission.Proofs.Advance
import Admission.Proofs.Alteration
import Admission.Proofs.Lifetime

/-!
# What lasts of a category

A property of categories lasts if a category has it from its creation on and no operation on the
category ends it. `Category.Lasting` lists the operations, and `Advances.forall_categories` says
that every category of a controller keeps a lasting property whatever is asked of the controller,
and `forall_categories_step` says so of every event while many parties are at work.

Properties of the weight of a category, and of what it is computed from, are of a simpler kind: of
all the operations two matter, since the others leave the `Weighing` alone
(`Category.Lasting.of_weighing`).

The names of the categories last as well, and so does their entry in the index
(`Controller.Indexed`).
-/

set_option autoImplicit false
set_option relaxedAutoImplicit false

namespace Admission

open Ledger (Reclaimed)
open Relation (ReflTransGen)

variable {R : Type}

/-- What a category weighs, and what its weight is computed from. -/
structure Weighing (R : Type) where
  name : String
  baseWeight : Nat
  weightCheckedAt : Nat
  adjustedWeight : R
  speedFactor : R
  popularityFactor : R

namespace Category

/-- The side of a category that its weight belongs to. -/
def weighing (category : Category R) : Weighing R where
  name := category.name
  baseWeight := category.baseWeight
  weightCheckedAt := category.weightCheckedAt
  adjustedWeight := category.adjustedWeight
  speedFactor := category.speedFactor
  popularityFactor := category.popularityFactor

variable [Scalar R]

/-- A property that a category has from its creation on, whatever is done to it at a time under some
settings, with `weight` giving the base weights to set. -/
structure Lasting (motive : Category R → Prop) (now : Nat) (settings : ControllerSettings)
    (weight : String → Nat) : Prop where
  fresh : ∀ name, motive (.fresh name (weight name) now)
  recordSubmission : ∀ (category : Category R) (totals : Totals R) (width : Nat),
    motive category → motive (category.recordSubmission totals now width).1
  decide : ∀ (category : Category R) (totals : Totals R) (timings : Timings),
    motive category →
      motive (category.decide totals now (weight category.name) timings settings).category
  grant : ∀ (category : Category R) (totals : Totals R),
    motive category → motive (category.grant totals now).1
  reject : ∀ category : Category R, motive category → motive category.reject
  finish : ∀ (category : Category R) (totals : Totals R) (grantedAt : Nat),
    motive category → motive (category.finish totals grantedAt now settings).1
  abandon : ∀ (category : Category R) (totals : Totals R) (grantedAt : Nat),
    motive category → motive (category.abandon totals grantedAt now settings).1

theorem weighing_deactivateOne (category : Category R) (totals : Totals R) (grantedAt : Nat) :
    (category.deactivateOne totals grantedAt).1.weighing = category.weighing :=
  category.view_deactivateOne weighing (fun _ _ _ ↦ rfl) totals grantedAt

omit [Scalar R] in
theorem weighing_samplePeak (category : Category R) (now interval : Nat) :
    (category.samplePeak now interval).1.weighing = category.weighing :=
  category.view_samplePeak weighing (fun _ _ _ ↦ rfl) now interval

theorem weighing_decide (category : Category R) (totals : Totals R) (now weight : Nat)
    (timings : Timings) (settings : ControllerSettings) :
    (category.decide totals now weight timings settings).category.weighing =
      (category.refreshWeight totals now weight timings settings).1.weighing :=
  weighing_samplePeak ..

theorem name_decide (category : Category R) (totals : Totals R) (now weight : Nat)
    (timings : Timings) (settings : ControllerSettings) :
    (category.decide totals now weight timings settings).category.name = category.name := by
  refine (congrArg Weighing.name (category.weighing_decide ..)).trans ?_
  unfold refreshWeight
  split <;> rfl

/-- A property of the weighing lasts if computing the weight anew keeps it, with the base weight set
or not. -/
theorem Lasting.of_weighing {motive : Weighing R → Prop} {now : Nat}
    {settings : ControllerSettings} {weight : String → Nat}
    (hfresh : ∀ name, motive (Category.fresh name (weight name) now : Category R).weighing)
    (hweigh : ∀ (category : Category R) (totals : Totals R), motive category.weighing →
      motive (category.recomputeWeight totals now settings).1.weighing)
    (hset : ∀ (category : Category R) (totals : Totals R), motive category.weighing →
      motive ((category.setBaseWeight (weight category.name) now).recomputeWeight totals now
        settings).1.weighing) :
    Lasting (fun category ↦ motive category.weighing) now settings weight where
  fresh := hfresh
  recordSubmission category totals width h := h
  decide category totals timings h := by
    rw [weighing_decide]
    unfold refreshWeight
    split
    · exact hset category totals h
    · exact hweigh category totals h
  grant category totals h := h
  reject category h := h
  finish category totals grantedAt h := by
    let recorded := { category with durations := category.durations.push (now - grantedAt) }
    refine hweigh (recorded.deactivateOne totals grantedAt).1
      (recorded.deactivateOne totals grantedAt).2 ?_
    rw [weighing_deactivateOne]
    exact h
  abandon category totals grantedAt h := by
    let counted := { category with abandoned := category.abandoned + 1 }
    refine hweigh (counted.deactivateOne totals grantedAt).1
      (counted.deactivateOne totals grantedAt).2 ?_
    rw [weighing_deactivateOne]
    exact h

end Category

namespace Controller

variable {controller changed : Controller R} {source : Source} {now : Nat}
  {asked : Option ControllerSettings} {motive : Category R → Prop}

/-- After a replacement a category is the new one, or one that was there at another position. -/
theorem mem_replace {position : Nat} {category next : Category R}
    (hcategories : changed.categories = controller.categories.setIfInBounds position next)
    (hmem : category ∈ changed.categories) :
    category = next ∨ ∃ place ≠ position, controller.categories[place]? = some category := by
  rw [hcategories] at hmem
  obtain ⟨place, hplace⟩ := Array.mem_iff_getElem?.mp hmem
  rw [Array.getElem?_setIfInBounds] at hplace
  by_cases hposition : position = place
  · rw [if_pos hposition] at hplace
    split at hplace
    · exact .inl (Option.some.inj hplace).symm
    · cases hplace
  · rw [if_neg hposition] at hplace
    exact .inr ⟨place, Ne.symm hposition, hplace⟩

theorem forall_replace (h : ∀ category ∈ controller.categories, motive category)
    {position : Nat} {next : Category R} (hnext : motive next)
    (hcategories : changed.categories = controller.categories.setIfInBounds position next) :
    ∀ category ∈ changed.categories, motive category := by
  intro category hmem
  rcases mem_replace hcategories hmem with rfl | ⟨place, -, hplace⟩
  · exact hnext
  · exact h category (Array.mem_of_getElem? hplace)

theorem forall_updateCategory (h : ∀ category ∈ controller.categories, motive category)
    (position : Nat) {change : Category R → Totals R → Category R × Totals R}
    (hchange : ∀ category totals, motive category → motive (change category totals).1) :
    ∀ category ∈ (controller.updateCategory position change).categories, motive category := by
  unfold updateCategory
  split
  · exact h
  · next category hcategory =>
    exact forall_replace h
      (hchange category controller.totals (h category (Array.mem_of_getElem? hcategory))) rfl

variable [Scalar R]

theorem forall_abandonAll {settings : ControllerSettings} (reclaimed : List Reclaimed)
    (habandon : ∀ (category : Category R) (totals : Totals R) (grantedAt : Nat),
      motive category → motive (category.abandon totals grantedAt now settings).1)
    (h : ∀ category ∈ controller.categories, motive category) :
    ∀ category ∈ (controller.abandonAll settings now reclaimed).categories, motive category := by
  induction reclaimed generalizing controller with
  | nil => exact h
  | cons first rest ih =>
    exact ih (forall_updateCategory h first.lease.category fun category totals ↦
      habandon category totals first.lease.grantedAt)

theorem forall_getCategory (name : String)
    (hfresh : ∀ weight, motive (.fresh name weight now))
    (h : ∀ category ∈ controller.categories, motive category) :
    ∀ category ∈ (controller.getCategory source now name).1.categories, motive category := by
  unfold getCategory
  split
  · exact h
  · unfold createCategory
    split
    · exact h
    · rw [← categories_refreshSettings controller source now] at h
      intro category hmem
      rcases Array.mem_push.mp hmem with hmem | rfl
      · exact h category hmem
      · exact hfresh _

theorem forall_answerAt {settings : ControllerSettings} (position : Nat)
    (hlasting : Category.Lasting motive now settings (source.baseWeight controller.id settings))
    (h : ∀ category ∈ controller.categories, motive category) :
    ∀ category ∈ (controller.answerAt source settings now position).controller.categories,
      motive category := by
  have hdecide : ∀ category : Category R, controller.categories[position]? = some category →
      motive (controller.decideFor source settings now category).category :=
    fun category hcategory ↦ hlasting.decide category controller.totals controller.timings
      (h category (Array.mem_of_getElem? hcategory))
  rcases controller.answerAt_cases source settings now position with
    ⟨category, hcategory, hafter, -⟩ | ⟨-, -, -, -, hafter | ⟨category, hcategory, hafter⟩⟩
  · rw [hafter]
    exact forall_replace h (hlasting.grant _
      (controller.decideFor source settings now category).totals (hdecide category hcategory)) rfl
  · rw [hafter]
    exact h
  · rw [hafter]
    exact forall_replace h (hlasting.reject _ (hdecide category hcategory)) rfl

/-- An advance leaves a lasting property to every category; the settings it works with are up to
date. -/
theorem Advances.forall_categories (hadvance : Advances source now asked controller changed)
    (hlasting : controller.UpToDate source now →
      Category.Lasting motive now controller.current (controller.baseWeight source))
    (h : ∀ category ∈ controller.categories, motive category) :
    ∀ category ∈ changed.categories, motive category := by
  cases hadvance with
  | read => exact h
  | @create hfresh name hnew =>
    intro category hmem
    rcases Array.mem_push.mp hmem with hmem | rfl
    · exact h category hmem
    · exact (hlasting hfresh).fresh name
  | count hfresh position =>
    exact forall_updateCategory h position fun category totals ↦
      (hlasting hfresh).recordSubmission category totals controller.timings.popularityWindow
  | sweep hfresh => exact forall_abandonAll _ (hlasting hfresh).abandon h
  | answer hfresh hasked position => exact forall_answerAt position (hlasting hfresh) h
  | @finish hfresh lease hgranted hactive =>
    apply forall_updateCategory
    · exact h
    · exact fun category totals ↦ (hlasting hfresh).finish category totals lease.grantedAt
  | mark hleads hlist => exact h

/-- What lasts under all settings and base weights outlasts every event. -/
theorem forall_categories_step {activity next : Activity R} {event : Activity.Event}
    (hlasting : ∀ now settings weight, Category.Lasting motive now settings weight)
    (hstep : activity.step event = some next)
    (h : ∀ category ∈ activity.controller.categories, motive category) :
    ∀ category ∈ next.controller.categories, motive category := by
  rw [(Activity.dealt_step hstep).categories]
  cases activity.dealing event with
  | nothing => exact h
  | lookUp source now name =>
    exact forall_getCategory name (fun weight ↦ (hlasting now {} fun _ ↦ weight).fresh name) h
  | count now position =>
    exact forall_updateCategory h position fun category totals ↦
      (hlasting now {} fun _ ↦ 0).recordSubmission category totals _
  | answer source settings now position =>
    exact forall_answerAt position (hlasting now settings _) h
  | finish settings now lease =>
    apply forall_updateCategory
    · exact h
    · exact fun category totals ↦
        (hlasting now settings fun _ ↦ 0).finish category totals lease.grantedAt
  | lose settings now reclaimed =>
    exact forall_updateCategory h reclaimed.lease.category fun category totals ↦
      (hlasting now settings fun _ ↦ 0).abandon category totals reclaimed.lease.grantedAt

/-! ### Names -/

/-- The index leads from every name to the position of its category, and to nothing else. -/
def Indexed (controller : Controller R) : Prop :=
  ∀ (name : String) (position : Nat),
    controller.position? name = some position ↔ controller.names[position]? = some name

omit [Scalar R] in
theorem getElem?_names {position : Nat} {category : Category R}
    (hcategory : controller.categories[position]? = some category) :
    controller.names[position]? = some category.name :=
  getElem?_views _ hcategory

omit [Scalar R] in
theorem exists_category_of_name {position : Nat} {name : String}
    (hname : controller.names[position]? = some name) :
    ∃ category, controller.categories[position]? = some category ∧ category.name = name := by
  rw [names, Array.getElem?_map, Option.map_eq_some_iff] at hname
  exact hname

omit [Scalar R] in
theorem Indexed.position?_name (h : controller.Indexed) {position : Nat} {category : Category R}
    (hcategory : controller.categories[position]? = some category) :
    controller.position? category.name = some position :=
  (h category.name position).mpr (getElem?_names hcategory)

omit [Scalar R] in
theorem Indexed.congr (h : controller.Indexed) (hnames : changed.names = controller.names)
    (hindex : changed.index = controller.index) : changed.Indexed := by
  intro name position
  rw [position?, hindex, hnames]
  exact h name position

theorem indexed_build (id : String) (timings : Timings) (source : Source) (now : Nat) :
    (build id timings source now : Controller R).Indexed := by
  intro name position
  simp [build, position?, names]

theorem names_create (controller : Controller R) (name : String) (weight now position : Nat) :
    ((controller.addCategory name weight now).1.enterName name position).names =
      controller.names.push name := by
  rw [names, enterName, addCategory, Array.map_push]
  rfl

/-- A new name is found first, at the last position, and no other name is. -/
theorem Indexed.create (h : controller.Indexed) {name : String}
    (hnew : controller.position? name = none) (weight now : Nat) :
    ((controller.addCategory name weight now).1.enterName name
      controller.categories.size).Indexed := by
  intro other position
  have hfind : ((controller.addCategory name weight now).1.enterName name
      controller.categories.size).position? other =
        if name = other then some controller.categories.size else controller.position? other := by
    simp only [position?, enterName, addCategory, List.find?_cons]
    by_cases hname : name = other
    · simp [hname]
    · simp [hname]
  rw [names_create, hfind, ← size_names]
  -- At the last position only the new name is found, and at every other one a name found before.
  by_cases hlast : position = controller.names.size
  · subst hlast
    rw [Array.getElem?_push_size, Option.some_inj]
    by_cases hname : name = other
    · simp [hname]
    · rw [if_neg hname, h, Array.getElem?_eq_none le_rfl]
      simp [hname]
  · rw [Array.getElem?_push, if_neg hlast, ← h]
    by_cases hname : name = other
    · subst hname
      rw [if_pos rfl, hnew]
      simp [Ne.symm hlast]
    · rw [if_neg hname]

theorem names_answerAt (controller : Controller R) (source : Source) (settings : ControllerSettings)
    (now position : Nat) :
    (controller.answerAt source settings now position).controller.names = controller.names := by
  have hdecide : ∀ category : Category R,
      (controller.decideFor source settings now category).category.name = category.name :=
    fun category ↦ category.name_decide ..
  rcases controller.answerAt_cases source settings now position with
    ⟨category, hcategory, hafter, -⟩ | ⟨-, -, -, -, hafter | ⟨category, hcategory, hafter⟩⟩
  · rw [hafter]
    exact names_replace hcategory rfl (hdecide category)
  · rw [hafter]
  · rw [hafter]
    exact names_replace hcategory rfl (hdecide category)

/-- Looking up a name leads to its category. -/
theorem Indexed.names_getCategory (h : controller.Indexed) (source : Source) (now : Nat)
    (name : String) :
    (controller.getCategory source now name).1.names[(controller.getCategory source now name).2]? =
      some name := by
  rcases hfound : controller.position? name with _ | position
  · rw [getCategory, hfound]
    dsimp only
    rw [createCategory, hfound]
    dsimp only
    have hlast : ((controller.refreshSettings source now).addCategory name
        ((controller.refreshSettings source now).baseWeight source name) now).2 =
          (controller.refreshSettings source now).names.size :=
      (size_names _).symm
    rw [names_create, hlast, Array.getElem?_push_size]
  · rw [getCategory, hfound]
    exact (h name position).mp hfound

theorem Indexed.advances (h : controller.Indexed)
    (hadvance : Advances source now asked controller changed) : changed.Indexed := by
  cases hadvance with
  | read => exact h
  | create hfresh hnew => exact h.create hnew _ now
  | count hfresh position => exact h.congr (names_countSubmission ..) (index_updateCategory ..)
  | sweep hfresh => exact h.congr (names_abandonAll ..) (index_abandonAll ..)
  | answer hfresh hasked position => exact h.congr (names_answerAt ..) (index_answerAt ..)
  | @finish hfresh lease hgranted hactive =>
    exact h.congr (names_updateCategory _ _ fun category totals ↦ category.name_finish totals ..)
      (index_updateCategory ..)
  | mark hleads hlist => exact h

end Controller

end Admission
