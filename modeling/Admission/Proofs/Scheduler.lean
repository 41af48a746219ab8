import Admission.Proofs.Shares
import Mathlib.Algebra.BigOperators.Ring.Finset
import Mathlib.Data.Finset.Dedup
import Mathlib.Data.Multiset.Count

/-!
# A scheduler without a history

With the speed and the popularity left out of the weights, and under settings that stay the same, a
controller decides in exact arithmetic like a `Scheduler` that knows nothing of the past: of every
category it knows how many leases are held now, and its base weight. Two controllers that hold the
same leases therefore answer alike, whatever brought them there (`Occasion.follows_scheduler`).

The controller does not add up the weights of the categories that hold leases but keeps their sum,
and a category without leases may have a weight in its record that is out of date. That neither
shows is because the sum is right (`Controller.Summed`) and because a category is weighed again
before it is compared with the others.
-/

set_option autoImplicit false
set_option relaxedAutoImplicit false

namespace Admission

/-! ### The scheduler -/

/-- The leases that are held, each by the name of its category, and the base weights. -/
structure Scheduler where
  held : Multiset String
  weight : String → Nat

namespace Scheduler

/-- Those who share the ceiling when a name asks: all who hold leases, and the name itself. -/
def competitors (scheduler : Scheduler) (name : String) : Finset String :=
  insert name scheduler.held.toFinset

/-- The part of the ceiling that a name gets by its weight, rounded, but at least one. -/
def limit (scheduler : Scheduler) (threshold : Nat) (name : String) : Nat :=
  let all := ∑ competitor ∈ scheduler.competitors name, scheduler.weight competitor
  if all = 0 then 1
  else max 1 (round ((threshold : Rat) * scheduler.weight name / all)).toNat

/-- The answer to a request. -/
def answer (scheduler : Scheduler) (settings : ControllerSettings) (name : String) :
    Except AdmissionError Unit :=
  let active := scheduler.held.count name
  let limit := scheduler.limit settings.threshold name
  if settings.enabled = false ∨ active < limit ∨
      settings.shareUnused = true ∧ scheduler.held.card < settings.threshold then
    .ok ()
  else .error (.rejected name active limit)

/-- The answer goes by the weights of the competitors alone. -/
theorem answer_congr {scheduler other : Scheduler} (settings : ControllerSettings) {name : String}
    (hheld : other.held = scheduler.held)
    (hweight : ∀ competitor ∈ scheduler.competitors name,
      other.weight competitor = scheduler.weight competitor) :
    other.answer settings name = scheduler.answer settings name := by
  have hcompetitors : other.competitors name = scheduler.competitors name := by
    rw [competitors, hheld, competitors]
  have hall : ∑ competitor ∈ other.competitors name, other.weight competitor =
      ∑ competitor ∈ scheduler.competitors name, scheduler.weight competitor := by
    rw [hcompetitors]
    exact Finset.sum_congr rfl hweight
  have hname : other.weight name = scheduler.weight name :=
    hweight name (Finset.mem_insert_self ..)
  have hlimit : other.limit settings.threshold name = scheduler.limit settings.threshold name := by
    simp only [limit, hall, hname]
  simp only [answer, hlimit, hheld]

end Scheduler

namespace Controller

/-! ### What a scheduler sees of a controller -/

section

variable {R : Type} (controller : Controller R)

/-- The leases that are held, each by the name of its category. -/
def held : Multiset String :=
  controller.ledger.outstanding.map fun lease ↦ controller.categoryName lease.category

/-- The base weight in the record of a category. -/
def weightOf (name : String) : Nat :=
  match (controller.position? name).bind (controller.categories[·]?) with
  | none => 0
  | some category => category.baseWeight

/-- The controller as a scheduler sees it. -/
def scheduler : Scheduler := ⟨controller.held, controller.weightOf⟩

end

variable {R : Type} {controller changed : Controller R} {position : Nat} {category : Category R}

theorem weightOf_name (h : controller.Indexed)
    (hcategory : controller.categories[position]? = some category) :
    controller.weightOf category.name = category.baseWeight := by
  rw [weightOf, h.position?_name hcategory, Option.bind_some, hcategory]

theorem categoryName_eq (hcategory : controller.categories[position]? = some category) :
    controller.categoryName position = category.name := by
  rw [categoryName, hcategory]

/-- No two categories have one name. -/
theorem Indexed.nodup_names (h : controller.Indexed) :
    (controller.categories.toList.map (·.name)).Nodup := by
  rw [List.nodup_iff_getElem?_ne_getElem?]
  intro first second hlt hlength hsame
  rw [List.getElem?_map, List.getElem?_map, Array.getElem?_toList, Array.getElem?_toList] at hsame
  rw [List.length_map, Array.length_toList] at hlength
  rw [Array.getElem?_eq_getElem hlength, Array.getElem?_eq_getElem (hlt.trans hlength)] at hsame
  have hname : controller.categories[first].name = controller.categories[second].name :=
    Option.some.inj hsame
  have hfirst := h.position?_name (Array.getElem?_eq_getElem (hlt.trans hlength))
  have hsecond := h.position?_name (Array.getElem?_eq_getElem hlength)
  rw [hname, hsecond] at hfirst
  exact absurd (Option.some.inj hfirst) (Nat.ne_of_gt hlt)

/-- A category is active for the scheduler as often as it holds leases. -/
theorem count_held (horder : controller.InOrder) (hindexed : controller.Indexed)
    (hcategory : controller.categories[position]? = some category) :
    controller.held.count category.name = category.active := by
  rw [horder.accounted.active position category hcategory, held, Multiset.coe_count,
    List.count_eq_countP, List.countP_map]
  refine List.countP_congr fun lease hmem ↦ ?_
  obtain ⟨settled, hsound⟩ := horder
  have hlt : lease.category < controller.categories.size := hsound.balanced.held_lt lease hmem
  obtain ⟨other, hother⟩ : ∃ other, controller.categories[lease.category]? = some other :=
    ⟨_, Array.getElem?_eq_getElem hlt⟩
  simp only [Function.comp_apply, beq_iff_eq, decide_eq_true_eq, categoryName_eq hother]
  constructor
  · intro hname
    have hfound := hindexed.position?_name hother
    rw [hname, hindexed.position?_name hcategory] at hfound
    exact (Option.some.inj hfound).symm
  · intro hposition
    rw [hposition, hcategory] at hother
    rw [Option.some.inj hother]

theorem mem_names_of_mem_held (horder : controller.InOrder) {name : String}
    (hmem : name ∈ controller.held) : name ∈ controller.names := by
  rw [held, Multiset.mem_coe, List.mem_map] at hmem
  obtain ⟨lease, hlease, rfl⟩ := hmem
  obtain ⟨settled, hsound⟩ := horder
  have hlt : lease.category < controller.categories.size := hsound.balanced.held_lt lease hlease
  rw [categoryName_eq (Array.getElem?_eq_getElem hlt)]
  exact Array.mem_map_of_mem (Array.getElem_mem hlt)

theorem card_held (horder : controller.InOrder) :
    controller.held.card = controller.totals.totalActive := by
  rw [horder.accounted.outstanding, held, Multiset.coe_card, List.length_map]

theorem categoryName_congr (hnames : changed.names = controller.names) (position : Nat) :
    changed.categoryName position = controller.categoryName position := by
  have hname : ∀ controller : Controller R,
      controller.categoryName position = (controller.names[position]?).getD "" := by
    intro controller
    rw [categoryName, names, Array.getElem?_map]
    cases controller.categories[position]? <;> rfl
  rw [hname, hnames, ← hname]

/-- The leases that are held are told apart by the names of the categories only. -/
theorem held_congr (hnames : changed.names = controller.names)
    (hledger : changed.ledger.outstanding = controller.ledger.outstanding) :
    changed.held = controller.held := by
  simp only [held, hledger, categoryName_congr hnames]

/-- If every record has the base weight that a function gives to its name, so has every name. -/
theorem weightOf_eq (h : controller.Indexed) {weight : String → Nat}
    (hweights : ∀ category ∈ controller.categories, category.baseWeight = weight category.name)
    {name : String} (hmem : name ∈ controller.names) :
    controller.weightOf name = weight name := by
  obtain ⟨category, hcategory, rfl⟩ := Array.mem_map.mp hmem
  obtain ⟨position, hposition⟩ := Array.mem_iff_getElem?.mp hcategory
  rw [weightOf_name h hposition]
  exact hweights category hcategory

end Controller

/-! ### Weights that are not scaled -/

namespace Category

variable {R : Type} [Scalar R]

/-- The category with its base weight read again if it is due. -/
def withDueWeight (category : Category R) (now weight : Nat) (timings : Timings) : Category R :=
  if category.weightRefreshDue now timings.weightRefresh then category.setBaseWeight weight now
  else category

omit [Scalar R] in
theorem name_withDueWeight (category : Category R) (now weight : Nat) (timings : Timings) :
    (category.withDueWeight now weight timings).name = category.name := by
  unfold withDueWeight
  split <;> rfl

theorem baseWeight_decide (category : Category R) (totals : Totals R) (now weight : Nat)
    (timings : Timings) (settings : ControllerSettings) :
    (category.decide totals now weight timings settings).category.baseWeight =
      (category.withDueWeight now weight timings).baseWeight :=
  congrArg Weighing.baseWeight (category.weighing_decide totals now weight timings settings)

/-- The weight is the base weight alone. -/
def Unscaled (category : Category Rat) : Prop := category.adjustedWeight = category.baseWeight

theorem lasting_unscaled {settings : ControllerSettings} (hspeed : settings.ignoreSpeed = true)
    (hpopularity : settings.ignorePopularity = true) (now : Nat) (weight : String → Nat) :
    Lasting Unscaled now settings weight := by
  have hweigh : ∀ (category : Category Rat) (totals : Totals Rat),
      (category.recomputeWeight totals now settings).1.Unscaled := by
    intro category totals
    simp only [Unscaled, recomputeWeight, scaledWeight, hspeed, hpopularity, if_true]
    rfl
  exact .of_weighing
    (motive := fun weighing : Weighing Rat ↦ weighing.adjustedWeight = weighing.baseWeight)
    (fun name ↦ rfl) (fun category totals _ ↦ hweigh category totals)
    fun category totals _ ↦ hweigh _ totals

/-- The base weight is the one that a function gives to the name. -/
theorem lasting_weighs {settings : ControllerSettings} {weight given : String → Nat}
    (h : ∀ name, given name = weight name) (now : Nat) :
    Lasting (R := Rat) (fun category ↦ category.baseWeight = weight category.name) now settings
      given :=
  .of_weighing (motive := fun weighing : Weighing Rat ↦ weighing.baseWeight = weight weighing.name)
    h (fun _ _ hsame ↦ hsame) fun category _ _ ↦ h category.name

end Category

namespace Controller

/-- The sum of the weights over the active categories is a sum over their names. -/
theorem parts_eq_sum {controller : Controller Rat} {names : Finset String} {weight : String → Nat}
    (hnodup : (controller.categories.toList.map (·.name)).Nodup)
    (hactive : ∀ category ∈ controller.categories,
      category.isActive = true ↔ category.name ∈ names)
    (hcover : ∀ name ∈ names, name ∈ controller.names)
    (hweight : ∀ category ∈ controller.categories,
      category.adjustedWeight = weight category.name) :
    controller.parts (·.adjustedWeight) = ((∑ name ∈ names, weight name : Nat) : Rat) := by
  let active := controller.categories.toList.filter Category.isActive
  have hnames : names = (active.map (·.name)).toFinset := by
    ext name
    rw [List.mem_toFinset, List.mem_map]
    constructor
    · intro hname
      obtain ⟨category, hmem, rfl⟩ := Array.mem_map.mp (hcover name hname)
      exact ⟨category, List.mem_filter.mpr
        ⟨Array.mem_toList_iff.mpr hmem, (hactive category hmem).mpr hname⟩, rfl⟩
    · rintro ⟨category, hmem, rfl⟩
      obtain ⟨hmem, hholds⟩ := List.mem_filter.mp hmem
      exact (hactive category (Array.mem_toList_iff.mp hmem)).mp hholds
  have hdistinct : (active.map (·.name)).Nodup := hnodup.sublist (List.filter_sublist.map _)
  rw [← sum_filter_eq_parts, hnames, Nat.cast_sum, List.sum_toFinset _ hdistinct, List.map_map]
  refine congrArg List.sum (List.map_congr_left fun category hmem ↦ ?_)
  exact hweight category (Array.mem_toList_iff.mp (List.mem_filter.mp hmem).1)

/-- The controller keeps to settings that leave the factors out of the weights. -/
structure Steady (id : String) (settings : ControllerSettings) (controller : Controller Rat) :
    Prop where
  id_eq : controller.id = id
  current_eq : controller.current = settings
  regular : controller.Regular
  indexed : controller.Indexed
  unscaled : ∀ category ∈ controller.categories, category.Unscaled

variable {controller changed plain : Controller Rat} {source : Source} {now position : Nat}
  {id : String} {settings : ControllerSettings} {category : Category Rat}

theorem Steady.advances {asked : Option ControllerSettings} (h : Steady id settings controller)
    (hspeed : settings.ignoreSpeed = true) (hpopularity : settings.ignorePopularity = true)
    (hserved : (source.settings id).settings = settings)
    (hadvance : Advances source now asked controller changed) : Steady id settings changed where
  id_eq := hadvance.id_eq.trans h.id_eq
  current_eq := by
    rcases hadvance.copy_cases with rfl | hcopy
    · have hread : (controller.readSettings source now).current =
          (source.settings controller.id).settings :=
        rfl
      rw [hread, h.id_eq, hserved]
    · exact (congrArg (fun copy : SettingsCopy ↦ copy.settings.settings) hcopy).trans h.current_eq
  regular := h.regular.advances hadvance
  indexed := h.indexed.advances hadvance
  unscaled := by
    refine hadvance.forall_categories (fun _ ↦ ?_) h.unscaled
    rw [h.current_eq]
    exact Category.lasting_unscaled hspeed hpopularity now _

/-- The controller with the base weight of a category read again if it is due. -/
def refreshBaseWeight (controller : Controller Rat) (source : Source) (now position : Nat) :
    Controller Rat :=
  controller.updateCategory position fun category totals ↦
    (category.withDueWeight now (controller.baseWeight source category.name) controller.timings,
      totals)

theorem categories_refreshBaseWeight (hcategory : plain.categories[position]? = some category) :
    (plain.refreshBaseWeight source now position).categories =
      plain.categories.setIfInBounds position
        (category.withDueWeight now (plain.baseWeight source category.name) plain.timings) := by
  rw [refreshBaseWeight, updateCategory, hcategory]

theorem names_refreshBaseWeight :
    (plain.refreshBaseWeight source now position).names = plain.names :=
  names_updateCategory plain position fun category _ ↦ category.name_withDueWeight ..

theorem held_refreshBaseWeight :
    (plain.refreshBaseWeight source now position).held = plain.held :=
  held_congr names_refreshBaseWeight (congrArg Ledger.outstanding (ledger_updateCategory ..))

theorem Indexed.refreshBaseWeight (h : plain.Indexed) :
    (plain.refreshBaseWeight source now position).Indexed :=
  h.congr names_refreshBaseWeight (index_updateCategory ..)

/-- If every base weight is the one that a function gives to the name, reading one again changes
nothing. -/
theorem weightOf_refreshBaseWeight (h : plain.Indexed) {weight : String → Nat}
    (hgiven : ∀ name, plain.baseWeight source name = weight name)
    (hweights : ∀ category ∈ plain.categories, category.baseWeight = weight category.name)
    {name : String} (hmem : name ∈ plain.names) :
    (plain.refreshBaseWeight source now position).weightOf name = weight name := by
  refine weightOf_eq h.refreshBaseWeight ?_ ?_
  · refine forall_updateCategory hweights position fun category totals hsame ↦ ?_
    dsimp only
    unfold Category.withDueWeight
    split
    · exact hgiven category.name
    · exact hsame
  · rw [names_refreshBaseWeight]
    exact hmem

/-- Reading a base weight again leaves the competitors the same. -/
theorem mem_competitors {name other : String} :
    other ∈ (plain.refreshBaseWeight source now position).scheduler.competitors name ↔
      other = name ∨ other ∈ plain.held := by
  have hheld : (plain.refreshBaseWeight source now position).scheduler.held = plain.held :=
    held_refreshBaseWeight
  rw [Scheduler.competitors, hheld, Finset.mem_insert, Multiset.mem_toFinset]

/-- The decision about a request goes by the base weight that is read if it is due. -/
theorem Steady.decided_weight (h : Steady id settings plain) (source : Source) (now : Nat)
    (hspeed : settings.ignoreSpeed = true) (hpopularity : settings.ignorePopularity = true)
    (hcategory : plain.categories[position]? = some category) :
    (plain.decideFor source settings now category).category.adjustedWeight =
      (plain.refreshBaseWeight source now position).weightOf category.name := by
  have hposition : position < plain.categories.size := (Array.getElem?_eq_some_iff.mp hcategory).1
  have hunscaled : (plain.decideFor source settings now category).category.Unscaled :=
    (Category.lasting_unscaled hspeed hpopularity now
      (source.baseWeight plain.id settings)).decide category plain.totals plain.timings
        (h.unscaled category (Array.mem_of_getElem? hcategory))
  have hready : (plain.refreshBaseWeight source now position).categories[position]? =
      some (category.withDueWeight now (plain.baseWeight source category.name) plain.timings) := by
    rw [categories_refreshBaseWeight hcategory]
    exact Array.getElem?_setIfInBounds_self_of_lt hposition
  have hweight := weightOf_name h.indexed.refreshBaseWeight hready
  rw [Category.name_withDueWeight, baseWeight, h.current_eq] at hweight
  rw [hweight]
  exact hunscaled.trans (congrArg Nat.cast (Category.baseWeight_decide ..))

/-- All the weight that a category is compared with is the sum of the base weights of its
competitors. -/
theorem Steady.allWeight_eq (h : Steady id settings plain) (source : Source) (now : Nat)
    (hspeed : settings.ignoreSpeed = true) (hpopularity : settings.ignorePopularity = true)
    (hcategory : plain.categories[position]? = some category) :
    (plain.decideFor source settings now category).category.allWeight
        (plain.decideFor source settings now category).totals =
      ((∑ competitor ∈
          (plain.refreshBaseWeight source now position).scheduler.competitors category.name,
        (plain.refreshBaseWeight source now position).weightOf competitor : Nat) : Rat) := by
  -- With one lease more the category is active, and its competitors are the active categories.
  let entered := (plain.enterLease (plain.decideFor source settings now category) now position).1
  let granted := ((plain.decideFor source settings now category).category.grant
    (plain.decideFor source settings now category).totals now).1
  have hcategories : entered.categories = plain.categories.setIfInBounds position granted := rfl
  have hname : granted.name = category.name := category.name_decide ..
  have hnames : entered.names = plain.names := names_replace hcategory hcategories hname
  have hactive : granted.isActive = true := granted.isActive_iff.mpr (Nat.succ_pos _)
  have hindexed : entered.Indexed := h.indexed.congr hnames rfl
  have hweight := h.decided_weight source now hspeed hpopularity hcategory
  have hparts := parts_replace hcategory hcategories (·.adjustedWeight)
  rw [Category.part_of_active hactive] at hparts
  rw [(h.regular.carried_decide hcategory).allWeight_eq]
  refine hparts.symm.trans (parts_eq_sum hindexed.nodup_names ?_ ?_ ?_)
  · intro other hmem
    rw [mem_competitors]
    rcases mem_replace hcategories hmem with rfl | ⟨place, hplace, hother⟩
    · exact iff_of_true hactive (.inl hname)
    · have hne : other.name ≠ category.name := by
        intro hsame
        have hfound := h.indexed.position?_name hother
        rw [hsame, h.indexed.position?_name hcategory] at hfound
        exact hplace (Option.some.inj hfound).symm
      rw [← Multiset.count_pos, count_held h.regular.inOrder h.indexed hother,
        Category.isActive_iff, or_iff_right hne]
  · intro name hmem
    rw [hnames]
    rcases mem_competitors.mp hmem with rfl | hheld
    · exact Array.mem_map_of_mem (Array.mem_of_getElem? hcategory)
    · exact mem_names_of_mem_held h.regular.inOrder hheld
  · intro other hmem
    rcases mem_replace hcategories hmem with rfl | ⟨place, hplace, hother⟩
    · rw [hname]
      exact hweight
    · have hready : (plain.refreshBaseWeight source now position).categories[place]? =
          some other := by
        rw [categories_refreshBaseWeight hcategory, Array.getElem?_setIfInBounds_ne hplace.symm]
        exact hother
      rw [weightOf_name h.indexed.refreshBaseWeight hready]
      exact h.unscaled other (Array.mem_of_getElem? hother)

/-- The limit that is decided on is the one that the scheduler computes. -/
theorem Steady.limit_eq (h : Steady id settings plain) (source : Source) (now : Nat)
    (hspeed : settings.ignoreSpeed = true) (hpopularity : settings.ignorePopularity = true)
    (hthreshold : settings.threshold ≤ Category.maxLimit)
    (hcategory : plain.categories[position]? = some category) :
    (plain.decideFor source settings now category).category.limit =
      (plain.refreshBaseWeight source now position).scheduler.limit settings.threshold
        category.name := by
  have hall := h.allWeight_eq source now hspeed hpopularity hcategory
  have hown := h.decided_weight source now hspeed hpopularity hcategory
  have hle : (plain.decideFor source settings now category).category.adjustedWeight ≤ _ :=
    h.regular.weight_le_allWeight hcategory
  have hnonneg : 0 ≤ (plain.decideFor source settings now category).category.adjustedWeight :=
    (h.regular.nonneg_decide hcategory).adjustedWeight
  have hlimit : (plain.decideFor source settings now category).category.limit =
      (plain.decideFor source settings now category).category.fairLimit
        (plain.decideFor source settings now category).totals settings.threshold :=
    Category.limit_decide ..
  rw [hlimit]
  dsimp only [Scheduler.limit, scheduler]
  by_cases hzero : ∑ competitor ∈
      (plain.refreshBaseWeight source now position).scheduler.competitors category.name,
        (plain.refreshBaseWeight source now position).weightOf competitor = 0
  · rw [hzero] at hall
    rw [Category.fairLimit_of_not_pos (by rw [hall]; exact lt_irrefl 0)]
    exact (if_pos hzero).symm
  · have hpositive : 0 < (plain.decideFor source settings now category).category.allWeight
        (plain.decideFor source settings now category).totals := by
      rw [hall]
      exact Nat.cast_pos.mpr (Nat.pos_of_ne_zero hzero)
    have hround := Category.round_part_le hpositive hle settings.threshold
    rw [Category.fairLimit_of_pos hpositive hnonneg, min_eq_left (by omega), hall, hown]
    exact (if_neg hzero).symm

end Controller

/-! ### Occasions -/

namespace Occasion

variable (occasion : Occasion) {settings : ControllerSettings}

/-- The name of the category that is asked for. -/
def name : String := (occasion.controller Rat).categoryName occasion.position

/-- The controller as a scheduler sees it when the request is about to be answered: the request is
counted, lost leases are swept up if it is time, and the base weight is read again if it is due. -/
def scheduler : Scheduler :=
  ((occasion.plain Rat).refreshBaseWeight occasion.source occasion.now occasion.position).scheduler

/-- The settings never change. -/
def Keeps (settings : ControllerSettings) : Prop :=
  ∀ source ∈ occasion.sources, (source.settings occasion.id).settings = settings

/-- The base weights never change. -/
def Weighs (settings : ControllerSettings) (weight : String → Nat) : Prop :=
  ∀ source ∈ occasion.sources, ∀ name, source.baseWeight occasion.id settings name = weight name

variable {occasion}

theorem held_scheduler : occasion.scheduler.held = (occasion.plain Rat).held :=
  Controller.held_refreshBaseWeight

theorem weight_scheduler :
    occasion.scheduler.weight = ((occasion.plain Rat).refreshBaseWeight occasion.source
      occasion.now occasion.position).weightOf := by
  rw [scheduler, Controller.scheduler]

/-- The category that is asked for has the name that the scheduler knows it by. -/
theorem exists_named (hknown : occasion.Known Rat) :
    ∃ category, (occasion.plain Rat).categories[occasion.position]? = some category ∧
      occasion.name = category.name := by
  obtain ⟨category, hcategory⟩ := exists_category hknown
  have hname : (occasion.plain Rat).categoryName occasion.position = occasion.name :=
    Controller.categoryName_congr (Controller.names_beforeAnswerAt ..) _
  exact ⟨category, hcategory, hname.symm.trans (Controller.categoryName_eq hcategory)⟩

theorem steady_build (hkeeps : occasion.Keeps settings) :
    Controller.Steady occasion.id settings
      (.build occasion.id occasion.timings occasion.built occasion.start) where
  id_eq := rfl
  current_eq := hkeeps occasion.built List.mem_cons_self
  regular := Controller.regular_build ..
  indexed := Controller.indexed_build occasion.id occasion.timings occasion.built occasion.start
  unscaled := by simp [Controller.build]

theorem steady_plain (hkeeps : occasion.Keeps settings) (hspeed : settings.ignoreSpeed = true)
    (hpopularity : settings.ignorePopularity = true) :
    (occasion.plain Rat).Steady occasion.id settings :=
  plain_keeps (fun source ↦ (source.settings occasion.id).settings = settings)
    (fun hserved hadvance h ↦ h.advances hspeed hpopularity hserved hadvance) hkeeps
    (steady_build hkeeps)

/-- Under settings that stay the same these are the settings in force. -/
theorem settings_eq (h : (occasion.plain Rat).Steady occasion.id settings) :
    occasion.settings Rat = settings :=
  current_plain.symm.trans h.current_eq

/-- The request is answered as the scheduler answers it. -/
theorem answer_eq (h : (occasion.plain Rat).Steady occasion.id settings)
    (hspeed : settings.ignoreSpeed = true) (hpopularity : settings.ignorePopularity = true)
    (hthreshold : settings.threshold ≤ Category.maxLimit) (hknown : occasion.Known Rat) :
    ((occasion.outcome Rat).answer.map fun _ ↦ ()) =
      occasion.scheduler.answer settings occasion.name := by
  obtain ⟨category, hcategory, hname⟩ := exists_named hknown
  have horder := h.regular.inOrder
  have hcount : occasion.scheduler.held.count category.name = category.active := by
    rw [held_scheduler, Controller.count_held horder h.indexed hcategory]
  have htotal : occasion.scheduler.held.card = (occasion.plain Rat).totals.totalActive := by
    rw [held_scheduler, Controller.card_held horder]
  have hlimit : occasion.scheduler.limit settings.threshold category.name = _ :=
    (h.limit_eq occasion.source occasion.now hspeed hpopularity hthreshold hcategory).symm
  rw [answer_outcome, settings_eq h, hname]
  dsimp only [Scheduler.answer]
  rw [hcount, htotal, hlimit]
  by_cases hgranted : ((occasion.plain Rat).decideFor occasion.source settings occasion.now
      category).granted = true
  · rw [if_pos (Controller.granted_decideFor_iff.mp hgranted),
      (Controller.answerAt_of_granted hcategory hgranted).2]
    rfl
  · rw [if_neg (mt Controller.granted_decideFor_iff.mpr hgranted)]
    rw [Bool.not_eq_true] at hgranted
    rw [(Controller.answerAt_of_refused hcategory hgranted).2]
    rfl

/-- Under base weights that never change every record has the base weight of its name. -/
theorem weighed_plain {weight : String → Nat} (hkeeps : occasion.Keeps settings)
    (hspeed : settings.ignoreSpeed = true) (hpopularity : settings.ignorePopularity = true)
    (hweighs : occasion.Weighs settings weight) :
    ∀ category ∈ (occasion.plain Rat).categories, category.baseWeight = weight category.name := by
  have hplain := plain_keeps (R := Rat)
    (motive := fun controller ↦ controller.Steady occasion.id settings ∧
      ∀ category ∈ controller.categories, category.baseWeight = weight category.name)
    (fun source ↦ (source.settings occasion.id).settings = settings ∧
      ∀ name, source.baseWeight occasion.id settings name = weight name)
    ?_ (fun source hmem ↦ ⟨hkeeps source hmem, hweighs source hmem⟩) ?_
  · exact hplain.2
  · rintro source now asked before after ⟨hserved, hgiven⟩ hadvance ⟨hsteady, hbefore⟩
    refine ⟨hsteady.advances hspeed hpopularity hserved hadvance,
      hadvance.forall_categories (fun _ ↦ ?_) hbefore⟩
    refine Category.lasting_weighs (fun name ↦ ?_) now
    rw [Controller.baseWeight, hsteady.id_eq, hsteady.current_eq]
    exact hgiven name
  · exact ⟨steady_build hkeeps, by simp [Controller.build]⟩

/-- Under base weights that never change these are what the scheduler goes by. -/
theorem weight_eq {weight : String → Nat} (hkeeps : occasion.Keeps settings)
    (hspeed : settings.ignoreSpeed = true) (hpopularity : settings.ignorePopularity = true)
    (hknown : occasion.Known Rat) (hweighs : occasion.Weighs settings weight) :
    ∀ competitor ∈ occasion.scheduler.competitors occasion.name,
      occasion.scheduler.weight competitor = weight competitor := by
  have hsteady := steady_plain hkeeps hspeed hpopularity
  have hweights := weighed_plain hkeeps hspeed hpopularity hweighs
  have hgiven : ∀ name, (occasion.plain Rat).baseWeight occasion.source name = weight name := by
    intro name
    rw [Controller.baseWeight, hsteady.id_eq, hsteady.current_eq]
    exact hweighs occasion.source (List.mem_cons_of_mem _ List.mem_cons_self) name
  intro competitor hmem
  have hknows : competitor ∈ (occasion.plain Rat).names := by
    rcases Controller.mem_competitors.mp hmem with rfl | hheld
    · obtain ⟨category, hcategory, hname⟩ := exists_named hknown
      rw [hname]
      exact Array.mem_map_of_mem (Array.mem_of_getElem? hcategory)
    · exact Controller.mem_names_of_mem_held hsteady.regular.inOrder hheld
  rw [weight_scheduler]
  exact Controller.weightOf_refreshBaseWeight hsteady.indexed hgiven hweights hknows

/-- Under settings that never change and leave the factors out of the weights, every request is
answered as the scheduler answers it that knows only the leases held and the base weights. So two
requests for one name are answered alike if the leases held are the same and the base weights never
change, whatever came before. -/
theorem follows_scheduler (occasion : Occasion) {settings : ControllerSettings}
    (hkeeps : occasion.Keeps settings) (hspeed : settings.ignoreSpeed = true)
    (hpopularity : settings.ignorePopularity = true)
    (hthreshold : settings.threshold ≤ Category.maxLimit) (hknown : occasion.Known Rat) :
    ((occasion.outcome Rat).answer.map fun _ ↦ ()) =
        occasion.scheduler.answer settings occasion.name ∧
      ∀ (other : Occasion) (weight : String → Nat), other.Keeps settings → other.Known Rat →
        occasion.Weighs settings weight → other.Weighs settings weight →
        other.name = occasion.name → other.scheduler.held = occasion.scheduler.held →
          ((other.outcome Rat).answer.map fun _ ↦ ()) =
            (occasion.outcome Rat).answer.map fun _ ↦ () := by
  have hanswer := answer_eq (steady_plain hkeeps hspeed hpopularity) hspeed hpopularity hthreshold
    hknown
  refine ⟨hanswer, ?_⟩
  intro other weight hkeeps' hknown' hweighs hweighs' hname hheld
  have hanswer' := answer_eq (steady_plain hkeeps' hspeed hpopularity) hspeed hpopularity
    hthreshold hknown'
  have hweight := weight_eq hkeeps hspeed hpopularity hknown hweighs
  have hweight' := weight_eq hkeeps' hspeed hpopularity hknown' hweighs'
  rw [hanswer, hanswer', hname]
  rw [hname] at hweight'
  refine Scheduler.answer_congr settings hheld fun competitor hmem ↦ ?_
  have hmem' : competitor ∈ other.scheduler.competitors occasion.name := by
    rw [Scheduler.competitors, hheld]
    exact hmem
  rw [hweight competitor hmem, hweight' competitor hmem']

/-- Two such requests: with a ceiling of four, of which a name is to have three parts and another
one, each has a lease, and the second is refused a further one. In the one run the leases were
granted one after the other; in the other the second came first, and the first released two more. -/
theorem follows_scheduler_history :
    ∃ (occasion other : Occasion) (settings : ControllerSettings),
      occasion.moves.length = 2 ∧ other.moves.length = 6 ∧
      (occasion.outcome Rat).answer = .error (.rejected "b" 1 1) ∧
      occasion.scheduler.answer settings occasion.name = .error (.rejected "b" 1 1) ∧
      ((other.outcome Rat).answer.map fun _ ↦ ()) = .error (.rejected "b" 1 1) := by
  let settings : ControllerSettings :=
    { threshold := 4
      ignoreSpeed := true
      ignorePopularity := true
      categoryWeights := NameMap.empty.insert "a" 3000 }
  let source : Source := ⟨fun _ ↦ ⟨1, settings⟩, fun _ _ ↦ none⟩
  let occasion : Occasion :=
    { id := "main"
      timings := {}
      built := source
      start := 0
      moves := [⟨.request "a", source, 0⟩, ⟨.request "b", source, 0⟩]
      source
      now := 0
      position := 1 }
  let other : Occasion :=
    { id := "main"
      timings := {}
      built := source
      start := 0
      moves := [⟨.request "b", source, 5⟩, ⟨.request "a", source, 10⟩, ⟨.request "a", source, 20⟩,
        ⟨.request "a", source, 30⟩, ⟨.release 1, source, 4000⟩, ⟨.release 3, source, 9000⟩]
      source
      now := 9500
      position := 0 }
  have hkeeps : occasion.Keeps settings := by simp [Keeps, sources, occasion, source]
  have hkeeps' : other.Keeps settings := by simp [Keeps, sources, other, source]
  have hweighs : occasion.Weighs settings settings.weightFor := by
    simp [Weighs, sources, occasion, source, Source.baseWeight]
  have hweighs' : other.Weighs settings settings.weightFor := by
    simp [Weighs, sources, other, source, Source.baseWeight]
  have hanswer : (occasion.outcome Rat).answer = .error (.rejected "b" 1 1) := by decide +kernel
  obtain ⟨hfollows, hsame⟩ := follows_scheduler occasion hkeeps rfl rfl (by decide)
    (by decide +kernel)
  have hother := hsame other settings.weightFor hkeeps' (by decide +kernel) hweighs hweighs'
    (by decide +kernel) (by decide +kernel)
  rw [hanswer] at hfollows hother
  exact ⟨occasion, other, settings, rfl, rfl, hanswer, hfollows.symm, hother⟩

end Occasion

end Admission
