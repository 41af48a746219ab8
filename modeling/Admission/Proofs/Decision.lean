import Admission.Proofs.Lasting

/-!
# What is decided about a request

A decision weighs the category first, then computes its limit from the new weights, and then goes by
the limit (`Category.limit_decide`, `Controller.granted_decideFor_iff`). A request for a category
that is there does what was decided and nothing else (`Controller.answerAt_of_granted`,
`Controller.answerAt_of_refused`), and leaves the category with the weights and the limit of the
decision (`Controller.exists_decided`).

An `Occasion` is one such request together with everything that was asked of the controller before,
from its building on. What holds on every occasion holds of every request in every reachable state.
-/

set_option autoImplicit false
set_option relaxedAutoImplicit false

namespace Admission

open Relation (ReflTransGen)

variable {R : Type} [Scalar R]

namespace Category

variable (category : Category R) (totals : Totals R) (now weight : Nat) (timings : Timings)
  (settings : ControllerSettings)

theorem active_decide :
    (category.decide totals now weight timings settings).category.active = category.active :=
  congrArg Account.active (category.keepsCounts_decide totals now weight timings settings).account

/-- The limit is the fair one by the weights of the decision. -/
theorem limit_decide :
    (category.decide totals now weight timings settings).category.limit =
      (category.decide totals now weight timings settings).category.fairLimit
        (category.decide totals now weight timings settings).totals settings.threshold :=
  rfl

omit [Scalar R] in
theorem mayEnter_iff {category : Category R} {totals : Totals R} {limit : Nat}
    {settings : ControllerSettings} :
    category.mayEnter totals limit settings = true ↔
      settings.enabled = false ∨ category.active < limit ∨
        settings.shareUnused = true ∧ totals.totalActive < settings.threshold := by
  simp [mayEnter, or_assoc]

end Category

namespace Controller

variable {plain : Controller R} {source : Source} {settings : ControllerSettings}
  {now position : Nat} {category : Category R}

/-- A request is granted if the controller refuses nobody, if the category is below its limit, or if
there are slots to lend. -/
theorem granted_decideFor_iff :
    (plain.decideFor source settings now category).granted = true ↔
      settings.enabled = false ∨
        category.active < (plain.decideFor source settings now category).category.limit ∨
          settings.shareUnused = true ∧ plain.totals.totalActive < settings.threshold := by
  have hactive : (plain.decideFor source settings now category).category.active =
      category.active := category.active_decide ..
  have htotal := (plain.keepsCounts_decideFor source settings now category).totalActive
  rw [← hactive, ← htotal]
  exact Category.mayEnter_iff

theorem answerAt_of_granted (hcategory : plain.categories[position]? = some category)
    (hgranted : (plain.decideFor source settings now category).granted = true) :
    (plain.answerAt source settings now position).controller =
        (plain.enterLease (plain.decideFor source settings now category) now position).1 ∧
      (plain.answerAt source settings now position).answer =
        .ok (plain.enterLease (plain.decideFor source settings now category) now position).2 := by
  rw [answerAt, hcategory]
  simp only [hgranted, if_true, and_self]

theorem answerAt_of_refused (hcategory : plain.categories[position]? = some category)
    (hrefused : (plain.decideFor source settings now category).granted = false) :
    (plain.answerAt source settings now position).controller =
        plain.refuse (plain.decideFor source settings now category) position ∧
      (plain.answerAt source settings now position).answer =
        .error (.rejected category.name category.active
          (plain.decideFor source settings now category).category.limit) := by
  have hname : (plain.decideFor source settings now category).category.name = category.name :=
    category.name_decide ..
  have hactive : (plain.decideFor source settings now category).category.active =
      category.active := category.active_decide ..
  rw [answerAt, hcategory]
  simp only [hrefused, Bool.false_eq_true, if_false, hname, hactive, and_self]

/-- Who gets a lease was granted it. -/
theorem granted_of_ok {lease : Lease} (hcategory : plain.categories[position]? = some category)
    (hanswer : (plain.answerAt source settings now position).answer = .ok lease) :
    (plain.decideFor source settings now category).granted = true := by
  by_contra hgranted
  rw [Bool.not_eq_true] at hgranted
  rw [(answerAt_of_refused hcategory hgranted).2] at hanswer
  cases hanswer

/-- Who gets no lease was refused it. -/
theorem refused_of_error {error : AdmissionError}
    (hcategory : plain.categories[position]? = some category)
    (hanswer : (plain.answerAt source settings now position).answer = .error error) :
    (plain.decideFor source settings now category).granted = false := by
  by_contra hrefused
  rw [Bool.not_eq_false] at hrefused
  rw [(answerAt_of_granted hcategory hrefused).2] at hanswer
  cases hanswer

/-- What the answer leaves of the category that was asked for. -/
structure Decided (decision : Decision R) (after : Category R) : Prop where
  weighing : after.weighing = decision.category.weighing
  limit : after.limit = decision.category.limit
  active : after.active =
    if decision.granted then decision.category.active + 1 else decision.category.active

omit [Scalar R] in
theorem Decided.adjustedWeight {decision : Decision R} {after : Category R}
    (h : Decided decision after) : after.adjustedWeight = decision.category.adjustedWeight :=
  congrArg Weighing.adjustedWeight h.weighing

theorem exists_decided (source : Source) (settings : ControllerSettings) (now : Nat)
    (hcategory : plain.categories[position]? = some category) :
    ∃ after,
      (plain.answerAt source settings now position).controller.categories[position]? = some after ∧
        Decided (plain.decideFor source settings now category) after := by
  have hposition : position < plain.categories.size := (Array.getElem?_eq_some_iff.mp hcategory).1
  by_cases hgranted : (plain.decideFor source settings now category).granted = true
  · obtain ⟨hafter, -⟩ := answerAt_of_granted hcategory hgranted
    refine ⟨((plain.decideFor source settings now category).category.grant
      (plain.decideFor source settings now category).totals now).1, ?_, rfl, rfl, ?_⟩
    · rw [hafter]
      exact Array.getElem?_setIfInBounds_self_of_lt hposition
    · rw [if_pos hgranted]
      rfl
  · rw [Bool.not_eq_true] at hgranted
    obtain ⟨hafter, -⟩ := answerAt_of_refused hcategory hgranted
    refine ⟨(plain.decideFor source settings now category).category.reject, ?_, rfl, rfl, ?_⟩
    · rw [hafter]
      exact Array.getElem?_setIfInBounds_self_of_lt hposition
    · rw [hgranted]
      rfl

end Controller

/-! ### Occasions -/

/-- A request for the category at a position, with all that came before it. -/
structure Occasion where
  id : String
  timings : Timings
  /-- The source when the controller was built, and the time. -/
  built : Source
  start : Nat
  moves : List Move
  /-- The source when the request comes, and the time. -/
  source : Source
  now : Nat
  position : Nat

namespace Occasion

variable (occasion : Occasion) (R)

/-- The controller when the request comes. -/
def controller : Controller R :=
  (Controller.build occasion.id occasion.timings occasion.built occasion.start).run occasion.moves

/-- The category that is asked for was looked up before. -/
def Known : Prop := occasion.position < (occasion.controller R).categories.size

instance : Decidable (occasion.Known R) := inferInstanceAs (Decidable (_ < _))

/-- The settings in force at the request. -/
def settings : ControllerSettings :=
  (occasion.controller R).settingsAt occasion.source occasion.now

/-- The controller when the request is counted, and lost leases are swept up if it is time. -/
def plain : Controller R :=
  (occasion.controller R).beforeAnswerAt occasion.source occasion.now occasion.position

/-- What becomes of the request. -/
def outcome : Outcome R (Except AdmissionError Lease) :=
  (occasion.controller R).requestAt occasion.source occasion.now occasion.position

/-- The sources that the controller could read up to the request. -/
def sources : List Source :=
  occasion.built :: occasion.source :: occasion.moves.map (·.source)

/-- The settings in force at the requests before. -/
def admissions : List ControllerSettings :=
  (Controller.build occasion.id occasion.timings occasion.built occasion.start :
    Controller R).admissions occasion.moves

variable {occasion} {R}

theorem exists_category (hknown : occasion.Known R) :
    ∃ category, (occasion.plain R).categories[occasion.position]? = some category := by
  have hsize : (occasion.plain R).categories.size = (occasion.controller R).categories.size :=
    Controller.size_categories (Controller.names_beforeAnswerAt ..)
  have hposition : occasion.position < (occasion.plain R).categories.size := by
    rw [hsize]
    exact hknown
  exact ⟨_, Array.getElem?_eq_getElem hposition⟩

theorem current_plain : (occasion.plain R).current = occasion.settings R :=
  Controller.current_beforeAnswerAt ..

theorem controller_outcome :
    (occasion.outcome R).controller = ((occasion.plain R).answerAt occasion.source
      (occasion.settings R) occasion.now occasion.position).controller :=
  Controller.controller_requestAt ..

theorem answer_outcome :
    (occasion.outcome R).answer = ((occasion.plain R).answerAt occasion.source
      (occasion.settings R) occasion.now occasion.position).answer :=
  Controller.answer_requestAt ..

section Keeps

variable {motive : Controller R → Prop} (served : Source → Prop)
  (hstep : ∀ {source : Source} {now : Nat} {asked : Option ControllerSettings}
    {before after : Controller R}, served source →
      Controller.Advances source now asked before after → motive before → motive after)
  (hserved : ∀ source ∈ occasion.sources, served source)
  (hbuild : motive (.build occasion.id occasion.timings occasion.built occasion.start))

include hstep hserved hbuild

/-- What every advance keeps under the sources of the occasion holds when the request comes. -/
theorem controller_keeps : motive (occasion.controller R) := by
  refine Controller.run_keeps served (fun _ ↦ True)
    (fun hsource _ hadvance h ↦ hstep hsource hadvance h) ?_ (fun _ _ ↦ trivial) hbuild
  intro move hmem
  exact hserved move.source
    (List.mem_cons_of_mem _ (List.mem_cons_of_mem _ (List.mem_map_of_mem hmem)))

/-- It still holds when the request is about to be answered. -/
theorem plain_keeps : motive (occasion.plain R) := by
  have hsource : served occasion.source :=
    hserved occasion.source (List.mem_cons_of_mem _ List.mem_cons_self)
  have hchain : ReflTransGen (Controller.Advances occasion.source occasion.now none)
      (occasion.controller R) (occasion.plain R) :=
    Controller.advances_beforeAnswerAt ..
  exact Controller.Advances.keep (fun hadvance h ↦ hstep hsource hadvance h) hchain
    (controller_keeps served hstep hserved hbuild)

end Keeps

theorem inOrder_plain : (occasion.plain R).InOrder :=
  plain_keeps (fun _ ↦ True) (fun _ hadvance h ↦ h.leadsTo hadvance.leadsTo) (fun _ _ ↦ trivial)
    (.run occasion.id occasion.timings occasion.built occasion.start [])

end Occasion

end Admission
