import Admission.Proofs.Decision
import Mathlib.Data.List.Induction

/-!
# The course of a controller

A `Course` is a controller from its building on: everything that was asked of it. It yields the
requests that were answered, each as an `Occasion`, and the times at which the categories came into
being, in the order of their positions.

Of a category much is changed by its requests alone. Settling a lease leaves such a view of it aside
(`Category.Aside`), and then what is to be seen of a category follows from when it was created and
from the requests for it, one after another, whatever else was asked of the controller in between
(`Course.tracked`).
-/

set_option autoImplicit false
set_option relaxedAutoImplicit false

namespace Admission

variable {R α : Type}

/-- A controller that is built, and what is asked of it from then on. -/
structure Course where
  id : String
  timings : Timings
  /-- The source when the controller was built, and the time. -/
  built : Source
  start : Nat
  moves : List Move

namespace Category

variable [Scalar R]

/-- What is to be seen of a category does not change when a lease is settled. -/
structure Aside (view : Category R → α) : Prop where
  finish : ∀ (category : Category R) (totals : Totals R) (grantedAt now : Nat)
    (settings : ControllerSettings),
    view (category.finish totals grantedAt now settings).1 = view category
  abandon : ∀ (category : Category R) (totals : Totals R) (grantedAt now : Nat)
    (settings : ControllerSettings),
    view (category.abandon totals grantedAt now settings).1 = view category

end Category

/-! ### Views of the controller -/

namespace Controller

variable [Scalar R] {controller changed : Controller R} {view : Category R → α} {source : Source}
  {now position : Nat}

/-- What a request leaves of the category that was asked for. -/
def answered (plain : Controller R) (source : Source) (settings : ControllerSettings) (now : Nat)
    (asked : Category R) : Category R :=
  let decision := plain.decideFor source settings now asked
  if decision.granted then (decision.category.grant decision.totals now).1
  else decision.category.reject

theorem categories_answerAt {settings : ControllerSettings} {asked : Category R}
    (hasked : controller.categories[position]? = some asked) :
    (controller.answerAt source settings now position).controller.categories =
      controller.categories.setIfInBounds position
        (controller.answered source settings now asked) := by
  unfold answered
  dsimp only
  split
  · next hgranted => rw [(answerAt_of_granted hasked hgranted).1]; rfl
  · next hrefused =>
    rw [(answerAt_of_refused hasked (Bool.eq_false_iff.mpr hrefused)).1]
    rfl

omit [Scalar R] in
theorem size_of_views (h : changed.views view = controller.views view) :
    changed.categories.size = controller.categories.size := by
  rw [← size_views view, h, size_views]

omit [Scalar R] in
theorem size_of_views_push {new : α} (h : changed.views view = (controller.views view).push new) :
    changed.categories.size = controller.categories.size + 1 := by
  rw [← size_views view, h, Array.size_push, size_views]

omit [Scalar R] in
theorem size_of_views_replace {new : α}
    (h : changed.views view = (controller.views view).setIfInBounds position new) :
    changed.categories.size = controller.categories.size := by
  rw [← size_views view, h, Array.size_setIfInBounds, size_views]

omit [Scalar R] in
/-- What looks alike has a category wherever the other has one. -/
theorem exists_of_views (h : changed.views view = controller.views view) {after : Category R}
    (hafter : changed.categories[position]? = some after) :
    ∃ before, controller.categories[position]? = some before ∧ view after = view before := by
  have hseen := getElem?_views view hafter
  rw [h, views, Array.getElem?_map] at hseen
  obtain ⟨before, hbefore, hview⟩ := Option.map_eq_some_iff.mp hseen
  exact ⟨before, hbefore, hview.symm⟩

omit [Scalar R] in
/-- Where one more is seen than before, it is seen at a position that had no category. -/
theorem cases_of_views_push {new : α} (h : changed.views view = (controller.views view).push new)
    {after : Category R} (hafter : changed.categories[position]? = some after) :
    controller.categories[position]? = none ∧ view after = new ∨
      ∃ before, controller.categories[position]? = some before ∧ view after = view before := by
  have hseen := getElem?_views view hafter
  rw [h, Array.getElem?_push, size_views] at hseen
  split at hseen
  · next hlast =>
    refine .inl ⟨?_, (Option.some.inj hseen).symm⟩
    rw [hlast, Array.getElem?_eq_none le_rfl]
  · rw [views, Array.getElem?_map] at hseen
    obtain ⟨before, hbefore, hview⟩ := Option.map_eq_some_iff.mp hseen
    exact .inr ⟨before, hbefore, hview.symm⟩

omit [Scalar R] in
/-- After a replacement there is the new category at its position, and all else is as it was. -/
theorem cases_replace {place : Nat} {next after : Category R}
    (hcategories : changed.categories = controller.categories.setIfInBounds place next)
    (hafter : changed.categories[position]? = some after) :
    place = position ∧ after = next ∨
      place ≠ position ∧ controller.categories[position]? = some after := by
  rw [hcategories, Array.getElem?_setIfInBounds] at hafter
  by_cases hplace : place = position
  · rw [if_pos hplace] at hafter
    split at hafter
    · exact .inl ⟨hplace, (Option.some.inj hafter).symm⟩
    · cases hafter
  · rw [if_neg hplace] at hafter
    exact .inr ⟨hplace, hafter⟩

omit [Scalar R] in
theorem cases_updateCategory {place : Nat}
    {change : Category R → Totals R → Category R × Totals R} {after : Category R}
    (hafter : (controller.updateCategory place change).categories[position]? = some after) :
    (∃ before, place = position ∧ controller.categories[position]? = some before ∧
      after = (change before controller.totals).1) ∨
      place ≠ position ∧ controller.categories[position]? = some after := by
  rcases hbefore : controller.categories[place]? with _ | before
  · rw [updateCategory, hbefore] at hafter
    refine .inr ⟨?_, hafter⟩
    rintro rfl
    rw [hbefore] at hafter
    cases hafter
  · rw [updateCategory, hbefore] at hafter
    rcases cases_replace rfl hafter with ⟨rfl, rfl⟩ | hother
    · exact .inl ⟨before, rfl, hbefore, rfl⟩
    · exact .inr hother

theorem cases_answerAt {settings : ControllerSettings} {place : Nat} {after : Category R}
    (hafter : (controller.answerAt source settings now place).controller.categories[position]? =
      some after) :
    (∃ asked, place = position ∧ controller.categories[position]? = some asked ∧
      after = controller.answered source settings now asked) ∨
      place ≠ position ∧ controller.categories[position]? = some after := by
  rcases hasked : controller.categories[place]? with _ | asked
  · rw [answerAt, hasked] at hafter
    refine .inr ⟨?_, hafter⟩
    rintro rfl
    rw [hasked] at hafter
    cases hafter
  · rcases cases_replace (categories_answerAt hasked) hafter with ⟨rfl, rfl⟩ | hother
    · exact .inl ⟨asked, rfl, hasked, rfl⟩
    · exact .inr hother

/-- A look-up finds the category or adds a new one. -/
theorem views_getCategory (view : Category R → α) (controller : Controller R) (source : Source)
    (now : Nat) (name : String) :
    (controller.getCategory source now name).1.views view = controller.views view ∨
      ∃ weight, (controller.getCategory source now name).1.views view =
        (controller.views view).push (view (.fresh name weight now)) := by
  unfold getCategory
  split
  · exact .inl rfl
  · next hnew =>
    rw [createCategory, hnew]
    refine .inr ⟨(controller.refreshSettings source now).baseWeight source name, ?_⟩
    rw [← views_refreshSettings controller source now, views, views, ← Array.map_push]
    rfl

/-- Up to its answer a request is counted, and nothing else is to be seen of it. -/
theorem views_beforeAnswerAt (haside : Category.Aside view) {before : Category R}
    (hbefore : controller.categories[position]? = some before) :
    (controller.beforeAnswerAt source now position).views view =
      (controller.views view).setIfInBounds position
        (view (before.recordSubmission controller.totals now
          controller.timings.popularityWindow).1) := by
  have hrefreshed :
      (controller.refreshSettings source now).categories[position]? = some before := by
    rw [categories_refreshSettings]
    exact hbefore
  have htotals : (controller.refreshSettings source now).totals = controller.totals := by
    unfold refreshSettings
    split <;> rfl
  have htimings : (controller.refreshSettings source now).timings = controller.timings := by
    unfold refreshSettings
    split <;> rfl
  unfold beforeAnswerAt
  dsimp only
  rw [views_sweepIfDue _ fun category totals grantedAt ↦ haside.abandon category totals ..,
    countSubmission, updateCategory, hrefreshed, htotals, htimings,
    ← views_refreshSettings controller source now]
  exact views_replace rfl

omit [Scalar R] in
theorem views_onLease {number : Nat} {action : Lease → Controller R}
    (h : ∀ lease, (action lease).views view = controller.views view) :
    (controller.onLease number action).views view = controller.views view := by
  unfold onLease
  split
  · rfl
  · next lease hlease => exact h lease

theorem views_release (haside : Category.Aside view) (controller : Controller R) (source : Source)
    (now : Nat) (lease : Lease) :
    (controller.release source now lease).controller.views view = controller.views view := by
  unfold release
  dsimp only
  split
  · next ledger hexchange =>
    dsimp only [finish, settle]
    rw [views_updateCategory]
    · exact views_refreshSettings { controller with ledger } source now
    · exact fun category totals ↦ haside.finish category totals ..
  · split <;> rfl

omit [Scalar R] in
theorem views_drop (controller : Controller R) (lease : Lease) :
    (controller.drop lease).controller.views view = controller.views view := by
  unfold drop
  split <;> rfl

theorem views_reconcile (haside : Category.Aside view) (controller : Controller R)
    (source : Source) (now : Nat) :
    (controller.reconcile source now).controller.views view = controller.views view := by
  refine (views_abandonAll _ _ fun category totals grantedAt ↦
    haside.abandon category totals ..).trans ?_
  exact views_refreshSettings controller source now

end Controller

/-! ### Requests -/

namespace Occasion

variable [Scalar R] {occasion : Occasion} {view : Category R → α}

theorem timings_controller : (occasion.controller R).timings = occasion.timings :=
  controller_keeps (motive := fun controller : Controller R ↦
    controller.timings = occasion.timings) (fun _ ↦ True)
    (fun _ hadvance hbefore ↦ hadvance.timings_eq.trans hbefore) (fun _ _ ↦ trivial) rfl

/-- A request counts its submission and answers, and nothing else is to be seen of it. -/
theorem exists_answered (haside : Category.Aside view) (hknown : occasion.Known R) :
    ∃ before asked : Category R,
      (occasion.controller R).categories[occasion.position]? = some before ∧
        (occasion.plain R).categories[occasion.position]? = some asked ∧
          view asked = view (before.recordSubmission (occasion.controller R).totals occasion.now
            occasion.timings.popularityWindow).1 ∧
            (occasion.outcome R).controller.views view =
              ((occasion.controller R).views view).setIfInBounds occasion.position
                (view ((occasion.plain R).answered occasion.source (occasion.settings R)
                  occasion.now asked)) := by
  obtain ⟨asked, hasked⟩ := exists_category hknown
  obtain ⟨before, hbefore⟩ : ∃ before : Category R,
      (occasion.controller R).categories[occasion.position]? = some before :=
    ⟨_, Array.getElem?_eq_getElem hknown⟩
  have hcounted : (occasion.plain R).views view = _ :=
    Controller.views_beforeAnswerAt haside hbefore
  have hplace : occasion.position < ((occasion.controller R).views view).size := by
    rw [Controller.size_views]
    exact hknown
  refine ⟨before, asked, hbefore, hasked, ?_, ?_⟩
  · have hseen := Controller.getElem?_views view hasked
    rw [hcounted, Array.getElem?_setIfInBounds_self_of_lt hplace, timings_controller] at hseen
    exact (Option.some.inj hseen).symm
  · rw [controller_outcome, Controller.views_replace (Controller.categories_answerAt hasked),
      hcounted, Array.setIfInBounds_setIfInBounds]

end Occasion

/-! ### Courses -/

namespace Course

/-- The course with one more move. -/
def extend (course : Course) (move : Move) : Course :=
  { course with moves := course.moves ++ [move] }

/-- What holds when a controller is built, and of every course that is one move longer than one of
which it holds, holds of every course. -/
@[elab_as_elim]
theorem induction {motive : Course → Prop}
    (built : ∀ id timings source start, motive ⟨id, timings, source, start, []⟩)
    (extend : ∀ course move, motive course → motive (course.extend move)) (course : Course) :
    motive course := by
  obtain ⟨id, timings, source, start, moves⟩ := course
  induction moves using List.reverseRecOn with
  | nil => exact built id timings source start
  | append_singleton moves move ih => exact extend ⟨id, timings, source, start, moves⟩ move ih

/-- What moves yield that follow on a course. -/
def gather (yield : Course → Move → List α) (course : Course) : List Move → List α
  | [] => []
  | move :: rest => yield course move ++ gather yield (course.extend move) rest

/-- What the moves of a course yield one after another. -/
def yielded (yield : Course → Move → List α) (course : Course) : List α :=
  gather yield { course with moves := [] } course.moves

theorem gather_concat (yield : Course → Move → List α) (course : Course) (moves : List Move)
    (move : Move) :
    gather yield course (moves ++ [move]) =
      gather yield course moves ++
        yield { course with moves := course.moves ++ moves } move := by
  induction moves generalizing course with
  | nil => simp [gather]
  | cons first rest ih =>
    rw [List.cons_append, gather, gather, ih, List.append_assoc]
    simp only [extend, List.append_assoc, List.cons_append, List.nil_append]

theorem yielded_extend (yield : Course → Move → List α) (course : Course) (move : Move) :
    yielded yield (course.extend move) = yielded yield course ++ yield course move :=
  gather_concat yield { course with moves := [] } course.moves move

/-- The request for the category at a position that a move makes. -/
def occasion (course : Course) (move : Move) (position : Nat) : Occasion where
  id := course.id
  timings := course.timings
  built := course.built
  start := course.start
  moves := course.moves
  source := move.source
  now := move.now
  position

variable (R) [Scalar R]

/-- The controller as it is in the end. -/
def controller (course : Course) : Controller R :=
  (Controller.build course.id course.timings course.built course.start).run course.moves

/-- The request that a move makes, unless there is no category for it. A move that looks up a
category first makes a request of the controller that has it. -/
def request? (course : Course) (move : Move) : Option Occasion :=
  match move.operation with
  | .requestAt position =>
    if position < (course.controller R).categories.size then some (course.occasion move position)
    else none
  | .request name =>
    some ((course.extend { move with operation := .lookUp name }).occasion move
      ((course.controller R).getCategory move.source move.now name).2)
  | _ => none

/-- The requests of a course, in order. -/
def requests (course : Course) : List Occasion :=
  yielded (fun course move ↦ (course.request? R move).toList) course

/-- The requests for the category at a position, in order. -/
def requestsAt (course : Course) (position : Nat) : List Occasion :=
  (course.requests R).filter (·.position = position)

/-- The times at which the categories were created, by their positions. -/
def creations (course : Course) : List Nat :=
  yielded (fun course move ↦
    if (course.controller R).categories.size < ((course.extend move).controller R).categories.size
    then [move.now] else []) course

theorem controller_extend (course : Course) (move : Move) :
    (course.extend move).controller R = (course.controller R).perform move := by
  simp only [controller, extend, Controller.run, List.foldl_append, List.foldl_cons, List.foldl_nil]

theorem requests_extend (course : Course) (move : Move) :
    (course.extend move).requests R = course.requests R ++ (course.request? R move).toList :=
  yielded_extend ..

theorem creations_extend (course : Course) (move : Move) :
    (course.extend move).creations R = course.creations R ++
      if (course.controller R).categories.size <
        ((course.extend move).controller R).categories.size then [move.now] else [] :=
  yielded_extend ..

variable {R}

/-- The controller when the category that a move is for has been looked up. -/
def opened (course : Course) (move : Move) : Controller R :=
  match move.operation with
  | .lookUp name | .request name =>
    ((course.controller R).getCategory move.source move.now name).1
  | _ => course.controller R

variable {course : Course} {move : Move} {occasion : Occasion} {view : Category R → α}
  {position : Nat}

variable (R) in
theorem indexed (course : Course) : (course.controller R).Indexed := by
  induction course using induction with
  | built id timings source start => exact Controller.indexed_build id timings source start
  | extend course move ih =>
    rw [controller_extend]
    exact Controller.Advances.keep (fun hadvance h ↦ h.advances hadvance)
      (Controller.advances_perform _ move) ih

variable (R) in
theorem id_controller (course : Course) : (course.controller R).id = course.id := by
  induction course using induction with
  | built id timings source start => rfl
  | extend course move ih =>
    rw [controller_extend]
    exact Controller.Advances.keep (fun hadvance h ↦ hadvance.id_eq.trans h)
      (Controller.advances_perform _ move) ih

variable (R) in
/-- A request that a move makes once its category is looked up. -/
structure Makes (course : Course) (move : Move) (occasion : Occasion) : Prop where
  controller : occasion.controller R = course.opened move
  outcome : (occasion.outcome R).controller = (course.extend move).controller R
  known : occasion.Known R
  id : occasion.id = course.id
  timings : occasion.timings = course.timings
  now : occasion.now = move.now

theorem makes_of_request? (h : course.request? R move = some occasion) :
    course.Makes R move occasion := by
  obtain ⟨operation, source, now⟩ := move
  cases operation with
  | requestAt position =>
    have houtcome := controller_extend R course ⟨.requestAt position, source, now⟩
    simp only [request?] at h
    split at h
    · next hlt =>
      cases h
      exact ⟨rfl, houtcome.symm, hlt, rfl, rfl, rfl⟩
    · cases h
  | request name =>
    cases h
    have hopened := controller_extend R course ⟨.lookUp name, source, now⟩
    have houtcome := controller_extend R course ⟨.request name, source, now⟩
    refine ⟨hopened, ?_, ?_, rfl, rfl, rfl⟩
    · refine Eq.trans ?_ houtcome.symm
      exact congrArg (fun controller : Controller R ↦
        (controller.requestAt source now _).controller) hopened
    · have hname := (course.indexed R).names_getCategory source now name
      have hlt := (Array.getElem?_eq_some_iff.mp hname).1
      rw [Controller.size_names] at hlt
      -- The request is made of the controller that the look-up leaves.
      change _ < Array.size (Controller.categories (controller R (extend course _)))
      rw [hopened]
      exact hlt
  | _ => cases h

/-- Without a request a move does nothing to the views once its category is looked up. -/
theorem views_of_request?_eq_none (haside : Category.Aside view)
    (h : course.request? R move = none) :
    ((course.extend move).controller R).views view = (course.opened move).views view := by
  obtain ⟨operation, source, now⟩ := move
  rw [controller_extend]
  cases operation with
  | lookUp name => rfl
  | requestAt position =>
    have hmissing : (course.controller R).categories[position]? = none := by
      rw [Array.getElem?_eq_none_iff]
      by_contra hlt
      simp only [request?, if_pos (Nat.lt_of_not_le hlt), reduceCtorEq] at h
    have hbefore : ((course.controller R).beforeAnswerAt source now position).views view =
        (course.controller R).views view := by
      unfold Controller.beforeAnswerAt
      dsimp only
      rw [Controller.views_sweepIfDue _ fun category totals grantedAt ↦
        haside.abandon category totals .., Controller.countSubmission, Controller.updateCategory,
        Controller.categories_refreshSettings, hmissing]
      exact Controller.views_refreshSettings ..
    have hnone : ((course.controller R).beforeAnswerAt source now position).categories[position]? =
        none := by
      rw [Array.getElem?_eq_none_iff] at hmissing ⊢
      rw [← Controller.size_views view] at hmissing ⊢
      rw [hbefore]
      exact hmissing
    refine (congrArg _ (Controller.controller_requestAt ..)).trans ?_
    rw [Controller.answerAt, hnone]
    exact hbefore
  | request name => cases h
  | release number =>
    exact Controller.views_onLease fun lease ↦ Controller.views_release haside ..
  | drop number => exact Controller.views_onLease fun lease ↦ Controller.views_drop ..
  | forget number => rfl
  | heartbeat number => exact Controller.views_onLease fun lease ↦ rfl
  | supervise number => exact Controller.views_onLease fun lease ↦ rfl
  | reconcile => exact Controller.views_reconcile haside ..
  | refresh => exact Controller.views_refreshSettings ..
  | readSettings => rfl

/-- A move finds its category, or has a new one made. -/
theorem views_opened (course : Course) (move : Move) (view : Category R → α) :
    (course.opened move).views view = (course.controller R).views view ∨
      ∃ name weight, (course.opened move).views view =
        ((course.controller R).views view).push (view (.fresh name weight move.now)) := by
  unfold opened
  split
  iterate 2
    · next name hname =>
      rcases (course.controller R).views_getCategory view move.source move.now name with
        hknown | ⟨weight, hnew⟩
      · exact .inl hknown
      · exact .inr ⟨name, weight, hnew⟩
  · exact .inl rfl

/-! ### What follows from the requests -/

/-- What is to be seen of a category, by when it was created and which requests for it there were,
follows a rule when its creation and every request do. -/
structure Follows (timings : Timings) (view : Category R → α)
    (motive : Nat → List Occasion → α → Prop) : Prop where
  fresh : ∀ name weight now, motive now [] (view (.fresh name weight now))
  request : ∀ {created : Nat} {requests : List Occasion} {occasion : Occasion}
    {before asked : Category R} {totals : Totals R}, occasion.timings = timings →
      (occasion.plain R).categories[occasion.position]? = some asked →
      view asked =
        view (before.recordSubmission totals occasion.now timings.popularityWindow).1 →
      motive created requests (view before) →
      motive created (requests ++ [occasion]) (view ((occasion.plain R).answered occasion.source
        (occasion.settings R) occasion.now asked))

/-- All categories follow a rule, by the creations and the requests so far. -/
structure Tracks (view : Category R → α) (motive : Nat → List Occasion → α → Prop)
    (controller : Controller R) (creations : List Nat) (requests : List Occasion) : Prop where
  size : creations.length = controller.categories.size
  known : ∀ occasion ∈ requests, occasion.position < controller.categories.size
  follows : ∀ {position : Nat} {seen : α}, (controller.views view)[position]? = some seen →
    ∃ created, creations[position]? = some created ∧
      motive created (requests.filter (·.position = position)) seen

variable {motive : Nat → List Occasion → α → Prop} {controller changed : Controller R}
  {creations : List Nat} {requests : List Occasion} {timings : Timings}

omit [Scalar R] in
theorem Tracks.congr (h : Tracks view motive controller creations requests)
    (hviews : changed.views view = controller.views view) :
    Tracks view motive changed creations requests := by
  have hsize := Controller.size_of_views hviews
  refine ⟨h.size.trans hsize.symm, ?_, ?_⟩
  · rw [hsize]
    exact h.known
  · rw [hviews]
    exact h.follows

/-- A new category has the last position, for which there was no request so far. -/
theorem Tracks.create (h : Tracks view motive controller creations requests)
    (hfollows : Follows timings view motive) {name : String} {weight now : Nat}
    (hviews : changed.views view = (controller.views view).push (view (.fresh name weight now))) :
    Tracks view motive changed (creations ++ [now]) requests := by
  have hsize := Controller.size_of_views_push hviews
  constructor
  case size => rw [List.length_append, List.length_singleton, h.size, hsize]
  case known =>
    intro occasion hmem
    rw [hsize]
    exact Nat.lt_succ_of_lt (h.known occasion hmem)
  case follows =>
    intro position seen hseen
    rw [hviews, Array.getElem?_push, Controller.size_views] at hseen
    split at hseen
    · next hlast =>
      obtain rfl := Option.some.inj hseen
      have hnone : requests.filter (·.position = position) = [] := by
        rw [List.filter_eq_nil_iff]
        intro occasion hmem
        have hlt := h.known occasion hmem
        simp only [decide_eq_true_eq]
        omega
      refine ⟨now, ?_, ?_⟩
      · rw [hlast, ← h.size, List.getElem?_concat_length]
      · rw [hnone]
        exact hfollows.fresh name weight now
    · obtain ⟨created, hcreated, hmotive⟩ := h.follows hseen
      have hlt : position < creations.length := (List.getElem?_eq_some_iff.mp hcreated).1
      exact ⟨created, (List.getElem?_append_left hlt).trans hcreated, hmotive⟩

/-- A request adds itself to those for its category and leaves the other categories alone. -/
theorem Tracks.request (h : Tracks view motive (occasion.controller R) creations requests)
    (hfollows : Follows timings view motive) (haside : Category.Aside view)
    (htimings : occasion.timings = timings) (hknown : occasion.Known R) :
    Tracks view motive (occasion.outcome R).controller creations (requests ++ [occasion]) := by
  obtain ⟨before, asked, hbefore, hasked, hseen, hafter⟩ := Occasion.exists_answered haside hknown
  rw [htimings] at hseen
  have hsize := Controller.size_of_views_replace hafter
  constructor
  case size => rw [h.size, hsize]
  case known =>
    rw [hsize]
    simp only [List.forall_mem_append, List.forall_mem_singleton]
    exact ⟨h.known, hknown⟩
  case follows =>
    intro position seen hposition
    have hplace : occasion.position < ((occasion.controller R).views view).size := by
      rw [Controller.size_views]
      exact hknown
    rw [List.filter_append]
    by_cases hsame : occasion.position = position
    · subst hsame
      rw [hafter, Array.getElem?_setIfInBounds_self_of_lt hplace] at hposition
      obtain rfl := Option.some.inj hposition
      obtain ⟨created, hcreated, hmotive⟩ := h.follows (Controller.getElem?_views view hbefore)
      refine ⟨created, hcreated, ?_⟩
      rw [List.filter_singleton, decide_eq_true rfl]
      exact hfollows.request htimings hasked hseen hmotive
    · rw [hafter, Array.getElem?_setIfInBounds_ne hsame] at hposition
      obtain ⟨created, hcreated, hmotive⟩ := h.follows hposition
      refine ⟨created, hcreated, ?_⟩
      rw [List.filter_singleton, decide_eq_false hsame]
      exact (List.append_nil _).symm ▸ hmotive

/-- A move creates no other category than the one that it looks up. -/
theorem size_extend (course : Course) (move : Move) :
    ((course.extend move).controller R).categories.size =
      (course.opened move : Controller R).categories.size := by
  have haside : Category.Aside (R := R) (·.name) :=
    ⟨Category.name_finish, Category.name_abandon⟩
  rcases hrequest : course.request? R move with _ | occasion
  · exact Controller.size_of_views (views_of_request?_eq_none haside hrequest)
  · have hmakes := makes_of_request? hrequest
    obtain ⟨before, asked, -, -, -, hafter⟩ := Occasion.exists_answered haside hmakes.known
    rw [← hmakes.controller, ← hmakes.outcome]
    exact Controller.size_of_views_replace hafter

/-- Looking up a category creates it if it is not there. -/
theorem Tracks.opened
    (h : Tracks view motive (course.controller R) (course.creations R) (course.requests R))
    (hfollows : Follows timings view motive) (move : Move) :
    Tracks view motive (course.opened move) ((course.extend move).creations R)
      (course.requests R) := by
  rw [creations_extend, size_extend]
  rcases course.views_opened move view with hsame | ⟨name, weight, hnew⟩
  · rw [Controller.size_of_views hsame, if_neg (Nat.lt_irrefl _), List.append_nil]
    exact h.congr hsame
  · rw [Controller.size_of_views_push hnew, if_pos (Nat.lt_succ_self _)]
    exact h.create hfollows hnew

/-- A rule that creation and requests follow holds of every category at the end of a course, by the
time of its creation and the requests for it. -/
theorem tracks (course : Course) (haside : Category.Aside view)
    (hfollows : Follows course.timings view motive) :
    Tracks view motive (course.controller R) (course.creations R) (course.requests R) := by
  induction course using induction with
  | built id timings source start =>
    refine ⟨rfl, fun occasion hmem ↦ absurd hmem List.not_mem_nil, fun hseen ↦ ?_⟩
    simp [Controller.views, controller, Controller.run, Controller.build] at hseen
  | extend course move ih =>
    have hopened := (ih hfollows).opened hfollows move
    rw [requests_extend]
    rcases hrequest : course.request? R move with _ | occasion
    · rw [Option.toList_none, List.append_nil]
      exact hopened.congr (views_of_request?_eq_none haside hrequest)
    · have hmakes := makes_of_request? hrequest
      rw [← hmakes.controller] at hopened
      rw [← hmakes.outcome, Option.toList_some]
      exact hopened.request hfollows haside hmakes.timings hmakes.known

/-- What is to be seen of a category follows from its creation and the requests for it. -/
theorem tracked (course : Course) (haside : Category.Aside view)
    (hfollows : Follows course.timings view motive) {category : Category R}
    (hcategory : (course.controller R).categories[position]? = some category) :
    ∃ created, (course.creations R)[position]? = some created ∧
      motive created (course.requestsAt R position) (view category) :=
  (course.tracks haside hfollows).follows (Controller.getElem?_views view hcategory)

end Course

end Admission
