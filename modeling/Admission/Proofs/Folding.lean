import Admission.Proofs.Course
import Admission.Proofs.Windows

/-!
# Popularity by all submissions so far

A popularity is carried along: a submission changes the counter of the open window and, if that
window closes, the latest samples and their sum. `Popularity.Folds` says what comes of it in terms
of all submissions so far, by the windows they fall into: the samples kept are the last of all
samples, silent windows included, however many there are, and every submission is counted once. It
is true of every series of submissions, and of every category whatever else is asked of its
controller, which has counted as many submissions as it has granted and refused
(`Course.folds_submissions`).
-/

set_option autoImplicit false
set_option relaxedAutoImplicit false

namespace Admission

variable {R : Type} [Scalar R]

namespace Popularity

/-- The popularity after submissions at certain times, by the windows that they fall into. -/
structure Folds (popularity : Popularity R) (width began : Nat) (times : List Nat) : Prop where
  items : popularity.samples.items = History.latest (Windows.recordAll width began times).samples
  sum : popularity.samples.sum = (History.latest (Windows.recordAll width began times).samples).sum
  value : popularity.value =
    if (Windows.recordAll width began times).samples = [] then Scalar.zero
    else Scalar.mean (History.latest (Windows.recordAll width began times).samples).sum
      (History.latest (Windows.recordAll width began times).samples).length
  pending : popularity.pending = (Windows.recordAll width began times).current.length
  openedAt : popularity.openedAt = (Windows.recordAll width began times).openedAt
  counted : (Windows.recordAll width began times).samples.sum + popularity.pending = times.length

/-- The counter of a window never stops when there are not too many submissions. -/
theorem folds_recordAll (width began : Nat) {times : List Nat} (h : times.length ≤ maxPending) :
    (recordAll width began times : Popularity R).Folds width began times := by
  have hshows := shows_recordAll (R := R) width began times
  have hcurrent : (Windows.recordAll width began times).current.length ≤ times.length := by
    rw [← Windows.sum_samples width began times]
    exact Nat.le_add_left ..
  have hclosed : (Windows.recordAll width began times).closed.map counted =
      (Windows.recordAll width began times).samples := by
    refine List.map_congr_left fun window hmem ↦ counted_of_le ?_
    exact (Windows.isInfix_of_mem hmem).length_le.trans h
  have hpending := hshows.pending.trans (counted_of_le (hcurrent.trans h))
  have hitems := hshows.items
  rw [hclosed] at hitems
  have hsum := hshows.sum
  rw [hitems] at hsum
  constructor
  case items => exact hitems
  case sum => exact hsum
  case value =>
    rw [hshows.value, hsum, History.length, hitems]
    simp only [Windows.samples, List.map_eq_nil_iff]
  case pending => exact hpending
  case openedAt => exact hshows.openedAt
  case counted =>
    rw [hpending]
    exact Windows.sum_samples width began times

end Popularity

/-! ### Submissions to a category -/

/-- What a category keeps of the requests for it: its popularity, and how many were decided. -/
structure Demand (R : Type) where
  popularity : Popularity R
  decided : Nat

namespace Category

/-- The side of a category that the requests for it belong to. -/
def demand (category : Category R) : Demand R :=
  ⟨category.popularity, category.admitted + category.rejected⟩

theorem demand_aside : Aside (R := R) demand where
  finish _ _ _ _ _ := view_deactivateOne demand (fun _ _ _ ↦ rfl) ..
  abandon _ _ _ _ _ := view_deactivateOne demand (fun _ _ _ ↦ rfl) ..

theorem demand_decide (category : Category R) (totals : Totals R) (now weight : Nat)
    (timings : Timings) (settings : ControllerSettings) :
    (category.decide totals now weight timings settings).category.demand = category.demand := by
  have hweigh : (category.refreshWeight totals now weight timings settings).1.demand =
      category.demand := by
    unfold refreshWeight
    split <;> rfl
  exact (view_samplePeak demand (fun _ _ _ ↦ rfl) ..).trans hweigh

/-- A category and the totals after submissions at certain times. -/
def recordAll (width : Nat) (times : List Nat) (category : Category R) (totals : Totals R) :
    Category R × Totals R :=
  times.foldl (fun state now ↦ state.1.recordSubmission state.2 now width) (category, totals)

theorem popularity_recordAll (width : Nat) (times : List Nat) (name : String) (weight began : Nat)
    (totals : Totals R) :
    (recordAll width times (.fresh name weight began) totals).1.popularity =
      .recordAll width began times := by
  induction times using List.reverseRecOn with
  | nil => rfl
  | append_singleton times now ih =>
    rw [Popularity.recordAll_concat, ← ih, recordAll, List.foldl_append]
    rfl

end Category

namespace Controller

theorem demand_answered (plain : Controller R) (source : Source) (settings : ControllerSettings)
    (now : Nat) (asked : Category R) :
    (plain.answered source settings now asked).demand =
      { asked.demand with decided := asked.demand.decided + 1 } := by
  have hdecide : (plain.decideFor source settings now asked).category.demand = asked.demand :=
    asked.demand_decide ..
  have hpopularity := congrArg Demand.popularity hdecide
  have hdecided := congrArg Demand.decided hdecide
  unfold answered
  dsimp only
  split
  · rw [← hdecide]
    simp only [Category.demand, Category.grant, Demand.mk.injEq, true_and]
    omega
  · rw [← hdecide]
    simp only [Category.demand, Category.reject, Demand.mk.injEq, true_and]
    omega

end Controller

namespace Course

/-- The demand for a category goes by the requests for it. -/
theorem demand_follows (timings : Timings) :
    Follows (R := R) timings Category.demand fun created requests demand ↦
      demand = ⟨.recordAll timings.popularityWindow created (requests.map (·.now)),
        requests.length⟩ where
  fresh name weight now := rfl
  request htimings hasked hseen hbefore := by
    rw [Controller.demand_answered, hseen, List.map_append, List.map_singleton,
      Popularity.recordAll_concat, List.length_append, List.length_singleton]
    have hpopularity := congrArg Demand.popularity hbefore
    have hdecided := congrArg Demand.decided hbefore
    dsimp only at hpopularity hdecided
    rw [← hpopularity, ← hdecided]
    rfl

/-- The popularity of a category is what its submissions make of it, however the windows without
any lie between them. After fewer submissions than the counter of a window can show, the samples
kept are the last of all samples, with a zero for every silent window; the popularity is their mean,
zero until a window closes; and the samples and the open window together count every submission
once. So it is of every series of submissions, and in every course of every category, which then has
granted or refused each of them. -/
theorem folds_submissions (R : Type) [Scalar R] :
    (∀ (name : String) (weight began width : Nat) (totals : Totals R) (times : List Nat),
      times.length < 2 ^ 32 →
        (Category.recordAll width times (.fresh name weight began) totals).1.popularity.Folds width
          began times) ∧
    ∀ (course : Course) (position : Nat) (category : Category R),
      (course.controller R).categories[position]? = some category →
        category.admitted + category.rejected = (course.requestsAt R position).length ∧
          ∃ created, (course.creations R)[position]? = some created ∧
            ((course.requestsAt R position).length < 2 ^ 32 →
              category.popularity.Folds course.timings.popularityWindow created
                ((course.requestsAt R position).map (·.now))) := by
  refine ⟨?_, ?_⟩
  · intro name weight began width totals times hfew
    rw [Category.popularity_recordAll]
    exact Popularity.folds_recordAll width began (Nat.le_of_lt_succ hfew)
  · intro course position category hcategory
    obtain ⟨created, hcreated, hdemand⟩ :=
      course.tracked Category.demand_aside (demand_follows course.timings) hcategory
    have hpopularity : category.popularity = _ := congrArg Demand.popularity hdemand
    refine ⟨congrArg Demand.decided hdemand, created, hcreated, fun hfew ↦ ?_⟩
    rw [hpopularity]
    apply Popularity.folds_recordAll
    rw [List.length_map]
    exact Nat.le_of_lt_succ hfew

/-- Such submissions: after the second window there are eighty-three silent ones, which leave
nothing of it, and of three requests one is granted and two are refused. -/
theorem folds_submissions_after_silence :
    let times := [100, 5400, 90000]
    (Category.recordAll 1000 times (.fresh "a" 1 0 : Category Rat) .start).1.popularity.Folds
        1000 0 times ∧
      (Windows.recordAll 1000 0 times).samples.length = 89 ∧
      (History.latest (Windows.recordAll 1000 0 times).samples).sum = 1 ∧
      ∃ (course : Course) (category : Category Rat),
        (course.controller Rat).categories[0]? = some category ∧
          (course.requestsAt Rat 0).map (·.now) = times ∧
          (category.admitted, category.rejected) = (1, 2) ∧
          category.admitted + category.rejected = (course.requestsAt Rat 0).length ∧
          category.popularity.Folds 1000 0 times := by
  intro times
  let source : Source := ⟨fun _ ↦ ⟨1, { threshold := 1 }⟩, fun _ _ ↦ none⟩
  let course : Course :=
    { id := "main"
      timings := {}
      built := source
      start := 0
      moves := [⟨.lookUp "a", source, 0⟩, ⟨.request "a", source, 100⟩,
        ⟨.requestAt 0, source, 5400⟩, ⟨.requestAt 0, source, 90000⟩] }
  have htimes : (course.requestsAt Rat 0).map (·.now) = times := by decide +kernel
  have hfew : (course.requestsAt Rat 0).length < 2 ^ 32 := by decide +kernel
  have hcreations : (course.creations Rat)[0]? = some 0 := by decide +kernel
  have hsome : ((course.controller Rat).categories[0]?).isSome = true := by decide +kernel
  have hdecided : ∀ category ∈ (course.controller Rat).categories[0]?,
      (category.admitted, category.rejected) = (1, 2) := by
    decide +kernel
  obtain ⟨category, hcategory⟩ := Option.isSome_iff_exists.mp hsome
  obtain ⟨hcount, created, hcreated, hfolds⟩ :=
    (folds_submissions Rat).2 course 0 category hcategory
  obtain rfl : created = 0 := Option.some.inj (hcreated.symm.trans hcreations)
  have hpopularity := hfolds hfew
  rw [htimes] at hpopularity
  exact ⟨(folds_submissions Rat).1 "a" 1 0 1000 .start times (by decide), by decide +kernel,
    by decide +kernel, course, category, hcategory, htimes, hdecided category hcategory, hcount,
    hpopularity⟩

end Course

end Admission
