import Admission.Category
import Mathlib.Algebra.BigOperators.Group.List.Basic
import Mathlib.Algebra.Ring.Nat
import Mathlib.Data.List.Induction

/-!
# All windows that submissions fall into

A popularity keeps counts of the latest windows. `Windows` forgets nothing: it keeps every window
that was ever closed, with the times of the submissions that it counts, and adds a window without
submissions for every width of silence, however many that are. Every submission is in one window
(`Windows.flatten_recordAll`), and what a popularity shows are the last of these windows, each by
the number of its submissions (`Popularity.shows_recordAll`). That only so many silent windows are
added to a popularity makes no difference, because more would push each other out of the history
(`History.latest_capped`).
-/

set_option autoImplicit false
set_option relaxedAutoImplicit false

namespace Admission

/-! ### The last values of a series -/

namespace History

/-- What comes before as many values as are kept is not kept. -/
theorem latest_append_of_le {values : List Nat} (h : capacity ≤ values.length)
    (series : List Nat) : latest (series ++ values) = latest values := by
  have hlength : (series ++ values).length - capacity =
      series.length + (values.length - capacity) := by
    rw [List.length_append]
    omega
  rw [latest, hlength, List.drop_length_add_append, latest]

/-- More equal values than are kept, with one value after them, leave the same as just as many. -/
theorem latest_capped (series : List Nat) (count value last : Nat) :
    latest (series ++ List.replicate (min count capacity) value ++ [last]) =
      latest (series ++ List.replicate count value ++ [last]) := by
  rcases Nat.le_total count capacity with hfew | hmany
  · rw [Nat.min_eq_left hfew]
  · have hlong : capacity ≤ (List.replicate capacity value ++ [last]).length := by
      rw [List.length_append, List.length_replicate]
      exact Nat.le_add_right ..
    have hsplit : List.replicate count value =
        List.replicate (count - capacity) value ++ List.replicate capacity value := by
      rw [List.replicate_append_replicate, Nat.sub_add_cancel hmany]
    rw [Nat.min_eq_right hmany, hsplit, List.append_assoc series, List.append_assoc series,
      List.append_assoc (List.replicate _ value), latest_append_of_le hlong,
      ← List.append_assoc series, latest_append_of_le hlong]

end History

/-! ### Windows -/

/-- The submissions of a category, window by window. -/
structure Windows where
  /-- The windows closed so far, oldest first, each with the times of its submissions. -/
  closed : List (List Nat)
  /-- The submissions of the open window. -/
  current : List Nat
  /-- When the open window began. -/
  openedAt : Nat

namespace Windows

/-- No submissions yet. -/
def start (now : Nat) : Windows := ⟨[], [], now⟩

/-- Notes a submission, and closes the open window if it has lasted long enough. Whole widths that
went by since the window should have been closed are windows of their own, and come before it. -/
def record (width : Nat) (windows : Windows) (now : Nat) : Windows :=
  let width := max width 1
  let elapsed := now - windows.openedAt
  if elapsed < width then { windows with current := windows.current ++ [now] }
  else
    { closed := windows.closed ++ List.replicate (elapsed / width - 1) [] ++
        [windows.current ++ [now]]
      current := []
      openedAt := now }

/-- The windows after submissions at certain times. -/
def recordAll (width began : Nat) (times : List Nat) : Windows :=
  times.foldl (record width) (start began)

/-- How many submissions each closed window counts. -/
def samples (windows : Windows) : List Nat := windows.closed.map List.length

variable {width began now : Nat} {times : List Nat} {windows : Windows}

@[simp] theorem recordAll_nil (width began : Nat) : recordAll width began [] = start began := rfl

theorem recordAll_concat (width began : Nat) (times : List Nat) (now : Nat) :
    recordAll width began (times ++ [now]) = record width (recordAll width began times) now := by
  rw [recordAll, List.foldl_append]
  rfl

theorem record_of_lt (h : now - windows.openedAt < max width 1) :
    record width windows now = { windows with current := windows.current ++ [now] } :=
  if_pos h

theorem record_of_le (h : max width 1 ≤ now - windows.openedAt) :
    record width windows now =
      { closed := windows.closed ++
          List.replicate ((now - windows.openedAt) / max width 1 - 1) [] ++
            [windows.current ++ [now]]
        current := []
        openedAt := now } :=
  if_neg (Nat.not_lt.mpr h)

/-- Every submission is in one window, and the windows are in order. -/
theorem flatten_recordAll (width began : Nat) (times : List Nat) :
    (recordAll width began times).closed.flatten ++ (recordAll width began times).current =
      times := by
  induction times using List.reverseRecOn with
  | nil => rfl
  | append_singleton times now ih =>
    rw [recordAll_concat]
    by_cases hyoung : now - (recordAll width began times).openedAt < max width 1
    · rw [record_of_lt hyoung]
      dsimp only
      rw [← List.append_assoc, ih]
    · rw [record_of_le (Nat.not_lt.mp hyoung)]
      dsimp only
      rw [List.flatten_append, List.flatten_append, List.flatten_replicate_nil, List.append_nil,
        List.flatten_singleton, List.append_nil, ← List.append_assoc, ih]

theorem sum_samples (width began : Nat) (times : List Nat) :
    (recordAll width began times).samples.sum + (recordAll width began times).current.length =
      times.length := by
  have hlength := congrArg List.length (flatten_recordAll width began times)
  rw [List.length_append, List.length_flatten] at hlength
  exact hlength

/-- The submissions of a closed window stand side by side. -/
theorem isInfix_of_mem {window : List Nat} (h : window ∈ (recordAll width began times).closed) :
    window <:+: times := by
  obtain ⟨before, after, hsplit⟩ := List.append_of_mem h
  have hflatten := flatten_recordAll width began times
  rw [hsplit, List.flatten_append, List.flatten_cons] at hflatten
  refine ⟨before.flatten, after.flatten ++ (recordAll width began times).current, ?_⟩
  simpa only [List.append_assoc] using hflatten

end Windows

/-! ### What a popularity shows of the windows -/

namespace Popularity

variable {R : Type} [Scalar R]

/-- The popularity after submissions at certain times. -/
def recordAll (width began : Nat) (times : List Nat) : Popularity R :=
  times.foldl (fun popularity now ↦ popularity.record now width) (start began)

variable (R) in
theorem recordAll_concat (width began : Nat) (times : List Nat) (now : Nat) :
    (recordAll width began (times ++ [now]) : Popularity R) =
      (recordAll width began times).record now width := by
  rw [recordAll, List.foldl_append]
  rfl

/-- How many submissions a window is taken to have, which is no more than the counter can show. -/
def counted (window : List Nat) : Nat := min window.length maxPending

theorem counted_of_le {window : List Nat} (h : window.length ≤ maxPending) :
    counted window = window.length :=
  Nat.min_eq_left h

theorem counted_concat (window : List Nat) (now : Nat) :
    counted (window ++ [now]) = min (counted window + 1) maxPending := by
  simp only [counted, List.length_append, List.length_singleton]
  omega

/-- The samples are the counts of the last windows, and the value is their mean. -/
structure Shows (popularity : Popularity R) (windows : Windows) : Prop where
  items : popularity.samples.items = History.latest (windows.closed.map counted)
  sum : popularity.samples.sum = popularity.samples.items.sum
  value : popularity.value =
    if windows.closed = [] then Scalar.zero
    else Scalar.mean popularity.samples.sum popularity.samples.length
  pending : popularity.pending = counted windows.current
  openedAt : popularity.openedAt = windows.openedAt

theorem items_closeWindow {samples : History} {series : List Nat}
    (h : samples.items = History.latest series) (silent count : Nat) :
    (closeWindow samples (min silent History.capacity) count).items =
      History.latest (series ++ List.replicate silent 0 ++ [count]) := by
  rw [closeWindow, History.items_push (History.items_pushAll h _), History.latest_capped]

theorem summed_pushAll {samples : History} (h : samples.Summed) (values : List Nat) :
    (samples.pushAll values).Summed := by
  induction values generalizing samples with
  | nil => exact h
  | cons value rest ih => exact ih (History.sum_push h value)

theorem Shows.record {popularity : Popularity R} {windows : Windows} (h : popularity.Shows windows)
    (now width : Nat) :
    (popularity.record now width).Shows (Windows.record width windows now) := by
  have hopened := h.openedAt
  have hcount : min (popularity.pending + 1) maxPending = counted (windows.current ++ [now]) := by
    rw [h.pending, counted_concat]
  by_cases hyoung : now - windows.openedAt < max width 1
  · rw [Windows.record_of_lt hyoung, Popularity.record, hopened, if_pos hyoung]
    exact ⟨h.items, h.sum, h.value, hcount, rfl⟩
  · have hold := Nat.not_lt.mp hyoung
    rw [Windows.record_of_le hold, Popularity.record, hopened, if_neg hyoung]
    constructor
    case items =>
      dsimp only
      rw [silentWindows, items_closeWindow h.items, hcount, List.map_append, List.map_append,
        List.map_replicate, List.map_singleton]
      rfl
    case sum =>
      have hsummed : popularity.samples.Summed := h.sum
      exact History.sum_push (summed_pushAll hsummed _) _
    case value =>
      rw [if_neg (by simp)]
    case pending => rfl
    case openedAt => rfl

/-- A popularity shows the windows of all submissions so far. -/
theorem shows_recordAll (width began : Nat) (times : List Nat) :
    (recordAll width began times : Popularity R).Shows (Windows.recordAll width began times) := by
  induction times using List.reverseRecOn with
  | nil => exact ⟨rfl, rfl, rfl, rfl, rfl⟩
  | append_singleton times now ih =>
    rw [recordAll_concat, Windows.recordAll_concat]
    exact ih.record now width

end Popularity

end Admission
