import Admission.History
import Admission.Scalar

/-!
# How often a category is asked for

Submissions are counted in windows of time. When a submission comes a whole window or more after the
present one began, the window closes: its count becomes a sample, after one zero for every whole
window that passed without a submission. The popularity of a category is the mean of its latest
samples.

Only as many zeros are added as a history can hold, which leaves the same latest samples as adding
all of them.
-/

set_option autoImplicit false
set_option relaxedAutoImplicit false

namespace Admission

/-- The submissions of a category over time. -/
structure Popularity (R : Type) where
  /-- The mean of the samples when the last window closed. -/
  value : R
  samples : History
  /-- The submissions of the window that is open. -/
  pending : Nat
  /-- When the open window began. -/
  openedAt : Nat

namespace Popularity

variable {R : Type} [Scalar R]

/-- No submissions yet. -/
def start (now : Nat) : Popularity R := ⟨Scalar.zero, {}, 0, now⟩

/-- The counter of the open window stops at this number. -/
def maxPending : Nat := 0xFFFFFFFF

/-- The windows without submissions between the open one and the present, as far as they matter. -/
def silentWindows (elapsed width : Nat) : Nat := min (elapsed / width - 1) History.capacity

/-- The samples after closing a window of the given count. -/
def closeWindow (samples : History) (silent count : Nat) : History :=
  (samples.pushAll (List.replicate silent 0)).push count

/-- Counts a submission, and closes the open window if it has lasted long enough. A width of zero
counts as one. -/
def record (popularity : Popularity R) (now width : Nat) : Popularity R :=
  let width := max width 1
  let count := min (popularity.pending + 1) maxPending
  let elapsed := now - popularity.openedAt
  if elapsed < width then { popularity with pending := count }
  else
    let samples := closeWindow popularity.samples (silentWindows elapsed width) count
    { value := Scalar.mean samples.sum samples.length, samples, pending := 0, openedAt := now }

end Popularity

end Admission
