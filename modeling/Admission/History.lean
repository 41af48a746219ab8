/-!
# The latest values of a series

A `History` keeps the last `History.capacity` values of a series together with their sum. The sum is
carried along rather than added up again: a new value is added before the oldest one, if there are
too many, is taken off.

Main statements: `items_pushAll` says that the values kept are the last ones of the whole series,
and `sum_push` that the sum carried along is the sum of the values kept.
-/

set_option autoImplicit false
set_option relaxedAutoImplicit false

namespace Admission

/-- The latest values of a series, oldest first, and their sum. -/
structure History where
  items : List Nat := []
  sum : Nat := 0
deriving DecidableEq

namespace History

instance : Inhabited History := ⟨{}⟩

/-- How many values are kept. -/
def capacity : Nat := 50

/-- The number of values kept. -/
def length (history : History) : Nat := history.items.length

/-- Adds a value at the end. -/
def append (history : History) (value : Nat) : History :=
  ⟨history.items ++ [value], history.sum + value⟩

/-- Takes the oldest value off when there are too many. -/
def trim (history : History) : History :=
  match history.items with
  | [] => history
  | oldest :: kept =>
    if capacity < history.length then ⟨kept, history.sum - oldest⟩ else history

/-- Adds a value to the series. -/
def push (history : History) (value : Nat) : History := (history.append value).trim

/-- Adds values to the series one after another. -/
def pushAll (history : History) (values : List Nat) : History := values.foldl push history

/-- The sum carried along is the sum of the values kept. -/
def Summed (history : History) : Prop := history.sum = history.items.foldr (· + ·) 0

theorem foldr_add_append (values : List Nat) (value : Nat) :
    (values ++ [value]).foldr (· + ·) 0 = values.foldr (· + ·) 0 + value := by
  induction values with
  | nil => simp
  | cons first rest ih => simp only [List.cons_append, List.foldr_cons, ih]; omega

theorem summed_append {history : History} (h : history.Summed) (value : Nat) :
    (history.append value).Summed := by
  rw [Summed, append, foldr_add_append, ← h]

theorem summed_trim {history : History} (h : history.Summed) : history.trim.Summed := by
  unfold trim
  split
  · exact h
  · next oldest kept heq =>
    split
    · simp only [Summed, heq, List.foldr_cons] at h ⊢; omega
    · exact h

theorem sum_push {history : History} (h : history.Summed) (value : Nat) :
    (history.push value).Summed :=
  summed_trim (summed_append h value)

/-- The last `capacity` values of a list. -/
def latest (values : List Nat) : List Nat := values.drop (values.length - capacity)

theorem length_latest_le (values : List Nat) : (latest values).length ≤ capacity := by
  simp only [latest, List.length_drop]; omega

theorem latest_latest_append (series : List Nat) (value : Nat) :
    latest (latest series ++ [value]) = latest (series ++ [value]) := by
  simp only [latest, List.length_append, List.length_drop, List.length_cons, List.length_nil]
  have hsplit : (series ++ [value]).drop (series.length - capacity) =
      series.drop (series.length - capacity) ++ [value] :=
    List.drop_append_of_le_length (Nat.sub_le series.length capacity)
  rw [← hsplit, List.drop_drop]
  congr 1
  omega

theorem items_trim {history : History} (h : history.length ≤ capacity + 1) :
    history.trim.items = latest history.items := by
  unfold trim
  split
  · next heq => simp [heq, latest]
  · next oldest kept heq =>
    split
    · next hlong =>
      have hone : history.items.length - capacity = 1 := by unfold length at h hlong; omega
      rw [latest, hone, heq]; rfl
    · next hshort =>
      have hzero : history.items.length - capacity = 0 := by unfold length at hshort; omega
      rw [latest, hzero, List.drop_zero]

theorem items_push {history : History} {series : List Nat} (h : history.items = latest series)
    (value : Nat) : (history.push value).items = latest (series ++ [value]) := by
  have hbound : (history.append value).length ≤ capacity + 1 := by
    have := length_latest_le series
    simp only [append, length, h, List.length_append, List.length_cons, List.length_nil]; omega
  rw [push, items_trim hbound, append, h, latest_latest_append]

theorem items_pushAll {history : History} {series : List Nat} (h : history.items = latest series) :
    ∀ values : List Nat, (history.pushAll values).items = latest (series ++ values)
  | [] => by simpa [pushAll] using h
  | value :: values => by
    have hstep := items_pushAll (items_push h value) values
    simpa [pushAll] using hstep

end History

end Admission
